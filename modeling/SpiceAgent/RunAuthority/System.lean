import SpiceAgent.RunAuthority.Lease
import SpiceAgent.Lib.Transition
import Mathlib.Data.Finset.Basic

/-!
# Any number of stores over one directory

The calls of `Start` and `PrepareImport` and the values that they return are the parties of the
system; they share the record files and the locks of the runs. One step is a critical section of a
store's mutex, one operation on the directory, or a method of a value up to its write (see `Lease`).
Closing the lock and marking the value as closed are one step: the method holds the mutex of the
value from before the one until after the other, and the mutex guards every look at the value.

The lock of a run is exclusive, and a crash releases it. A handle whose closing fails may keep the
lock until its process ends. A crash ends one store with its values; the crash of a process is one
such step for each of its stores.

`log` keeps the installed writes to each record file and `ambiguous` the parties whose writer was
invoked and failed, with their stores and runs; no step reads them.
-/

namespace SpiceAgent.RunAuthority

open SpiceAgent.Lib
open Function (update)

variable {M : Type*} [DecidableEq M]

/-- The part of a `Store` that changes. -/
structure Store where
  uncertain : Finset String
  leases : ℕ
  closing : Bool
  closed : Bool
  crashed : Bool

namespace Store

/-- A store that `Open` returns. -/
def opened : Store :=
  { uncertain := ∅, leases := 0, closing := false, closed := false, crashed := false }

variable (store : Store)

def close : Store :=
  if store.closed then store
  else { store with closing := true, closed := store.leases == 0 }

/-- `beginLease`, unless the store is closed. -/
def beginLease : Option Store :=
  if store.closing || store.closed then none else some { store with leases := store.leases + 1 }

def endLease : Store :=
  if store.leases == 0 then store
  else
    let leases := store.leases - 1
    { store with leases, closed := store.closed || (leases == 0 && store.closing) }

def markUncertain (runID : String) : Store :=
  { store with uncertain := insert runID store.uncertain }

end Store

/-- A call of `Start` or `PrepareImport`. -/
inductive Request (M : Type*)
  | start
  | prepareImport (snapshot : Envelope M)

/-- Where a call stands. -/
inductive CallPhase
  /-- It has begun a lease. -/
  | entered
  /-- The run is not uncertain. -/
  | checked
  /-- It has the lock. -/
  | locked
  /-- There is no record yet. -/
  | absent
  /-- It closes the lock. -/
  | dropping (err : AuthorityError)
  | marking
  /-- It ends the lease. -/
  | releasing (err : AuthorityError)

/-- What the running method of a value still has to do. -/
inductive After
  | idle
  | marking
  | finishing
  /-- It ends the lease. -/
  | ending

/-- A call or a value. -/
inductive Party (M : Type*)
  | call (store : ℕ) (runID : String) (request : Request M) (phase : CallPhase)
  | active (value : Active M) (after : After)
  | importing (value : Import M) (after : After)
  | failed (store : ℕ) (runID : String) (err : AuthorityError)
  | crashed

def Party.store : Party M → Option ℕ
  | .call store .. => some store
  | .active value _ => some value.store
  | .importing value _ => some value.store
  | .failed .. | .crashed => none

/-- Who has the lock of a run. -/
inductive Owner
  | party (id : ℕ)
  /-- A handle of the store that could not be closed. -/
  | leaked (store : ℕ)

/-- What a record was written for; `claim` is the MAC of the imported snapshot. -/
inductive Cause (M : Type*)
  | start
  | suspend
  | resume
  | terminal
  | consume (claim : M)
  | activate (claim : M)

/-- An installed write; `success` says that the writer reported no error. -/
structure Write (M : Type*) where
  cause : Cause M
  party : ℕ
  success : Bool
  record : Record M

/-- The directory, the stores over it and their parties. -/
structure World (M : Type*) where
  disk : String → Option (Record M)
  log : String → List (Write M)
  ambiguous : List (ℕ × ℕ × String)
  locks : String → Option Owner
  stores : ℕ → Option Store
  parties : ℕ → Option (Party M)

/-- A choice of the environment of one step. -/
structure Choice where
  /-- A lock or a file is not available. -/
  fault : Bool
  ctxDone : Bool
  /-- Closing the lock succeeds. -/
  released : Bool
  outcome : WriteOutcome

/-- A method of a value. -/
inductive Method
  | signSnapshot (input : SnapshotInput)
  | resume
  | terminal (phase : Phase)
  /-- `Active.Close`, `Import.Abort` and `Import.Close`. -/
  | close
  | consume
  /-- The value that `Activate` returns becomes the party `lease`. -/
  | activate (lease : ℕ)

/-- The steps. -/
inductive Label (M : Type*)
  | openStore (store : ℕ)
  | closeStore (store : ℕ)
  | start (id store : ℕ) (runID : String) (ctxDone : Bool)
  | prepareImport (id store : ℕ) (snapshot : Envelope M) (ctxDone : Bool)
  /-- A running call or method goes on. -/
  | go (id : ℕ) (choice : Choice)
  | method (id : ℕ) (method : Method) (choice : Choice)
  | crash (store : ℕ)

namespace World

section

variable (w : World M)

def setParty (id : ℕ) (party : Party M) : World M :=
  { w with parties := update w.parties id (some party) }

def setStore (s : ℕ) (store : Store) : World M :=
  { w with stores := update w.stores s (some store) }

def modifyStore (s : ℕ) (f : Store → Store) : World M :=
  { w with stores := update w.stores s ((w.stores s).map f) }

def install (runID : String) (write : Write M) : World M :=
  { w with
    disk := update w.disk runID (some write.record)
    log := update w.log runID (w.log runID ++ [write]) }

/-- A writer that reports an error has installed the record or not. -/
def attempt (store : ℕ) (runID : String) (write : Write M) (installed : Bool) : World M :=
  { (if installed then w.install runID write else w) with
    ambiguous := (write.party, store, runID) :: w.ambiguous }

/-- A handle of the store on the lock is closed. -/
def closeLock (runID : String) (store : ℕ) (released : Bool) : World M :=
  { w with
    locks := update w.locks runID (if released then none else some (.leaked store)) }

/-- The run is marked as uncertain in the store. -/
def isUncertain (store : ℕ) (runID : String) : Bool :=
  (w.stores store).any fun value => runID ∈ value.uncertain

end

variable (identity : Identity) (mac : String → ℕ → SnapshotInput → M)
  (validEnvelope : Envelope M → Bool) (w : World M) (id : ℕ)

/-- `readRecord` where the file is available: the record, or no file. -/
def readRecord (runID : String) : Except AuthorityError (Option (Record M)) :=
  match w.disk runID with
  | none => .ok none
  | some value =>
    if identity.validateRecord value runID then .ok (some value) else .error .verification

/-- A call passes its checks and `beginLease`, or fails. -/
def enter (id store : ℕ) (runID : String) (request : Request M)
    (refusal : Option AuthorityError) : Option (World M) :=
  match w.parties id, w.stores store with
  | none, some value =>
    if value.crashed then none
    else match refusal with
      | some err => some (w.setParty id (.failed store runID err))
      | none =>
        match value.beginLease with
        | none => some (w.setParty id (.failed store runID .closed))
        | some value =>
          some ((w.setStore store value).setParty id (.call store runID request .entered))
  | _, _ => none

/-- The checks before `beginLease` of `Start`. -/
def startRefusal (runID : String) (ctxDone : Bool) : Option AuthorityError :=
  if ctxDone then some .context
  else if !validateRunID runID then some .configuration
  else none

/-- The checks before `beginLease` of `PrepareImport`. -/
def prepareImportRefusal (snapshot : Envelope M) (ctxDone : Bool) : Option AuthorityError :=
  if ctxDone then some .context
  else if !validEnvelope snapshot || snapshot.lifecycle != .suspended then some .verification
  else none

/-- The record that `PrepareImport` has read admits the snapshot. -/
def admitted (value : Record M) (snapshot : Envelope M) : Bool :=
  identity.matchesSuspended value snapshot && value.runGeneration != 0 &&
    validEnvelope snapshot &&
    identity.verifySnapshot (mac snapshot.runID value.runGeneration) snapshot.input
      snapshot.authority

/-- The `Import` that `PrepareImport` returns. -/
def newImport (store : ℕ) (runID : String) (value : Record M) (snapshot : Envelope M) : Import M :=
  { store, lock := true, runID, sourceRunGeneration := value.runGeneration,
    expectedScope := snapshot.authority.scopeID, expectedMAC := snapshot.authority.hmacSHA256,
    consumed := false, uncertain := false, closed := false }

def readStep (id store : ℕ) (runID : String) (request : Request M) (choice : Choice) : World M :=
  match request with
  | .start =>
    if choice.fault then w.setParty id (.call store runID request (.dropping .unavailable))
    else match w.readRecord identity runID with
      | .ok (some _) => w.setParty id (.call store runID request (.dropping .state))
      | .ok none => w.setParty id (.call store runID request .absent)
      | .error err => w.setParty id (.call store runID request (.dropping err))
  | .prepareImport snapshot =>
    if choice.fault then w.setParty id (.call store runID request (.dropping .verification))
    else match w.readRecord identity runID with
      | .ok (some value) =>
        if choice.ctxDone && identity.matchesSuspended value snapshot then
          w.setParty id (.call store runID request (.dropping .context))
        else if !admitted identity mac validEnvelope value snapshot then
          w.setParty id (.call store runID request (.dropping .verification))
        else w.setParty id (.importing (newImport store runID value snapshot) .idle)
      | _ => w.setParty id (.call store runID request (.dropping .verification))

/-- `Start` writes the first record. -/
def startWrite (id store : ℕ) (runID : String) (outcome : WriteOutcome) : World M :=
  let value := identity.baseRecord runID 1 .active
  match identity.writeRecord runID value outcome with
  | .refused err => w.setParty id (.call store runID .start (.dropping err))
  | .failed installed =>
    (w.attempt store runID ⟨.start, id, false, value⟩ installed).setParty id
      (.call store runID .start (.dropping .uncertain))
  | .written =>
    (w.install runID ⟨.start, id, true, value⟩).setParty id (.active (.new store runID 1) .idle)

def callStep (id store : ℕ) (runID : String) (request : Request M) (phase : CallPhase)
    (choice : Choice) : Option (World M) :=
  let move phase := w.setParty id (.call store runID request phase)
  match phase with
  | .entered => some (move (if w.isUncertain store runID then .releasing .uncertain else .checked))
  | .checked =>
    if choice.fault then some (move (.releasing .unavailable))
    else if (w.locks runID).isSome then some (move (.releasing .busy))
    else
      let w := { w with locks := update w.locks runID (some (.party id)) }
      some (w.setParty id (.call store runID request .locked))
  | .locked => some (w.readStep identity mac validEnvelope id store runID request choice)
  | .absent =>
    match request with
    | .start => some (w.startWrite identity id store runID choice.outcome)
    | .prepareImport _ => none
  | .dropping err =>
    -- only a failed write leads on to `markUncertain`
    let next := if err = .uncertain then .marking else .releasing err
    some ((w.closeLock runID store choice.released).setParty id (.call store runID request next))
  | .marking =>
    let w := w.modifyStore store (·.markUncertain runID)
    some (w.setParty id (.call store runID request (.releasing .uncertain)))
  | .releasing err =>
    some ((w.modifyStore store (·.endLease)).setParty id (.failed store runID err))

/-- `active.finish` closes the lock. -/
def closed (value : Active M) (released : Bool) : Active M :=
  { value with
    lock := false
    closed := true
    snapshotIssueErr :=
      if released || value.uncertain then value.snapshotIssueErr else some .unavailable }

/-- A running method of an `Active` goes on. -/
def activeStep (value : Active M) (choice : Choice) : After → Option (World M)
  | .idle => none
  | .marking =>
    let w := w.modifyStore value.store (·.markUncertain value.runID)
    some (w.setParty id (.active value .idle))
  | .finishing =>
    let w := w.closeLock value.runID value.store choice.released
    some (w.setParty id (.active (closed value choice.released) .ending))
  | .ending => some ((w.modifyStore value.store (·.endLease)).setParty id (.active value .idle))

/-- A running method of an `Import` goes on. -/
def importStep (value : Import M) (choice : Choice) : After → Option (World M)
  | .idle => none
  | .marking =>
    let w := w.modifyStore value.store (·.markUncertain value.runID)
    some (w.setParty id (.importing value .idle))
  | .finishing =>
    let w := w.closeLock value.runID value.store choice.released
    some (w.setParty id (.importing { value with lock := false, closed := true } .ending))
  | .ending => some ((w.modifyStore value.store (·.endLease)).setParty id (.importing value .idle))

def goStep (choice : Choice) : Option (World M) :=
  match w.parties id with
  | some (.call store runID request phase) =>
    w.callStep identity mac validEnvelope id store runID request phase choice
  | some (.active value after) => w.activeStep id value choice after
  | some (.importing value after) => w.importStep id value choice after
  | _ => none

/-- The world after the effect of a method on the value of a party. -/
def apply {α : Type*} (w : World M) (id store : ℕ) (runID : String) (cause : Cause M)
    (party : α → After → Party M) : Effect M α → World M
  | .refused _ => w
  | .repeated => w
  | .uncertain value record installed =>
    (w.attempt store runID ⟨cause, id, false, record⟩ installed).setParty id (party value .marking)
  | .wrote value record =>
    (w.install runID ⟨cause, id, true, record⟩).setParty id (party value .idle)
  | .ended value record =>
    (w.install runID ⟨cause, id, true, record⟩).setParty id (party value .finishing)

/-- What `SignSnapshot` writes a record for. -/
def signCause (input : SnapshotInput) : Cause M :=
  if input.lifecycle = .suspended then .suspend else .terminal

/-- A method of an `Active` that is not in use. -/
def activeMethod (value : Active M) (choice : Choice) : Method → Option (World M)
  | .signSnapshot input =>
    some (w.apply id value.store value.runID (signCause input) .active
      (value.signSnapshot identity mac input choice.ctxDone choice.outcome))
  | .resume =>
    some (w.apply id value.store value.runID .resume .active
      (value.resume identity choice.ctxDone choice.outcome))
  | .terminal phase =>
    some (w.apply id value.store value.runID .terminal .active
      (value.terminal identity phase choice.outcome))
  | .close => some (if value.closed then w else w.setParty id (.active value .finishing))
  | .consume | .activate _ => none

/-- A method of an `Import` that is not in use. -/
def importMethod (value : Import M) (choice : Choice) : Method → Option (World M)
  | .consume =>
    some (w.apply id value.store value.runID (.consume value.expectedMAC) .importing
      (value.consume identity choice.ctxDone choice.outcome))
  | .activate lease =>
    if (w.parties lease).isSome then none
    else
      let effect := value.activate identity choice.outcome
      let next := w.apply id value.store value.runID (.activate value.expectedMAC) .importing effect
      match effect with
      | .wrote _ _ =>
        -- the lock passes to the `Active`
        let next := { next with locks := update next.locks value.runID (some (.party lease)) }
        some (next.setParty lease (.active value.lease .idle))
      | _ => some next
  | .close => some (if value.closed then w else w.setParty id (.importing value .finishing))
  | .signSnapshot _ | .resume | .terminal _ => none

def methodStep (method : Method) (choice : Choice) : Option (World M) :=
  match w.parties id with
  | some (.active value .idle) => w.activeMethod identity mac id value choice method
  | some (.importing value .idle) => w.importMethod identity id value choice method
  | _ => none

def ownedBy (store : ℕ) : Owner → Bool
  | .party id => (w.parties id).any fun party => party.store == some store
  | .leaked other => other == store

def crash (store : ℕ) : World M :=
  { w with
    stores := update w.stores store ((w.stores store).map ({ · with crashed := true }))
    parties := fun id => (w.parties id).map fun party =>
      if party.store = some store then .crashed else party
    locks := fun runID =>
      match w.locks runID with
      | some owner => if w.ownedBy store owner then none else some owner
      | none => none }

def step : Label M → Option (World M)
  | .openStore s => if (w.stores s).isSome then none else some (w.setStore s .opened)
  | .closeStore s => (w.stores s).bind fun store =>
    if store.crashed then none else some (w.setStore s store.close)
  | .start id store runID ctxDone => w.enter id store runID .start (startRefusal runID ctxDone)
  | .prepareImport id store snapshot ctxDone =>
    w.enter id store snapshot.runID (.prepareImport snapshot)
      (prepareImportRefusal validEnvelope snapshot ctxDone)
  | .go id choice => w.goStep identity mac validEnvelope id choice
  | .method id method choice => w.methodStep identity mac id method choice
  | .crash store => some (w.crash store)

def init : World M :=
  { disk := fun _ => none, log := fun _ => [], ambiguous := [], locks := fun _ => none,
    stores := fun _ => none, parties := fun _ => none }

/-- The transition system of the run authority. -/
def system : System (World M) (Label M) :=
  { init, step := fun w l => w.step identity mac validEnvelope l }

end World

end SpiceAgent.RunAuthority
