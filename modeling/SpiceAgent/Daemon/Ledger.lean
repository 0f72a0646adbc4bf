import SpiceAgent.Daemon.Session
import SpiceAgent.Lib.Slot
import SpiceAgent.Lib.Tally

/-!
# The idempotency ledger

`Ledger.Do` (`daemon/idempotency.go`) gives each operation of a client to one owner and lets exact
duplicates wait for its result. A `DoCall` is one execution of `Do`; the entry that it admits is
identified by the call itself. One step of `LedgerWorld.step` is one critical section of the
ledger's lock, one `select`, or the return of an executor, so that a run is any interleaving of
calls, cancellations and executors.
-/

namespace SpiceAgent.Daemon

open SpiceAgent.Lib

/-! ## Outcomes -/

/-- `OutcomeKind`, with the zero value and any other text of the type. -/
inductive OutcomeKind
  | zero
  | success
  | failure
  | uncertain
  | other (text : String)
  deriving DecidableEq

def maximumOutcomeBytes : ℕ := 2 ^ 20
def maximumLedgerDimension : ℕ := 2 ^ 20

structure Outcome where
  kind : OutcomeKind
  payload : List UInt8
  deriving DecidableEq

/-- The zero `Outcome`. -/
def Outcome.zero : Outcome := ⟨.zero, []⟩

/-- `isZeroOutcome`. -/
def Outcome.isZero (outcome : Outcome) : Bool := outcome.kind = .zero && outcome.payload.isEmpty

/-- `NewOutcome` accepts the kind and the payload. -/
def Outcome.valid (outcome : Outcome) : Bool :=
  (outcome.kind = .success || outcome.kind = .failure || outcome.kind = .uncertain) &&
    outcome.payload.length ≤ maximumOutcomeBytes

def uncertainExecutorOutcome : Outcome :=
  ⟨.uncertain, "operation outcome uncertain".toUTF8.toList⟩

/-- The dynamic type of an executor's error: an `*abandonedOperationError`, whose pointer and whose
cause may be nil, or any other error, which may wrap one. -/
inductive ExecutorError
  | abandoned (failure : Option (Option String))
  | other (message : String)
  deriving DecidableEq

/-- The cause of a `validAbandonment`. -/
def validAbandonment : Option ExecutorError → Option String
  | some (.abandoned (some (some cause))) => some cause
  | _ => none

/-- How an executor ends. -/
inductive ExecutorResult
  | returned (outcome : Outcome) (err : Option ExecutorError)
  | panicked
  deriving DecidableEq

/-- The errors of `Do`. -/
inductive DoError
  | token (failure : TokenError)
  | conflict
  /-- The error of the call's context. -/
  | context
  | capacity
  /-- `ErrOperationExecutor`. -/
  | executor
  | abandoned (cause : String)
  deriving DecidableEq

/-- The cause with which `Do` abandons the entry after an executor's result. `executeSafely` turns a
panic into an uncertain outcome, which no abandonment has. -/
def ExecutorResult.abandonment : ExecutorResult → Option String
  | .returned outcome err => if outcome.isZero then validAbandonment err else none
  | .panicked => none

/-- The outcome and error that `Do` stores after an executor's result. -/
def ExecutorResult.stored : ExecutorResult → Outcome × Option DoError
  | .returned outcome none =>
    if outcome.valid then (outcome, none) else (uncertainExecutorOutcome, some .executor)
  | .returned _ (some _) => (uncertainExecutorOutcome, some .executor)
  | .panicked => (uncertainExecutorOutcome, some .executor)

/-! ## The ledger -/

structure OperationKey where
  clientID : String
  operationID : String
  deriving DecidableEq

/-- `operationEntry`. `done` is whether its channel is closed. -/
structure OperationEntry where
  kind : String
  digest : BitVec 256
  done : Bool
  outcome : Outcome
  err : Option DoError
  abandoned : Bool

/-- `Ledger`: the entry recorded for a key, by its identity, and the counts of the clients. -/
structure Ledger where
  maximumClients : ℕ
  maximumPerClient : ℕ
  entries : Finmap fun _ : OperationKey => ℕ
  clientCounts : Finmap fun _ : String => ℕ

namespace Ledger

/-- `NewLedger`, or nothing for bounds that it refuses. -/
def new (maximumClients maximumPerClient : ℕ) : Option Ledger :=
  if maximumClients < 1 ∨ maximumLedgerDimension < maximumClients ∨
      maximumPerClient < 1 ∨ maximumLedgerDimension < maximumPerClient then none
  else if maximumLedgerDimension / maximumPerClient < maximumClients then none
  else some { maximumClients, maximumPerClient, entries := ∅, clientCounts := ∅ }

variable (ledger : Ledger)

/-- The capacity check of `Do`. -/
def full (clientID : String) : Bool :=
  (clientID ∉ ledger.clientCounts && ledger.maximumClients ≤ ledger.clientCounts.keys.card) ||
    ledger.maximumPerClient ≤ tally ledger.clientCounts clientID

def accept (key : OperationKey) (entry : ℕ) : Ledger :=
  { ledger with
    entries := ledger.entries.insert key entry
    clientCounts := ledger.clientCounts.insert key.clientID
      (tally ledger.clientCounts key.clientID + 1) }

/-- The map updates of `abandon`. -/
def abandon (key : OperationKey) (entry : ℕ) : Ledger :=
  if ledger.entries.lookup key = some entry then
    let remaining := tally ledger.clientCounts key.clientID - 1
    { ledger with
      entries := ledger.entries.erase key
      clientCounts := if remaining = 0 then ledger.clientCounts.erase key.clientID
        else ledger.clientCounts.insert key.clientID remaining }
  else ledger

end Ledger

/-! ## Calls -/

/-- What `Do` returns: the outcome stored for an entry, or the zero outcome with an error. -/
inductive DoResult
  | answer (entry : ℕ) (outcome : Outcome) (duplicate : Bool) (err : Option DoError)
  | failed (duplicate : Bool) (err : DoError)
  deriving DecidableEq

/-- Where a call stands. -/
inductive DoPhase
  /-- Before its argument checks. -/
  | entry
  /-- At the head of its loop. -/
  | lookup
  /-- At the first `select` of `awaitExisting`. -/
  | poll (entry : ℕ)
  /-- At the second `select`. -/
  | blocked (entry : ℕ)
  /-- At the `select` after its context ended. -/
  | cancelled (entry : ℕ)
  /-- Before the critical section of `completedExisting`. -/
  | completed (entry : ℕ)
  /-- Its executor runs. -/
  | executing
  /-- Its executor has ended. -/
  | finished (result : ExecutorResult)
  | returned (result : DoResult)
  deriving DecidableEq

/-- One call. -/
structure DoCall where
  key : OperationKey
  kind : String
  digest : BitVec 256
  ctxDone : Bool
  phase : DoPhase

abbrev KeyEvent := SlotEvent ℕ (Outcome × Option DoError)

/-- The ledger with its entries and calls. The `history` records for each key who was admitted, who
abandoned and what was stored; `results` is how each executor ended. -/
structure LedgerWorld where
  ledger : Ledger
  entries : ℕ → Option OperationEntry
  calls : ℕ → Option DoCall
  history : List (OperationKey × KeyEvent)
  results : ℕ → Option ExecutorResult

namespace LedgerWorld

variable (w : LedgerWorld) (id : ℕ) (call : DoCall)

def setCall : LedgerWorld :=
  { w with calls := Function.update w.calls id (some call) }

def goto (phase : DoPhase) : LedgerWorld :=
  w.setCall id { call with phase }

def fail (duplicate : Bool) (err : DoError) : LedgerWorld :=
  w.goto id call (.returned (.failed duplicate err))

variable (entry : OperationEntry)

def setEntry : LedgerWorld :=
  { w with entries := Function.update w.entries id (some entry) }

def record (key : OperationKey) (event : KeyEvent) : LedgerWorld :=
  { w with history := w.history ++ [(key, event)] }

def stepEntry : LedgerWorld :=
  match boundedToken "client ID" call.key.clientID with
  | some failure => w.fail id call false (.token failure)
  | none =>
    match boundedToken "operation ID" call.key.operationID with
    | some failure => w.fail id call false (.token failure)
    | none =>
      match boundedToken "operation kind" call.kind with
      | some failure => w.fail id call false (.token failure)
      | none => w.goto id call .lookup

/-- The call records its entry and starts its executor. -/
def accept : LedgerWorld :=
  ((({ w with ledger := w.ledger.accept call.key id }.setEntry id
    { kind := call.kind, digest := call.digest, done := false, outcome := .zero, err := none,
      abandoned := false }).record call.key (.claim id)).goto id call .executing)

/-- The first critical section of the loop. A recorded entry is never missing from the heap. -/
def stepLookup : LedgerWorld :=
  match w.ledger.entries.lookup call.key with
  | some existing =>
    match w.entries existing with
    | some entry =>
      if entry.kind ≠ call.kind ∨ entry.digest ≠ call.digest then w.fail id call false .conflict
      else w.goto id call (.poll existing)
    | none => w
  | none =>
    if call.ctxDone then w.fail id call false .context
    else if w.ledger.full call.key.clientID then w.fail id call false .capacity
    else w.accept id call

def isDone (existing : ℕ) : Bool :=
  match w.entries existing with
  | some entry => entry.done
  | none => false

/-- `completedExisting`. -/
def stepCompleted (existing : ℕ) : LedgerWorld :=
  match w.entries existing with
  | some entry =>
    if entry.abandoned then
      if call.ctxDone then w.fail id call true .context else w.goto id call .lookup
    else w.goto id call (.returned (.answer existing entry.outcome true entry.err))
  | none => w

/-- `abandon`, after which the owner returns the abandonment. -/
def abandon (cause : String) : LedgerWorld :=
  ((({ w with ledger := w.ledger.abandon call.key id }.setEntry id
    { entry with abandoned := true, done := true }).record call.key (.giveBack id)).fail
      id call false (.abandoned cause))

/-- The critical section that stores the outcome. -/
def store (stored : Outcome × Option DoError) : LedgerWorld :=
  ((w.setEntry id { entry with outcome := stored.1, err := stored.2, done := true }).record call.key
    (.fill id stored)).goto id call (.returned (.answer id stored.1 false stored.2))

/-- The end of `Do` after its executor. -/
def stepFinished (result : ExecutorResult) : LedgerWorld :=
  match w.entries id with
  | some entry =>
    match result.abandonment with
    | some cause => w.abandon id call entry cause
    | none => w.store id call entry result.stored
  | none => w

/-- One step of a call; `ctx` chooses the context's case where both cases of a `select` are
ready. -/
def stepCall (ctx : Bool) : Option LedgerWorld :=
  match call.phase with
  | .entry => some (w.stepEntry id call)
  | .lookup => some (w.stepLookup id call)
  | .poll existing =>
    some (w.goto id call (if w.isDone existing then .completed existing else .blocked existing))
  | .blocked existing =>
    if ctx then
      if call.ctxDone then some (w.goto id call (.cancelled existing)) else none
    else if w.isDone existing then some (w.goto id call (.completed existing))
    else none
  | .cancelled existing =>
    if w.isDone existing then some (w.goto id call (.completed existing))
    else some (w.fail id call true .context)
  | .completed existing => some (w.stepCompleted id call existing)
  | .executing => none
  | .finished result => some (w.stepFinished id call result)
  | .returned _ => none

/-- The steps of the ledger and its callers. -/
inductive Label
  /-- A call begins. -/
  | call (id : ℕ) (key : OperationKey) (kind : String) (digest : BitVec 256) (ctxDone : Bool)
  /-- A call goes on. -/
  | run (id : ℕ) (ctx : Bool)
  /-- The executor of a call ends. -/
  | finish (id : ℕ) (result : ExecutorResult)
  /-- The context of a call ends. -/
  | cancel (id : ℕ)

def step (w : LedgerWorld) : Label → Option LedgerWorld
  | .call id key kind digest ctxDone =>
    match w.calls id with
    | none => some (w.setCall id { key, kind, digest, ctxDone, phase := .entry })
    | some _ => none
  | .run id ctx => (w.calls id).bind fun call => w.stepCall id call ctx
  | .finish id result =>
    (w.calls id).bind fun call =>
      if call.phase = .executing then
        some ({ w with results := Function.update w.results id (some result) }.goto id call
          (.finished result))
      else none
  | .cancel id => (w.calls id).map fun call => w.setCall id { call with ctxDone := true }

end LedgerWorld

def ledgerSystem (ledger : Ledger) : System LedgerWorld LedgerWorld.Label where
  init := { ledger, entries := fun _ => none, calls := fun _ => none, history := [],
            results := fun _ => none }
  step := LedgerWorld.step

end SpiceAgent.Daemon
