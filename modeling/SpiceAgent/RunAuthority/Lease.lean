import SpiceAgent.RunAuthority.Record

/-!
# The leases of a run

`Active` and `Import` (`daemon/internal/runauthority/transaction.go`) own the lock of a run. Each
method holds the mutex of its value from its checks to its write, and the checks read nothing else,
so that a method is a function up to and including its write; what it does after that is in
`System`.
-/

namespace SpiceAgent.RunAuthority

variable {M : Type*} [DecidableEq M]

/-- `Active`; `lock` says that its lock handle is open. -/
structure Active (M : Type*) where
  store : ℕ
  lock : Bool
  runID : String
  runGeneration : ℕ
  suspended : Option (SnapshotRecord M)
  uncertain : Bool
  snapshotIssueErr : Option AuthorityError
  closed : Bool

/-- `Import`. Its codec is that of its run and source generation. -/
structure Import (M : Type*) where
  store : ℕ
  lock : Bool
  runID : String
  sourceRunGeneration : ℕ
  expectedScope : List UInt8
  expectedMAC : M
  consumed : Bool
  uncertain : Bool
  closed : Bool

/-- What a method of a value did, up to and including its write. -/
inductive Effect (M α : Type*)
  /-- Nothing was written. -/
  | refused (err : AuthorityError)
  /-- Nothing was written, and the method succeeds. -/
  | repeated
  /-- The write failed; `markUncertain` comes next. -/
  | uncertain (value : α) (record : Record M) (installed : Bool)
  | wrote (value : α) (record : Record M)
  /-- The write succeeded; `finish` comes next. -/
  | ended (value : α) (record : Record M)

/-- The effect of a write, given the values after its failure and its success. -/
def WriteResult.effect {α : Type*} (record : Record M) (failed : α) (success : Effect M α) :
    WriteResult → Effect M α
  | .refused err => .refused err
  | .failed installed => .uncertain failed record installed
  | .written => success

variable (identity : Identity) (mac : String → ℕ → SnapshotInput → M)

namespace Active

/-- A new `Active`. -/
def new (store : ℕ) (runID : String) (runGeneration : ℕ) : Active M :=
  { store, lock := true, runID, runGeneration, suspended := none, uncertain := false,
    snapshotIssueErr := none, closed := false }

variable (active : Active M)

/-- The `snapshotRecord` of an input that `SignSnapshot` signs. -/
def snapshotRecord (input : SnapshotInput) : SnapshotRecord M :=
  { format := input.format, lastSequence := input.lastSequence, lifecycle := input.lifecycle,
    payloadSHA := input.payloadSHA256,
    authorityMAC := mac active.runID active.runGeneration input }

def signSnapshot (input : SnapshotInput) (ctxDone : Bool)
    (outcome : WriteOutcome) : Effect M (Active M) :=
  if active.closed || !active.lock || active.uncertain || input.runID != active.runID then
    .refused .signing
  else if ctxDone then .refused .context
  else match phaseForLifecycle input.lifecycle with
    | none => .refused .signing
    | some (phase, resumable) =>
      if resumable && active.runGeneration == maxUint64 then .refused .signing
      -- the codec of generation 0 does not exist
      else if active.runGeneration == 0 then .refused .signing
      else if !input.validate then .refused .signing
      else
        let base := identity.baseRecord active.runID active.runGeneration phase
        if resumable then
          let snapshot := active.snapshotRecord mac input
          let value := { base with snapshot := some snapshot }
          match active.suspended with
          | some signed => if signed = snapshot then .repeated else .refused .signing
          | none =>
            (identity.writeRecord active.runID value outcome).effect value
              { active with uncertain := true, snapshotIssueErr := some .uncertain }
              (.wrote { active with suspended := some snapshot } value)
        else
          (identity.writeRecord active.runID base outcome).effect base
            { active with uncertain := true, snapshotIssueErr := some .uncertain }
            (.ended active base)

def resume (ctxDone : Bool) (outcome : WriteOutcome) : Effect M (Active M) :=
  if active.uncertain then .refused .uncertain
  else if active.closed || !active.lock then .refused .closed
  else if active.suspended.isNone then .refused .state
  else if ctxDone then .refused .context
  else if active.runGeneration == maxUint64 then .refused .state
  else
    let value := identity.baseRecord active.runID (active.runGeneration + 1) .active
    (identity.writeRecord active.runID value outcome).effect value
      { active with uncertain := true }
      (.wrote { active with runGeneration := active.runGeneration + 1, suspended := none } value)

def terminal (phase : Phase) (outcome : WriteOutcome) : Effect M (Active M) :=
  if active.uncertain then .refused .uncertain
  else if active.closed || !active.lock then .refused .closed
  else if !phase.terminal then .refused .state
  else
    let value := identity.baseRecord active.runID active.runGeneration phase
    (identity.writeRecord active.runID value outcome).effect value
      { active with uncertain := true } (.ended active value)

end Active

namespace Import

variable (transaction : Import M)

def consume (ctxDone : Bool) (outcome : WriteOutcome) : Effect M (Import M) :=
  if transaction.uncertain then .refused .uncertain
  else if transaction.closed || transaction.consumed then .refused .state
  else if ctxDone then .refused .context
  else if transaction.sourceRunGeneration == maxUint64 then .refused .state
  else
    let value :=
      identity.baseRecord transaction.runID (transaction.sourceRunGeneration + 1) .importing
    (identity.writeRecord transaction.runID value outcome).effect value
      { transaction with consumed := true, uncertain := true }
      (.wrote { transaction with consumed := true } value)

/-- The `Active` that `Activate` returns. -/
def lease : Active M :=
  .new transaction.store transaction.runID (transaction.sourceRunGeneration + 1)

/-- `Activate`; after its success the lock belongs to `lease`. -/
def activate (outcome : WriteOutcome) : Effect M (Import M) :=
  if transaction.uncertain then .refused .uncertain
  else if transaction.closed || !transaction.consumed || !transaction.lock then .refused .state
  else
    let value := identity.baseRecord transaction.runID (transaction.sourceRunGeneration + 1) .active
    (identity.writeRecord transaction.runID value outcome).effect value
      { transaction with uncertain := true }
      (.wrote { transaction with lock := false, closed := true } value)

end Import

end SpiceAgent.RunAuthority
