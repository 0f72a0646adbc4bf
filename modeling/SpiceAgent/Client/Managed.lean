import SpiceAgent.Lib.Threads

/-!
# The managed connector

`Initialize` attaches to a daemon that discovery finds, or starts one after two discoveries that
found none, and `Shutdown` joins the daemon that the connector started. Both take the connector's
one token for as long as they work, so that what the connector owns is touched by one call at a
time; `Shutdown` closes the connector before it waits for the token.

Each call is a thread. What discovery, the startup lock, the starter and the candidate do is the
choice of the action. The critical section that follows `Start`, and the one that follows `Wait`, is
part of the action that returns from them: no call without the token reads what they write.
-/

namespace SpiceAgent.Managed

open SpiceAgent.Lib

/-! ## Verdicts on errors -/

/-- What an error answers to `Retryable`, if it has that method. -/
inductive Classification
  | unclassified
  | retryable
  | nonRetryable
  | panics

/-- `classificationIsTerminal`, on errors that have the method. -/
def Classification.isTerminal : Classification → Bool
  | .unclassified => false
  | .retryable => false
  | .nonRetryable => true
  | .panics => true

/-- An error and what it unwraps to, or `none` if unwrapping it panics. -/
inductive Failure
  | node (classification : Classification) (causes : Option (List Failure))

/-- The error or one of its causes reports that it cannot be retried. -/
inductive Failure.ReportsNonRetryable : Failure → Prop
  | here (causes : Option (List Failure)) : ReportsNonRetryable (.node .nonRetryable causes)
  | cause {f : Failure} {causes : List Failure} (k : Classification) (hf : f ∈ causes)
      (h : ReportsNonRetryable f) : ReportsNonRetryable (.node k (some causes))

/-- The traversal, with the levels that are left of its 128. -/
def containsNonRetryable : ℕ → Failure → Bool
  | 0, _ => true
  | _ + 1, .node k none => k.isTerminal || true
  | n + 1, .node k (some causes) => k.isTerminal || causes.any (containsNonRetryable n)

def explicitlyNonRetryable (f : Failure) : Bool := containsNonRetryable 128 f

/-- How the context of a shutdown ended, if it did. -/
inductive Cause
  | live
  | shutdownTimeout
  | caller (matchesJoin : Bool)
  deriving DecidableEq

/-- What is known when `Wait` has returned: its error, the cause of the context, whether `Done` is
closed, and whether `BeginShutdown` and `Result` report no error. -/
structure Waited where
  error : Option Failure
  cause : Cause
  done : Bool
  clean : Bool

namespace Waited

variable (r : Waited)

def joined : Bool := r.done && r.error.isNone

/-- The cause of the context matches the join error: it stands for a context that has not ended. -/
def isJoin : Bool := decide (r.cause = .live ∨ r.cause = .caller true)

def terminal : Bool :=
  !r.joined && r.isJoin && r.error.any explicitlyNonRetryable

end Waited

/-! ## Calls -/

/-- What a call is cleaning up for. -/
inductive Job
  | discard
  | startFailed
  | leaseFailed
  | shutdown
  deriving DecidableEq

/-- The candidate is the one that the connector owns. -/
def Job.ofOwned : Job → Bool
  | .discard => false
  | _ => true

/-- What a call returns: a session, nothing (`Shutdown`), or an error. -/
inductive Outcome
  | session
  | nil
  | failed
  deriving DecidableEq

/-- Where a call stands. -/
inductive Phase
  | idle
  -- Initialize
  | waiting
  | entered
  | discovering
  | acquiring
  | dropping
  | rechecking
  | ensuring
  | starting
  | awaiting (candidate : ℕ) (launched : Bool)
  | releasing (session : Bool) (launchedCandidate : Option ℕ)
  | finishing (session : Bool)
  -- Shutdown
  | closing
  | cancelling (active : Option ℕ)
  | queued
  | reading
  -- both
  | cleaning (candidate : ℕ) (job : Job) (begun : Bool)
  | leaving (outcome : Outcome)
  | returning (outcome : Outcome)
  | returned (outcome : Outcome)
  deriving DecidableEq

/-- A call: where it stands, whether it holds a startup lease, and the discoveries before the start
that returned exactly `ErrEndpointNotFound`, each with whether the lease was held. -/
structure Op where
  phase : Phase
  lease : Bool
  absences : List Bool

def Op.at (op : Op) (phase : Phase) : Op := { op with phase := phase }

/-- A call of the starter that returned a candidate, and the calls of candidates. -/
inductive Call
  | start (candidate : ℕ) (hasDone : Bool)
  | beginShutdown (candidate : ℕ)
  | wait (candidate : ℕ) (owned : Bool) (result : Waited)

/-- The connector: the call that has the token, the fields of the source, the contexts that were
cancelled, the number of candidates and the calls of starter and candidates so far. `settled` says
that some `Shutdown` has nothing left to do but to return nil. -/
structure Shared where
  holder : Option ℕ
  closed : Bool
  activeCancel : Option ℕ
  cancelled : ℕ → Bool
  owned : Option ℕ
  terminalJoin : Bool
  next : ℕ
  calls : List Call
  settled : Bool

/-! ## Choices of the environment -/

/-- What discovery returned; a connector that it resolved gives a session or fails. -/
inductive Found
  | resolved (session : Bool)
  | absent
  | failed

inductive Acquired
  | lease
  | failedWithLease
  | failed

/-- A candidate, possibly returned with an error. -/
structure Started where
  hasDone : Bool
  failed : Bool

inductive Awaited
  | session
  | exited
  | failed

inductive Action
  | callInitialize
  | callShutdown
  | giveUp
  | take
  | go
  | discover (ended : Bool) (found : Found)
  | acquire (result : Acquired)
  | start (result : Option Started)
  | await (result : Awaited)
  | wait (result : Waited)
  | release (ok : Bool)
  | finish (ended : Bool)

/-! ## Steps -/

variable (s : Shared)

/-- The critical section after a shutdown of the owned candidate. -/
def Shared.record (r : Waited) : Shared :=
  if r.joined then { s with owned := none, terminalJoin := false }
  else if r.terminal then { s with terminalJoin := true }
  else s

def Job.after (r : Waited) : Job → Phase
  | .discard => .releasing false none
  | .startFailed => .releasing false none
  | .leaseFailed => .finishing false
  | .shutdown => .leaving (if r.joined && r.clean then .nil else .failed)

/-- `Start` has returned, `ensureCandidate` goes on. -/
def launch (op : Op) (r : Started) : Shared × Op :=
  let c := s.next
  let s' := { s with next := c + 1, calls := s.calls ++ [.start c r.hasDone] }
  if !r.hasDone || s.owned.isSome then (s', op.at (.cleaning c .discard false))
  else ({ s' with owned := some c, terminalJoin := false },
    if r.failed || s.closed then op.at (.cleaning c .startFailed false)
    else op.at (.awaiting c true))

/-- `Wait` has returned. -/
def finishCleaning (op : Op) (c : ℕ) (job : Job) (r : Waited) : Shared × Op :=
  let logged : Shared := { s with
    calls := s.calls ++ [.wait c job.ofOwned r]
    settled := s.settled || (decide (job = Job.shutdown) && r.joined && r.clean) }
  (if job.ofOwned then logged.record r else logged, op.at (job.after r))

/-- One action of the call `i`. -/
def act (i : ℕ) (op : Op) (a : Action) : Option (Shared × Op) :=
  match op.phase, a with
  | .idle, .callInitialize => some (s, op.at .waiting)
  | .waiting, .giveUp => some (s, op.at (.returning .failed))
  | .waiting, .take =>
    if s.holder = none then some ({ s with holder := some i }, op.at .entered) else none
  | .entered, .go =>
    if s.closed then some (s, op.at (.leaving .failed))
    else some ({ s with activeCancel := some i }, op.at .discovering)
  | .discovering, .discover ended found =>
    -- a context that was cancelled has a cause
    if s.cancelled i && !ended then none
    else match ended, found with
      | true, _ => some (s, op.at (.finishing false))
      | false, .resolved session => some (s, op.at (.finishing session))
      | false, .failed => some (s, op.at (.finishing false))
      | false, .absent => some (s, ⟨.acquiring, op.lease, op.absences ++ [op.lease]⟩)
  | .acquiring, .acquire .lease => some (s, ⟨.rechecking, true, op.absences⟩)
  | .acquiring, .acquire .failedWithLease => some (s, ⟨.dropping, true, op.absences⟩)
  | .acquiring, .acquire .failed => some (s, op.at (.finishing false))
  | .dropping, .go => some (s, ⟨.finishing false, false, op.absences⟩)
  | .rechecking, .discover ended found =>
    if s.cancelled i && !ended then none
    else match ended, found with
      | true, _ => some (s, op.at (.releasing false none))
      | false, .resolved session => some (s, op.at (.releasing session none))
      | false, .failed => some (s, op.at (.releasing false none))
      | false, .absent => some (s, ⟨.ensuring, op.lease, op.absences ++ [op.lease]⟩)
  | .ensuring, .go =>
    match s.owned with
    | some c => some (s, op.at (.awaiting c false))
    | none => some (s, op.at (if s.closed then .releasing false none else .starting))
  | .starting, .start none => some (s, op.at (.releasing false none))
  | .starting, .start (some r) => some (launch s op r)
  | .awaiting c launched, .await .session =>
    if s.cancelled i then none
    else some (s, op.at (.releasing true (if launched then some c else none)))
  | .awaiting c _, .await .exited => some (s, op.at (.cleaning c .startFailed false))
  | .awaiting c launched, .await .failed =>
    some (s, op.at (if launched then .cleaning c .startFailed false else .releasing false none))
  | .releasing session launchedCandidate, .release ok =>
    some (s, ⟨if ok then .finishing session else
      match launchedCandidate with
      | some c => .cleaning c .leaseFailed false
      | none => .finishing false, false, op.absences⟩)
  | .finishing session, .finish ended =>
    if s.cancelled i && !ended then none
    else some ({ s with activeCancel := none },
      op.at (.leaving (if session && !ended && !s.closed then .session else .failed)))
  | .idle, .callShutdown => some (s, op.at .closing)
  | .closing, .go => some ({ s with closed := true }, op.at (.cancelling s.activeCancel))
  | .cancelling none, .go => some (s, op.at .queued)
  | .cancelling (some j), .go =>
    some ({ s with cancelled := Function.update s.cancelled j true }, op.at .queued)
  | .queued, .giveUp => some (s, op.at (.returning .failed))
  | .queued, .take =>
    if s.holder = none then some ({ s with holder := some i }, op.at .reading) else none
  | .reading, .go =>
    if s.terminalJoin then some (s, op.at (.leaving .failed))
    else match s.owned with
      | some c => some (s, op.at (.cleaning c .shutdown false))
      | none => some ({ s with settled := true }, op.at (.leaving .nil))
  | .cleaning c job false, .go =>
    some ({ s with calls := s.calls ++ [.beginShutdown c] }, op.at (.cleaning c job true))
  | .cleaning c job true, .wait r =>
    -- only a Shutdown has a caller whose context can end
    if job ≠ .shutdown ∧ r.cause ≠ .live ∧ r.cause ≠ .shutdownTimeout then none
    else some (finishCleaning s op c job r)
  | .leaving outcome, .go => some ({ s with holder := none }, op.at (.returning outcome))
  | .returning outcome, .go => some (s, op.at (.returned outcome))
  | _, _ => none

def connector : Threads Shared Op Action where
  shared := ⟨none, false, none, fun _ => false, none, false, 0, [], false⟩
  thread := ⟨.idle, false, []⟩
  act := act

end SpiceAgent.Managed
