import SpiceAgent.Lib.Transition

/-!
# Suspending and resuming a run

The suspension of a run in `agent/agent.go` and `agent/local_resume.go`: any number of `Suspend`
calls, each with its own context, the execution goroutine at its turn boundaries, and local resumes.
Every critical section of `stateMu` is one step, and so are the sends, the receives and the choices
of the `select` statements between them.

A signal remembers for which `Suspend` call the suspension was made; the program does not.
-/

namespace SpiceAgent.Agent.Suspension

open SpiceAgent.Lib
open Function (update)

/-! ## States -/

/-- `LifecycleStatus`; `created` is the status of a run before its start, `ended` is any terminal
one. -/
inductive Status
  | created | running | suspending | suspended | resumePending | finishing | ended
  deriving DecidableEq

/-- What a `Suspend` call returns. -/
inductive Reply
  | granted
  /-- `UnsafeSnapshotError`. -/
  | refused
  | contextError
  deriving DecidableEq

/-- Where a `Suspend` call is. -/
inductive Call
  | idle
  /-- In its `select`. -/
  | waiting
  /-- In the branch of its context, before it takes the lock again. -/
  | withdrawing
  | returned (reply : Reply)
  deriving DecidableEq

/-- The state of a `PreparedLocalResume`. -/
inductive Prepared
  | absent | ready | committed | aborted
  deriving DecidableEq

/-- A `resumeSignal` with the call whose waiter was taken for it. -/
structure Signal where
  id : ℕ
  grantedTo : ℕ
  deriving DecidableEq

/-- Where the execution goroutine is. -/
inductive Exec
  /-- Before `markStarted`. -/
  | starting
  | working
  /-- Before the send of nil to the waiter. -/
  | granting (signal : Signal)
  /-- Before the send of the failure to the waiter. -/
  | refusing (call : ℕ)
  /-- In the `select` of `suspendAtBoundary`. -/
  | paused (signal : ℕ)
  /-- At the receive from the decision of a prepared resume. -/
  | undecided (prepared : ℕ)
  /-- Past the last turn, before `beginFinalization`. -/
  | leaving
  | finalized
  deriving DecidableEq

/-- A `Run`, its `Suspend` calls and its prepared resumes. -/
structure World where
  status : Status
  started : Bool
  /-- `run.ctx` has ended. -/
  cancelled : Bool
  activeInteractions : ℕ
  suspendRequested : Bool
  suspendWaiter : Option ℕ
  resumeSignal : Option Signal
  localResume : Option ℕ
  exec : Exec
  calls : ℕ → Call
  /-- The buffers of the waiters. -/
  answers : ℕ → Option Reply
  prepared : ℕ → Prepared
  /-- The signals that are closed. -/
  closed : ℕ → Bool
  /-- The number of signals made. -/
  signals : ℕ

/-- A run before its start, or one that was restored from a snapshot. -/
def World.init (restored : Bool) : World where
  status := if restored then .running else .created
  started := restored
  cancelled := false
  activeInteractions := 0
  suspendRequested := false
  suspendWaiter := none
  resumeSignal := none
  localResume := none
  exec := if restored then .working else .starting
  calls := fun _ => .idle
  answers := fun _ => none
  prepared := fun _ => .absent
  closed := fun _ => false
  signals := 0

/-! ## Steps -/

inductive Label
  /-- `markStarted`. -/
  | start (started : Bool)
  /-- A `Suspend` call whose context is live up to its select. -/
  | suspend (c : ℕ)
  /-- A `Suspend` call whose context has ended. -/
  | suspendExpired (c : ℕ)
  /-- The `select` takes the branch of the context. -/
  | contextDone (c : ℕ)
  /-- The critical section of that branch. -/
  | withdraw (c : ℕ)
  /-- The `select` takes the branch of the waiter. -/
  | receive (c : ℕ)
  /-- The first critical section of `suspendAtBoundary`. -/
  | boundary
  /-- The send to the waiter. -/
  | answer
  /-- The branch of the run's context in `suspendAtBoundary`. -/
  | execCancelled
  /-- The decision was made. -/
  | execDecided
  /-- The branch of the signal. -/
  | execResumed
  /-- The turns are over. -/
  | leave
  /-- `beginFinalization`. -/
  | finalize
  | recordTerminal
  /-- `PrepareLocalResume`. -/
  | prepare (p : ℕ)
  | commit (p : ℕ)
  | abort (p : ℕ)
  /-- `Cancel`, or the end of the root context. -/
  | cancel
  | reserveInteraction
  | releaseInteraction

namespace World

variable (w : World) (c : ℕ)

def setCall (phase : Call) : World :=
  { w with calls := update w.calls c phase }

/-- The critical section of `Suspend`. -/
def suspendStep : World :=
  if w.status ≠ .running || !w.started || w.suspendRequested then w.setCall c (.returned .refused)
  else { w.setCall c .waiting with
    suspendRequested := true
    suspendWaiter := some c
    status := .suspending }

/-- `resumeLocked`, where there is a suspension. -/
def resumeLocked (signal : Signal) : World :=
  { w with
    status := .running
    resumeSignal := none
    closed := update w.closed signal.id true }

/-- The critical section of `Suspend` after the end of its context. -/
def withdrawStep : World :=
  if w.suspendRequested ∧ w.suspendWaiter = some c then
    { w with suspendRequested := false, suspendWaiter := none, status := .running }
  else match w.status, w.resumeSignal with
  | .suspended, some signal => w.resumeLocked signal
  | _, _ => w

/-- The first critical section of `suspendAtBoundary`. -/
def boundaryStep : World :=
  match w.suspendRequested, w.suspendWaiter with
  | true, some c =>
    if w.activeInteractions ≠ 0 then
      { w with
        suspendRequested := false, suspendWaiter := none, status := .running, exec := .refusing c }
    else
      let signal : Signal := ⟨w.signals, c⟩
      { w with
        suspendRequested := false, suspendWaiter := none, status := .suspended
        resumeSignal := some signal, exec := .granting signal, signals := w.signals + 1 }
  | _, _ => w

/-- `PrepareLocalResume`; where it fails nothing changes. -/
def prepareStep (p : ℕ) : World :=
  if w.cancelled && w.status ≠ .ended then w
  else if w.status ≠ .suspended ∨ w.resumeSignal = none ∨ w.localResume ≠ none ∨
      w.activeInteractions ≠ 0 then w
  else { w with
    localResume := some p
    status := .resumePending
    prepared := update w.prepared p .ready }

def commitStep (p : ℕ) : World :=
  match w.resumeSignal with
  | some signal =>
    if w.prepared p = .ready ∧ w.localResume = some p ∧ w.status = .resumePending then
      { w.resumeLocked signal with
        localResume := none
        prepared := update w.prepared p .committed }
    else w
  | none => w

def abortStep (p : ℕ) : World :=
  if w.prepared p = .ready ∧ w.localResume = some p ∧ w.status = .resumePending ∧
      w.resumeSignal ≠ none then
    { w with
      localResume := none
      prepared := update w.prepared p .aborted
      status := if w.cancelled then .finishing else .suspended }
  else w

/-- The branch of the run's context in `suspendAtBoundary`. -/
def execCancelledStep : World :=
  match w.localResume with
  | none => { w with status := .finishing, exec := .leaving }
  | some p => { w with exec := .undecided p }

/-- The critical section of `beginFinalization`, and the cancellation after it. -/
def finalizeStep : World :=
  { w with
    status := .finishing
    answers := match w.suspendRequested, w.suspendWaiter with
      | true, some c => update w.answers c (some .refused)
      | _, _ => w.answers
    suspendRequested := false
    suspendWaiter := none
    cancelled := true
    exec := .finalized }

def step : Label → Option World
  | .start started =>
    if w.exec = .starting then
      some { w with
        started := started
        status := if started then .running else w.status
        exec := if started then .working else .leaving }
    else none
  | .suspend c => if w.calls c = .idle then some (w.suspendStep c) else none
  | .suspendExpired c =>
    if w.calls c = .idle then some (w.setCall c (.returned .contextError)) else none
  | .contextDone c => if w.calls c = .waiting then some (w.setCall c .withdrawing) else none
  | .withdraw c =>
    if w.calls c = .withdrawing then some ((w.withdrawStep c).setCall c (.returned .contextError))
    else none
  | .receive c =>
    match w.calls c, w.answers c with
    | .waiting, some reply => some (w.setCall c (.returned reply))
    | _, _ => none
  | .boundary => if w.exec = .working then some w.boundaryStep else none
  | .answer =>
    match w.exec with
    | .granting signal => some { w with
        answers := update w.answers signal.grantedTo (some .granted)
        exec := .paused signal.id }
    | .refusing c => some { w with
        answers := update w.answers c (some .refused)
        exec := .working }
    | _ => none
  | .execCancelled =>
    match w.exec with
    | .paused _ => if w.cancelled then some w.execCancelledStep else none
    | _ => none
  | .execDecided =>
    match w.exec with
    | .undecided p => if w.prepared p = .ready then none else some { w with exec := .leaving }
    | _ => none
  | .execResumed =>
    match w.exec with
    | .paused signal =>
      if w.closed signal then some { w with exec := if w.cancelled then .leaving else .working }
      else none
    | _ => none
  | .leave => if w.exec = .working then some { w with exec := .leaving } else none
  | .finalize => if w.exec = .leaving then some w.finalizeStep else none
  | .recordTerminal => if w.exec = .finalized then some { w with status := .ended } else none
  | .prepare p => if w.prepared p = .absent then some (w.prepareStep p) else none
  | .commit p => some (w.commitStep p)
  | .abort p => some (w.abortStep p)
  | .cancel => some { w with cancelled := true }
  | .reserveInteraction =>
    if w.status = .running ∧ w.started then
      some { w with activeInteractions := w.activeInteractions + 1 }
    else some w
  | .releaseInteraction =>
    if w.activeInteractions = 0 then none
    else some { w with activeInteractions := w.activeInteractions - 1 }

def InForce (signal : Signal) : Prop :=
  w.resumeSignal = some signal ∧ (w.status = .suspended ∨ w.status = .resumePending)

/-- The call has registered and has not returned. -/
def InProgress : Prop := w.calls c = .waiting ∨ w.calls c = .withdrawing

/-- A boundary grants a suspension only while no other `Suspend` call is in progress. -/
def GrantsAlone : Label → Prop
  | .boundary => w.activeInteractions = 0 → ∀ c ∈ w.suspendWaiter, ∀ d, w.InProgress d → d = c
  | _ => True

instance (w : World) (signal : Signal) : Decidable (w.InForce signal) :=
  inferInstanceAs (Decidable (_ ∧ _))

end World

end SpiceAgent.Agent.Suspension
