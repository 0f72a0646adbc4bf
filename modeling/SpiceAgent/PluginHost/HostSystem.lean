import SpiceAgent.Lib.Transition
import SpiceAgent.PluginHost.Host

/-!
# The goroutines of a runtime plugin host

The explicit activations, the recovery controller, the leases, the crash observers, the cleanups and
the `Close` calls of one host, as a transition system in which each step is one critical section or
one call to a candidate. Labels name the goroutine that moves and what its environment answers:
whether a context has ended, what a candidate does, which plan ID staging derives.

The system is generic in the kind of candidate, as the host is in its `generationStarter`.
-/

namespace SpiceAgent.Pluginhost

open Lib
open Function (update)

/-- What the host uses of a `generationStarter` and its `generationCandidate`s. `start` gives the
candidate, if there is one, and whether there was no error; `close` gives whether there was no
error; `change` is what a candidate does by itself. -/
structure CandidateKind where
  State : Type
  Input : Type
  start : String → Input → Option State × Bool
  done : State → Bool
  close : State → Input → State × Bool
  change : State → Input → State

/-! ## Goroutines -/

/-- The stager of a generation. -/
inductive Party
  | activation (t : ℕ)
  | controller
deriving DecidableEq

/-- Where a call that stages and publishes a generation stands. -/
inductive AttemptPhase
  /-- In `beginActivation`, before the activation token. -/
  | waiting (set : PluginSet)
  /-- In the loop of `stage`, with its sequence number, the candidates started and the executables
  that remain. -/
  | starting (sequence : ℕ) (candidates : List ℕ) (rest : List String)
  /-- In `cleanAborted`, called from `stage` or after it. -/
  | aborting (staging : Bool) (candidates : List ℕ) (closer : Closer)
  /-- Before the deferred `finish` of `stage`, with the generation if staging succeeded. -/
  | leaving (generation : Option (PlanID × List ℕ))
  /-- After `stage`, before the generation is published. -/
  | staged (id : PlanID) (candidates : List ℕ)
  /-- After the last attempt to publish, with whether it succeeded. -/
  | ended (published : Bool)
  /-- After `finishExplicitActivation`. -/
  | returned (published : Bool)
deriving DecidableEq

def AttemptPhase.candidates : AttemptPhase → List ℕ
  | .starting _ cs _ => cs
  | .aborting _ cs _ => cs
  | .leaving (some (_, cs)) => cs
  | .staged _ cs => cs
  | _ => []

/-- The `closeCandidates` call of a staging call. -/
def AttemptPhase.closer : AttemptPhase → Option Closer
  | .aborting _ _ closer => some closer
  | _ => none

/-- An `Activate` call that has begun. -/
structure Activation where
  set : PluginSet
  revision : ℕ
  phase : AttemptPhase

/-- Where `recoveryController` stands. -/
inductive Controller
  /-- Before its `select`. -/
  | selecting
  /-- Before the first critical section of `recoverOnce`. -/
  | awake
  /-- In the clock of `recoverOnce`. -/
  | backingOff (serial : ℕ) (desired : PluginSet)
  /-- Staging and publishing a replacement. -/
  | attempting (serial : ℕ) (phase : AttemptPhase)
  /-- Before the deferred critical section of `recoverOnce`, with its result. -/
  | leaving (serial : ℕ) (again : Bool)
  /-- Returned, with `recoveryDone` closed. -/
  | stopped
deriving DecidableEq

def Controller.phase : Controller → Option AttemptPhase
  | .attempting _ phase => some phase
  | _ => none

/-- Where a `lease` call and the lease it returned stand. -/
inductive LeasePhase
  | acquired
  | held
  | dropping
  | released
deriving DecidableEq

/-- A lease of a generation. -/
structure Lease where
  generation : ℕ
  request : Option String
  phase : LeasePhase

/-- The result of a `Close` call. -/
inductive CloseResult
  | closed
  | context
  | cleanupFailed
deriving DecidableEq

/-- Where a `Close` call stands. `waiting` keeps the `changed` channel it selects on and whether it
also selects on `recoveryDone`. -/
inductive ClosePhase
  | gate
  | looping (attempt : ℕ)
  | waiting (attempt changed : ℕ) (watching : Bool)
  | returned (result : CloseResult)
deriving DecidableEq

/-! ## State -/

/-- A host, its candidates and its goroutines. `closed` records the candidates that have been closed
without error. -/
structure World (K : CandidateKind) where
  host : Host
  candidate : ℕ → Option K.State
  started : ℕ
  closed : ℕ → Bool
  token : Bool
  closeGate : Bool
  activates : ℕ → Option Activation
  controller : Controller
  leases : ℕ → Option Lease
  observers : ℕ → ℕ → Bool
  closes : ℕ → Option ClosePhase

variable {K : CandidateKind}

namespace World

/-- A new host, with the digest of its compiled generation's plan ID. -/
def init (K : CandidateKind) (restart : RestartPolicy) (digest : String) : World K where
  host := Host.init restart digest
  candidate := fun _ => none
  started := 0
  closed := fun _ => false
  token := true
  closeGate := true
  activates := fun _ => none
  controller := if restart.enabled then .selecting else .stopped
  leases := fun _ => none
  observers := fun _ _ => false
  closes := fun _ => none

variable (w : World K)

/-- The `done` channel of a candidate is closed. -/
def done (c : ℕ) : Bool := (w.candidate c).any K.done

def phase : Party → Option AttemptPhase
  | .activation t => (w.activates t).map Activation.phase
  | .controller => w.controller.phase

def setPhase (p : Party) (phase : AttemptPhase) : World K :=
  { w with
    activates := match p with
      | .activation t =>
        update w.activates t ((w.activates t).map fun a => { a with phase := phase })
      | .controller => w.activates
    controller := match p, w.controller with
      | .controller, .attempting serial _ => .attempting serial phase
      | _, controller => controller }

/-- One candidate close of `closeCandidates`, with whether it returned no error. -/
def closeCandidate (c : ℕ) (input : K.Input) : World K × Bool :=
  match w.candidate c with
  | none => (w, false)
  | some state =>
    let (state, ok) := K.close state input
    ({ w with
        candidate := update w.candidate c (some state)
        closed := if ok then update w.closed c true else w.closed }, ok)

/-- One turn of `closeCandidates`: the context has ended, or the first candidate is closed. -/
def closeNext (closer : Closer) (input : Option K.Input) : Option (World K × Closer) :=
  match closer.todo, input with
  | [], _ => none
  | _ :: _, none => some (w, closer.expire)
  | c :: _, some input =>
    let (w, ok) := w.closeCandidate c input
    some (w, closer.attempt ok)

end World

/-! ## Steps -/

/-- What happens to a staging call. -/
inductive AttemptEvent (Input : Type)
  /-- The context has ended, or the host's root context. -/
  | refuse
  /-- The activation token is received. -/
  | begin
  /-- The next executable is started. -/
  | start (input : Input)
  /-- Composition ends with the digest of its plan ID, or fails. -/
  | compose (digest : Option String)
  /-- One turn of `closeCandidates`; no input if its context has ended. -/
  | close (input : Option Input)
  /-- The end of `cleanAborted`. -/
  | abort
  /-- The deferred `finish` of `stage`. -/
  | leave
  /-- The generation is published, with whether the context has ended. -/
  | publish (ended : Bool)

/-- A step of a host's goroutines. -/
inductive HostLabel (Input : Type)
  /-- `Activate` up to the end of `beginExplicitActivation`. -/
  | activate (t : ℕ) (set : PluginSet)
  | attempt (p : Party) (event : AttemptEvent Input)
  /-- `finishExplicitActivation`. -/
  | finish (t : ℕ)
  /-- The controller receives from `recoveryWake`. -/
  | wake
  /-- The controller finds the host's root context ended. -/
  | stop
  /-- The first critical section of `recoverOnce`. -/
  | recover
  /-- The clock of `recoverOnce` returns, with whether the attempt's context has ended. -/
  | waited (ended : Bool)
  /-- `finishRecoveryFailure`, or the return after a publication. -/
  | settle
  /-- The deferred critical section of `recoverOnce`. -/
  | resume
  /-- The first critical section of `lease`. -/
  | lease (l : ℕ) (request : Option String)
  /-- The rest of `lease`: whether the lease was constructed and the context has ended. -/
  | confirm (l : ℕ) (constructed ended : Bool)
  | release (l : ℕ)
  | observe (g c : ℕ)
  /-- An observer finds the host's root context ended. -/
  | unobserve (g c : ℕ)
  /-- A candidate changes by itself: its process exits, its connection fails. -/
  | change (c : ℕ) (input : Input)
  /-- One turn of `closeCandidates` in a `cleanup`. -/
  | cleanup (k : ℕ) (input : Option Input)
  /-- The end of a `cleanup`. -/
  | cleaned (k : ℕ)
  | close (t : ℕ)
  /-- A `Close` call receives from `closeGate`, with whether its context has ended. -/
  | enter (t : ℕ) (ended : Bool)
  | progress (t : ℕ)
  /-- A `Close` call finds a channel it waits for closed. -/
  | changed (t : ℕ)
  /-- The context of a `Close` call has ended. -/
  | giveUp (t : ℕ)

namespace World

/-- `cleanAborted` and the rest of a failed staging call. -/
def abortPhase (staging : Bool) (candidates : List ℕ) : AttemptPhase :=
  .aborting staging candidates (Closer.start candidates)

variable (w : World K) (t : ℕ)

variable (p : Party)

/-- `beginActivation` once the token is received. -/
def beginStage (set : PluginSet) : World K :=
  if w.host.closing || w.host.limitReached set.executables.length then w.setPhase p (.ended false)
  else
    { w.setPhase p (.starting w.host.beginActivation.sequence [] set.executables) with
      host := w.host.beginActivation
      token := false }

/-- The start of one executable by `stage`. -/
def startNext (sequence : ℕ) (candidates : List ℕ) (executable : String)
    (rest : List String) (input : K.Input) : World K :=
  let (value, ok) := K.start executable input
  let candidates := if value.isSome then candidates ++ [w.started] else candidates
  let w := w.setPhase p
    (if ok then .starting sequence candidates rest else abortPhase true candidates)
  match value with
  | none => w
  | some state =>
    { w with
      candidate := update w.candidate w.started (some state)
      started := w.started + 1 }

def watch (g : ℕ) (candidates : List ℕ) : ℕ → ℕ → Bool :=
  update w.observers g fun c => decide (c ∈ candidates)

/-- `publishExplicit` and `publishRecovery`. -/
def publish (id : PlanID) (candidates : List ℕ) (ended : Bool) : World K :=
  let failed := w.setPhase p (abortPhase false candidates)
  let published (host : Host) : World K :=
    { w.setPhase p (.ended true) with
      host := host
      observers := w.watch w.host.generations candidates }
  match p with
  | .activation t =>
    match w.activates t with
    | none => w
    | some a =>
      if w.host.canPublishExplicit w.done ended candidates a.revision then
        published (w.host.publishExplicit id candidates a.set)
      else failed
  | .controller =>
    match w.controller with
    | .attempting serial _ =>
      if w.host.canPublishRecovery w.done ended candidates serial then
        published (w.host.publishRecovery id candidates)
      else failed
    | _ => w

/-- The end of `cleanAborted`. -/
def endAbort (staging : Bool) (candidates : List ℕ) (failed : Bool) : World K :=
  { w.setPhase p (if staging then .leaving none else .ended false) with
    host := if failed then w.host.retainAborted candidates else w.host }

/-- The end of `stage`. -/
def endStage (generation : Option (PlanID × List ℕ)) : World K :=
  { w.setPhase p (match generation with
      | none => .ended false
      | some (id, candidates) => .staged id candidates) with
    host := w.host.finishActivation
    token := true }

def attemptStep (event : AttemptEvent K.Input) : Option (World K) :=
  match w.phase p, event with
  | some (.waiting _), .refuse => some (w.setPhase p (.ended false))
  | some (.waiting set), .begin => if w.token then some (w.beginStage p set) else none
  | some (.starting n cs (x :: rest)), .start input => some (w.startNext p n cs x rest input)
  | some (.starting _ cs []), .compose none => some (w.setPhase p (abortPhase true cs))
  | some (.starting n cs []), .compose (some digest) =>
    if Host.candidateHealth w.done cs then none
    else some (w.setPhase p (.leaving (some (Host.generationPlanID n digest, cs))))
  | some (.aborting staging cs closer), .close input =>
    (w.closeNext closer input).map fun (w, closer) => w.setPhase p (.aborting staging cs closer)
  | some (.aborting staging cs closer), .abort =>
    if closer.todo = [] then some (w.endAbort p staging cs closer.failed) else none
  | some (.leaving generation), .leave => some (w.endStage p generation)
  | some (.staged id cs), .publish ended => some (w.publish p id cs ended)
  | _, _ => none

/-- `Activate` up to the end of `beginExplicitActivation`. -/
def activateStep (set : PluginSet) : Option (World K) :=
  if w.activates t = none ∧ w.host.closing = false then
    let (host, revision) := w.host.beginExplicitActivation
    some { w with
      host := host
      activates := update w.activates t (some ⟨set, revision, .waiting set⟩) }
  else none

/-- The deferred `finishExplicitActivation` of `Activate`. -/
def finishStep : Option (World K) :=
  match w.phase (.activation t) with
  | some (.ended published) =>
    some { w.setPhase (.activation t) (.returned published) with
      host := w.host.finishExplicitActivation w.done published }
  | _ => none

/-- The first critical section of `recoverOnce`. -/
def recoverStep : Option (World K) :=
  match w.controller, w.host.recovery with
  | .awake, none => some { w with controller := .selecting }
  | .awake, some e =>
    if e.exhausted || w.host.closing then some { w with controller := .selecting }
    else some { w with
      host := w.host.beginRecovery e
      controller :=
        if 0 < w.host.restart.backoff (e.attempts + 1) then .backingOff e.serial e.desired
        else .attempting e.serial (.waiting e.desired) }
  | _, _ => none

/-- The clock of `recoverOnce`. -/
def waitedStep (ended : Bool) : Option (World K) :=
  match w.controller with
  | .backingOff serial desired =>
    if ended then
      if w.host.cancelled || w.host.closing then
        some { w with controller := .leaving serial false }
      else none
    else some { w with controller := .attempting serial (.waiting desired) }
  | _ => none

/-- The end of a recovery attempt before the deferred section of `recoverOnce`. -/
def settleStep : Option (World K) :=
  match w.controller with
  | .attempting serial (.ended true) => some { w with controller := .leaving serial false }
  | .attempting serial (.ended false) =>
    let (host, again) := w.host.finishRecoveryFailure serial
    some { w with host := host, controller := .leaving serial again }
  | _ => none

/-- The steps of the recovery controller outside its staging call. -/
def resumeStep : Option (World K) :=
  match w.controller with
  | .leaving serial again =>
    some { w with
      host := w.host.endRecovery serial
      controller := if again then .awake else .selecting }
  | _ => none

/-- The first critical section of `lease`. -/
def leaseStep (l : ℕ) (request : Option String) : Option (World K) :=
  if w.leases l = none then
    let (host, acquired) := w.host.acquire w.done request
    some { w with
      host := host
      leases := match acquired with
        | none => w.leases
        | some g => update w.leases l (some ⟨g, request, .acquired⟩) }
  else none

/-- The rest of `lease`. -/
def confirmStep (l : ℕ) (constructed ended : Bool) : Option (World K) :=
  match w.leases l with
  | some ⟨g, request, .acquired⟩ =>
    if constructed then
      let (host, failure) := w.host.generationHealth w.done g
      some { w with
        host := host
        leases := update w.leases l
          (some ⟨g, request, if failure || ended then .dropping else .held⟩) }
    else some { w with leases := update w.leases l (some ⟨g, request, .dropping⟩) }
  | _ => none

def releaseStep (l : ℕ) : Option (World K) :=
  match w.leases l with
  | some ⟨g, request, phase⟩ =>
    if phase = .held ∨ phase = .dropping then
      some { w with
        host := w.host.release g
        leases := update w.leases l (some ⟨g, request, .released⟩) }
    else none
  | none => none

def unwatch (g c : ℕ) : World K :=
  { w with observers := update w.observers g (update (w.observers g) c false) }

/-- One turn of `closeCandidates` in a `cleanup`. -/
def cleanupStep (k : ℕ) (input : Option K.Input) : Option (World K) :=
  match w.host.cleanups k with
  | none => none
  | some ⟨g, closer⟩ =>
    (w.closeNext closer input).map fun (w, closer) =>
      { w with
        host := { w.host with cleanups := update w.host.cleanups k (some ⟨g, closer⟩) } }

/-- The end of a `cleanup`. -/
def cleanedStep (k : ℕ) : Option (World K) :=
  match w.host.cleanups k with
  | none => none
  | some ⟨g, closer⟩ =>
    if closer.todo = [] then some { w with host := w.host.finishCleanup k g closer.failed }
    else none

/-- Moves a `Close` call. -/
def setClose (phase : ClosePhase) : World K :=
  { w with closes := update w.closes t (some phase) }

/-- A `Close` call that receives from `closeGate`. -/
def enterStep (ended : Bool) : Option (World K) :=
  if w.closes t = some .gate ∧ w.closeGate = true then
    if ended then some (w.setClose t (.returned .context))
    else
      let (host, attempt) := w.host.beginClose
      some { w.setClose t (.looping attempt) with host := host, closeGate := false }
  else none

/-- The recovery controller has closed `recoveryDone`. -/
def controllerDone : Bool := w.controller = .stopped

/-- One turn of the loop of `Close`. -/
def progressStep : Option (World K) :=
  match w.closes t with
  | some (.looping attempt) =>
    let (host, progress) := w.host.closeProgress attempt w.controllerDone
    match progress with
    | .wait =>
      some { w.setClose t (.waiting attempt host.changed !w.controllerDone) with host := host }
    | .done => some { w.setClose t (.returned .closed) with host := host, closeGate := true }
    | .failed =>
      some { w.setClose t (.returned .cleanupFailed) with host := host, closeGate := true }
  | _ => none

/-- A waiting `Close` call that one of its channels wakes. -/
def changedStep : Option (World K) :=
  match w.closes t with
  | some (.waiting attempt changed watching) =>
    if w.host.changed ≠ changed ∨ (watching = true ∧ w.controllerDone = true) then
      some (w.setClose t (.looping attempt))
    else none
  | _ => none

/-- A `Close` call whose context has ended. -/
def giveUpStep : Option (World K) :=
  match w.closes t with
  | some .gate => some (w.setClose t (.returned .context))
  | some (.waiting _ _ _) =>
    some { w.setClose t (.returned .context) with closeGate := true }
  | _ => none

def step : HostLabel K.Input → Option (World K)
  | .activate t set => w.activateStep t set
  | .attempt p event => w.attemptStep p event
  | .finish t => w.finishStep t
  | .wake =>
    if w.controller = .selecting ∧ w.host.recoveryWake = true then
      some { w with controller := .awake, host := { w.host with recoveryWake := false } }
    else none
  | .stop =>
    if w.controller = .selecting ∧ w.host.closing = true then some { w with controller := .stopped }
    else none
  | .recover => w.recoverStep
  | .waited ended => w.waitedStep ended
  | .settle => w.settleStep
  | .resume => w.resumeStep
  | .lease l request => w.leaseStep l request
  | .confirm l constructed ended => w.confirmStep l constructed ended
  | .release l => w.releaseStep l
  | .observe g c =>
    if w.observers g c = true ∧ w.done c = true then
      some { w.unwatch g c with host := w.host.observe g }
    else none
  | .unobserve g c =>
    if w.observers g c = true ∧ w.host.closing = true then some (w.unwatch g c) else none
  | .change c input =>
    some { w with
      candidate := update w.candidate c ((w.candidate c).map (K.change · input)) }
  | .cleanup k input => w.cleanupStep k input
  | .cleaned k => w.cleanedStep k
  | .close t => if w.closes t = none then some (w.setClose t .gate) else none
  | .enter t ended => w.enterStep t ended
  | .progress t => w.progressStep t
  | .changed t => w.changedStep t
  | .giveUp t => w.giveUpStep t

end World

/-- The goroutines of a host with candidates of the kind `K`. -/
def hostSystem (K : CandidateKind) (restart : RestartPolicy) (digest : String) :
    System (World K) (HostLabel K.Input) :=
  ⟨World.init K restart digest, World.step⟩

end SpiceAgent.Pluginhost
