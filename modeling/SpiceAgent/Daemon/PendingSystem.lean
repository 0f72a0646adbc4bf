import SpiceAgent.Daemon.Pending
import SpiceAgent.Lib.Transition

/-!
# The runs of the pending hub

The calls of `Request`, `Respond`, `FenceObservers` and `Close`, and the goroutines of the
observers, as threads over the hub. One step is one critical section of the hub's lock, one channel
operation or the end of a context. The context of a subscription only calls `detachWatcher` when it
ends; since that has no effect on an observer that has ended, the `stopContext` function is left
out.
-/

namespace SpiceAgent.Daemon

open SpiceAgent.Lib

/-- Where a call of `Request` stands; its pending call has the same identity. -/
inductive RequestPhase
  /-- At its `select`. -/
  | waiting
  /-- Its context ended; before `complete`. -/
  | cancelled
  /-- It has completed its call and closes the channel. -/
  | completing (result : PendingResult)
  /-- Another one has completed its call and closes the channel. -/
  | draining (result : PendingResult)
  | returned (result : PendingResult)
  deriving DecidableEq

/-- A call of `Request`. -/
structure RequestThread where
  ctxDone : Bool
  phase : RequestPhase
  deriving DecidableEq

/-- A call of `Respond`. -/
inductive RespondThread
  /-- It has completed the call and closes the channel. -/
  | closing (call : ℕ) (response : Interaction.Response)
  | accepted (call : ℕ) (response : Interaction.Response)
  | refused (err : HubError)
  deriving DecidableEq

/-- A call of `FenceObservers`. -/
inductive Fence
  /-- It waits for these observers to end. -/
  | waiting (client : String) (watchers : List ℕ)
  /-- It waits for `Close`. -/
  | closed
  | returned (client : String) (watchers : List ℕ)
  | refused (err : HubError)

/-- Where `Close` stands. -/
inductive ClosePhase
  | notCalled
  /-- It closes the channels of these calls. -/
  | closing (calls : List ℕ)
  /-- It waits for the goroutines of the observers. -/
  | joining
  /-- `closeDone` is closed. -/
  | finished
  deriving DecidableEq

/-- The hub and its threads. -/
structure PendingWorld where
  hub : PendingHub
  requests : ℕ → Option RequestThread
  responds : ℕ → Option RespondThread
  fences : ℕ → Option Fence
  closing : ClosePhase

namespace PendingWorld

section

variable (w : PendingWorld) (ref : ℕ)

def setRequest (id : ℕ) (thread : RequestThread) : PendingWorld :=
  { w with requests := Function.update w.requests id (some thread) }

def setRespond (id : ℕ) (thread : RespondThread) : PendingWorld :=
  { w with responds := Function.update w.responds id (some thread) }

def setFence (id : ℕ) (fence : Fence) : PendingWorld :=
  { w with fences := Function.update w.fences id (some fence) }

def setWatcher (watcher : Watcher) : PendingWorld :=
  { w with hub := w.hub.setWatcher ref watcher }

def closeDone : PendingWorld :=
  match w.hub.calls ref with
  | none => w
  | some call => { w with hub := w.hub.setCall ref { call with done := true } }

def isDone : Bool := (w.hub.calls ref).any (·.done)

/-- The channel `done` of an observer is closed. -/
def hasEnded : Bool := (w.hub.watchers ref).all (·.done)

end

variable (isJson : List UInt8 → Bool) (w : PendingWorld) (id : ℕ)

/-- A call of `Request` begins. -/
def beginRequest (runID : String) (request : Interaction.Request) (ctxDone : Bool) : PendingWorld :=
  match w.hub.request isJson id runID request ctxDone with
  | (hub, none) => { w with hub }.setRequest id { ctxDone, phase := .waiting }
  | (hub, some err) => { w with hub }.setRequest id { ctxDone, phase := .returned (.failed err) }

/-- A call of `Request` goes on; `ctx` chooses the context where both cases are ready. -/
def stepRequest (thread : RequestThread) (ctx : Bool) : Option PendingWorld :=
  match thread.phase with
  | .waiting =>
    if ctx then
      if thread.ctxDone then some (w.setRequest id { thread with phase := .cancelled }) else none
    else if w.isDone id then
      (w.hub.calls id).bind fun call => call.result.map fun result =>
        w.setRequest id { thread with phase := .returned result }
    else none
  | .cancelled =>
    (w.hub.calls id).map fun call =>
      match w.hub.complete id call (.failed .context) with
      | (hub, result, true) =>
        { w with hub }.setRequest id { thread with phase := .completing result }
      | (hub, result, false) =>
        { w with hub }.setRequest id { thread with phase := .draining result }
  | .completing result =>
    some ((w.closeDone id).setRequest id { thread with phase := .returned result })
  | .draining result =>
    if w.isDone id then some (w.setRequest id { thread with phase := .returned result }) else none
  | .returned _ => none

/-- A call of `Respond` begins. -/
def beginRespond (client runID : String) (response : Interaction.Response) : PendingWorld :=
  match w.hub.respond isJson client runID response with
  | (hub, .ok ref) => { w with hub }.setRespond id (.closing ref response)
  | (hub, .error err) => { w with hub }.setRespond id (.refused err)

/-- The goroutine of an observer goes on; `stop` chooses the case of its stop channel, and otherwise
an item is taken or received by the consumer. -/
def stepDeliver (ref : ℕ) (watcher : Watcher) (stop : Bool) : Option PendingWorld :=
  match watcher.phase with
  | .idle =>
    if stop then
      if watcher.stop then some (w.setWatcher ref { watcher with phase := .leaving }) else none
    else match watcher.queue with
      | [] => none
      | item :: rest =>
        some (w.setWatcher ref { watcher with queue := rest, phase := .holding item })
  | .holding item =>
    if stop then
      if watcher.stop then some (w.setWatcher ref { watcher with phase := .leaving }) else none
    else
      some (w.setWatcher ref
        { watcher with received := watcher.received ++ [item.delta], phase := .sent item })
  | .sent item => some { w with hub := w.hub.delivered ref watcher item }
  | .leaving =>
    some (w.setWatcher ref { watcher with queue := [], done := true, phase := .stopped })
  | .stopped => some { w with hub := w.hub.watcherStopped ref watcher }
  | .gone => none

/-- A call of `FenceObservers` begins. -/
def beginFence (client : String) : PendingWorld :=
  match boundedToken "client ID" client with
  | some failure => w.setFence id (.refused (.token failure))
  | none =>
    if w.hub.closed then w.setFence id .closed
    else if client ∉ w.hub.clients then w.setFence id (.returned client [])
    else { w with hub := w.hub.finishWatchers client .fenced }.setFence id
      (.waiting client (w.hub.observers client))

/-- A call of `FenceObservers` returns. -/
def stepFence : Fence → Option PendingWorld
  | .waiting client watchers =>
    if watchers.all w.hasEnded then some (w.setFence id (.returned client watchers)) else none
  | .closed => if w.closing = .finished then some (w.setFence id (.refused .closed)) else none
  | .returned _ _ => none
  | .refused _ => none

/-- `Close`, of which only the first call has an effect. -/
def stepClose : Option PendingWorld :=
  match w.closing with
  | .notCalled => some { w with hub := w.hub.close.1, closing := .closing w.hub.close.2 }
  | .closing [] => some { w with closing := .joining }
  | .closing (ref :: rest) => some { w.closeDone ref with closing := .closing rest }
  | .joining => if w.hub.watcherWG = 0 then some { w with closing := .finished } else none
  | .finished => none

/-- The steps of the hub and its callers. -/
inductive Label
  | bind (ref : ℕ) (client runID : String)
  | release (ref : ℕ)
  | request (id : ℕ) (runID : String) (request : Interaction.Request) (ctxDone : Bool)
  | runRequest (id : ℕ) (ctx : Bool)
  | cancel (id : ℕ)
  | respond (id : ℕ) (client runID : String) (response : Interaction.Response)
  | runRespond (id : ℕ)
  | subscribe (ref : ℕ) (client : String) (ctxDone : Bool)
  /-- The context of a subscription ends. -/
  | detach (ref : ℕ)
  | deliver (ref : ℕ) (stop : Bool)
  | fence (id : ℕ) (client : String)
  | runFence (id : ℕ)
  | close

/-- One step. New objects and threads get unused identities. -/
def step : Label → Option PendingWorld
  | .bind ref client runID =>
    if (w.hub.bindings ref).isSome then none
    else some { w with hub := (w.hub.bindRun ref client runID).1 }
  | .release ref => some { w with hub := w.hub.release ref }
  | .request id runID request ctxDone =>
    if (w.requests id).isSome ∨ (w.hub.calls id).isSome then none
    else some (w.beginRequest isJson id runID request ctxDone)
  | .runRequest id ctx => (w.requests id).bind fun thread => w.stepRequest id thread ctx
  | .cancel id => (w.requests id).map fun thread => w.setRequest id { thread with ctxDone := true }
  | .respond id client runID response =>
    if (w.responds id).isSome then none
    else some (w.beginRespond isJson id client runID response)
  | .runRespond id =>
    (w.responds id).bind fun
      | .closing ref response => some ((w.closeDone ref).setRespond id (.accepted ref response))
      | _ => none
  | .subscribe ref client ctxDone =>
    if (w.hub.watchers ref).isSome then none
    else some { w with hub := (w.hub.subscribe ref client ctxDone).1 }
  | .detach ref => some { w with hub := w.hub.finishWatcher ref .context false }
  | .deliver ref stop => (w.hub.watchers ref).bind fun watcher => w.stepDeliver ref watcher stop
  | .fence id client => if (w.fences id).isSome then none else some (w.beginFence id client)
  | .runFence id => (w.fences id).bind fun fence => w.stepFence id fence
  | .close => w.stepClose

end PendingWorld

def pendingSystem (isJson : List UInt8 → Bool) (limits : PendingLimits) :
    System PendingWorld PendingWorld.Label where
  init := { hub := .new limits, requests := fun _ => none, responds := fun _ => none,
            fences := fun _ => none, closing := .notCalled }
  step := PendingWorld.step isJson

end SpiceAgent.Daemon
