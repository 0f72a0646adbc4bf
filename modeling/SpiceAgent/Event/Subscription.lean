import SpiceAgent.Event.Replay
import SpiceAgent.Lib.Transition

/-!
# Subscriptions of the log

`Subscription` is the object of `event/log.go` with its bounded queue; `Phase` is where its delivery
goroutine stands. `World` is a log with its subscriptions. One step of `World.step` is one critical
section of one lock, one receive of a consumer, or one return of a goroutine: `Append`, `Close` and
a registration on a closed log keep the log's lock (`Held`) while they visit the subscriptions one
by one, and every goroutine may move in between.
-/

namespace SpiceAgent.Event

open SpiceAgent.Lib

/-- The `context.AfterFunc` of a subscription. -/
inductive ContextHook
  /-- Registered, the context has not ended. -/
  | armed
  /-- The context has ended and the hook's goroutine has yet to run. -/
  | started
  /-- Run or stopped. -/
  | stopped
  deriving DecidableEq

/-- Where the delivery goroutine stands. -/
inductive Phase
  /-- Not started yet. -/
  | created
  /-- At the head of the loop. -/
  | top
  /-- In the `select` with the head of the queue. -/
  | sending (entry : LogEntry)
  /-- The consumer has received the entry, which is not recorded yet. -/
  | sent (entry : LogEntry)
  /-- The `select` chose `ctx.Done`. -/
  | cancelled
  /-- Returned from the loop. -/
  | returned
  /-- The context hook is stopped. -/
  | hookStopped
  /-- Removed from the log. -/
  | unregistered
  /-- `done` is closed. -/
  | done
  /-- `done` and the event channel are closed. -/
  | closed
  deriving DecidableEq

/-- `Subscription` is one independent bounded replay/tail cursor. The fields `start` and `delivered`
record the cursor it began with and what its consumer has received. -/
structure Subscription where
  id : ℕ
  ctxDone : Bool
  hook : ContextHook
  queue : List LogEntry
  queuedBytes : ℤ
  maxEvents : ℤ
  maxBytes : ℤ
  terminal : Bool
  err : Option LogError
  lastDelivered : ℕ
  abort : Bool
  phase : Phase
  start : ℕ
  delivered : List Envelope

/-- `newSubscription`, with the state of its context at the registration of the hook. -/
def newSubscription (id : ℕ) (ctxDone : Bool) (after : ℕ) (limits : LogLimits)
    (replay : List LogEntry) (phase : Phase) : Subscription where
  id := id
  ctxDone := ctxDone
  hook := if ctxDone then .started else .armed
  queue := replay
  queuedBytes := totalBytes replay
  maxEvents := limits.subscriberMaxEvents
  maxBytes := limits.subscriberMaxBytes
  terminal := false
  err := none
  lastDelivered := after
  abort := false
  phase := phase
  start := after
  delivered := []

namespace Subscription

variable (s : Subscription)

def terminate (err : LogError) : Subscription :=
  if s.terminal then s
  else { s with terminal := true, err := some err, queue := [], queuedBytes := 0, abort := true }

/-- `finish(nil)`. -/
def finish : Subscription :=
  if s.terminal then s else { s with terminal := true, err := none }

def exhausted (resource : Resource) (limit observed : ℕ) : LogError :=
  .resourceExhausted
    { lastDelivered := s.lastDelivered, maxEvents := s.maxEvents, maxBytes := s.maxBytes,
      resource, limit, observed }

/-- `offer` queues an entry, or disconnects a subscriber that is too slow for it. -/
def offer (entry : LogEntry) : Subscription × Bool :=
  if s.terminal then (s, false)
  else if s.maxEvents ≤ s.queue.length then
    (s.terminate (s.exhausted .eventSubscriptionEvents (nonnegativeUint64 s.maxEvents)
      ((s.queue.length + 1) % 2 ^ 64)), true)
  else if s.maxBytes < entry.bytes ∨ s.maxBytes - entry.bytes < s.queuedBytes then
    (s.terminate (s.exhausted .eventSubscriptionBytes (nonnegativeUint64 s.maxBytes)
      ((nonnegativeUint64 s.queuedBytes + nonnegativeUint64 entry.bytes) % 2 ^ 64)), true)
  else
    ({ s with queue := s.queue ++ [entry], queuedBytes := s.queuedBytes + entry.bytes }, false)

/-- An exhaustion that was already recorded has its cursor moved. -/
def moveCursor (err : Option LogError) (seq : ℕ) : Option LogError :=
  match err with
  | some (.resourceExhausted failure) =>
    some (.resourceExhausted { failure with lastDelivered := seq })
  | err => err

/-- The critical section after a send: the entry leaves the queue unless a termination cleared it,
and the cursor moves. -/
def record (entry : LogEntry) : Subscription :=
  match s.queue with
  | e :: rest =>
    if e.seq = entry.seq then
      { s with queue := rest, queuedBytes := s.queuedBytes - entry.bytes
               lastDelivered := entry.seq, err := moveCursor s.err entry.seq }
    else { s with lastDelivered := entry.seq, err := moveCursor s.err entry.seq }
  | [] => { s with lastDelivered := entry.seq, err := moveCursor s.err entry.seq }

/-- The steps of the goroutines of a subscription. -/
inductive Action
  /-- The context ends. -/
  | cancel
  /-- The context hook terminates the subscription. -/
  | contextTerminate
  /-- The loop takes the head of the queue, or returns from an ended subscription. -/
  | pick
  /-- The `select` chooses the closed `abort` channel. -/
  | abortExit
  /-- The `select` chooses `ctx.Done`. -/
  | ctxExit
  /-- The goroutine terminates the subscription after `ctx.Done`. -/
  | ctxTerminate
  /-- The consumer receives the entry. -/
  | send
  | record
  | stopHook
  | closeDone
  | closeEvents

/-- One step of a goroutine of the subscription. -/
def step : Action → Option Subscription
  | .cancel =>
    if s.ctxDone then none
    else some { s with ctxDone := true, hook := if s.hook = .armed then .started else s.hook }
  | .contextTerminate =>
    if s.hook = .started then some { s.terminate .context with hook := .stopped } else none
  | .pick =>
    if s.phase = .top then
      match s.queue with
      | [] => if s.terminal then some { s with phase := .returned } else none
      | e :: _ => some { s with phase := .sending e }
    else none
  | .abortExit =>
    match s.phase with
    | .sending _ => if s.abort then some { s with phase := .returned } else none
    | _ => none
  | .ctxExit =>
    match s.phase with
    | .sending _ => if s.ctxDone then some { s with phase := .cancelled } else none
    | _ => none
  | .ctxTerminate =>
    if s.phase = .cancelled then some { s.terminate .context with phase := .returned } else none
  | .send =>
    match s.phase with
    | .sending e => some { s with phase := .sent e, delivered := s.delivered ++ [e.envelope] }
    | _ => none
  | .record =>
    match s.phase with
    | .sent e => some { s.record e with phase := .top }
    | _ => none
  | .stopHook =>
    if s.phase = .returned then
      some { s with phase := .hookStopped, hook := if s.hook = .armed then .stopped else s.hook }
    else none
  | .closeDone => if s.phase = .unregistered then some { s with phase := .done } else none
  | .closeEvents => if s.phase = .done then some { s with phase := .closed } else none

/-- `Wait` with a context that never ends: it returns the recorded error once `done` is closed. -/
def wait : Option (Option LogError) :=
  match s.phase with
  | .done | .closed => some s.err
  | _ => none

end Subscription

/-! ## The log with its subscriptions -/

/-- An operation that holds the log's lock, with the identities it has still to visit. -/
inductive Held
  | offering (entry : LogEntry) (remaining : List ℕ)
  | finishing (remaining : List ℕ)
  /-- A registration on a closed log that has yet to finish the new subscription. -/
  | registering (ref : ℕ)

/-- A log and its subscriptions by address, with the entries it has accepted since it began after
`start`. -/
structure World where
  log : Log
  held : Option Held
  subs : ℕ → Option Subscription
  start : ℕ
  accepted : List LogEntry

/-- The steps of a log and its subscriptions. Calls carry the state of their context at the check
and at the registration, and a fresh address for the subscription they may create. -/
inductive Label
  | append (envelope : Envelope)
  | offer (id : ℕ)
  | replay (ctxErr : Bool) (request : ReplayRequest) (ref : ℕ) (ctxDone : Bool)
  | subscribe (ctxErr : Bool) (after : ℕ) (ref : ℕ) (ctxDone : Bool)
  | close
  | finish (id : ℕ)
  | finishNew
  | act (ref : ℕ) (action : Subscription.Action)
  | onDone (ref : ℕ)

namespace World

variable (w : World) (ref : ℕ)

def setSub (s : Subscription) : World :=
  { w with subs := Function.update w.subs ref (some s) }

/-- The subscription registered under an identity. -/
def registered (id : ℕ) : Option (ℕ × Subscription) :=
  (w.log.subscribers.lookup id).bind fun ref => (w.subs ref).map fun s => (ref, s)

/-- Visits `ids`, or releases the lock when none is left. -/
def visiting (op : List ℕ → Held) (ids : List ℕ) : Option Held :=
  if ids = [] then none else some (op ids)

def countSlow (log : Log) (slow : Bool) : Log :=
  if slow then
    { log with stats := { log.stats with
        slowSubscriberDisconnects := (log.stats.slowSubscriberDisconnects + 1) % 2 ^ 64 } }
  else log

/-- `Append` up to its first offer. -/
def stepAppend (envelope : Envelope) : Option World :=
  match w.held, w.log.append envelope with
  | none, .accepted log entry =>
    some { w with log, accepted := w.accepted ++ [entry]
                  held := visiting (.offering entry) log.subscribers.keys }
  | none, .rejected log _ => some { w with log }
  | _, _ => none

/-- One offer of the append that holds the lock. -/
def stepOffer (id : ℕ) : Option World :=
  match w.held, w.registered id with
  | some (.offering entry remaining), some (ref, s) =>
    if id ∈ remaining then
      some { w.setSub ref (s.offer entry).1 with
              log := countSlow w.log (s.offer entry).2
              held := visiting (.offering entry) (remaining.erase id) }
    else none
  | _, _ => none

/-- `Replay`, which creates a subscription when its page has a tail. -/
def stepReplay (ctxErr : Bool) (request : ReplayRequest) (ref : ℕ) (ctxDone : Bool) :
    Option World :=
  match w.held, w.subs ref, w.log.replay ctxErr request ref with
  | none, none, (log, .ok page) =>
    if page.tailing then
      some ({ w with log }.setSub ref
        (newSubscription log.nextSubID ctxDone page.pageLastSequence log.limits [] .top))
    else some { w with log }
  | none, none, (log, .error _) => some { w with log }
  | _, _, _ => none

/-- `Subscribe`: on a closed log the new subscription is finished before its goroutine starts. -/
def stepSubscribe (ctxErr : Bool) (after : ℕ) (ref : ℕ) (ctxDone : Bool) : Option World :=
  match w.held, w.subs ref, w.log.subscribe ctxErr after ref with
  | none, none, (log, .ok replay) =>
    if log.closed then
      some ({ w with log, held := some (.registering ref) }.setSub ref
        (newSubscription log.nextSubID ctxDone after log.limits replay .created))
    else
      some ({ w with log }.setSub ref
        (newSubscription log.nextSubID ctxDone after log.limits replay .top))
  | none, none, (log, .error _) => some { w with log }
  | _, _, _ => none

/-- `Close` up to its first `finish`. -/
def stepClose : Option World :=
  match w.held with
  | none =>
    if w.log.closed then some w
    else some { w with log := { w.log with closed := true }
                       held := visiting .finishing w.log.subscribers.keys }
  | some _ => none

/-- One `finish` of the `Close` that holds the lock. -/
def stepFinish (id : ℕ) : Option World :=
  match w.held, w.registered id with
  | some (.finishing remaining), some (ref, s) =>
    if id ∈ remaining then
      some { w.setSub ref s.finish with held := visiting .finishing (remaining.erase id) }
    else none
  | _, _ => none

/-- The `finish` of a registration on a closed log, after which the goroutine starts. -/
def stepFinishNew : Option World :=
  match w.held with
  | some (.registering ref) =>
    (w.subs ref).map fun s => { w.setSub ref { s.finish with phase := .top } with held := none }
  | _ => none

def stepAct (action : Subscription.Action) : Option World :=
  (w.subs ref).bind fun s => (s.step action).map fun s' => w.setSub ref s'

/-- The `onDone` callback, which takes the log's lock. -/
def stepOnDone : Option World :=
  match w.held, w.subs ref with
  | none, some s =>
    if s.phase = .hookStopped then
      some { w.setSub ref { s with phase := .unregistered } with
              log := { w.log with subscribers := w.log.subscribers.erase s.id } }
    else none
  | _, _ => none

def step : Label → Option World
  | .append envelope => w.stepAppend envelope
  | .offer id => w.stepOffer id
  | .replay ctxErr request ref ctxDone => w.stepReplay ctxErr request ref ctxDone
  | .subscribe ctxErr after ref ctxDone => w.stepSubscribe ctxErr after ref ctxDone
  | .close => w.stepClose
  | .finish id => w.stepFinish id
  | .finishNew => w.stepFinishNew
  | .act ref action => w.stepAct ref action
  | .onDone ref => w.stepOnDone ref

end World

def logSystem (log : Log) : System World Label where
  init := { log, held := none, subs := fun _ => none, start := log.lastSequence, accepted := [] }
  step := World.step

end SpiceAgent.Event
