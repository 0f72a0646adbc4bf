import Mathlib.Data.Finmap
import Mathlib.Data.Finset.Sort
import Mathlib.Data.List.Sort
import Mathlib.Data.String.Basic
import SpiceAgent.Daemon.Session
import SpiceAgent.Interaction

/-!
# The pending interaction hub

`PendingHub` (`daemon/pending.go`) keeps, for every client, the interactions that its runs wait for,
and lets observers follow that set: a subscription gets a complete snapshot and then every change,
as deltas with consecutive revisions, through a bounded queue of its own. This file has the data of
the hub and the functions that run under its lock; the calls, goroutines and their interleaving are
in `PendingSystem`.
-/

namespace SpiceAgent.Daemon

open SpiceAgent.Lib Function

structure PendingLimits where
  clients : ℤ
  runs : ℤ
  runsPerClient : ℤ
  pending : ℤ
  pendingPerClient : ℤ
  pendingBytes : ℤ
  pendingBytesPerClient : ℤ
  observers : ℤ
  observersPerClient : ℤ
  observerQueueEntries : ℤ
  observerQueueBytes : ℤ
  reservedQueueEntries : ℤ
  reservedQueueEntriesPerClient : ℤ
  reservedQueueBytes : ℤ
  reservedQueueBytesPerClient : ℤ
  queuedEntries : ℤ
  queuedEntriesPerClient : ℤ
  queuedBytes : ℤ
  queuedBytesPerClient : ℤ

/-! ## Values -/

/-- `Pending`, with the run of its scope. -/
structure Pending where
  runID : String
  request : Interaction.Request
  deriving DecidableEq, Inhabited

inductive DeltaKind
  | opened
  | closed
  deriving DecidableEq

structure Delta where
  revision : ℕ
  kind : DeltaKind
  pending : Pending
  deriving DecidableEq

structure PendingKey where
  runID : String
  interactionID : List UInt8
  deriving DecidableEq

/-- `makePendingKey`. -/
def Pending.key (value : Pending) : PendingKey := ⟨value.runID, value.request.id⟩

/-- `pendingValueBytes`. -/
def Pending.bytes (value : Pending) : ℤ :=
  value.runID.utf8ByteSize + value.request.id.length + value.request.kind.length +
    value.request.prompt.length + value.request.schema.length

/-- `pendingDeltaBytes`. -/
def Delta.bytes (delta : Delta) : ℤ := delta.pending.bytes + 32

structure PendingSnapshot where
  revision : ℕ
  pending : List Pending

/-- The order of snapshots and of `Close`, by the bytes of the IDs. -/
def PendingKey.le (a b : PendingKey) : Prop :=
  utf8 a.runID < utf8 b.runID ∨ a.runID = b.runID ∧ a.interactionID ≤ b.interactionID

instance : DecidableRel PendingKey.le := fun _ _ => inferInstanceAs (Decidable (_ ∨ _))

/-- The largest `uint64`. -/
def maxRevision : ℕ := 2 ^ 64 - 1

/-- The errors of the hub. -/
inductive HubError
  | closed
  | token (failure : TokenError)
  | scope
  | request
  | response
  | context
  | runNotBound
  | runAlreadyBound (runID : String)
  | runBindingCapacity (detail : String)
  | alreadyPending
  | pendingCapacity (detail : String)
  | observerCapacity (detail : String)
  | notPending
  /-- `ErrObserverFenced`. -/
  | fenced
  /-- `ObserverExhaustedError` before `Wait` fills in its `LastDelivered`. -/
  | exhausted (resource : String) (limit observed : ℤ)
  deriving DecidableEq

/-! ## Objects -/

inductive PendingResult
  | response (response : Interaction.Response)
  | failed (err : HubError)
  deriving DecidableEq

/-- `pendingCall`; `binding` is the identity of its run's binding. -/
structure PendingCall where
  value : Pending
  binding : ℕ
  done : Bool
  result : Option PendingResult

/-- `runBindingState` with the `once` of its lease. -/
structure RunBinding where
  clientID : String
  runID : String
  accepting : Bool
  active : ℤ
  released : Bool
  once : Bool

structure QueuedDelta where
  delta : Delta
  bytes : ℤ
  deriving DecidableEq

/-- Where the goroutine `deliver` of an observer stands. -/
inductive DeliverPhase
  /-- At the first `select`. -/
  | idle
  /-- At the second `select`, with an item taken from the queue. -/
  | holding (item : QueuedDelta)
  /-- The consumer has received the item; `delivered` has yet to run. -/
  | sent (item : QueuedDelta)
  /-- Before the deferred function. -/
  | leaving
  /-- Its channels are closed; `watcherStopped` has yet to run. -/
  | stopped
  | gone
  deriving DecidableEq

/-- `pendingWatcher` and its subscription. `received` is what the consumer has received. -/
structure Watcher where
  client : String
  id : ℕ
  snapshot : PendingSnapshot
  queue : List QueuedDelta
  active : Bool
  err : Option HubError
  exhausted : Bool
  lastDelivered : ℕ
  queuedCount : ℤ
  queuedBytes : ℤ
  /-- `stop` and `done` are closed. -/
  stop : Bool
  done : Bool
  phase : DeliverPhase
  received : List Delta

variable (watcher : Watcher)

/-- The observer after a delta was put into its queue. -/
def Watcher.push (delta : Delta) : Watcher :=
  { watcher with
    queue := watcher.queue ++ [⟨delta, delta.bytes⟩]
    queuedCount := watcher.queuedCount + 1
    queuedBytes := watcher.queuedBytes + delta.bytes }

def Watcher.finish (err : HubError) (exhausted : Bool) : Watcher :=
  { watcher with
    active := false, err := some err, exhausted, queuedBytes := 0, queuedCount := 0, stop := true }

/-- What `Wait` returns. -/
inductive Terminal
  /-- `ObserverExhaustedError`. -/
  | exhausted (resource : String) (limit observed : ℤ) (lastDelivered : ℕ)
  | withoutRecoveryFacts
  | failed (err : Option HubError)

def Watcher.terminalError : Terminal :=
  if watcher.exhausted then
    match watcher.err with
    | some (.exhausted resource limit observed) =>
      .exhausted resource limit observed watcher.lastDelivered
    | _ => .withoutRecoveryFacts
  else .failed watcher.err

/-- What `Wait` returns once `done` is closed. -/
def Watcher.wait : Option Terminal :=
  if watcher.done then some watcher.terminalError else none

abbrev PendingSet := Finmap fun _ : PendingKey => Pending

/-- `pendingPartition`. `log` has all deltas that were published and `views` the pending set at
every revision. -/
structure Partition where
  revision : ℕ
  nextWatcher : ℕ
  pendingBytes : ℤ
  queuedBytes : ℤ
  reservedBytes : ℤ
  boundRuns : ℤ
  queuedEntries : ℤ
  reservedEntries : ℤ
  pending : AList fun _ : PendingKey => ℕ
  watchers : AList fun _ : ℕ => ℕ
  stopping : List ℕ
  log : List Delta
  views : List PendingSet

def Partition.new : Partition :=
  { revision := 0, nextWatcher := 0, pendingBytes := 0, queuedBytes := 0, reservedBytes := 0,
    boundRuns := 0, queuedEntries := 0, reservedEntries := 0, pending := ∅, watchers := ∅,
    stopping := [], log := [], views := [∅] }

/-- `PendingHub` with the objects it points to. -/
structure PendingHub where
  limits : PendingLimits
  pendingCount : ℤ
  pendingBytes : ℤ
  observerCount : ℤ
  queuedEntries : ℤ
  queuedBytes : ℤ
  reservedEntries : ℤ
  reservedBytes : ℤ
  /-- The clients that have a partition. -/
  clients : Finset String
  partition : String → Partition
  runs : AList fun _ : String => ℕ
  watcherWG : ℕ
  closed : Bool
  calls : ℕ → Option PendingCall
  bindings : ℕ → Option RunBinding
  watchers : ℕ → Option Watcher

namespace PendingHub

/-- `NewPendingHub` with accepted limits. -/
def new (limits : PendingLimits) : PendingHub :=
  { limits, pendingCount := 0, pendingBytes := 0, observerCount := 0, queuedEntries := 0,
    queuedBytes := 0, reservedEntries := 0, reservedBytes := 0, clients := ∅,
    partition := fun _ => .new, runs := ∅, watcherWG := 0, closed := false, calls := fun _ => none,
    bindings := fun _ => none, watchers := fun _ => none }

section

variable (hub : PendingHub) (ref : ℕ) (client : String)

def setPartition (p : Partition) : PendingHub :=
  { hub with partition := update hub.partition client p }

def setCall (call : PendingCall) : PendingHub :=
  { hub with calls := update hub.calls ref (some call) }

def setBinding (binding : RunBinding) : PendingHub :=
  { hub with bindings := update hub.bindings ref (some binding) }

def setWatcher (watcher : Watcher) : PendingHub :=
  { hub with watchers := update hub.watchers ref (some watcher) }

def valueOf : Pending := ((hub.calls ref).map (·.value)).getD default

def view : PendingSet :=
  ((hub.partition client).pending.entries.map fun e => ⟨e.1, hub.valueOf e.2⟩).toFinmap

def snapshot : PendingSnapshot :=
  let values := (hub.partition client).pending.entries.map fun e => hub.valueOf e.2
  { revision := (hub.partition client).revision
    pending := values.insertionSort fun a b => a.key.le b.key }

/-! ## Observers -/

def sortedWatcherIDs (watchers : AList fun _ : ℕ => ℕ) : List ℕ :=
  watchers.keys.insertionSort (· ≤ ·)

/-- The hub after the delta was put into the observer's queue. -/
def pushed (watcher : Watcher) (delta : Delta) : PendingHub :=
  let p := hub.partition watcher.client
  { (hub.setWatcher ref (watcher.push delta)).setPartition watcher.client
      { p with
        queuedEntries := p.queuedEntries + 1
        queuedBytes := p.queuedBytes + delta.bytes } with
    queuedEntries := hub.queuedEntries + 1
    queuedBytes := hub.queuedBytes + delta.bytes }

/-- Why `enqueueLocked` refuses the delta. -/
def refusal (watcher : Watcher) (delta : Delta) : Option HubError :=
  let limits := hub.limits
  let p := hub.partition watcher.client
  let size := delta.bytes
  if limits.observerQueueEntries ≤ watcher.queuedCount then
    some (.exhausted "pending_observer_queue_entries" limits.observerQueueEntries
      (watcher.queuedCount + 1))
  else if limits.observerQueueBytes < size ∨
      limits.observerQueueBytes - size < watcher.queuedBytes then
    some (.exhausted "pending_observer_queue_bytes" limits.observerQueueBytes
      (watcher.queuedBytes + size))
  else if limits.queuedEntries ≤ hub.queuedEntries then
    some (.exhausted "pending_observer_entries" limits.queuedEntries (hub.queuedEntries + 1))
  else if limits.queuedEntriesPerClient ≤ p.queuedEntries then
    some (.exhausted "pending_observer_client_entries" limits.queuedEntriesPerClient
      (p.queuedEntries + 1))
  else if limits.queuedBytes < size ∨ limits.queuedBytes - size < hub.queuedBytes then
    some (.exhausted "pending_observer_bytes" limits.queuedBytes (hub.queuedBytes + size))
  else if limits.queuedBytesPerClient < size ∨
      limits.queuedBytesPerClient - size < p.queuedBytes then
    some (.exhausted "pending_observer_client_bytes" limits.queuedBytesPerClient
      (p.queuedBytes + size))
  -- the channel is full
  else if limits.observerQueueEntries ≤ watcher.queue.length then
    some (.exhausted "pending_observer_queue_entries" limits.observerQueueEntries
      (watcher.queue.length + 1))
  else none

/-- The partition without the observer that ends. -/
def endWatcher (watcher : Watcher) : Partition :=
  let p := hub.partition watcher.client
  { p with
    watchers := p.watchers.erase watcher.id
    stopping := ref :: p.stopping
    queuedEntries := p.queuedEntries - watcher.queuedCount
    queuedBytes := p.queuedBytes - watcher.queuedBytes
    reservedEntries := p.reservedEntries - hub.limits.observerQueueEntries
    reservedBytes := p.reservedBytes - hub.limits.observerQueueBytes }

def finishWatcher (err : HubError) (exhausted : Bool) : PendingHub :=
  match hub.watchers ref with
  | none => hub
  | some watcher =>
    if !watcher.active then hub
    else
      { (hub.setWatcher ref (watcher.finish err exhausted)).setPartition watcher.client
          (hub.endWatcher ref watcher) with
        observerCount := hub.observerCount - 1
        queuedEntries := hub.queuedEntries - watcher.queuedCount
        queuedBytes := hub.queuedBytes - watcher.queuedBytes
        reservedEntries := hub.reservedEntries - hub.limits.observerQueueEntries
        reservedBytes := hub.reservedBytes - hub.limits.observerQueueBytes }

/-- One round of the loop of `publishLocked`, with `enqueueLocked`. -/
def offer (delta : Delta) (id : ℕ) : PendingHub :=
  match (hub.partition client).watchers.lookup id with
  | none => hub
  | some ref =>
    match hub.watchers ref with
    | none => hub
    | some watcher =>
      if !watcher.active then hub
      else
        match hub.refusal watcher delta with
        | none => hub.pushed ref watcher delta
        | some exhausted => hub.finishWatcher ref exhausted true

def publish (kind : DeltaKind) (pending : Pending) : PendingHub :=
  let p := hub.partition client
  let revision := (p.revision + 1) % 2 ^ 64
  let delta : Delta := ⟨revision, kind, pending⟩
  (sortedWatcherIDs p.watchers).foldl (fun hub id => hub.offer client delta id)
    (hub.setPartition client
      { p with revision, log := p.log ++ [delta], views := p.views ++ [hub.view client] })

/-! ## Runs and interactions -/

def removeReleasedBinding : PendingHub :=
  match hub.bindings ref with
  | none => hub
  | some binding =>
    if binding.accepting ∨ binding.active ≠ 0 then hub
    else if hub.runs.lookup binding.runID = some ref then
      let p := hub.partition binding.clientID
      { (hub.setPartition binding.clientID { p with boundRuns := p.boundRuns - 1 }).setBinding ref
          { binding with released := true } with
        runs := hub.runs.erase binding.runID }
    else hub

def finishCall (key : PendingKey) (ref : ℕ) (call : PendingCall)
    (result : PendingResult) : PendingHub :=
  let p := hub.partition client
  let size := call.value.bytes
  let hub := { (hub.setPartition client { p with
      pending := p.pending.erase key
      pendingBytes := p.pendingBytes - size }).setCall ref { call with result := some result } with
    pendingCount := hub.pendingCount - 1
    pendingBytes := hub.pendingBytes - size }
  let hub := match hub.bindings call.binding with
    | none => hub
    | some binding => hub.setBinding call.binding { binding with active := binding.active - 1 }
  (hub.publish client .closed call.value).removeReleasedBinding call.binding

/-- `partitionLocked` that creates a missing partition. -/
def createPartition : Option PendingHub :=
  if client ∈ hub.clients then some hub
  else if hub.limits.clients ≤ hub.clients.card then none
  else some { hub.setPartition client .new with clients := insert client hub.clients }

/-- `BindRun`, whose binding gets the identity `ref`. -/
def bindRun (client runID : String) : PendingHub × Option HubError :=
  match boundedToken "client ID" client with
  | some failure => (hub, some (.token failure))
  | none =>
    if !Interaction.validScope runID then (hub, some .scope)
    else if hub.closed then (hub, some .closed)
    else if runID ∈ hub.runs then (hub, some (.runAlreadyBound runID))
    else if hub.limits.runs ≤ hub.runs.keys.length then (hub, some (.runBindingCapacity ""))
    else match hub.createPartition client with
      | none => (hub, some (.runBindingCapacity "client partitions"))
      | some hub =>
        let p := hub.partition client
        if hub.limits.runsPerClient ≤ p.boundRuns then (hub, some (.runBindingCapacity ""))
        else
          ({ (hub.setPartition client { p with boundRuns := p.boundRuns + 1 }).setBinding ref
              { clientID := client, runID, accepting := true, active := 0, released := false,
                once := false } with
            runs := hub.runs.insert runID ref }, none)

/-- `RunBinding.Release`. -/
def release : PendingHub :=
  match hub.bindings ref with
  | none => hub
  | some binding =>
    if binding.once then hub
    else (hub.setBinding ref
      { binding with accepting := false, once := true }).removeReleasedBinding ref

def hasPendingCapacity (p : Partition) (size : ℤ) : Bool :=
  hub.pendingCount < hub.limits.pending && p.pending.keys.length < hub.limits.pendingPerClient &&
    size ≤ hub.limits.pendingBytes && hub.pendingBytes ≤ hub.limits.pendingBytes - size &&
    size ≤ hub.limits.pendingBytesPerClient &&
    p.pendingBytes ≤ hub.limits.pendingBytesPerClient - size

/-- Records a call as pending and publishes it. -/
def openCall (binding : ℕ) (state : RunBinding) (value : Pending) : PendingHub :=
  let p := hub.partition state.clientID
  let hub := { ((hub.setPartition state.clientID { p with
      pending := p.pending.insert value.key ref
      pendingBytes := p.pendingBytes + value.bytes }).setCall ref
        { value, binding, done := false, result := none }).setBinding binding
          { state with active := state.active + 1 } with
    pendingCount := hub.pendingCount + 1
    pendingBytes := hub.pendingBytes + value.bytes }
  hub.publish state.clientID .opened value

end

variable (isJson : List UInt8 → Bool) (hub : PendingHub) (ref : ℕ)

/-- `Request` up to its `select`; its call gets the identity `ref`. -/
def request (runID : String) (request : Interaction.Request)
    (ctxDone : Bool) : PendingHub × Option HubError :=
  if ctxDone then (hub, some .context)
  else if !Interaction.validScope runID then (hub, some .scope)
  else if !request.validate isJson then (hub, some .request)
  else if hub.closed then (hub, some .closed)
  else match hub.runs.lookup runID with
    | none => (hub, some .runNotBound)
    | some binding =>
      match hub.bindings binding with
      | none => (hub, some .runNotBound)
      | some state =>
        let value : Pending := ⟨runID, request⟩
        let p := hub.partition state.clientID
        if !state.accepting ∨ state.clientID ∉ hub.clients then (hub, some .runNotBound)
        else if value.key ∈ p.pending then (hub, some .alreadyPending)
        else if !hub.hasPendingCapacity p value.bytes then (hub, some (.pendingCapacity ""))
        else if (maxRevision : ℤ) - (p.pending.keys.length + 2) < p.revision then
          (hub, some (.pendingCapacity "revision exhausted"))
        else (hub.openCall ref binding state value, none)

/-- `Respond` up to its unlock: the call whose channel it closes next, or its error. -/
def respond (client runID : String) (response : Interaction.Response) :
    PendingHub × Except HubError ℕ :=
  match boundedToken "client ID" client with
  | some failure => (hub, .error (.token failure))
  | none =>
    if !Interaction.validScope runID then (hub, .error .scope)
    else if !response.validate isJson then (hub, .error .response)
    else if hub.closed then (hub, .error .closed)
    else match (hub.runs.lookup runID).bind hub.bindings with
      | none => (hub, .error .runNotBound)
      | some state =>
        if state.clientID ≠ client ∨ client ∉ hub.clients then (hub, .error .runNotBound)
        else match (hub.partition client).pending.lookup ⟨runID, response.id⟩ with
          | none => (hub, .error .notPending)
          | some ref =>
            match hub.calls ref with
            | none => (hub, .error .notPending)
            | some call =>
              (hub.finishCall client ⟨runID, response.id⟩ ref call (.response response), .ok ref)

/-- `complete`: the result and whether it is the proposed one. -/
def complete (call : PendingCall) (proposed : PendingResult) : PendingHub × PendingResult × Bool :=
  match (hub.bindings call.binding).map (·.clientID) with
  | none => (hub, call.result.getD proposed, false)
  | some client =>
    if client ∈ hub.clients ∧ (hub.partition client).pending.lookup call.value.key = some ref then
      (hub.finishCall client call.value.key ref call proposed, proposed, true)
    else (hub, call.result.getD proposed, false)

variable (client : String)

def register : PendingHub :=
  let p := hub.partition client
  let limits := hub.limits
  { (hub.setPartition client { p with
      nextWatcher := p.nextWatcher + 1
      watchers := p.watchers.insert (p.nextWatcher + 1) ref
      reservedEntries := p.reservedEntries + limits.observerQueueEntries
      reservedBytes := p.reservedBytes + limits.observerQueueBytes }).setWatcher ref
        { client, id := p.nextWatcher + 1, snapshot := hub.snapshot client, queue := [],
          active := true, err := none, exhausted := false, lastDelivered := p.revision,
          queuedCount := 0, queuedBytes := 0, stop := false, done := false, phase := .idle,
          received := [] } with
    observerCount := hub.observerCount + 1
    reservedEntries := hub.reservedEntries + limits.observerQueueEntries
    reservedBytes := hub.reservedBytes + limits.observerQueueBytes
    watcherWG := hub.watcherWG + 1 }

/-- `Subscribe` up to its first unlock. -/
def subscribe (ctxDone : Bool) : PendingHub × Option HubError :=
  if ctxDone then (hub, some .context)
  else match boundedToken "client ID" client with
    | some failure => (hub, some (.token failure))
    | none =>
      if hub.closed then (hub, some .closed)
      else match hub.createPartition client with
        | none => (hub, some (.observerCapacity "client partitions"))
        | some hub =>
          let p := hub.partition client
          let limits := hub.limits
          if limits.observers ≤ hub.observerCount ∨
              limits.observersPerClient ≤ p.watchers.keys.length then
            (hub, some (.observerCapacity ""))
          else if p.nextWatcher = maxRevision then
            (hub, some (.observerCapacity "identity exhausted"))
          else if limits.reservedQueueEntries - limits.observerQueueEntries < hub.reservedEntries ∨
              limits.reservedQueueEntriesPerClient - limits.observerQueueEntries <
                p.reservedEntries ∨
              limits.reservedQueueBytes - limits.observerQueueBytes < hub.reservedBytes ∨
              limits.reservedQueueBytesPerClient - limits.observerQueueBytes < p.reservedBytes then
            (hub, some (.observerCapacity "queue reservation"))
          else (hub.register ref client, none)

def delivered (watcher : Watcher) (item : QueuedDelta) : PendingHub :=
  let watcher := { watcher with
    lastDelivered := max watcher.lastDelivered item.delta.revision, phase := .idle }
  if !watcher.active then hub.setWatcher ref watcher
  else
    let p := hub.partition watcher.client
    { (hub.setWatcher ref { watcher with
        queuedCount := watcher.queuedCount - 1
        queuedBytes := watcher.queuedBytes - item.bytes }).setPartition watcher.client
          { p with
            queuedEntries := p.queuedEntries - 1
            queuedBytes := p.queuedBytes - item.bytes } with
      queuedEntries := hub.queuedEntries - 1
      queuedBytes := hub.queuedBytes - item.bytes }

/-- `watcherStopped` and the end of the goroutine. -/
def watcherStopped (watcher : Watcher) : PendingHub :=
  let p := hub.partition watcher.client
  { (hub.setWatcher ref { watcher with phase := .gone }).setPartition watcher.client
      { p with stopping := p.stopping.erase ref } with
    watcherWG := hub.watcherWG - 1 }

/-- Ends the observers of a client that are registered. -/
def finishWatchers (err : HubError) : PendingHub :=
  (sortedWatcherIDs (hub.partition client).watchers).foldl (fun hub id =>
    match (hub.partition client).watchers.lookup id with
    | none => hub
    | some ref => hub.finishWatcher ref err false) hub

/-- The observers that `FenceObservers` waits for: those that stop already and the registered
ones. -/
def observers : List ℕ :=
  (hub.partition client).stopping ++ (hub.partition client).watchers.entries.map (·.2)

/-- The pending calls of a client in the order of `Close`. -/
def sortedCalls : List (PendingKey × ℕ) :=
  ((hub.partition client).pending.entries.map fun e => (e.1, e.2)).insertionSort
    fun a b => a.1.le b.1

/-- The clients in the order of `Close`. -/
def sortedClients : List String := hub.clients.sort (· ≤ ·)

/-- `Close` ends one call. -/
def closeCall (entry : PendingKey × ℕ) : PendingHub :=
  match hub.calls entry.2 with
  | none => hub
  | some call => hub.finishCall client entry.1 entry.2 call (.failed .closed)

/-- `Close` stops a binding. -/
def stopAccepting : PendingHub :=
  match hub.bindings ref with
  | none => hub
  | some binding => hub.setBinding ref { binding with accepting := false }

/-- The critical section of `Close`, with the calls whose channels it closes next. The order in
which it visits the bindings is not observable. -/
def close : PendingHub × List ℕ :=
  let bindings := hub.runs.entries.map (·.2)
  let calls := hub.sortedClients.flatMap fun client =>
    (hub.sortedCalls client).map fun entry => (client, entry)
  let hub := bindings.foldl stopAccepting { hub with closed := true }
  let hub := calls.foldl (fun hub c => hub.closeCall c.1 c.2) hub
  let hub := bindings.foldl removeReleasedBinding hub
  (hub.sortedClients.foldl (fun hub client => hub.finishWatchers client .closed) hub,
    calls.map (·.2.2))

end PendingHub

end SpiceAgent.Daemon
