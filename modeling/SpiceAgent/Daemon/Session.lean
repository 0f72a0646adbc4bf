import SpiceAgent.Lib.Text
import SpiceAgent.Lib.Transition

/-!
# The session store and its gate

`SessionStore` (`daemon/session.go`, `session_gate.go`, `session_reconnect.go`) fences the owners of
a client: at most one mutation commit at a time, streams, and reconnects that advance the ownership
epoch. A `Call` is one execution of `AcquireMutationCommit`, `acquireStream` or `ReconnectContext`;
its own identity is the pointer of its waiter and of the lease it obtains. One step of `Gate.step`
is one critical section of the store's lock or one check of a context, so that a run is any
interleaving of calls, cancellations, lease releases and `Close`.

The contexts that the store hands out (of an epoch and of a stream lease) are not part of the state:
they only notify their holders.
-/

namespace SpiceAgent.Daemon

open SpiceAgent.Lib

/-- Why `boundedToken` refuses a value. -/
inductive TokenError
  | size (label : String)
  | control (label : String)
  deriving DecidableEq

/-- `boundedToken`: a trimmed text of 1 to 128 bytes without control characters. -/
def boundedToken (label value : String) : Option TokenError :=
  if !trimmedToken value || 128 < value.utf8ByteSize then some (.size label)
  else if value.toList.any isControl then some (.control label)
  else none

def maximumSessionGateWaitersPerClient : ℕ := 64
def maximumSessionStreamsPerClient : ℕ := 256

def maxEpoch : ℕ := 2 ^ 64 - 1

/-- The errors of the store. -/
inductive SessionError
  | storeClosed
  /-- `ErrStaleSession` of an unknown client. -/
  | unknownClient
  | stale (clientID : String) (expected observed : ℕ)
  | gateCapacity (resource : String) (maximum : ℤ)
  | epochOverflow
  | streamLimit
  | token (failure : TokenError)
  /-- The error of the call's context. -/
  | context
  deriving DecidableEq

/-- `sessionState` of one client. `changed` is the identity of the open change channel. The lists
`queuedCalls` and `grantedCalls` record in which order calls queued for the mutation gate and were
granted it; a call that finds the gate free does both at once. -/
structure SessionState where
  epoch : ℕ
  changed : ℕ
  activeMutation : Option ℕ
  mutationWaiters : List ℕ
  reconnectWaiters : List ℕ
  streamWaiters : List ℕ
  streams : List ℕ
  queuedCalls : List ℕ
  grantedCalls : List ℕ

namespace SessionState

def fresh : SessionState :=
  { epoch := 1, changed := 0, activeMutation := none, mutationWaiters := [], reconnectWaiters := [],
    streamWaiters := [], streams := [], queuedCalls := [], grantedCalls := [] }

variable (st : SessionState) (call : ℕ)

/-- `signalLocked` closes the change channel and opens the next. -/
def signal : SessionState := { st with changed := st.changed + 1 }

def gateWaiters : ℕ :=
  st.mutationWaiters.length + st.reconnectWaiters.length + st.streamWaiters.length

/-- Nothing holds or waits for the client's gate. -/
def idle : Bool :=
  st.activeMutation.isNone && st.mutationWaiters.isEmpty && st.reconnectWaiters.isEmpty &&
    st.streamWaiters.isEmpty && st.streams.isEmpty

/-- The search of `removeMutationWaiterLocked`. -/
def removeMutation : SessionState :=
  if call ∈ st.mutationWaiters then
    { st with mutationWaiters := st.mutationWaiters.erase call }.signal
  else st

/-- The search of `removeStreamWaiterLocked`. -/
def removeStream : SessionState :=
  if call ∈ st.streamWaiters then
    { st with streamWaiters := st.streamWaiters.erase call }.signal
  else st

/-- The search of `removeReconnectLocked`. -/
def removeReconnect : SessionState :=
  if call ∈ st.reconnectWaiters then
    { st with reconnectWaiters := st.reconnectWaiters.erase call }.signal
  else st

def grantMutation : SessionState :=
  { st with activeMutation := some call, grantedCalls := st.grantedCalls ++ [call] }

end SessionState

/-- How `tryAcquireMutationLocked` ends. -/
inductive MutationAttempt
  | granted (st : SessionState)
  | failed (err : SessionError)
  /-- The call is queued and not granted. -/
  | queued (st : SessionState)

/-- `tryAcquireMutationLocked` for a call that has queued its waiter or not. -/
def tryAcquireMutation (st : SessionState) (call : ℕ) (waiter : Bool) : MutationAttempt :=
  if waiter = false ∧ st.activeMutation = none ∧ st.mutationWaiters = [] ∧
      st.reconnectWaiters = [] then
    .granted ({ st with queuedCalls := st.queuedCalls ++ [call] }.grantMutation call)
  else if waiter = false ∧ maximumSessionGateWaitersPerClient ≤ st.gateWaiters then
    .failed (.gateCapacity "session gate waiters" maximumSessionGateWaitersPerClient)
  else
    let st := if waiter then st
      else { st with mutationWaiters := st.mutationWaiters ++ [call]
                     queuedCalls := st.queuedCalls ++ [call] }
    if st.reconnectWaiters ≠ [] ∨ st.activeMutation ≠ none ∨
        st.mutationWaiters.head? ≠ some call then
      .queued st
    else .granted ({ st with mutationWaiters := st.mutationWaiters.tail }.signal.grantMutation call)

/-- How one locked attempt of `acquireStream` ends. -/
inductive StreamAttempt
  | granted (st : SessionState)
  | failed (st : SessionState) (err : SessionError)
  | queued (st : SessionState)

/-- The locked body of `acquireStream` after its checks. -/
def tryAcquireStream (st : SessionState) (call : ℕ) (waiter : Bool) (maximum : ℤ) : StreamAttempt :=
  if st.reconnectWaiters = [] then
    let st := if waiter then st.removeStream call else st
    if maximum ≤ st.streams.length then .failed st (.gateCapacity "stream leases" maximum)
    else .granted { st with streams := call :: st.streams }
  else if waiter then .queued st
  else if maximumSessionGateWaitersPerClient ≤ st.gateWaiters then
    .failed st (.gateCapacity "session gate waiters" maximumSessionGateWaitersPerClient)
  else .queued { st with streamWaiters := st.streamWaiters ++ [call] }

/-! ## The store -/

/-- `SessionStore`: the clients with their states, and its lifetime. `rootDone` is the end of the
owned root context. -/
structure SessionStore where
  maximum : ℕ
  clients : List String
  session : String → SessionState
  closed : Bool
  rootDone : Bool
  drained : Bool

namespace SessionStore

/-- `newSessionStore` with an accepted capacity. -/
def new (maximum : ℕ) : SessionStore :=
  { maximum, clients := [], session := fun _ => .fresh, closed := false, rootDone := false,
    drained := false }

variable (store : SessionStore) (clientID : String)

def isClosed : Bool := store.closed || store.rootDone

/-- The error of `sessionLocked`. -/
def sessionLocked (observed : ℕ) : Option SessionError :=
  if store.isClosed then some .storeClosed
  else if clientID ∉ store.clients then some .unknownClient
  else if observed = 0 ∨ (store.session clientID).epoch ≠ observed then
    some (.stale clientID (store.session clientID).epoch observed)
  else none

def maybeDrained : SessionStore :=
  if store.closed && store.clients.all fun c => (store.session c).idle then
    { store with drained := true }
  else store

/-- The store with the state of one client replaced. -/
def setSession (st : SessionState) : SessionStore :=
  { store with session := Function.update store.session clientID st }

/-- The second critical section of `Fresh` for one drawn client identity. -/
def fresh : SessionStore :=
  if store.isClosed ∨ store.maximum ≤ store.clients.length ∨ clientID ∈ store.clients then store
  else { store.setSession clientID .fresh with clients := clientID :: store.clients }

/-- The critical section of `Close`. -/
def close : SessionStore :=
  if store.closed then store
  else
    maybeDrained { store with closed := true
                              session := fun c =>
                                if c ∈ store.clients then (store.session c).signal
                                else store.session c }

end SessionStore

/-! ## Calls and leases -/

/-- The blocking operations of the store. -/
inductive Operation
  | mutation
  | stream (maximum : ℤ)
  | reconnect

/-- What a call returns: a lease under its own identity, the next session, or an error. -/
inductive CallResult
  | lease
  | session (epoch : ℕ)
  | failed (err : SessionError)
  deriving DecidableEq

/-- Where a call stands. -/
inductive CallPhase
  /-- Before its argument checks. -/
  | entry
  /-- Before `registerReconnect`. -/
  | register
  /-- At the head of its loop. -/
  | top
  /-- Its context has ended; its waiter is still queued. -/
  | cancelled
  /-- Before its critical section. -/
  | enter
  /-- In `waitForSessionChange`. -/
  | waiting (changed : ℕ)
  | returned (result : CallResult)
  deriving DecidableEq

/-- One call. `waiter` says that its waiter was allocated and queued; `fencing` is the flag of a
reconnect waiter. -/
structure Call where
  op : Operation
  client : String
  epoch : ℕ
  ctxDone : Bool
  phase : CallPhase
  waiter : Bool
  fencing : Bool

/-- The life of a lease. -/
inductive LeasePhase
  | held
  /-- A stream lease whose `Close` has begun and has yet to leave the client's set. -/
  | closing
  | released
  deriving DecidableEq

/-- A lease, with the epoch that was current when it was granted. -/
structure Lease where
  stream : Bool
  client : String
  epoch : ℕ
  phase : LeasePhase

/-- The store with its calls and leases. -/
structure Gate where
  store : SessionStore
  calls : ℕ → Option Call
  leases : ℕ → Option Lease

namespace Gate

variable (g : Gate) (id : ℕ) (call : Call)

abbrev session (clientID : String) : SessionState := g.store.session clientID

def setCall : Gate :=
  { g with calls := Function.update g.calls id (some call) }

def setLease (lease : Lease) : Gate :=
  { g with leases := Function.update g.leases id (some lease) }

/-- The gate with the state of one client replaced. -/
def setSession (clientID : String) (st : SessionState) : Gate :=
  { g with store := g.store.setSession clientID st }

def goto (phase : CallPhase) : Gate :=
  g.setCall id { call with phase }

def fail (err : SessionError) : Gate :=
  g.goto id call (.returned (.failed err))

/-- The call obtains its lease for the client's current epoch. -/
def grant (st : SessionState) (stream : Bool) : Gate :=
  ((g.setSession call.client st).setLease id
    { stream, client := call.client, epoch := st.epoch, phase := .held }).goto id call
      (.returned .lease)

def remove (st : SessionState) (id : ℕ) (op : Operation) : SessionState :=
  match op with
  | .mutation => st.removeMutation id
  | .stream _ => st.removeStream id
  | .reconnect => st.removeReconnect id

/-- `removeMutationWaiterLocked`, `removeStreamWaiterLocked` or `removeReconnectLocked` for the
call's waiter, if it has one. -/
def removeWaiter : Gate :=
  if call.waiter then
    { g with store := (g.store.setSession call.client
        (remove (g.store.session call.client) id call.op)).maybeDrained }
  else g

def stepEntry : Gate :=
  match call.op with
  | .stream maximum =>
    if maximum < 1 ∨ maximumSessionStreamsPerClient < maximum then g.fail id call .streamLimit
    else if call.ctxDone then g.fail id call .context
    else match boundedToken "client ID" call.client with
      | some failure => g.fail id call (.token failure)
      | none => g.goto id call .top
  | .mutation =>
    if call.ctxDone then g.fail id call .context
    else match boundedToken "client ID" call.client with
      | some failure => g.fail id call (.token failure)
      | none => g.goto id call .top
  | .reconnect =>
    if call.ctxDone then g.fail id call .context
    else match boundedToken "client ID" call.client with
      | some failure => g.fail id call (.token failure)
      | none => g.goto id call .register

/-- `registerReconnect`. -/
def stepRegister : Gate :=
  let st := g.store.session call.client
  match g.store.sessionLocked call.client call.epoch with
  | some err => g.fail id call err
  | none =>
    if call.epoch = maxEpoch then g.fail id call .epochOverflow
    else if maximumSessionGateWaitersPerClient ≤ st.gateWaiters then
      g.fail id call (.gateCapacity "session gate waiters" maximumSessionGateWaitersPerClient)
    else
      (g.setSession call.client
        { st with reconnectWaiters := st.reconnectWaiters ++ [id] }.signal).goto id
          { call with waiter := true } .top

/-- The critical section of `AcquireMutationCommit`. -/
def enterMutation : Gate :=
  match g.store.sessionLocked call.client call.epoch with
  | some err => (g.removeWaiter id call).fail id call err
  | none =>
    if call.ctxDone then (g.removeWaiter id call).fail id call .context
    else
      match tryAcquireMutation (g.store.session call.client) id call.waiter with
      | .granted st => g.grant id call st false
      | .failed err => g.fail id call err
      | .queued st =>
        (g.setSession call.client st).goto id { call with waiter := true } (.waiting st.changed)

/-- The critical section of `acquireStream`. -/
def enterStream (maximum : ℤ) : Gate :=
  match g.store.sessionLocked call.client call.epoch with
  | some err => (g.removeWaiter id call).fail id call err
  | none =>
    if call.ctxDone then (g.removeWaiter id call).fail id call .context
    else
      match tryAcquireStream (g.store.session call.client) id call.waiter maximum with
      | .granted st => g.grant id call st true
      | .failed st err => (g.setSession call.client st).fail id call err
      | .queued st =>
        (g.setSession call.client st).goto id { call with waiter := true } (.waiting st.changed)

/-- `reconnectStepLocked` and `advanceReconnectLocked`. The streams of the client are cancelled
once, outside the lock, after which the loop runs again. -/
def enterReconnect : Gate :=
  let st := g.store.session call.client
  if g.store.isClosed then (g.removeWaiter id call).fail id call .storeClosed
  else if st.epoch ≠ call.epoch then
    (g.removeWaiter id call).fail id call (.stale call.client st.epoch call.epoch)
  else if st.reconnectWaiters.head? ≠ some id ∨ st.activeMutation ≠ none then
    g.goto id call (.waiting st.changed)
  else if call.fencing = false ∧ st.streams ≠ [] then
    g.goto id { call with fencing := true } .top
  else if st.streams ≠ [] then g.goto id { call with fencing := true } (.waiting st.changed)
  else
    (g.setSession call.client
      { st with epoch := (st.epoch + 1) % 2 ^ 64
                reconnectWaiters := st.reconnectWaiters.tail }.signal).goto id
        { call with fencing := true } (.returned (.session ((st.epoch + 1) % 2 ^ 64)))

def stepEnter : Gate :=
  match call.op with
  | .mutation => g.enterMutation id call
  | .stream maximum => g.enterStream id call maximum
  | .reconnect => g.enterReconnect id call

/-- `waitForSessionChange` returns. -/
def awake (call : Call) (changed : ℕ) : Bool :=
  call.ctxDone || g.store.rootDone || (g.store.session call.client).changed != changed

def stepCall : Option Gate :=
  match call.phase with
  | .entry => some (g.stepEntry id call)
  | .register => some (g.stepRegister id call)
  | .top => some (g.goto id call (if call.ctxDone then .cancelled else .enter))
  | .cancelled => some ((g.removeWaiter id call).fail id call .context)
  | .enter => some (g.stepEnter id call)
  | .waiting changed => if g.awake call changed then some (g.goto id call .top) else none
  | .returned _ => none

/-- `MutationCommitLease.Close`, of which only the first has an effect. -/
def closeMutation (lease : Lease) : Gate :=
  let st := g.store.session lease.client
  { g.setLease id { lease with phase := .released } with
    store := (if st.activeMutation = some id then
        g.store.setSession lease.client { st with activeMutation := none }.signal
      else g.store).maybeDrained }

/-- The critical section of `StreamLease.Close`. -/
def releaseStream (lease : Lease) : Gate :=
  let st := g.store.session lease.client
  { g.setLease id { lease with phase := .released } with
    store := (g.store.setSession lease.client
      { st with streams := st.streams.erase id }.signal).maybeDrained }

/-- The steps of the store and its callers. -/
inductive Label
  /-- A client identity is drawn and admitted. -/
  | fresh (clientID : String)
  /-- A call begins. -/
  | call (id : ℕ) (op : Operation) (client : String) (epoch : ℕ) (ctxDone : Bool)
  /-- A call goes on. -/
  | run (id : ℕ)
  /-- The context of a call ends. -/
  | cancel (id : ℕ)
  | closeLease (id : ℕ)
  | releaseStream (id : ℕ)
  | close
  /-- The root context ends. -/
  | rootDone

def step : Label → Option Gate
  | .fresh clientID => some { g with store := g.store.fresh clientID }
  | .call id op client epoch ctxDone =>
    match g.calls id with
    | none =>
      some (g.setCall id
        { op, client, epoch, ctxDone, phase := .entry, waiter := false, fencing := false })
    | some _ => none
  | .run id => (g.calls id).bind fun call => g.stepCall id call
  | .cancel id => (g.calls id).map fun call => g.setCall id { call with ctxDone := true }
  | .closeLease id =>
    (g.leases id).bind fun lease =>
      if lease.phase = .held then
        some (if lease.stream then g.setLease id { lease with phase := .closing }
          else g.closeMutation id lease)
      else none
  | .releaseStream id =>
    (g.leases id).bind fun lease =>
      if lease.phase = .closing then some (g.releaseStream id lease) else none
  | .close => some { g with store := g.store.close }
  | .rootDone => some { g with store := { g.store with rootDone := true } }

end Gate

def sessionSystem (maximum : ℕ) : System Gate Gate.Label where
  init := { store := .new maximum, calls := fun _ => none, leases := fun _ => none }
  step := Gate.step

end SpiceAgent.Daemon
