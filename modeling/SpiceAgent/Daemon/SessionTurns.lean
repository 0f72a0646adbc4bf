import SpiceAgent.Daemon.Session

/-!
# What one step of the session gate can do

`Gate.Turn` lists the steps of the store and its callers with what each of them found, and
`Gate.step_turn` shows that there are no others. A call that fails gives up its waiter, if it has
one.
-/

namespace SpiceAgent.Daemon

open SpiceAgent.Lib Option List
open Function (update_apply)
open SessionState Gate

/-- The queues of a client. -/
inductive Queue
  | mutation | stream | reconnect
  deriving DecidableEq

def Operation.queue : Operation → Queue
  | .mutation => .mutation
  | .stream _ => .stream
  | .reconnect => .reconnect

variable (st : SessionState) (id : ℕ)

def SessionState.waiters : Queue → List ℕ
  | .mutation => st.mutationWaiters
  | .stream => st.streamWaiters
  | .reconnect => st.reconnectWaiters

/-- What a waiting call finds that keeps it from its lease or its session. -/
def SessionState.Blocks (fencing : Bool) : Operation → Prop
  | .mutation => st.reconnectWaiters ≠ [] ∨ st.activeMutation ≠ none ∨
      st.mutationWaiters.head? ≠ some id
  | .stream _ => st.reconnectWaiters ≠ []
  | .reconnect => st.reconnectWaiters.head? ≠ some id ∨ st.activeMutation ≠ none ∨
      fencing = true ∧ st.streams ≠ []

/-- The state after a call joined the queue of its operation. -/
def SessionState.queue : Operation → SessionState
  | .mutation => { st with mutationWaiters := st.mutationWaiters ++ [id]
                           queuedCalls := st.queuedCalls ++ [id] }
  | .stream _ => { st with streamWaiters := st.streamWaiters ++ [id] }
  | .reconnect => { st with reconnectWaiters := st.reconnectWaiters ++ [id] }.signal

/-- The state after a call found the mutation gate free: it queues and is granted at once. -/
def SessionState.grantNow : SessionState :=
  { st with queuedCalls := st.queuedCalls ++ [id] }.grantMutation id

/-- The state after the head of the mutation queue was granted. -/
def SessionState.grantNext : SessionState :=
  { st with mutationWaiters := st.mutationWaiters.tail }.signal.grantMutation id

def SessionState.addStream (waiter : Bool) : SessionState :=
  let st := if waiter then st.removeStream id else st
  { st with streams := id :: st.streams }

/-- The state of a client whose epoch advances for the head of its reconnect queue. -/
def SessionState.advance : SessionState :=
  { st with epoch := (st.epoch + 1) % 2 ^ 64
            reconnectWaiters := st.reconnectWaiters.tail }.signal

namespace CallPhase

def looping : CallPhase → Bool
  | .top | .cancelled | .enter | .waiting _ => true
  | .entry | .register | .returned _ => false

def isReturned : CallPhase → Bool
  | .returned _ => true
  | _ => false

end CallPhase

/-- The store is open and the call's epoch is the one of its client. -/
structure Gate.Current (g : Gate) (call : Call) : Prop where
  opened : g.store.closed = false
  known : call.client ∈ g.store.clients
  epoch : (g.session call.client).epoch = call.epoch

inductive Gate.Turn (g : Gate) : Gate → Prop
  | same : Turn g g
  | attach {c : String} (hopen : g.store.closed = false) (hnew : c ∉ g.store.clients) :
      Turn g { g with
        store := { g.store.setSession c .fresh with clients := c :: g.store.clients } }
  | shut (hopen : g.store.closed = false) : Turn g { g with store := g.store.close }
  | root : Turn g { g with store := { g.store with rootDone := true } }
  | start {id : ℕ} {call : Call} (hcall : g.calls id = none) (hphase : call.phase = .entry)
      (hwaiter : call.waiter = false) : Turn g (g.setCall id call)
  | cancel {id : ℕ} {call : Call} (hcall : g.calls id = some call) :
      Turn g (g.setCall id { call with ctxDone := true })
  /-- The call goes on without the lock, or past a check that concerns only itself. -/
  | go {id : ℕ} {call : Call} {phase : CallPhase} {fencing : Bool} (hcall : g.calls id = some call)
      (hold : call.phase.isReturned = false) (hnew : phase.isReturned = false)
      (hwait : ∀ changed, phase ≠ .waiting changed)
      (hloop : call.phase.looping = true ∧ phase.looping = true ∨ call.phase = .entry ∧
        (call.op = .reconnect ↔ phase = .register)) :
      Turn g (g.goto id { call with fencing } phase)
  | leave {id : ℕ} {call : Call} {err : SessionError} (hcall : g.calls id = some call)
      (hold : call.phase.isReturned = false) : Turn g ((g.removeWaiter id call).fail id call err)
  /-- The call joins the queue of its operation; a reconnect does so before its loop. -/
  | queue {id : ℕ} {call : Call} {op : Operation} {phase : CallPhase}
      (hcall : g.calls id = some call) (hold : call.phase.isReturned = false)
      (hwaiter : call.waiter = false) (hop : call.op = op) (hcurrent : g.Current call)
      (hfew : (g.session call.client).gateWaiters < maximumSessionGateWaitersPerClient)
      (hphase : op = .reconnect ∧ call.epoch ≠ maxEpoch ∧ phase = .top ∨
        op ≠ .reconnect ∧ phase = .waiting (g.session call.client).changed ∧
          ((g.session call.client).queue id op).Blocks id call.fencing op) :
      Turn g ((g.setSession call.client ((g.session call.client).queue id op)).goto id
        { call with waiter := true } phase)
  | wait {id : ℕ} {call : Call} {op : Operation} {fencing : Bool} (hcall : g.calls id = some call)
      (hphase : call.phase = .enter) (hwaiter : call.waiter = true) (hop : call.op = op)
      (hcurrent : g.Current call)
      (hblocks : (g.session call.client).Blocks id fencing op) :
      Turn g (g.goto id { call with fencing } (.waiting (g.session call.client).changed))
  | mutation {id : ℕ} {call : Call} (hcall : g.calls id = some call) (hphase : call.phase = .enter)
      (hop : call.op = .mutation) (hcurrent : g.Current call) (hwaiter : call.waiter = false)
      (hactive : (g.session call.client).activeMutation = none)
      (hfirst : (g.session call.client).mutationWaiters = [])
      (hunfenced : (g.session call.client).reconnectWaiters = []) :
      Turn g (g.grant id call ((g.session call.client).grantNow id) false)
  | next {id : ℕ} {call : Call} (hcall : g.calls id = some call)
      (hphase : call.phase = .enter) (hop : call.op = .mutation) (hcurrent : g.Current call)
      (hwaiter : call.waiter = true)
      (hactive : (g.session call.client).activeMutation = none)
      (hfirst : (g.session call.client).mutationWaiters.head? = some id)
      (hunfenced : (g.session call.client).reconnectWaiters = []) :
      Turn g (g.grant id call ((g.session call.client).grantNext id) false)
  | stream {id : ℕ} {call : Call} {maximum : ℤ} (hcall : g.calls id = some call)
      (hphase : call.phase = .enter) (hop : call.op = .stream maximum) (hcurrent : g.Current call)
      (hmaximum : ((g.session call.client).streams.length : ℤ) < maximum)
      (hunfenced : (g.session call.client).reconnectWaiters = []) :
      Turn g (g.grant id call ((g.session call.client).addStream id call.waiter) true)
  | advance {id : ℕ} {call : Call} (hcall : g.calls id = some call) (hphase : call.phase = .enter)
      (hop : call.op = .reconnect) (hcurrent : g.Current call)
      (hactive : (g.session call.client).activeMutation = none)
      (hstreams : (g.session call.client).streams = [])
      (hfirst : (g.session call.client).reconnectWaiters.head? = some id) :
      Turn g ((g.setSession call.client (g.session call.client).advance).goto id
        { call with fencing := true } (.returned (.session (g.session call.client).advance.epoch)))
  | closing {id : ℕ} {lease : Lease} (hlease : g.leases id = some lease)
      (hheld : lease.phase = .held) (hstream : lease.stream = true) :
      Turn g (g.setLease id { lease with phase := .closing })
  | closeMutation {id : ℕ} {lease : Lease} (hlease : g.leases id = some lease)
      (hheld : lease.phase = .held) (hstream : lease.stream = false) :
      Turn g (g.closeMutation id lease)
  | releaseStream {id : ℕ} {lease : Lease} (hlease : g.leases id = some lease)
      (hclosing : lease.phase = .closing) : Turn g (g.releaseStream id lease)

namespace SessionState

theorem waiters_signal (q : Queue) : st.signal.waiters q = st.waiters q := by cases q <;> rfl

variable (op : Operation)

theorem waiters_queue (q : Queue) :
    (st.queue id op).waiters q = if op.queue = q then st.waiters q ++ [id] else st.waiters q := by
  cases op <;> cases q <;> rfl

theorem waiters_remove (q : Queue) : (remove st id op).waiters q =
      if op.queue = q then (st.waiters q).erase id else st.waiters q := by
  cases op <;> cases q <;>
    simp only [remove, removeMutation, removeStream, removeReconnect] <;> split_ifs with h <;>
    simp_all [waiters, Operation.queue, signal, erase_of_not_mem]

theorem waiters_grantNow (q : Queue) : (st.grantNow id).waiters q = st.waiters q := by
  cases q <;> rfl

theorem waiters_grantNext (q : Queue) :
    (st.grantNext id).waiters q = if q = .mutation then (st.waiters q).tail else st.waiters q := by
  cases q <;> rfl

theorem waiters_addStream (waiter : Bool) (m : ℤ) (q : Queue) :
    (st.addStream id waiter).waiters q =
      (if waiter then remove st id (.stream m) else st).waiters q := by
  cases q <;> rfl

theorem remove_keeps : (remove st id op).activeMutation = st.activeMutation ∧
      (remove st id op).streams = st.streams ∧ (remove st id op).epoch = st.epoch ∧
      (remove st id op).queuedCalls = st.queuedCalls ∧
      (remove st id op).grantedCalls = st.grantedCalls := by
  cases op <;> simp only [remove, removeMutation, removeStream, removeReconnect] <;>
    split_ifs <;> simp [signal]

theorem queue_keeps :
    (st.queue id op).activeMutation = st.activeMutation ∧ (st.queue id op).streams = st.streams ∧
      (st.queue id op).epoch = st.epoch ∧ (st.queue id op).grantedCalls = st.grantedCalls := by
  cases op <;> exact ⟨rfl, rfl, rfl, rfl⟩

theorem addStream_keeps (waiter : Bool) :
    (st.addStream id waiter).activeMutation = st.activeMutation ∧
      (st.addStream id waiter).streams = id :: st.streams ∧
      (st.addStream id waiter).epoch = st.epoch ∧
      (st.addStream id waiter).queuedCalls = st.queuedCalls ∧
      (st.addStream id waiter).grantedCalls = st.grantedCalls ∧
      (st.addStream id waiter).mutationWaiters = st.mutationWaiters := by
  unfold addStream removeStream
  cases waiter <;> dsimp only <;> split_ifs <;> simp_all [signal]

theorem waiters_advance (q : Queue) :
    st.advance.waiters q = if q = .reconnect then (st.waiters q).tail else st.waiters q := by
  cases q <;> rfl

end SessionState

namespace SessionStore

variable (store : SessionStore)

theorem maybeDrained_session : store.maybeDrained.session = store.session := by
  unfold maybeDrained
  split_ifs <;> rfl

theorem maybeDrained_clients : store.maybeDrained.clients = store.clients := by
  unfold maybeDrained
  split_ifs <;> rfl

theorem close_session {store : SessionStore} (h : store.closed = false) (c : String) :
    store.close.session c =
      if c ∈ store.clients then (store.session c).signal else store.session c := by
  simp [close, h, maybeDrained_session]

theorem close_clients : store.close.clients = store.clients := by
  unfold close
  split_ifs <;> simp [maybeDrained_clients]

end SessionStore

namespace Gate

/-- Waiters are queued at a known client, those of calls that have not returned, and a reconnect
loops with its waiter. -/
@[mk_iff] structure Waits (g : Gate) : Prop where
  known : ∀ id call, g.calls id = some call → call.waiter = true → call.client ∈ g.store.clients
  early : ∀ id call, g.calls id = some call → call.phase = .entry ∨ call.phase = .register →
    call.waiter = false
  looping : ∀ id call, g.calls id = some call → call.op = .reconnect → call.phase.looping = true →
    call.waiter = true ∧ call.epoch ≠ maxEpoch
  register : ∀ id call, g.calls id = some call → call.phase = .register → call.op = .reconnect
  queued : ∀ c q id, id ∈ (g.session c).waiters q ↔ ∃ call, g.calls id = some call ∧
    call.client = c ∧ call.op.queue = q ∧ call.waiter = true ∧ call.phase.isReturned = false
  nodup : ∀ c q, ((g.session c).waiters q).Nodup
  leased : ∀ id lease, g.leases id = some lease → lease.client ∈ g.store.clients
  absent : ∀ c, c ∉ g.store.clients → g.session c = .fresh

variable {id} {g g' : Gate} {call : Call}

theorem current_of_locked (h : g.store.sessionLocked call.client call.epoch = none) :
    g.Current call := by
  unfold SessionStore.sessionLocked SessionStore.isClosed at h
  split_ifs at h with hclosed hclient hepoch
  push Not at hepoch
  exact ⟨by simp_all, hclient, hepoch.2⟩

theorem setSession_self (g : Gate) (c : String) : g.setSession c (g.session c) = g := by
  simp [setSession, SessionStore.setSession]

section

variable (hcall : g.calls id = some call)
include hcall

theorem turn_fail (hold : call.phase.isReturned = false)
    (hwaiter : call.waiter = false) (err : SessionError) : g.Turn (g.fail id call err) := by
  have hleave : g.Turn ((g.removeWaiter id call).fail id call err) := .leave hcall hold
  rwa [removeWaiter, if_neg (by simp [hwaiter])] at hleave

theorem stepEntry_turn (h : g.Waits) (hphase : call.phase = .entry) :
    g.Turn (g.stepEntry id call) := by
  have hold : call.phase.isReturned = false := by rw [hphase]; rfl
  have hfail := turn_fail hcall hold (h.early id call hcall (.inl hphase))
  have hgo : ∀ phase : CallPhase, phase.isReturned = false → (∀ c, phase ≠ .waiting c) →
      (call.op = .reconnect ↔ phase = .register) → g.Turn (g.goto id call phase) :=
    fun phase hnew hwait hop => .go hcall hold hnew hwait (.inr ⟨hphase, hop⟩)
  unfold stepEntry
  cases hop : call.op <;> dsimp only <;> split_ifs
  · exact hfail _
  · split
    · exact hfail _
    · exact hgo .top rfl nofun (by simp [hop])
  · exact hfail _
  · exact hfail _
  · split
    · exact hfail _
    · exact hgo .top rfl nofun (by simp [hop])
  · exact hfail _
  · split
    · exact hfail _
    · exact hgo .register rfl nofun (by simp [hop])

theorem stepRegister_turn (h : g.Waits) (hphase : call.phase = .register) :
    g.Turn (g.stepRegister id call) := by
  have hold : call.phase.isReturned = false := by rw [hphase]; rfl
  have hop := h.register id call hcall hphase
  have hwaiter := h.early id call hcall (.inr hphase)
  have hfail := turn_fail hcall hold hwaiter
  unfold stepRegister
  dsimp only
  split
  · exact hfail _
  · rename_i hlocked
    split_ifs with hmax hfull
    · exact hfail _
    · exact hfail _
    · exact .queue hcall hold hwaiter hop (current_of_locked hlocked) (not_le.mp hfull)
        (.inl ⟨rfl, hmax, rfl⟩)

/-- A queued call that is kept waiting. -/
theorem turn_wait {op : Operation} (hphase : call.phase = .enter)
    (hwaiter : call.waiter = true) (hop : call.op = op) (hcurrent : g.Current call)
    (hblocks : (g.session call.client).Blocks id call.fencing op) :
    g.Turn ((g.setSession call.client (g.session call.client)).goto id
      { call with waiter := true } (.waiting (g.session call.client).changed)) := by
  rw [setSession_self, ← hwaiter]
  exact .wait hcall hphase hwaiter hop hcurrent hblocks

theorem enterMutation_turn (h : g.Waits) (hphase : call.phase = .enter)
    (hop : call.op = .mutation) : g.Turn (g.enterMutation id call) := by
  have hold : call.phase.isReturned = false := by rw [hphase]; rfl
  unfold enterMutation
  split
  · exact .leave hcall hold
  · rename_i hlocked
    have hcurrent := current_of_locked hlocked
    split_ifs
    · exact .leave hcall hold
    · unfold tryAcquireMutation
      split_ifs with hfree hfull hwaiter
      · exact .mutation hcall hphase hop hcurrent hfree.1 hfree.2.1 hfree.2.2.1 hfree.2.2.2
      · exact turn_fail hcall hold hfull.1 _
      all_goals dsimp only; split_ifs with hblocks
      · exact turn_wait hcall hphase hwaiter hop hcurrent hblocks
      · push Not at hblocks
        obtain ⟨hunfenced, hactive, hhead⟩ := hblocks
        exact .next hcall hphase hop hcurrent hwaiter hactive hhead hunfenced
      · rw [Bool.not_eq_true] at hwaiter
        exact .queue hcall hold hwaiter hop hcurrent
          (lt_of_not_ge fun hge => hfull ⟨hwaiter, hge⟩) (.inr ⟨nofun, rfl, hblocks⟩)
      · -- the call was not queued before, so it is at the head only of a queue that was empty
        push Not at hblocks
        obtain ⟨hunfenced, hactive, hhead⟩ := hblocks
        rw [Bool.not_eq_true] at hwaiter
        have hnot := mt (h.queued call.client .mutation id).mp
        cases hqueue : (g.session call.client).mutationWaiters with
        | nil => exact absurd ⟨hwaiter, hactive, hqueue, hunfenced⟩ hfree
        | cons first rest => simp_all [waiters]

theorem enterStream_turn (hphase : call.phase = .enter) {maximum : ℤ}
    (hop : call.op = .stream maximum) : g.Turn (g.enterStream id call maximum) := by
  have hold : call.phase.isReturned = false := by rw [hphase]; rfl
  unfold enterStream
  split
  · exact .leave hcall hold
  · rename_i hlocked
    have hcurrent := current_of_locked hlocked
    split_ifs
    · exact .leave hcall hold
    · unfold tryAcquireStream
      by_cases hunfenced : (g.session call.client).reconnectWaiters = []
      · rw [if_pos hunfenced]
        have hstreams : (if call.waiter then (g.session call.client).removeStream id
            else g.session call.client).streams = (g.session call.client).streams := by
          unfold removeStream
          split_ifs <;> rfl
        dsimp only
        rw [hstreams]
        by_cases hmaximum : maximum ≤ (g.session call.client).streams.length
        · -- the store is open, so that giving up the waiter does not drain it
          rw [if_pos hmaximum]
          have hleave : g.Turn ((g.removeWaiter id call).fail id call
              (.gateCapacity "stream leases" maximum)) := .leave hcall hold
          unfold removeWaiter at hleave
          split_ifs at hleave ⊢
          · rw [hop] at hleave
            simpa [SessionStore.maybeDrained, SessionStore.setSession, hcurrent.opened, remove,
              setSession] using hleave
          · dsimp only
            rwa [setSession_self]
        · rw [if_neg hmaximum]
          have hstream := Turn.stream hcall hphase hop hcurrent (not_le.mp hmaximum) hunfenced
          rw [addStream, hstreams] at hstream
          exact hstream
      · rw [if_neg hunfenced]
        split_ifs with hwaiter hfull
        · exact turn_wait hcall hphase hwaiter hop hcurrent hunfenced
        · dsimp only
          rw [setSession_self]
          exact turn_fail hcall hold (by simpa using hwaiter) _
        · exact .queue hcall hold (by simpa using hwaiter) hop hcurrent (not_le.mp hfull)
            (.inr ⟨nofun, rfl, hunfenced⟩)

theorem enterReconnect_turn (h : g.Waits) (hphase : call.phase = .enter)
    (hop : call.op = .reconnect) : g.Turn (g.enterReconnect id call) := by
  have hold : call.phase.isReturned = false := by rw [hphase]; rfl
  have hwaiter := (h.looping id call hcall hop (by rw [hphase]; rfl)).1
  have hclient := h.known id call hcall hwaiter
  unfold enterReconnect
  dsimp only
  split_ifs with hclosed hepoch hwait hcancel hstreams
  · exact .leave hcall hold
  · exact .leave hcall hold
  all_goals
    have hcurrent : g.Current call :=
    ⟨by simp_all [SessionStore.isClosed], hclient, not_not.mp hepoch⟩
  · show g.Turn (g.goto id { call with fencing := call.fencing } _)
    exact .wait hcall hphase hwaiter hop hcurrent (hwait.imp_right .inl)
  · exact .go hcall hold rfl nofun (.inl ⟨by rw [hphase]; rfl, rfl⟩)
  · exact .wait hcall hphase hwaiter hop hcurrent (.inr (.inr ⟨rfl, hstreams⟩))
  · push Not at hwait hstreams
    exact .advance hcall hphase hop hcurrent hwait.2 hstreams hwait.1

theorem stepCall_turn (h : g.Waits) (hstep : g.stepCall id call = some g') : g.Turn g' := by
  unfold stepCall at hstep
  cases hphase : call.phase with
  | entry =>
    simp only [hphase, some.injEq] at hstep
    exact hstep ▸ stepEntry_turn hcall h hphase
  | register =>
    simp only [hphase, some.injEq] at hstep
    exact hstep ▸ stepRegister_turn hcall h hphase
  | top =>
    simp only [hphase, some.injEq] at hstep
    subst hstep
    refine .go hcall (by rw [hphase]; rfl) ?_ ?_ (.inl ⟨by rw [hphase]; rfl, ?_⟩)
    all_goals split_ifs <;> first | rfl | nofun
  | cancelled =>
    simp only [hphase, some.injEq] at hstep
    exact hstep ▸ .leave hcall (by rw [hphase]; rfl)
  | enter =>
    simp only [hphase, some.injEq] at hstep
    subst hstep
    unfold stepEnter
    cases hop : call.op with
    | mutation => exact enterMutation_turn hcall h hphase hop
    | stream maximum => exact enterStream_turn hcall hphase hop
    | reconnect => exact enterReconnect_turn hcall h hphase hop
  | waiting changed =>
    simp only [hphase, ite_none_right_eq_some, some.injEq] at hstep
    exact hstep.2 ▸ .go hcall (by rw [hphase]; rfl) rfl nofun (.inl ⟨by rw [hphase]; rfl, rfl⟩)
  | returned result => simp [hphase] at hstep

end

theorem step_turn (h : g.Waits) {label : Label} (hstep : g.step label = some g') : g.Turn g' := by
  cases label with
  | fresh clientID =>
    cases hstep
    unfold SessionStore.fresh SessionStore.isClosed
    split_ifs with hrefused
    · exact .same
    · push Not at hrefused
      exact .attach (by simp_all) hrefused.2.2
  | call id op client epoch ctxDone =>
    cases hcall : g.calls id with
    | some _ => simp [step, hcall] at hstep
    | none =>
      simp only [step, hcall, some.injEq] at hstep
      exact hstep ▸ .start hcall rfl rfl
  | run id =>
    obtain ⟨call, hcall, hrun⟩ := bind_eq_some_iff.mp hstep
    exact stepCall_turn hcall h hrun
  | cancel id =>
    obtain ⟨call, hcall, rfl⟩ := map_eq_some_iff.mp hstep
    exact .cancel hcall
  | closeLease id =>
    obtain ⟨lease, hlease, hrun⟩ := bind_eq_some_iff.mp hstep
    simp only [ite_none_right_eq_some, some.injEq] at hrun
    obtain ⟨hheld, rfl⟩ := hrun
    split_ifs with hstream
    · exact .closing hlease hheld hstream
    · exact .closeMutation hlease hheld (by simpa using hstream)
  | releaseStream id =>
    obtain ⟨lease, hlease, hrun⟩ := bind_eq_some_iff.mp hstep
    simp only [ite_none_right_eq_some, some.injEq] at hrun
    exact hrun.2 ▸ .releaseStream hlease hrun.1
  | close =>
    cases hstep
    cases hclosed : g.store.closed with
    | true => simpa [SessionStore.close, hclosed] using Turn.same
    | false => exact .shut hclosed
  | rootDone => exact some.inj hstep ▸ .root

attribute [local grind =] CallPhase.isReturned CallPhase.looping Operation.queue

namespace Waits

section

variable (h : g.Waits) (hcall : g.calls id = some call)
include h hcall

/-- A call that has no waiter is not queued. -/
theorem not_queued (hwaiter : call.waiter = false)
    (c : String) (q : Queue) : id ∉ (g.session c).waiters q := by
  rw [h.queued]
  rintro ⟨call', hcall', -, -, hwaiter', -⟩
  rw [some.inj (hcall.symm.trans hcall'), hwaiter'] at hwaiter
  cases hwaiter

section

variable {call' : Call} (hcalls : g'.calls = Function.update g.calls id (some call'))
  (hcall' : call'.client = call.client ∧ call'.op = call.op ∧ call'.waiter = call.waiter ∧
    call'.phase.isReturned = true)
  (hleases : ∀ i lease, g'.leases i = some lease → lease.client ∈ g.store.clients)
include hcalls hcall' hleases

/-- A call returns, and its queue keeps the others. -/
theorem returns (hclients : g'.store.clients = g.store.clients)
    (hwaiters : ∀ c q, (g'.session c).waiters q = if c = call.client ∧ q = call.op.queue then
      ((g.session c).waiters q).erase id else (g.session c).waiters q)
    (habsent : ∀ c, c ∉ g.store.clients → g'.session c = .fresh) : g'.Waits := by
  obtain ⟨hclient, hop, hwaiter, hreturned⟩ := hcall'
  have hloop : call'.phase ≠ .entry ∧ call'.phase ≠ .register ∧ call'.phase.looping = false := by
    cases hphase : call'.phase <;> simp_all [CallPhase.isReturned, CallPhase.looping]
  simp only [waits_iff, hclients, hcalls, hwaiters, update_apply] at h ⊢
  refine ⟨?_, ?_, ?_, ?_, ?_, ?_, hleases, habsent⟩
  all_goals grind [List.Nodup.mem_erase_iff, List.Nodup.erase]

/-- A call returns its lease or its session. -/
theorem obtains {st : SessionState} (hknown : call.client ∈ g.store.clients)
    (hstore : g'.store = g.store.setSession call.client st)
    (hwaiters : ∀ q, st.waiters q = if q = call.op.queue then
      ((g.session call.client).waiters q).erase id
      else (g.session call.client).waiters q) : g'.Waits := by
  refine h.returns hcall hcalls hcall' hleases (hstore ▸ rfl) (fun c q => ?_) fun c hc => ?_
  all_goals
    rw [session, hstore, SessionStore.setSession]
    simp only [update_apply]
    grind [h.absent c]

end

theorem leave (err : SessionError) : ((g.removeWaiter id call).fail id call err).Waits := by
  have hnot := h.not_queued hcall
  have hknown := h.known id call hcall
  have hwaiters := waiters_remove (g.session call.client) id call.op
  unfold removeWaiter
  split_ifs with hwaiter
  · refine h.returns hcall rfl ⟨rfl, rfl, rfl, rfl⟩ h.leased ?_ (fun c q => ?_) fun c hc => ?_
    · simp [fail, goto, setCall, SessionStore.maybeDrained_clients, SessionStore.setSession]
    all_goals
      simp only [fail, goto, setCall, session, SessionStore.maybeDrained_session,
        SessionStore.setSession, update_apply]
      grind [h.absent c]
  · refine h.returns hcall rfl ⟨rfl, rfl, rfl, rfl⟩ h.leased rfl (fun c q => ?_) h.absent
    rw [erase_of_not_mem (hnot (by simpa using hwaiter) c q), ite_self]
    rfl

theorem queue {phase : CallPhase} (hwaiter : call.waiter = false)
    (hknown : call.client ∈ g.store.clients)
    (hphase : call.op = .reconnect ∧ call.epoch ≠ maxEpoch ∧ phase = .top ∨
      call.op ≠ .reconnect ∧ ∃ changed, phase = .waiting changed) :
    ((g.setSession call.client ((g.session call.client).queue id call.op)).goto id
      { call with waiter := true } phase).Waits := by
  have hnot := h.not_queued hcall hwaiter
  have hwaiters := waiters_queue (g.session call.client) id call.op
  simp only [waits_iff, goto, setCall, setSession, SessionStore.setSession, update_apply] at *
  and_intros
  all_goals grind [nodup_append]

end

open SessionState in
theorem turn (h : g.Waits) (hturn : g.Turn g') : g'.Waits := by
  have hleases : ∀ i id lease', lease'.client ∈ g.store.clients → ∀ lease,
      Function.update g.leases id (some lease') i = some lease →
      lease.client ∈ g.store.clients := by
    have := h.leased
    intro i id
    grind [update_apply]
  cases hturn with
  | same => exact h
  | root => exact (waits_iff _).mpr ((waits_iff g).mp h)
  | attach hopen hnew =>
    simp only [waits_iff, SessionStore.setSession, update_apply] at *
    grind
  | shut hopen =>
    simp only [waits_iff, session, SessionStore.close_session hopen,
      SessionStore.close_clients] at *
    grind [waiters_signal]
  | closing =>
    simp only [waits_iff, setLease, update_apply] at *
    grind
  | start | cancel | go | wait =>
    simp only [waits_iff, goto, setCall, update_apply] at *
    grind
  | leave hcall => exact h.leave hcall _
  | queue hcall _ hwaiter hop hcurrent _ hphase =>
    subst hop
    exact h.queue hcall hwaiter hcurrent.known (hphase.imp_right fun hw => ⟨hw.1, _, hw.2.1⟩)
  | mutation hcall hphase hop hcurrent hwaiter =>
    refine h.obtains hcall rfl ⟨rfl, rfl, rfl, rfl⟩ (fun i => hleases i _ _ hcurrent.known)
      hcurrent.known rfl fun q => ?_
    rw [waiters_grantNow, erase_of_not_mem (h.not_queued hcall hwaiter _ q), ite_self]
  | @next id call hcall hphase hop hcurrent hwaiter hactive hfirst hunfenced =>
    obtain ⟨rest, hrest⟩ : ∃ rest, (g.session call.client).waiters .mutation = id :: rest :=
      head?_eq_some_iff.mp hfirst
    refine h.obtains hcall rfl ⟨rfl, rfl, rfl, rfl⟩ (fun i => hleases i _ _ hcurrent.known)
      hcurrent.known rfl fun q => ?_
    rw [waiters_grantNext, hop]
    cases q <;> simp [Operation.queue, hrest]
  | @stream id call maximum hcall hphase hop hcurrent hmaximum hunfenced =>
    refine h.obtains hcall rfl ⟨rfl, rfl, rfl, rfl⟩ (fun i => hleases i _ _ hcurrent.known)
      hcurrent.known rfl fun q => ?_
    rw [waiters_addStream _ _ _ maximum, hop]
    split_ifs with hwaiter
    all_goals have := waiters_remove (g.session call.client) id (.stream maximum) q
    all_goals have := h.not_queued hcall
    all_goals grind [erase_of_not_mem]
  | @advance id call hcall hphase hop hcurrent hactive hstreams hfirst =>
    obtain ⟨rest, hrest⟩ : ∃ rest, (g.session call.client).waiters .reconnect = id :: rest :=
      head?_eq_some_iff.mp hfirst
    refine h.obtains hcall rfl ⟨rfl, rfl, rfl, rfl⟩ h.leased hcurrent.known rfl fun q => ?_
    rw [waiters_advance, hop]
    cases q <;> simp [Operation.queue, hrest]
  | @closeMutation id lease hlease hheld hstream =>
    have hwaiters : ∀ q, { g.session lease.client with activeMutation := none }.signal.waiters q =
        (g.session lease.client).waiters q := by
      rintro (_ | _) <;> rfl
    simp only [waits_iff, session, closeMutation, setLease, SessionStore.maybeDrained_session,
      SessionStore.maybeDrained_clients, update_apply] at *
    split_ifs
    · simp only [SessionStore.setSession, update_apply]
      grind
    · grind
  | @releaseStream id lease hlease hheld =>
    have hwaiters : ∀ q, { g.session lease.client with
          streams := (g.session lease.client).streams.erase id }.signal.waiters q =
        (g.session lease.client).waiters q := by
      rintro (_ | _) <;> rfl
    simp only [waits_iff, session, releaseStream, setLease, SessionStore.maybeDrained_session,
      SessionStore.maybeDrained_clients, SessionStore.setSession, update_apply] at *
    grind

end Waits

end Gate

end SpiceAgent.Daemon
