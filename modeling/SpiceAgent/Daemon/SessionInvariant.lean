import SpiceAgent.Daemon.SessionTurns

/-!
# Fencing in every run of the session store

The leases agree with the state of their client: a live mutation lease is the active one, a live
stream lease is in the client's set, and both carry the current epoch. A grant therefore finds no
other mutation lease, and an epoch advances only when no lease of the old one is live.

`Turn.change` says what a step does to the state of one client, and the invariants of a single
client are read off it.
-/

namespace SpiceAgent.Daemon

open SpiceAgent.Lib SessionState List Option
open Function (update_apply)

/-- The lease is of this kind and client and has not been given back. -/
def Lease.live (lease : Lease) (stream : Bool) (c : String) : Bool :=
  lease.client = c ∧ lease.stream = stream ∧ lease.phase ≠ .released

/-- Mutation leases were granted in the order in which their calls queued. -/
def SessionState.Fifo (st : SessionState) : Prop :=
  st.queuedCalls.Nodup ∧ (st.grantedCalls ++ st.mutationWaiters).Sublist st.queuedCalls

namespace Gate

variable {g g' : Gate} {id : ℕ} {call : Call}

attribute [local grind =] CallPhase.isReturned CallPhase.looping Operation.queue
attribute [local grind =] Lease.live any_some any_none

/-- The live leases are those that the clients' states name, and they are for the current epoch. -/
@[mk_iff] structure Holds (g : Gate) : Prop where
  granted : ∀ id lease, g.leases id = some lease →
    ∃ call, g.calls id = some call ∧ call.phase = .returned .lease
  active : ∀ c id, (g.session c).activeMutation = some id ↔ (g.leases id).any (·.live false c)
  streams : ∀ c id, id ∈ (g.session c).streams ↔ (g.leases id).any (·.live true c)
  nodup : ∀ c, (g.session c).streams.Nodup
  closing : ∀ id lease, g.leases id = some lease → lease.phase = .closing → lease.stream = true
  epoch : ∀ id lease, g.leases id = some lease → lease.phase ≠ .released →
    lease.epoch = (g.session lease.client).epoch
  limit : ∀ c, 0 < (g.session c).epoch ∧ (g.session c).epoch ≤ maxEpoch

/-- A call keeps its arguments, its waiter and what it returned. -/
@[mk_iff] structure Later (call call' : Call) : Prop where
  op : call'.op = call.op
  client : call'.client = call.client
  epoch : call'.epoch = call.epoch
  waiter : call.waiter = true → call'.waiter = true
  phase : call.phase.isReturned = true → call'.phase = call.phase

theorem Turn.later (hturn : g.Turn g') (hcall : g.calls id = some call) :
    ∃ call', g'.calls id = some call' ∧ Later call call' := by
  cases hturn with
  | same | root | attach | shut | closing | closeMutation | releaseStream =>
    exact ⟨call, hcall, rfl, rfl, rfl, fun h => h, fun _ => rfl⟩
  | leave =>
    unfold removeWaiter
    split_ifs
    all_goals
      simp only [fail, goto, setCall, update_apply, later_iff]
      grind
  | _ =>
    simp only [grant, goto, setCall, setLease, setSession, update_apply, later_iff]
    grind

/-- A step that leaves the leases and what the clients' states say of them. -/
theorem Holds.quiet (hl : g.Holds) (hleases : g'.leases = g.leases)
    (hcalls : ∀ i call, g.calls i = some call → ∃ call', g'.calls i = some call' ∧ Later call call')
    (hsession : ∀ c, (g'.session c).activeMutation = (g.session c).activeMutation ∧
      (g'.session c).streams = (g.session c).streams ∧
      (g'.session c).epoch = (g.session c).epoch) : g'.Holds := by
  simp only [holds_iff, hleases, hsession, later_iff] at *
  grind

theorem Holds.no_lease (hl : g.Holds) (hcall : g.calls id = some call)
    (hold : call.phase.isReturned = false) : g.leases id = none := by
  cases hlease : g.leases id with
  | none => rfl
  | some lease =>
    obtain ⟨old, hcall', hreturned⟩ := hl.granted id lease hlease
    cases hcall.symm.trans hcall'
    rw [hreturned] at hold
    cases hold

/-- A call that has not returned obtains its lease. -/
theorem Holds.grant (hl : g.Holds) (hcall : g.calls id = some call) (hphase : call.phase = .enter)
    {st : SessionState} {stream : Bool} (hepoch : st.epoch = (g.session call.client).epoch)
    (hmutation : stream = false → (g.session call.client).activeMutation = none ∧
      st.activeMutation = some id ∧ st.streams = (g.session call.client).streams)
    (hstream : stream = true →
      st.activeMutation = (g.session call.client).activeMutation ∧
      st.streams = id :: (g.session call.client).streams) : (g.grant id call st stream).Holds := by
  have hnone := hl.no_lease hcall (by rw [hphase]; rfl)
  simp only [holds_iff, Gate.grant, goto, setCall, setLease, setSession, SessionStore.setSession,
    update_apply] at *
  cases stream
  all_goals
    and_intros
    all_goals grind

theorem Holds.released (hl : g.Holds) {c : String} (hactive : (g.session c).activeMutation = none)
    (hstreams : (g.session c).streams = []) {lease : Lease} (hlease : g.leases id = some lease)
    (hclient : lease.client = c) : lease.phase = .released := by
  have hno := hl.active c id
  have hno' := hl.streams c id
  rw [hlease] at hno hno'
  cases hstream : lease.stream <;> simp_all [Lease.live]

theorem advance_epoch (h : g.Waits) (hl : g.Holds) (hcall : g.calls id = some call)
    (hphase : call.phase = .enter) (hop : call.op = .reconnect) (hcurrent : g.Current call) :
    (g.session call.client).advance.epoch = (g.session call.client).epoch + 1 := by
  have hne := (h.looping id call hcall hop (by rw [hphase]; rfl)).2
  have hepoch := hcurrent.epoch
  have hlimit := (hl.limit call.client).2
  unfold maxEpoch at *
  exact Nat.mod_eq_of_lt (by omega)

theorem Holds.turn (h : g.Waits) (hl : g.Holds) (hturn : g.Turn g') : g'.Holds := by
  have hcalls : ∀ i call, g.calls i = some call → ∃ call', g'.calls i = some call' ∧
    Later call call' := fun _ _ => hturn.later
  cases hturn with
  | same => exact hl
  | root | start | cancel | go | wait => exact hl.quiet rfl hcalls fun c => ⟨rfl, rfl, rfl⟩
  | @attach c hopen hnew =>
    have hfresh := h.absent c hnew
    refine hl.quiet rfl hcalls fun c' => ?_
    simp only [session, SessionStore.setSession, update_apply]
    grind
  | shut hopen =>
    refine hl.quiet rfl hcalls fun c => ?_
    simp only [session, SessionStore.close_session hopen]
    grind [signal]
  | closing =>
    simp only [holds_iff, setLease, update_apply] at *
    and_intros
    all_goals grind
  | @leave id call =>
    have hkeep := remove_keeps (g.session call.client) id call.op
    unfold removeWaiter at hcalls ⊢
    split_ifs at hcalls ⊢
    all_goals
      refine hl.quiet rfl hcalls fun c => ?_
      simp only [fail, goto, setCall, session, SessionStore.maybeDrained_session,
        SessionStore.setSession, update_apply]
      grind
  | @queue id call op phase hcall hold hwaiter hop hcurrent hfew hphase =>
    have hkeep := queue_keeps (g.session call.client) id op
    refine hl.quiet rfl hcalls fun c => ?_
    simp only [goto, setCall, session, setSession, SessionStore.setSession, update_apply]
    grind
  | mutation hcall hphase hop hcurrent hwaiter hactive =>
    exact hl.grant hcall hphase rfl (fun _ => ⟨hactive, rfl, rfl⟩) (by simp)
  | next hcall hphase hop hcurrent hwaiter hactive =>
    exact hl.grant hcall hphase rfl (fun _ => ⟨hactive, rfl, rfl⟩) (by simp)
  | @stream id call maximum hcall hphase hop hcurrent hmaximum =>
    obtain ⟨hactive, hstreams, hepoch, -⟩ :=
      addStream_keeps (g.session call.client) id call.waiter
    exact hl.grant hcall hphase hepoch (by simp) fun _ => ⟨hactive, hstreams⟩
  | @advance id call hcall hphase hop hcurrent hactive hstreams hfirst =>
    have hnext := advance_epoch h hl hcall hphase hop hcurrent
    have hne := (h.looping id call hcall hop (by rw [hphase]; rfl)).2
    have hepoch := hcurrent.epoch
    have hrest : (g.session call.client).advance.activeMutation = none ∧
      (g.session call.client).advance.streams = [] := ⟨hactive, hstreams⟩
    have hreleased : ∀ i lease, g.leases i = some lease → lease.client = call.client →
      lease.phase = .released := fun _ _ => hl.released hactive hstreams
    simp only [holds_iff, goto, setCall, setSession, SessionStore.setSession, update_apply] at *
    and_intros
    all_goals grind
  | @closeMutation id lease hlease hheld hstream =>
    have hactive := (hl.active lease.client id).mpr (by simp [hlease, Lease.live, hstream, hheld])
    simp only [holds_iff, session, Gate.closeMutation, setLease, SessionStore.maybeDrained_session,
      if_pos hactive, SessionStore.setSession, signal, update_apply] at *
    and_intros
    all_goals grind
  | @releaseStream id lease hlease hheld =>
    simp only [holds_iff, session, Gate.releaseStream, setLease, SessionStore.maybeDrained_session,
      SessionStore.setSession, signal, update_apply] at *
    and_intros
    all_goals grind [List.Nodup.mem_erase_iff, List.Nodup.erase]

/-- What a turn does to the state of one client. -/
inductive Change (g : Gate) (c : String) : SessionState → Prop
  | same : Change g c (g.session c)
  | signal : Change g c (g.session c).signal
  | queue {id : ℕ} {call : Call} {op : Operation} (hcall : g.calls id = some call)
      (hold : call.phase.isReturned = false) (hwaiter : call.waiter = false) (hop : call.op = op)
      (hclient : call.client = c)
      (hfew : (g.session c).gateWaiters < maximumSessionGateWaitersPerClient) :
      Change g c ((g.session c).queue id op)
  | remove (id : ℕ) (op : Operation) : Change g c (remove (g.session c) id op)
  | grantNow {id : ℕ} {call : Call} (hcall : g.calls id = some call) (hphase : call.phase = .enter)
      (hop : call.op = .mutation) (hclient : call.client = c) (hwaiter : call.waiter = false)
      (hfirst : (g.session c).mutationWaiters = [])
      (hunfenced : (g.session c).reconnectWaiters = []) :
      Change g c ((g.session c).grantNow id)
  | grantNext {id : ℕ} (hfirst : (g.session c).mutationWaiters.head? = some id) :
      Change g c ((g.session c).grantNext id)
  | addStream {id : ℕ} {call : Call} {maximum : ℤ} (hcall : g.calls id = some call)
      (hop : call.op = .stream maximum)
      (hmaximum : ((g.session c).streams.length : ℤ) < maximum)
      (hunfenced : (g.session c).reconnectWaiters = []) :
      Change g c ((g.session c).addStream id call.waiter)
  | advance {id : ℕ} {call : Call} (hcall : g.calls id = some call) (hphase : call.phase = .enter)
      (hop : call.op = .reconnect) (hcurrent : g.Current call) (hclient : call.client = c)
      (hactive : (g.session c).activeMutation = none)
      (hstreams : (g.session c).streams = []) :
      Change g c (g.session c).advance
  | free : Change g c { g.session c with activeMutation := none }.signal
  | freeStream (id : ℕ) :
      Change g c { g.session c with streams := (g.session c).streams.erase id }.signal

theorem change_set {st : SessionState} {c c' : String} (h : g.Change c st) :
    g.Change c' ((g.store.setSession c st).session c') := by
  rcases eq_or_ne c' c with rfl | hne
  · show g.Change c' (Function.update g.session c' st c')
    rwa [Function.update_self]
  · show g.Change c' (Function.update g.session c st c')
    rw [Function.update_of_ne hne]
    exact .same

theorem Turn.change (h : g.Waits) (hturn : g.Turn g') (c : String) : g.Change c (g'.session c) := by
  cases hturn with
  | same | root | closing | start | cancel | go | wait => exact .same
  | attach hopen hnew => exact change_set (h.absent _ hnew ▸ .same)
  | shut hopen =>
    rw [session, SessionStore.close_session hopen]
    split_ifs
    · exact .signal
    · exact .same
  | leave =>
    unfold removeWaiter
    split_ifs
    · show g.Change c (SessionStore.session (SessionStore.maybeDrained _) c)
      rw [SessionStore.maybeDrained_session]
      exact change_set (.remove _ _)
    · exact .same
  | queue hcall hold hwaiter hop hcurrent hfew =>
    exact change_set (.queue hcall hold hwaiter hop rfl hfew)
  | mutation hcall hphase hop hcurrent hwaiter hactive hfirst hunfenced =>
    exact change_set (.grantNow hcall hphase hop rfl hwaiter hfirst hunfenced)
  | next hcall hphase hop hcurrent hwaiter hactive hfirst => exact change_set (.grantNext hfirst)
  | stream hcall hphase hop hcurrent hmaximum hunfenced =>
    exact change_set (.addStream hcall hop hmaximum hunfenced)
  | advance hcall hphase hop hcurrent hactive hstreams =>
    exact change_set (.advance hcall hphase hop hcurrent rfl hactive hstreams)
  | closeMutation =>
    show g.Change c (SessionStore.session (SessionStore.maybeDrained _) c)
    rw [SessionStore.maybeDrained_session]
    split_ifs
    · exact change_set .free
    · exact .same
  | releaseStream =>
    show g.Change c (SessionStore.session (SessionStore.maybeDrained _) c)
    rw [SessionStore.maybeDrained_session]
    exact change_set (.freeStream _)

/-- Each epoch was reconnected once, and is past. -/
@[mk_iff] structure Once (g : Gate) : Prop where
  past : ∀ id call e, g.calls id = some call → call.phase = .returned (.session e) →
    call.epoch < (g.session call.client).epoch
  once : ∀ id id' call call' e e', g.calls id = some call → g.calls id' = some call' →
    call.phase = .returned (.session e) → call'.phase = .returned (.session e') →
    call.client = call'.client → call.epoch = call'.epoch → id = id'

theorem Turn.epoch (h : g.Waits) (hl : g.Holds) (hturn : g.Turn g') (c : String) :
    (g'.session c).epoch = (g.session c).epoch ∨
      (g'.session c).epoch = (g.session c).epoch + 1 ∧
        (g.session c).activeMutation = none ∧ (g.session c).streams = [] := by
  have hchange := hturn.change h c
  generalize g'.session c = st at hchange
  cases hchange with
  | same | signal | free | freeStream | grantNow | grantNext => exact .inl rfl
  | remove => exact .inl (remove_keeps _ _ _).2.2.1
  | queue => exact .inl (queue_keeps _ _ _).2.2.1
  | addStream => exact .inl (addStream_keeps _ _ _).2.2.1
  | advance hcall hphase hop hcurrent hclient hactive hstreams =>
    subst hclient
    exact .inr ⟨advance_epoch h hl hcall hphase hop hcurrent, hactive, hstreams⟩

theorem Once.turn (h : g.Waits) (hl : g.Holds) (ho : g.Once) (hturn : g.Turn g') : g'.Once := by
  have hepochs := hturn.epoch h hl
  have hquiet
      (hcalls : ∀ i call' e, g'.calls i = some call' → call'.phase = .returned (.session e) →
      ∃ call, g.calls i = some call ∧ call.phase = call'.phase ∧ call.client = call'.client ∧
        call.epoch = call'.epoch) : g'.Once := by
    simp only [once_iff] at *
    constructor <;> grind
  cases hturn with
  | same | root | closing | attach | shut | closeMutation | releaseStream =>
    exact hquiet fun i call' e hcall _ => ⟨call', hcall, rfl, rfl, rfl⟩
  | leave =>
    refine hquiet ?_
    unfold removeWaiter
    split_ifs
    all_goals
      simp only [fail, goto, setCall, update_apply]
      grind
  | @advance id call hcall hphase hop hcurrent hactive hstreams hfirst =>
    have hnext := advance_epoch h hl hcall hphase hop hcurrent
    have hepoch := hcurrent.epoch
    clear hepochs hquiet
    simp only [once_iff, goto, setCall, setSession, SessionStore.setSession, update_apply] at *
    constructor <;> grind
  | _ =>
    refine hquiet ?_
    simp only [grant, goto, setCall, setSession, setLease, update_apply]
    grind

/-- The calls queue in order, each once. -/
@[mk_iff] structure Queues (g : Gate) : Prop where
  fifo : ∀ c, (g.session c).Fifo
  queued : ∀ c id, id ∈ (g.session c).queuedCalls → ∃ call, g.calls id = some call ∧
    (call.waiter = true ∨ call.phase = .returned .lease)

theorem Queues.unqueued (ho : g.Queues) (hcall : g.calls id = some call)
    (hwaiter : call.waiter = false) (hold : call.phase.isReturned = false) (c : String) :
    id ∉ (g.session c).queuedCalls := by
  intro hmem
  obtain ⟨old, hold, hqueued⟩ := ho.queued c id hmem
  grind

/-- How the lists of queued and granted calls grow. -/
theorem Turn.fifo (h : g.Waits) (ho : g.Queues) (hturn : g.Turn g') (c : String) :
    (g'.session c).Fifo ∧
      ((g'.session c).queuedCalls = (g.session c).queuedCalls ∨
        ∃ id call, g.calls id = some call ∧ call.op = .mutation ∧ call.client = c ∧
          (g'.session c).queuedCalls = (g.session c).queuedCalls ++ [id] ∧
          (id ∈ (g'.session c).waiters .mutation ∨ (g'.session c).activeMutation = some id)) := by
  have hchange := hturn.change h c
  generalize g'.session c = st' at hchange ⊢
  obtain ⟨hnodup, hsub⟩ := ho.fifo c
  have hjoin {id : ℕ} (hid : id ∉ (g.session c).queuedCalls) :
      ((g.session c).queuedCalls ++ [id]).Nodup :=
    nodup_append.mpr ⟨hnodup, by simp, by grind⟩
  have hfifo := ho.fifo c
  cases hchange with
  | same | signal | free | freeStream | advance => exact ⟨hfifo, .inl rfl⟩
  | remove id op =>
    have hless : ((g.session c).grantedCalls ++
        (g.session c).mutationWaiters.erase id).Sublist (g.session c).queuedCalls :=
      ((List.Sublist.refl _).append erase_sublist).trans hsub
    refine ⟨?_, .inl (remove_keeps _ _ _).2.2.2.1⟩
    cases op <;> simp only [Gate.remove, removeMutation, removeStream, removeReconnect] <;>
      split_ifs <;> first | exact hfifo | exact ⟨hnodup, hless⟩
  | @addStream id call =>
    obtain ⟨-, -, -, hqueued, hgranted, hwaiters⟩ :=
      addStream_keeps (g.session c) id call.waiter
    exact ⟨by rwa [Fifo, hqueued, hgranted, hwaiters], .inl hqueued⟩
  | @queue id call op hcall hold hwaiter hop hclient =>
    cases op with
    | stream | reconnect => exact ⟨hfifo, .inl rfl⟩
    | mutation =>
      refine ⟨⟨hjoin (ho.unqueued hcall hwaiter hold c), ?_⟩,
        .inr ⟨id, call, hcall, hop, hclient, rfl,
        .inl (mem_append_right _ (mem_singleton_self id))⟩⟩
      show ((g.session c).grantedCalls ++ ((g.session c).mutationWaiters ++ [id])).Sublist _
      rw [← append_assoc]
      exact hsub.append (.refl [id])
  | @grantNow id call hcall hphase hop hclient hwaiter hfirst =>
    have hold : call.phase.isReturned = false := by rw [hphase]; rfl
    refine ⟨⟨hjoin (ho.unqueued hcall hwaiter hold c), ?_⟩,
      .inr ⟨id, call, hcall, hop, hclient, rfl, .inr rfl⟩⟩
    have hall := hsub.append (.refl [id])
    rw [hfirst, append_nil] at hall
    show ((g.session c).grantedCalls ++ [id] ++ (g.session c).mutationWaiters).Sublist _
    rwa [hfirst, append_nil]
  | @grantNext id hfirst =>
    obtain ⟨rest, hrest⟩ := head?_eq_some_iff.mp hfirst
    refine ⟨⟨hnodup, ?_⟩, .inl rfl⟩
    show ((g.session c).grantedCalls ++ [id] ++ (g.session c).mutationWaiters.tail).Sublist
      (g.session c).queuedCalls
    simpa [hrest] using hsub

theorem Queues.turn (h : g.Waits) (ho : g.Queues) (hturn : g.Turn g') (h' : g'.Waits)
    (hl' : g'.Holds) : g'.Queues := by
  refine ⟨fun c => (hturn.fifo h ho c).1, fun c i hi => ?_⟩
  have hold (hi : i ∈ (g.session c).queuedCalls) : ∃ call, g'.calls i = some call ∧
      (call.waiter = true ∨ call.phase = .returned .lease) := by
    obtain ⟨call, hcall, hqueued⟩ := ho.queued c i hi
    obtain ⟨call', hcall', hlater⟩ := hturn.later hcall
    exact ⟨call', hcall', hqueued.imp hlater.waiter fun hp =>
      (hlater.phase (by rw [hp]; rfl)).trans hp⟩
  obtain ⟨-, hsame | ⟨id, call, hcall, hop, hclient, hqueued, hplace⟩⟩ := hturn.fifo h ho c
  · exact hold (hsame ▸ hi)
  · rw [hqueued, mem_append, mem_singleton] at hi
    obtain hi | rfl := hi
    · exact hold hi
    · obtain hwaits | hactive := hplace
      · obtain ⟨call', hcall', -, -, hwaiter, -⟩ := (h'.queued c .mutation i).mp hwaits
        exact ⟨call', hcall', .inl hwaiter⟩
      · obtain ⟨lease, hlease, -⟩ := (Option.any_eq_true ..).mp ((hl'.active c i).mp hactive)
        obtain ⟨call', hcall', hphase⟩ := hl'.granted i lease hlease
        exact ⟨call', hcall', .inr hphase⟩

/-! ## Every run -/

/-- What holds in every reachable state. -/
structure Inv (g : Gate) : Prop where
  waits : g.Waits
  holds : g.Holds
  once : g.Once
  queues : g.Queues

theorem Inv.turn (h : g.Inv) (hturn : g.Turn g') : g'.Inv := by
  have hwaits := h.waits.turn hturn
  have hholds := h.holds.turn h.waits hturn
  exact ⟨hwaits, hholds, h.once.turn h.waits h.holds hturn,
    h.queues.turn h.waits hturn hwaits hholds⟩

theorem init_inv (maximum : ℕ) : (sessionSystem maximum).init.Inv where
  waits := by
    have hnone : ∀ q, fresh.waiters q = [] := by rintro (_ | _) <;> rfl
    simp [waits_iff, sessionSystem, SessionStore.new, hnone]
  holds := by
    simp [holds_iff, sessionSystem, SessionStore.new, fresh, maxEpoch]
  once := by
    simp [once_iff, sessionSystem]
  queues := by
    simp [queues_iff, sessionSystem, SessionStore.new, fresh, Fifo]

theorem reachable_inv {maximum : ℕ} (hg : (sessionSystem maximum).Reachable g) : g.Inv :=
  hg.invariant (init_inv maximum) fun _ h hstep => h.turn (step_turn h.waits hstep)

/-- One step grants leases and advances epochs only as the fence allows. -/
structure Fenced (g g' : Gate) : Prop where
  /-- A new lease is for the epoch that its call asked for and that is current, and no reconnect of
  the client is registered; a new mutation lease finds the gate free and is the next grant. -/
  grant : ∀ id lease, g.leases id = none → g'.leases id = some lease →
    ∃ call, g.calls id = some call ∧ lease.client = call.client ∧ lease.epoch = call.epoch ∧
      call.epoch = (g.session call.client).epoch ∧
      call.epoch = (g'.session call.client).epoch ∧
      (g.session call.client).reconnectWaiters = [] ∧
      (lease.stream = false → (g.session call.client).activeMutation = none ∧
        (g'.session call.client).grantedCalls =
          (g.session call.client).grantedCalls ++ [id])
  /-- A released lease is not held again. -/
  held : ∀ id lease, g'.leases id = some lease → lease.phase = .held →
    g.leases id = none ∨ g.leases id = some lease
  /-- An epoch changes by one, when no lease of the client is left. -/
  epoch : ∀ c, (g'.session c).epoch = (g.session c).epoch ∨
    (g'.session c).epoch = (g.session c).epoch + 1 ∧
      ∀ id lease, g.leases id = some lease → lease.client = c → lease.phase = .released
  /-- Mutation calls queue at the end. -/
  queued : ∀ c, (g'.session c).queuedCalls = (g.session c).queuedCalls ∨
    ∃ id call, g.calls id = some call ∧ call.op = .mutation ∧ call.client = c ∧
      (g'.session c).queuedCalls = (g.session c).queuedCalls ++ [id] ∧
      (id ∈ (g'.session c).mutationWaiters ∨ (g'.leases id).isSome)

/-- The lease was there before and is held as it was, or it is granted to its call. -/
def Leased (g g' : Gate) (id : ℕ) (lease : Lease) : Prop :=
  (∃ old, g.leases id = some old ∧ (lease.phase = .held → old = lease)) ∨
    g.leases id = none ∧
    ∃ call, g.calls id = some call ∧ lease.client = call.client ∧ lease.epoch = call.epoch ∧
      call.epoch = (g.session call.client).epoch ∧
      call.epoch = (g'.session call.client).epoch ∧
      (g.session call.client).reconnectWaiters = [] ∧
      (lease.stream = false → (g.session call.client).activeMutation = none ∧
        (g'.session call.client).grantedCalls =
          (g.session call.client).grantedCalls ++ [id])

theorem Turn.lease (hl : g.Holds) (hturn : g.Turn g') {lease : Lease}
    (hlease : g'.leases id = some lease) : g.Leased g' id lease := by
  have hgrant {i : ℕ} {call : Call} {st : SessionState} {stream : Bool}
      (hcall : g.calls i = some call) (hphase : call.phase = .enter) (hcurrent : g.Current call)
      (hst : st.epoch = (g.session call.client).epoch)
      (hunfenced : (g.session call.client).reconnectWaiters = [])
      (hmutation : stream = false → (g.session call.client).activeMutation = none ∧
        st.grantedCalls = (g.session call.client).grantedCalls ++ [i])
      (hlease : (g.grant i call st stream).leases id = some lease) :
      g.Leased (g.grant i call st stream) id lease := by
    have hnone := hl.no_lease hcall (by rw [hphase]; rfl)
    have hepoch := hcurrent.epoch
    simp only [Leased, grant, goto, setCall, setLease, setSession, SessionStore.setSession,
      update_apply] at hlease ⊢
    grind
  cases hturn with
  | mutation hcall hphase hop hcurrent hwaiter hactive hfirst hunfenced
  | next hcall hphase hop hcurrent hwaiter hactive hfirst hunfenced =>
    exact hgrant hcall hphase hcurrent rfl hunfenced (fun _ => ⟨hactive, rfl⟩) hlease
  | stream hcall hphase hop hcurrent hmaximum hunfenced =>
    exact hgrant hcall hphase hcurrent (addStream_keeps _ _ _).2.2.1 hunfenced (by simp) hlease
  | closing | closeMutation | releaseStream =>
    simp only [Gate.closeMutation, Gate.releaseStream, setLease, update_apply] at hlease
    unfold Leased
    grind
  | leave =>
    unfold removeWaiter at hlease
    split_ifs at hlease <;> exact .inl ⟨lease, hlease, fun _ => rfl⟩
  | _ => exact .inl ⟨lease, hlease, fun _ => rfl⟩

theorem Inv.fenced (h : g.Inv) (hturn : g.Turn g') : g.Fenced g' where
  grant id lease hnone hlease := by
    obtain ⟨old, hold, -⟩ | ⟨-, hnew⟩ := hturn.lease h.holds hlease
    · cases hnone.symm.trans hold
    · exact hnew
  held id lease hlease hheld := by
    obtain ⟨old, hold, heq⟩ | ⟨hnone, -⟩ := hturn.lease h.holds hlease
    · exact .inr (heq hheld ▸ hold)
    · exact .inl hnone
  epoch c := (hturn.epoch h.waits h.holds c).imp_right fun ⟨hnext, hactive, hstreams⟩ =>
    ⟨hnext, fun _ _ hlease hclient => h.holds.released hactive hstreams hlease hclient⟩
  queued c := by
    refine (hturn.fifo h.waits h.queues c).2.imp_right ?_
    rintro ⟨id, call, hcall, hop, hclient, hqueued, hplace⟩
    refine ⟨id, call, hcall, hop, hclient, hqueued, hplace.imp_right fun hactive => ?_⟩
    have hlive := ((h.holds.turn h.waits hturn).active c id).mp hactive
    exact isSome_of_any hlive

end Gate

/-! ## The contract -/

/-- In every reachable state a client has at most one held mutation lease, each expected epoch was
reconnected at most once, and mutation leases were granted in the order in which their calls queued;
and every step from it is fenced. -/
theorem client_fencing (maximum : ℕ) {g : Gate} (hg : (sessionSystem maximum).Reachable g) :
    (∀ id id' lease lease', g.leases id = some lease → g.leases id' = some lease' →
      lease.stream = false → lease'.stream = false → lease.phase = .held → lease'.phase = .held →
      lease.client = lease'.client → id = id') ∧
    (∀ label g', g.step label = some g' → g.Fenced g') ∧
    (∀ id id' call call' e e', g.calls id = some call → g.calls id' = some call' →
      call.phase = .returned (.session e) → call'.phase = .returned (.session e') →
      call.client = call'.client → call.epoch = call'.epoch → id = id') ∧
    ∀ c, (g.session c).queuedCalls.Nodup ∧
      ((g.session c).grantedCalls ++ (g.session c).mutationWaiters).Sublist
        (g.session c).queuedCalls := by
  have hinv := Gate.reachable_inv hg
  refine ⟨?_, fun label g' hstep => hinv.fenced (Gate.step_turn hinv.waits hstep), hinv.once.once,
    hinv.queues.fifo⟩
  intro id id' lease lease' hl hl' hm hm' hheld hheld' hclient
  have hactive := (hinv.holds.active lease.client id).mpr (by simp [hl, Lease.live, hm, hheld])
  have hactive' :=
    (hinv.holds.active lease'.client id').mpr (by simp [hl', Lease.live, hm', hheld'])
  rw [hclient] at hactive
  exact some.inj (hactive.symm.trans hactive')

/-- Two mutation calls and a reconnect of one client: the first call holds the lease, the second
queues, the reconnect registers, and closing the first lease lets the epoch advance before the
second call, which is then stale. -/
def reconnectRun : List Gate.Label :=
  [.fresh "c", .call 0 .mutation "c" 1 false, .run 0, .run 0, .run 0,
    .call 1 .mutation "c" 1 false, .run 1, .run 1, .run 1,
    .call 2 .reconnect "c" 1 false, .run 2, .run 2, .run 2, .run 2, .closeLease 0,
    .run 2, .run 2, .run 2, .run 1, .run 1, .run 1]

theorem client_fencing_reconnect :
    ∃ g, (sessionSystem 4).after reconnectRun = some g ∧
      (g.session "c").epoch = 2 ∧ (g.session "c").grantedCalls = [0] ∧
      (g.calls 1).map (·.phase) = some (.returned (.failed (.stale "c" 2 1))) ∧
      (g.session "c").queuedCalls.Nodup ∧
      ∀ label g', g.step label = some g' → g.Fenced g' := by
  have hrun : (sessionSystem 4).after reconnectRun = some _ := rfl
  have h := client_fencing 4 (System.reachable_of_run hrun)
  exact ⟨_, hrun, by decide, by decide, by decide, (h.2.2.2 "c").1, h.2.1⟩

end SpiceAgent.Daemon
