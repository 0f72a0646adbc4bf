import SpiceAgent.Daemon.SessionInvariant

/-!
# Waiting for the session gate, and its end

A waiting call is woken by the next change channel of its client. A change of the client that keeps
its channel also keeps what blocks the call (`Change.blocks`), so that no wake-up is lost. The store
is drained as soon as it is closed and the last lease and the last waiter are gone.
-/

namespace SpiceAgent.Daemon

open SpiceAgent.Lib SessionState List
open Function (update_apply)

namespace Gate

variable {g g' : Gate} {id : ℕ} {call : Call}

attribute [local grind =] CallPhase.isReturned CallPhase.looping Operation.queue

/-! ## Bounds -/

/-- When a stream was granted, the streams of its client were within the maximum of its call. -/
def Bounded (g : Gate) : Prop :=
  ∀ c i rest, (i :: rest).Sublist (g.session c).streams →
    ∃ call m, g.calls i = some call ∧ call.op = .stream m ∧ (rest.length : ℤ) + 1 ≤ m

theorem Bounded.turn (h : g.Waits) (hb : g.Bounded) (hturn : g.Turn g') : g'.Bounded := by
  intro c i rest hsub
  have hold (hsub : (i :: rest).Sublist (g.session c).streams) :
      ∃ call m, g'.calls i = some call ∧ call.op = .stream m ∧ (rest.length : ℤ) + 1 ≤ m := by
    obtain ⟨call, m, hcall, hop, hm⟩ := hb c i rest hsub
    obtain ⟨call', hcall', hlater⟩ := hturn.later hcall
    exact ⟨call', m, hcall', hlater.op.trans hop, hm⟩
  have hchange := hturn.change h c
  generalize g'.session c = st at hsub hchange
  cases hchange with
  | same | signal | grantNow | grantNext | advance | free => exact hold hsub
  | queue => exact hold ((queue_keeps _ _ _).2.1 ▸ hsub)
  | remove => exact hold ((remove_keeps _ _ _).2.1 ▸ hsub)
  | freeStream => exact hold (hsub.trans erase_sublist)
  | @addStream id call maximum hcall hop hmaximum =>
    rw [(addStream_keeps _ _ _).2.1] at hsub
    cases hsub with
    | cons _ hsub => exact hold hsub
    | cons_cons _ hsub =>
      obtain ⟨call', hcall', hlater⟩ := hturn.later hcall
      have hlength := hsub.length_le
      exact ⟨call', maximum, hcall', hlater.op.trans hop, by omega⟩

/-- A client has at most `maximumSessionGateWaitersPerClient` waiters. -/
theorem few_turn (h : g.Waits) (hturn : g.Turn g') (c : String)
    (hfew : (g.session c).gateWaiters ≤ maximumSessionGateWaitersPerClient) :
    (g'.session c).gateWaiters ≤ maximumSessionGateWaitersPerClient := by
  have hchange := hturn.change h c
  generalize g'.session c = st at hchange
  have hremove (id op) : (remove (g.session c) id op).gateWaiters ≤
      (g.session c).gateWaiters := by
    cases op <;> simp only [Gate.remove, removeMutation, removeStream, removeReconnect] <;>
      split_ifs <;> simp only [gateWaiters, SessionState.signal] <;> grind [length_erase_le]
  cases hchange with
  | same | signal | free | freeStream | grantNow => exact hfew
  | remove => exact (hremove _ _).trans hfew
  | @queue id call op hcall hold hwaiter hop hclient hless =>
    cases op <;> simp only [SessionState.queue, gateWaiters, SessionState.signal, length_append,
      length_singleton] at * <;> omega
  | grantNext | advance =>
    simp only [SessionState.grantNext, SessionState.advance, grantMutation, gateWaiters,
      SessionState.signal, length_tail] at *
    omega
  | @addStream id call maximum hcall hop hmaximum =>
    have hremoved := hremove id (.stream 0)
    refine le_trans ?_ hfew
    cases call.waiter
    · exact le_rfl
    · exact hremoved

/-! ## Wake-ups -/

/-- A call that waits for a change which has not come could not go on. -/
def Blocked (g : Gate) : Prop :=
  ∀ id call changed, g.calls id = some call → call.phase = .waiting changed →
    call.waiter = true ∧ changed ≤ (g.session call.client).changed ∧
      (changed = (g.session call.client).changed →
        g.Current call ∧ (g.session call.client).Blocks id call.fencing call.op)

/-- A change without a signal leaves what blocks a waiting call. -/
theorem Change.blocks {st : SessionState} (h : g.Waits) (hchange : g.Change call.client st)
    (hcall : g.calls id = some call) (hwaiter : call.waiter = true)
    (hold : call.phase.isReturned = false) :
    (g.session call.client).changed ≤ st.changed ∧
      (st.changed = (g.session call.client).changed →
        st.epoch = (g.session call.client).epoch ∧
        ((g.session call.client).Blocks id call.fencing call.op →
          st.Blocks id call.fencing call.op)) := by
  have hmem := (h.queued call.client call.op.queue id).mpr ⟨call, hcall, rfl, rfl, hwaiter, hold⟩
  cases hchange with
  | same => exact ⟨le_rfl, fun _ => ⟨rfl, fun hb => hb⟩⟩
  | signal | free | freeStream | advance | grantNext =>
    exact ⟨Nat.le_succ _, fun heq => absurd heq (Nat.succ_ne_self _)⟩
  | remove i op =>
    cases op <;> simp only [Gate.remove, removeMutation, removeStream, removeReconnect] <;>
      split_ifs
    all_goals first
      | exact ⟨le_rfl, fun _ => ⟨rfl, fun hb => hb⟩⟩
      | exact ⟨Nat.le_succ _, fun heq => absurd heq (Nat.succ_ne_self _)⟩
  | @queue i _ op =>
    cases op with
    | reconnect => exact ⟨Nat.le_succ _, fun heq => absurd heq (Nat.succ_ne_self _)⟩
    | stream =>
      refine ⟨le_rfl, fun _ => ⟨rfl, fun hb => ?_⟩⟩
      cases hop : call.op <;> simp_all [Blocks, SessionState.queue]
    | mutation =>
      -- a waiting call is in the queue already, so that the head of the queue stays
      have hhead (hne : (g.session call.client).mutationWaiters ≠ []) :
          ((g.session call.client).mutationWaiters ++ [i]).head? =
            (g.session call.client).mutationWaiters.head? := head?_append_of_ne_nil _ hne
      refine ⟨le_rfl, fun _ => ⟨rfl, fun hb => ?_⟩⟩
      cases hop : call.op with
      | mutation =>
        rw [hop] at hb hmem
        exact hb.imp_right (Or.imp_right fun hne => (hhead (ne_nil_of_mem hmem)).symm ▸ hne)
      | stream | reconnect => simpa [hop, Blocks, SessionState.queue] using hb
  | grantNow hcall' hphase' hop' hclient' hwaiter' hfirst hunfenced =>
    refine ⟨le_rfl, fun _ => ⟨rfl, fun hb => ?_⟩⟩
    cases hop : call.op <;> simp_all [Blocks, Operation.queue, waiters]
  | @addStream i call' maximum hcall' hop' hmaximum hunfenced =>
    unfold SessionState.addStream removeStream
    cases call'.waiter <;> dsimp only <;> split_ifs
    all_goals first
      | exact ⟨Nat.le_succ _, fun heq => absurd heq (Nat.succ_ne_self _)⟩
      | refine ⟨le_rfl, fun _ => ⟨rfl, fun hb => ?_⟩⟩
        cases hop : call.op <;> simp_all [Blocks, Operation.queue, waiters]

theorem Turn.closed (hturn : g.Turn g') (hopen : g.store.closed = false) :
    g'.store.closed = false ∨ ∀ c ∈ g.store.clients,
      (g'.session c).changed = (g.session c).changed + 1 := by
  have hdrained (store : SessionStore) : store.maybeDrained.closed = store.closed := by
    unfold SessionStore.maybeDrained
    split_ifs <;> rfl
  cases hturn with
  | shut =>
    refine .inr fun c hc => ?_
    rw [session, SessionStore.close_session hopen, if_pos hc]
    rfl
  | leave =>
    left
    unfold removeWaiter
    split_ifs
    · exact (hdrained _).trans hopen
    · exact hopen
  | closeMutation =>
    left
    refine (hdrained _).trans ?_
    split_ifs <;> exact hopen
  | releaseStream => exact .inl ((hdrained _).trans hopen)
  | _ => exact .inl hopen

theorem Turn.clients (hturn : g.Turn g') {c : String} (hc : c ∈ g.store.clients) :
    c ∈ g'.store.clients := by
  cases hturn with
  | attach => exact mem_cons_of_mem _ hc
  | shut => exact (SessionStore.close_clients _).symm ▸ hc
  | leave =>
    unfold removeWaiter
    split_ifs
    · exact (SessionStore.maybeDrained_clients _).symm ▸ hc
    · exact hc
  | closeMutation =>
    refine (SessionStore.maybeDrained_clients _).symm ▸ ?_
    split_ifs <;> exact hc
  | releaseStream => exact (SessionStore.maybeDrained_clients _).symm ▸ hc
  | _ => exact hc

theorem Blocked.turn (h : g.Waits) (hb : g.Blocked) (hturn : g.Turn g') : g'.Blocked := by
  intro i call' changed hcall' hphase'
  have hold (hold : ∃ call, g.calls i = some call ∧ call.phase = .waiting changed ∧
      call'.client = call.client ∧ call'.op = call.op ∧ call'.epoch = call.epoch ∧
      call'.fencing = call.fencing ∧ call'.waiter = call.waiter) :
      call'.waiter = true ∧ changed ≤ (g'.session call'.client).changed ∧
      (changed = (g'.session call'.client).changed →
        g'.Current call' ∧ (g'.session call'.client).Blocks i call'.fencing call'.op) := by
    obtain ⟨call, hcall, hphase, hclient, hop, hepoch, hfencing, hwaiter⟩ := hold
    rw [hclient, hop, hfencing, hwaiter]
    obtain ⟨hwaiter, hle, hblocks⟩ := hb i call changed hcall hphase
    have hchange := (hturn.change h call.client).blocks h hcall hwaiter (by rw [hphase]; rfl)
    refine ⟨hwaiter, hle.trans hchange.1, fun heq => ?_⟩
    have hsame : changed = (g.session call.client).changed := le_antisymm hle (heq ▸ hchange.1)
    obtain ⟨hcurrent, hblocks⟩ := hblocks hsame
    obtain ⟨hepoch', hkeeps⟩ := hchange.2 (heq ▸ hsame)
    refine ⟨⟨?_, ?_, ?_⟩, hkeeps hblocks⟩
    · obtain hopen | hall := hturn.closed hcurrent.opened
      · exact hopen
      · have := hall call.client hcurrent.known
        omega
    · exact hclient ▸ hturn.clients hcurrent.known
    · rw [hclient, hepoch, hepoch', hcurrent.epoch]
  cases hturn with
  | @queue id call op phase hcall _ hwaiter hop hcurrent hfew hphase =>
    simp only [goto, setCall, update_apply] at hcall'
    split_ifs at hcall' with hi
    · subst hi
      cases hcall'
      obtain ⟨-, -, rfl⟩ | ⟨hne, rfl, hblocks⟩ := hphase
      · cases hphase'
      · have hchanged : ((g.session call.client).queue i op).changed =
            (g.session call.client).changed := by
          cases op with
          | mutation | stream => rfl
          | reconnect => exact absurd rfl hne
        have hepoch := (queue_keeps (g.session call.client) i op).2.2.1
        cases hphase'
        subst hop
        simp only [goto, setCall, session, setSession, SessionStore.setSession,
          Function.update_self]
        refine ⟨trivial, hchanged.ge, fun _ => ⟨⟨hcurrent.opened, hcurrent.known, ?_⟩, hblocks⟩⟩
        simpa [session] using hepoch.trans hcurrent.epoch
    · exact hold ⟨call', hcall', hphase', rfl, rfl, rfl, rfl, rfl⟩
  | @wait id call op fencing hcall hphase hwaiter hop hcurrent hblocks =>
    simp only [goto, setCall, update_apply] at hcall'
    split_ifs at hcall' with hi
    · subst hi
      cases hcall'
      cases hphase'
      subst hop
      exact ⟨hwaiter, le_rfl, fun _ => ⟨⟨hcurrent.opened, hcurrent.known, hcurrent.epoch⟩, hblocks⟩⟩
    · exact hold ⟨call', hcall', hphase', rfl, rfl, rfl, rfl, rfl⟩
  | same | root | closing | attach | shut | closeMutation | releaseStream =>
    exact hold ⟨call', hcall', hphase', rfl, rfl, rfl, rfl, rfl⟩
  | leave =>
    refine hold ?_
    unfold removeWaiter at hcall'
    split_ifs at hcall'
    all_goals
      simp only [fail, goto, setCall, update_apply] at hcall'
      grind
  | _ =>
    refine hold ?_
    simp only [grant, goto, setCall, setSession, setLease, update_apply] at hcall'
    grind

/-! ## Draining -/

/-- `drained` is closed exactly when the store is closed and nothing holds or waits for a gate. -/
def Drains (g : Gate) : Prop :=
  g.store.drained = true ↔ g.store.closed = true ∧
    ∀ c ∈ g.store.clients, (g.session c).idle = true

theorem drains_maybeDrained {store : SessionStore} (h : store.drained = false) :
    store.maybeDrained.drained = true ↔ store.maybeDrained.closed = true ∧
      ∀ c ∈ store.maybeDrained.clients, (store.maybeDrained.session c).idle = true := by
  unfold SessionStore.maybeDrained
  split_ifs with hidle
  · simpa using hidle
  · simpa [h] using hidle

theorem Drains.turn (h : g.Waits) (hl : g.Holds) (hd : g.Drains) (hturn : g.Turn g') :
    g'.Drains := by
  have hbusy {c : String} (hc : c ∈ g.store.clients) (hbusy : (g.session c).idle = false) :
      g.store.drained = false := by
    rw [← Bool.not_eq_true]
    exact fun hdrained => by simp [(hd.mp hdrained).2 c hc] at hbusy
  have hopen (hopen : g.store.closed = false) : g.store.drained = false := by
    rw [← Bool.not_eq_true]
    exact fun hdrained => by simp [(hd.mp hdrained).1] at hopen
  cases hturn with
  | same | root | closing | start | cancel | go | wait => exact hd
  | attach hop => simp [Drains, hop, hopen hop, SessionStore.setSession]
  | shut hop =>
    have heq : g.store.close = SessionStore.maybeDrained _ := if_neg (by simp [hop])
    unfold Drains
    dsimp only
    rw [heq]
    exact drains_maybeDrained (hopen hop)
  | @leave id call err hcall hold =>
    unfold removeWaiter
    split_ifs with hwaiter
    · refine drains_maybeDrained (hbusy (h.known id call hcall hwaiter) ?_)
      have hmem :=
        (h.queued call.client call.op.queue id).mpr ⟨call, hcall, rfl, rfl, hwaiter, hold⟩
      cases hop : call.op <;> simp_all [idle, Operation.queue, waiters] <;> grind
    · exact hd
  | @closeMutation id lease hlease hheld hstream =>
    have hactive := (hl.active lease.client id).mpr (by simp [hlease, Lease.live, hstream, hheld])
    unfold Gate.closeMutation Drains
    dsimp only
    rw [if_pos hactive]
    exact drains_maybeDrained (hbusy (h.leased id lease hlease) (by simp [idle, hactive]))
  | @releaseStream id lease hlease hclosing =>
    have hmem := (hl.streams lease.client id).mpr
      (by simp [hlease, Lease.live, hl.closing id lease hlease hclosing, hclosing])
    exact drains_maybeDrained (hbusy (h.leased id lease hlease)
      (by simp [idle, ne_nil_of_mem hmem]))
  | queue hcall hold hwaiter hop hcurrent | mutation hcall hphase hop hcurrent
  | next hcall hphase hop hcurrent | stream hcall hphase hop hcurrent
  | advance hcall hphase hop hcurrent =>
    have hdrained := hopen hcurrent.opened
    have hopened := hcurrent.opened
    simp [Drains, grant, goto, setCall, setLease, setSession, SessionStore.setSession, hdrained,
      hopened]

theorem Turn.drained (hturn : g.Turn g') (h : g.store.drained = true) :
    g'.store.drained = true := by
  have hmaybe (store : SessionStore) (h : store.drained = true) :
      store.maybeDrained.drained = true := by
    unfold SessionStore.maybeDrained
    split_ifs <;> simp [h]
  cases hturn with
  | shut hopen =>
    unfold SessionStore.close
    split_ifs
    exacts [h, hmaybe _ h]
  | leave =>
    unfold removeWaiter
    split_ifs
    exacts [hmaybe _ h, h]
  | closeMutation =>
    refine hmaybe _ ?_
    split_ifs <;> exact h
  | releaseStream => exact hmaybe _ h
  | _ => exact h

/-- No lease is held or being closed, and no waiter is queued. -/
def Empty (g : Gate) : Prop :=
  (∀ id lease, g.leases id = some lease → lease.phase = .released) ∧
    ∀ id call, g.calls id = some call → call.waiter = true → call.phase.isReturned = true

theorem idle_iff {st : SessionState} : st.idle = true ↔
    st.activeMutation = none ∧ st.streams = [] ∧ ∀ q, st.waiters q = [] := by
  constructor
  · intro h
    simp only [idle, Bool.and_eq_true, Option.isNone_iff_eq_none, List.isEmpty_iff] at h
    refine ⟨h.1.1.1.1, h.2, ?_⟩
    rintro (_ | _)
    exacts [h.1.1.1.2, h.1.2, h.1.1.2]
  · rintro ⟨hactive, hstreams, hwaiters⟩
    have hmutation : st.mutationWaiters = [] := hwaiters .mutation
    have hstream : st.streamWaiters = [] := hwaiters .stream
    have hreconnect : st.reconnectWaiters = [] := hwaiters .reconnect
    simp [idle, hactive, hstreams, hmutation, hstream, hreconnect]

/-- What the clients' states name are the live leases and the waiters of the calls. -/
theorem Inv.empty_iff (h : g.Inv) : g.Empty ↔ ∀ c ∈ g.store.clients, (g.session c).idle = true := by
  constructor
  · rintro ⟨hleases, hcalls⟩ c -
    refine idle_iff.mpr ⟨?_, ?_, fun q => ?_⟩
    · refine Option.eq_none_iff_forall_ne_some.mpr fun id hactive => ?_
      obtain ⟨lease, hlease, hlive⟩ := (Option.any_eq_true ..).mp ((h.holds.active c id).mp hactive)
      simp [Lease.live, hleases id lease hlease] at hlive
    · refine eq_nil_iff_forall_not_mem.mpr fun id hmem => ?_
      obtain ⟨lease, hlease, hlive⟩ := (Option.any_eq_true ..).mp ((h.holds.streams c id).mp hmem)
      simp [Lease.live, hleases id lease hlease] at hlive
    · refine eq_nil_iff_forall_not_mem.mpr fun id hmem => ?_
      obtain ⟨call, hcall, -, -, hwaiter, hold⟩ := (h.waits.queued c q id).mp hmem
      simp [hcalls id call hcall hwaiter] at hold
  · intro hall
    constructor
    · intro id lease hlease
      obtain ⟨hactive, hstreams, -⟩ := idle_iff.mp (hall _ (h.waits.leased id lease hlease))
      exact h.holds.released hactive hstreams hlease rfl
    · intro id call hcall hwaiter
      by_contra hold
      have hmem := (h.waits.queued call.client call.op.queue id).mpr
        ⟨call, hcall, rfl, rfl, hwaiter, by simpa using hold⟩
      rw [(idle_iff.mp (hall _ (h.waits.known id call hcall hwaiter))).2.2] at hmem
      cases hmem

/-- What holds of waiting and draining in every reachable state. -/
structure Settled (g : Gate) : Prop where
  inv : g.Inv
  bounded : g.Bounded
  few : ∀ c, (g.session c).gateWaiters ≤ maximumSessionGateWaitersPerClient
  blocked : g.Blocked
  drains : g.Drains

theorem reachable_settled {maximum : ℕ} (hg : (sessionSystem maximum).Reachable g) : g.Settled := by
  refine hg.invariant ⟨init_inv maximum, ?_, ?_, ?_, ?_⟩ fun _ h hstep => ?_
  · intro c i rest hsub
    cases hsub
  · intro c
    exact Nat.zero_le _
  · intro id call changed hcall
    cases hcall
  · exact ⟨nofun, fun h => by cases h.1⟩
  · have hturn := step_turn h.inv.waits hstep
    exact ⟨h.inv.turn hturn, h.bounded.turn h.inv.waits hturn,
      fun c => few_turn h.inv.waits hturn c (h.few c), h.blocked.turn h.inv.waits hturn,
      h.drains.turn h.inv.waits h.inv.holds hturn⟩

/-- A blocked call that ran its critical section again would wait for the same change. -/
theorem Settled.stays (h : g.Settled) (hcall : g.calls id = some call) {changed : ℕ}
    (hphase : call.phase = .waiting changed) (hasleep : g.awake call changed = false) :
    (g.stepEnter id call).calls id = some call := by
  simp only [awake, Bool.or_eq_false_iff, bne_eq_false_iff_eq] at hasleep
  obtain ⟨⟨hctx, hroot⟩, hsame⟩ := hasleep
  obtain ⟨hwaiter, -, hblocks⟩ := h.blocked id call changed hcall hphase
  obtain ⟨hcurrent, hblocks⟩ := hblocks hsame.symm
  have hclosed : g.store.isClosed = false := by simp [SessionStore.isClosed, hcurrent.opened, hroot]
  have hlocked : g.store.sessionLocked call.client call.epoch = none := by
    have hpos := (h.inv.holds.limit call.client).1
    rw [hcurrent.epoch] at hpos
    simp [SessionStore.sessionLocked, hclosed, hcurrent.known, hcurrent.epoch, hpos.ne']
  have hself : { call with ctxDone := false, phase := call.phase, waiter := true } = call := by
    rw [← hctx, ← hwaiter]
  unfold stepEnter
  cases hop : call.op with
  | mutation =>
    rw [hop] at hblocks
    have hattempt : tryAcquireMutation (g.session call.client) id true =
        .queued (g.session call.client) := by
      rw [tryAcquireMutation, if_neg (by simp), if_neg (by simp)]
      exact if_pos hblocks
    simp only [enterMutation, hlocked, hctx, hwaiter, hattempt]
    simp [goto, setCall, hsame, ← hphase, hself]
  | stream maximum =>
    have hfenced : (g.session call.client).reconnectWaiters ≠ [] := by rwa [hop] at hblocks
    have hattempt : tryAcquireStream (g.session call.client) id true maximum =
        .queued (g.session call.client) := by
      rw [tryAcquireStream, if_neg hfenced]
      rfl
    simp only [enterStream, hlocked, hctx, hwaiter, hattempt]
    simp [goto, setCall, hsame, ← hphase, hself]
  | reconnect =>
    rw [hop] at hblocks
    simp only [enterReconnect, hclosed, hcurrent.epoch, hsame]
    obtain hfirst | hactive | ⟨hfencing, hstreams⟩ := hblocks
    · simp [goto, setCall, hfirst, ← hphase]
    · simp [goto, setCall, hactive, ← hphase]
    · simp only [hfencing]
      split_ifs <;> simp_all [goto, setCall, ← hphase]

end Gate

/-- Every call that waits on a change channel which is still open is blocked: its epoch is current
and the store is open, a mutation is not first in its queue or finds a mutation lease or a
reconnect, a stream finds a reconnect, and a reconnect is not first or finds a mutation lease or,
having cancelled them, stream leases of its epoch. A call whose context and store live on would thus
only wait again. The first elements that the critical sections read are there. -/
theorem no_lost_wakeup (maximum : ℕ) {g : Gate} (hg : (sessionSystem maximum).Reachable g) :
    (∀ id call changed, g.calls id = some call → call.phase = .waiting changed →
      (g.session call.client).changed = changed →
      g.store.closed = false ∧ (g.session call.client).epoch = call.epoch ∧
      (g.awake call changed = false → g.store.isClosed = false ∧
        (g.stepEnter id call).calls id = some call) ∧
      match call.op with
      | .mutation => (g.session call.client).mutationWaiters.head? ≠ some id ∨
          (g.session call.client).activeMutation ≠ none ∨
          (g.session call.client).reconnectWaiters ≠ []
      | .stream _ => (g.session call.client).reconnectWaiters ≠ []
      | .reconnect => (g.session call.client).reconnectWaiters.head? ≠ some id ∨
          (g.session call.client).activeMutation ≠ none ∨
          call.fencing = true ∧ ∃ i lease, g.leases i = some lease ∧ lease.stream = true ∧
            lease.client = call.client ∧ lease.epoch = call.epoch ∧ lease.phase ≠ .released) ∧
    ∀ id call, g.calls id = some call → call.phase = .enter →
      (call.op = .mutation → call.waiter = true →
        (g.session call.client).mutationWaiters ≠ []) ∧
      (call.op = .reconnect → (g.session call.client).reconnectWaiters ≠ []) := by
  have h := Gate.reachable_settled hg
  refine ⟨fun id call changed hcall hphase hopen => ?_, fun id call hcall hphase => ⟨?_, ?_⟩⟩
  · obtain ⟨-, -, hblocks⟩ := h.blocked id call changed hcall hphase
    obtain ⟨hcurrent, hblocks⟩ := hblocks hopen.symm
    refine ⟨hcurrent.opened, hcurrent.epoch, fun hasleep => ⟨?_, h.stays hcall hphase hasleep⟩, ?_⟩
    · simp_all [Gate.awake, SessionStore.isClosed, hcurrent.opened]
    · cases hop : call.op with
      | mutation =>
        rw [hop] at hblocks
        obtain hfence | hactive | hfirst := hblocks
        exacts [.inr (.inr hfence), .inr (.inl hactive), .inl hfirst]
      | stream => rwa [hop] at hblocks
      | reconnect =>
        rw [hop] at hblocks
        refine hblocks.imp_right (Or.imp_right fun hrest => ⟨hrest.1, ?_⟩)
        obtain ⟨i, hi⟩ := exists_mem_of_ne_nil _ hrest.2
        obtain ⟨lease, hlease, hlive⟩ :=
          (Option.any_eq_true ..).mp ((h.inv.holds.streams call.client i).mp hi)
        obtain ⟨hclient, hstream, hphase⟩ := of_decide_eq_true hlive
        refine ⟨i, lease, hlease, hstream, hclient, ?_, hphase⟩
        rw [h.inv.holds.epoch i lease hlease hphase, hclient, hcurrent.epoch]
  · intro hop hwaiter
    have hmem := (h.inv.waits.queued call.client .mutation id).mpr
      ⟨call, hcall, rfl, by rw [hop]; rfl, hwaiter, by rw [hphase]; rfl⟩
    exact ne_nil_of_mem hmem
  · intro hop
    have hwaiter := (h.inv.waits.looping id call hcall hop (by rw [hphase]; rfl)).1
    have hmem := (h.inv.waits.queued call.client .reconnect id).mpr
      ⟨call, hcall, rfl, by rw [hop]; rfl, hwaiter, by rw [hphase]; rfl⟩
    exact ne_nil_of_mem hmem

/-- One call holds the mutation lease and another waits for it. -/
theorem no_lost_wakeup_mutation :
    ∃ g, (sessionSystem 4).after [.fresh "c", .call 0 .mutation "c" 1 false, .run 0, .run 0, .run 0,
          .call 1 .mutation "c" 1 false, .run 1, .run 1, .run 1] = some g ∧
      (g.calls 1).map (·.phase) = some (.waiting 0) ∧ (g.session "c").activeMutation = some 0 ∧
      ∀ call, g.calls 1 = some call → (g.stepEnter 1 call).calls 1 = some call := by
  have hrun : (sessionSystem 4).after
      [.fresh "c", .call 0 .mutation "c" 1 false, .run 0, .run 0, .run 0,
        .call 1 .mutation "c" 1 false, .run 1, .run 1, .run 1] = some _ := rfl
  have h := (no_lost_wakeup 4 (System.reachable_of_run hrun)).1 1 _ 0 rfl rfl (by decide)
  refine ⟨_, hrun, by decide, rfl, fun call hcall => ?_⟩
  cases hcall
  exact (h.2.2.1 (by decide)).2

/-- A client has at most 64 waiters, and a stream and the streams granted before it are within the
maximum of its call. A call leaves its queue in the step in which it returns. The store is drained
exactly when it is closed and nothing is left, and from then on in every run. -/
theorem session_drain_exact (maximum : ℕ) {g : Gate} (hg : (sessionSystem maximum).Reachable g) :
    (∀ c, (g.session c).gateWaiters ≤ 64) ∧
    (∀ c, (g.session c).streams.Nodup ∧
      (∀ id, id ∈ (g.session c).streams ↔ (g.leases id).any (·.live true c)) ∧
      ∀ newer i older, (g.session c).streams = newer ++ i :: older →
        ∃ call m, g.calls i = some call ∧ call.op = .stream m ∧ (older.length : ℤ) + 1 ≤ m) ∧
    (∀ c q, ((g.session c).waiters q).Nodup ∧ ∀ id, id ∈ (g.session c).waiters q ↔
      ∃ call, g.calls id = some call ∧ call.client = c ∧ call.op.queue = q ∧ call.waiter = true ∧
        call.phase.isReturned = false) ∧
    (∀ label g', g.step label = some g' → ∀ id call, g.calls id = some call → ∃ call',
      g'.calls id = some call' ∧ (call.phase.isReturned = true → call'.phase = call.phase) ∧
      ∀ c q, id ∈ (g.session c).waiters q →
        (id ∉ (g'.session c).waiters q ↔ call'.phase.isReturned = true)) ∧
    (g.store.drained = true ↔ g.store.closed = true ∧ g.Empty) ∧
    ∀ labels g', (sessionSystem maximum).run g labels = some g' → g.store.drained = true →
      g'.store.drained = true ∧ g'.Empty := by
  have h := Gate.reachable_settled hg
  have hdrained {g : Gate} (h : g.Settled) :
      g.store.drained = true ↔ g.store.closed = true ∧ g.Empty := by
    rw [h.inv.empty_iff]
    exact h.drains
  refine ⟨h.few, fun c => ⟨h.inv.holds.nodup c, h.inv.holds.streams c, ?_⟩,
    fun c q => ⟨h.inv.waits.nodup c q, h.inv.waits.queued c q⟩, ?_, hdrained h, ?_⟩
  · intro newer i older hstreams
    exact h.bounded c i older (hstreams ▸ sublist_append_right _ _)
  · intro label g' hstep id call hcall
    have hturn := Gate.step_turn h.inv.waits hstep
    have h' := h.inv.waits.turn hturn
    obtain ⟨call', hcall', hlater⟩ := hturn.later hcall
    refine ⟨call', hcall', hlater.phase, fun c q hmem => ?_⟩
    obtain ⟨old, hold, hclient, hqueue, hwaiter, -⟩ := (h.inv.waits.queued c q id).mp hmem
    cases hcall.symm.trans hold
    rw [h'.queued c q id]
    constructor
    · intro hgone
      by_contra hreturned
      exact hgone ⟨call', hcall', hlater.client.trans hclient, by rw [hlater.op, hqueue],
        hlater.waiter hwaiter, by simpa using hreturned⟩
    · rintro hreturned ⟨call'', hcall'', -, -, -, hnot⟩
      cases hcall'.symm.trans hcall''
      simp [hreturned] at hnot
  · intro labels g' hrun hyes
    have hstay : (sessionSystem maximum).Reachable g' ∧ g'.store.drained = true := by
      refine System.run_invariant
        (I := fun s => (sessionSystem maximum).Reachable s ∧ s.store.drained = true)
        (fun ⟨hs, hd⟩ hstep => ⟨hs.step hstep, ?_⟩) hrun ⟨hg, hyes⟩
      exact (Gate.step_turn (Gate.reachable_inv hs).waits hstep).drained hd
    exact ⟨hstay.2, ((hdrained (Gate.reachable_settled hstay.1)).mp hstay.2).2⟩

/-- A stream is granted, the store is closed, and closing the stream drains it. -/
theorem session_drain_exact_stream :
    ∃ g, (sessionSystem 4).after
        [.fresh "c", .call 0 (.stream 1) "c" 1 false, .run 0, .run 0, .run 0, .close, .closeLease 0,
          .releaseStream 0] = some g ∧
      g.store.drained = true ∧ g.Empty := by
  have hrun : (sessionSystem 4).after
      [.fresh "c", .call 0 (.stream 1) "c" 1 false, .run 0, .run 0, .run 0, .close, .closeLease 0,
        .releaseStream 0] = some _ := rfl
  have h := session_drain_exact 4 (System.reachable_of_run hrun)
  exact ⟨_, hrun, by decide, (h.2.2.2.2.1.mp (by decide)).2⟩

end SpiceAgent.Daemon
