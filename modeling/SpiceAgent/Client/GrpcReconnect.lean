import SpiceAgent.Client.GrpcFence

/-!
# Reconnect exclusion

In every interleaving of the calls on one connector a client's reconnects exclude each other, and
one that has passed its fence leaves the session of its claim closed, joined and removed for good.
-/

namespace SpiceAgent.Grpcclient

open SpiceAgent.Lib

theorem outline : connector.Outline (fun _ _ _ _ => True) Kept Assertion where
  init_shared := by
    refine ⟨⟨?_, ?_, ?_, ?_⟩, ⟨?_, ?_, ?_, ?_, ?_, ?_, ?_⟩⟩ <;> simp [connector]
  init_thread i := by
    refine ⟨⟨?_, ?_, ?_, ?_, ?_, ?_, ?_⟩, trivial⟩ <;>
      simp [connector, Phase.ticket, Phase.token]
  own hk h _ hact :=
    have hstep := act_step hk h hact
    ⟨⟨hstep.effect.book.sound, hstep.effect.desk⟩, hstep.assertion⟩
  others hk h hj hne _ hact :=
    have hstep := act_step hk h hact
    ⟨hj.atGate.apart hne hstep.effect.apart, hj.knows.keeps hstep.effect.book⟩

variable {w w' : Pool Shared Op}

/-! ## Gates -/

theorem atGate_of_reachable (h : connector.system.Reachable w) (i : ℕ) :
    AtGate w.shared.desk i (w.threads i) := ((outline.holds h).2 i).atGate

theorem gate_eq_of_client_eq (h : connector.system.Reachable w) {i j : ℕ} {t u : Ticket}
    (ht : (w.threads i).phase.ticket = some t) (hu : (w.threads j).phase.ticket = some u)
    (hclient : t.claim.client = u.claim.client) : t.gate = u.gate := by
  obtain ⟨⟨-, hd⟩, -⟩ := outline.holds h
  have hused : ∀ {k : ℕ} {v : Ticket}, (w.threads k).phase.ticket = some v →
      w.shared.desk.reconnects v.claim.client = some v.gate := by
    intro k v hv
    have hk := atGate_of_reachable h k
    have hmem := (hk.member v.gate).mpr (by rw [hv]; rfl)
    rw [← hk.client v hv]
    exact hd.used v.gate (List.ne_nil_of_mem hmem)
  have hgate := hused ht
  rw [hclient, hused hu] at hgate
  exact (Option.some_inj.mp hgate).symm

theorem ticket_of_token {q : Phase} {t : Ticket} (h : q.token = some t) : q.ticket = some t := by
  cases q with
  | queued | dropping => simp [Phase.token] at h
  | _ => exact h

theorem tokens_balanced {d : Desk} {i : ℕ} {op : Op} (h : AtGate d i op) :
    op.given ≤ op.taken ∧ op.taken ≤ 1 ∧ (op.phase = .returned → op.given = op.taken) := by
  have hbalance := h.balance
  have hle := h.given_le
  refine ⟨by omega, ?_, fun hp => ?_⟩
  · cases htoken : op.phase.token.isSome with
    | true =>
      have hzero := h.ungiven htoken
      rw [htoken] at hbalance
      simp only [if_true] at hbalance
      omega
    | false =>
      rw [htoken] at hbalance
      simp only [Bool.false_eq_true, if_false] at hbalance
      omega
  · rw [hp] at hbalance
    simpa [Phase.token, Phase.ticket] using hbalance.symm

theorem reconnects_le (h : connector.system.Reachable w) {c : ℕ} {calls : List ℕ}
    (hnodup : calls.Nodup) (hcalls : ∀ i ∈ calls, ∃ t, (w.threads i).phase.ticket = some t ∧
      t.claim.client = c) : calls.length ≤ 2 := by
  obtain ⟨⟨-, hd⟩, -⟩ := outline.holds h
  cases calls with
  | nil => exact Nat.zero_le _
  | cons i rest =>
    obtain ⟨t, ht, hc⟩ := hcalls i List.mem_cons_self
    have hsub : i :: rest ⊆ (w.shared.desk.gate t.gate).members := by
      intro j hj
      obtain ⟨u, hu, hcu⟩ := hcalls j hj
      have hgate := gate_eq_of_client_eq h ht hu (hc.trans hcu.symm)
      refine ((atGate_of_reachable h j).member t.gate).mpr ?_
      rw [hu, hgate]
      rfl
    calc (i :: rest).length ≤ (w.shared.desk.gate t.gate).members.length :=
          (List.subperm_of_subset hnodup hsub).length_le
      _ = (w.shared.desk.gate t.gate).users := (hd.users_eq _).symm
      _ ≤ 2 := hd.users_le _

/-! ## Sessions -/

/-- The session is closed, is not installed and accepts no stream; each of its streams is closed and
its receive loop has ended, and its context is cancelled unless the call that closed it is just
about to do so. -/
structure Book.Fenced (b : Book) (p : ℕ) : Prop where
  closed : (b.session p).closed = true
  removed : b.sessions (b.session p).client ≠ some p
  refuses : b.streamContext p = none
  streams : ∀ l, l < b.nextLife → (b.life l).owner = p → (b.life l).closed = true ∧
    (b.life l).ended = true ∧ ((b.life l).cancelled = true ∨ (b.life l).closer = .stored)

theorem Book.Draining.fenced {b : Book} {p : ℕ} (hd : b.Draining p []) (hb : b.Sound) :
    b.Fenced p := by
  have hempty : ∀ l, l ∉ (b.session p).streams :=
    fun l hl => List.not_mem_nil (hd.streams_sub l hl)
  refine ⟨hd.closed, ?_, by simp [Book.streamContext, hd.closed], fun l hl howner => ?_⟩
  · rcases hd.removal with hne | hout | ⟨l, hl, -⟩
    · exact absurd (List.eq_nil_iff_forall_not_mem.mpr hempty) hne
    · exact hout
    · exact absurd hl List.not_mem_nil
  · have hx := hb.life l hl
    obtain ⟨hclosed, hended⟩ := hx.released (by rw [howner]; exact hempty l)
    refine ⟨hclosed, hended, ?_⟩
    rw [hx.closed_eq] at hclosed
    have hcancelled := hx.cancelled
    generalize (b.life l).closer = pc at hclosed hcancelled ⊢
    cases pc with
    | fresh | entered => cases hclosed
    | stored => exact .inr rfl
    | _ => exact .inl (hcancelled rfl)

theorem draining_run {p : ℕ} {ls : List (ℕ × Action)} (h : connector.system.Reachable w)
    (hd : w.shared.book.Draining p []) (hrun : connector.system.run w ls = some w') :
    w'.shared.book.Sound ∧ w'.shared.book.Draining p [] := by
  have hinv : (Kept w'.shared ∧ ∀ i, Assertion w'.shared i (w'.threads i)) ∧
      w'.shared.book.Draining p [] := by
    refine System.run_invariant (I := fun v : Pool Shared Op =>
      (Kept v.shared ∧ ∀ i, Assertion v.shared i (v.threads i)) ∧ v.shared.book.Draining p [])
      ?_ hrun ⟨outline.holds h, hd⟩
    intro v l v' hv hstep
    refine ⟨outline.step hv.1 trivial hstep, ?_⟩
    obtain ⟨hact, -⟩ := Threads.step_eq_some hstep
    exact (act_step hv.1.1 (hv.1.2 l.1) hact).effect.book.draining hv.2
  exact ⟨hinv.1.1.book, hinv.2⟩

/-- In every interleaving at most one reconnect of a client has the token of a gate and at most two
are at a gate; a call gives back the token that it took, once; and when a reconnect has passed its
fence, having found the session of its claim installed, then from that moment on the session is
fenced and nobody opens a stream or a call on it. -/
theorem reconnect_exclusion (h : connector.system.Reachable w) :
    (∀ i j t u, (w.threads i).phase.token = some t → (w.threads j).phase.token = some u →
      t.claim.client = u.claim.client → i = j) ∧
    (∀ c (calls : List ℕ), calls.Nodup → (∀ i ∈ calls, ∃ t,
      (w.threads i).phase.ticket = some t ∧ t.claim.client = c) → calls.length ≤ 2) ∧
    (∀ i, (w.threads i).given ≤ (w.threads i).taken ∧ (w.threads i).taken ≤ 1 ∧
      ((w.threads i).phase = .returned → (w.threads i).given = (w.threads i).taken)) ∧
    ∀ i t p, (w.threads i).phase = .past t (some p) →
      (w.shared.book.session p).client = t.claim.client ∧
      (w.shared.book.session p).epoch = t.claim.epoch ∧
      ∀ ls w', connector.system.run w ls = some w' → w'.shared.book.Fenced p ∧
        ∀ j w'', (connector.system.step w' (j, .openStream p) = some w'' ∨
          connector.system.step w' (j, .invoke p) = some w'') →
          (w''.threads j).phase = .refused := by
  refine ⟨fun i j t u ht hu hclient => ?_, fun c calls => reconnects_le h,
    fun i => tokens_balanced (atGate_of_reachable h i), fun i t p hp => ?_⟩
  · have hgate := gate_eq_of_client_eq h (ticket_of_token ht) (ticket_of_token hu) hclient
    have hi := ((atGate_of_reachable h i).holder t.gate).mpr (by rw [ht]; rfl)
    have hj := ((atGate_of_reachable h j).holder t.gate).mpr (by rw [hu, hgate]; rfl)
    rw [hi] at hj
    exact Option.some_inj.mp hj
  · have hknows := ((outline.holds h).2 i).knows
    rw [hp] at hknows
    obtain ⟨hd, hnamed⟩ := hknows
    obtain ⟨hclient, hepoch⟩ := hnamed t rfl
    refine ⟨hclient, hepoch, fun ls w' hrun => ?_⟩
    obtain ⟨hb, hd'⟩ := draining_run h hd hrun
    have hfenced := hd'.fenced hb
    refine ⟨hfenced, fun j w'' hstep => ?_⟩
    rcases hstep with hstep | hstep
    all_goals
      obtain ⟨hact, -⟩ := Threads.step_eq_some hstep
      change act _ _ _ _ = _ at hact
      generalize w'.threads j = op at hact
      obtain ⟨phase, taken, given⟩ := op
      unfold act at hact
      cases phase <;> simp [hfenced.refuses, hfenced.closed, hd'.known] at hact
      rw [← hact.2]
      rfl

/-- A reconnect that closes the stream of the session and waits until its receive loop has ended. -/
def fenceStream : List (ℕ × Action) :=
  [(0, .connect 7 1), (1, .openStream 0), (3, .reconnect ⟨7, 1⟩)] ++ List.replicate 11 (3, .go) ++
    (1, .endLoop) :: List.replicate 6 (1, .go) ++ List.replicate 2 (3, .go)

theorem reconnect_exclusion_fenced :
    ∃ w, connector.system.Reachable w ∧ (w.threads 3).phase = .past ⟨⟨7, 1⟩, 0⟩ (some 0) ∧
      0 < w.shared.book.nextLife ∧ (w.shared.book.life 0).owner = 0 ∧ w.shared.book.Fenced 0 := by
  obtain ⟨w, hrun, hw⟩ := Option.map_eq_some_iff.mp
    (show (connector.system.after fenceStream).map (fun w =>
        ((w.threads 3).phase, w.shared.book.nextLife, (w.shared.book.life 0).owner)) =
      some (.past ⟨⟨7, 1⟩, 0⟩ (some 0), 1, 0) by decide +kernel)
  simp only [Prod.mk.injEq] at hw
  have hreach := System.reachable_of_run hrun
  have hfence := (reconnect_exclusion hreach).2.2.2 3 _ 0 hw.1
  exact ⟨w, hreach, hw.1, by omega, hw.2.2, (hfence.2.2 [] w rfl).1⟩

/-- A session with one stream, whose `Close` is stopped between marking it closed and cancelling its
context, and whose receive loop ends. -/
def halfClosed : List (ℕ × Action) :=
  [(0, .connect 7 1), (1, .openStream 0), (2, .closeStream 0), (2, .go), (2, .go), (1, .endLoop),
    (1, .go), (1, .go), (1, .go), (1, .go), (1, .go)]

def fenceSession : List (ℕ × Action) :=
  [(3, .reconnect ⟨7, 1⟩), (3, .go), (3, .go), (3, .go), (3, .go), (3, .go), (3, .go), (3, .go)]

/-- A reconnect passes its fence while a stream of the session has not been cancelled. -/
theorem fence_before_cancel :
    ∃ w, connector.system.Reachable w ∧ (w.threads 3).phase = .past ⟨⟨7, 1⟩, 0⟩ (some 0) ∧
      0 < w.shared.book.nextLife ∧ (w.shared.book.life 0).owner = 0 ∧
      (w.shared.book.life 0).cancelled = false := by
  have hrun : connector.system.after (halfClosed ++ fenceSession) = some _ := rfl
  exact ⟨_, System.reachable_of_run hrun, rfl, by decide, rfl, rfl⟩

end SpiceAgent.Grpcclient
