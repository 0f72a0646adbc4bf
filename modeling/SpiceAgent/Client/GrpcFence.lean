import SpiceAgent.Client.GrpcBook
import SpiceAgent.Client.GrpcGates

/-!
# Fenced reconnects

A reconnect that has found the session of its claim knows, from the critical section on in which it
closed the session, that the session is drained. When the streams that it captured have been closed
and joined, none of them is left, and whoever released the last one has removed the session.
-/

namespace SpiceAgent.Grpcclient

open SpiceAgent.Lib List
open Phase

variable {b b' : Book} {s s' : Shared} {i j p : ℕ} {op op' other : Op} {a : Action}

/-! ## What a call knows -/

/-- The session is the one that the claim names. -/
def Book.Named (b : Book) (p : ℕ) (ticket : Option Ticket) : Prop :=
  ∀ t, ticket = some t →
    (b.session p).client = t.claim.client ∧ (b.session p).epoch = t.claim.epoch

namespace Phase

def ticket : Phase → Option Ticket
  | .capturing _ t | .removing _ t => t
  | .closing _ (.fence t _ _) | .joining _ t _ _ => some t
  | .queued t | .checking t | .looking t | .past t _ | .giving t | .dropping t => some t
  | _ => none

def token : Phase → Option Ticket
  | .queued _ | .dropping _ => none
  | phase => phase.ticket

def untaken : Phase → Bool
  | .idle | .queued _ => true
  | _ => false

def Knows (b : Book) : Phase → Prop
  | .streaming l | .finishing l => l < b.nextLife
  | .capturing p t => p < b.nextSession ∧ b.Named p t
  | .removing p t => p < b.nextSession ∧ b.Named p t ∧ (b.session p).closed = true ∧
      (b.session p).streams = []
  | .closing todo .close => ∀ l ∈ todo, l < b.nextLife
  | .closing todo (.failing k) => (∀ l ∈ todo, l < b.nextLife) ∧ k < b.nextLife
  | .closing todo (.fence t p captured) => (∀ l ∈ todo, l < b.nextLife) ∧
      b.Draining p captured ∧ b.Named p (some t) ∧
      ∀ l ∈ captured, l ∈ todo ∨ (b.life l).closer = .done
  | .joining todo t p captured => b.Draining p captured ∧ b.Named p (some t) ∧
      (∀ l ∈ captured, (b.life l).closer = .done) ∧
      ∀ l ∈ captured, l ∈ todo ∨ (b.life l).finisher = .done
  | .past t (some p) => b.Draining p [] ∧ b.Named p (some t)
  | _ => True

end Phase

theorem Book.Named.later {ticket : Option Ticket} (h : b.Named p ticket) (hp : p < b.nextSession)
    (hl : b.Later b') : b'.Named p ticket := by
  intro t ht
  obtain ⟨hclient, hepoch⟩ := hl.identity p hp
  rw [hclient, hepoch]
  exact h t ht

variable {q : Phase}

theorem Phase.Knows.keeps (h : q.Knows b) (hk : b.Keeps b') : q.Knows b' := by
  have hl := hk.later
  have hlife : ∀ {l}, l < b.nextLife → l < b'.nextLife := fun h => h.trans_le hl.nextLife_le
  have hnext : ∀ {p}, p < b.nextSession → p < b'.nextSession :=
    fun h => h.trans_le hl.nextSession_le
  unfold Phase.Knows at h ⊢
  split
  · exact hlife h
  · exact hlife h
  · exact ⟨hnext h.1, h.2.later h.1 hl⟩
  · obtain ⟨hp, hnamed, hclosed, hempty⟩ := h
    refine ⟨hnext hp, hnamed.later hp hl, hl.closed _ hp hclosed, ?_⟩
    rw [eq_nil_iff_forall_not_mem] at hempty ⊢
    exact fun l hmem => hempty l (hl.shrinks _ hp hclosed l hmem)
  · exact fun l hmem => hlife (h l hmem)
  · exact ⟨fun l hmem => hlife (h.1 l hmem), hlife h.2⟩
  · obtain ⟨htodo, hd, hnamed, hclosed⟩ := h
    exact ⟨fun l hmem => hlife (htodo l hmem), hk.draining hd, hnamed.later hd.known hl,
      fun l hmem => (hclosed l hmem).imp_right (hl.closer l (hd.owned l hmem).1)⟩
  · obtain ⟨hd, hnamed, hclosed, hjoined⟩ := h
    exact ⟨hk.draining hd, hnamed.later hd.known hl,
      fun l hmem => hl.closer l (hd.owned l hmem).1 (hclosed l hmem),
      fun l hmem => (hjoined l hmem).imp_right (hl.finisher l (hd.owned l hmem).1)⟩
  · exact ⟨hk.draining h.1, h.2.later h.1.known hl⟩
  · trivial

/-- When every captured stream is closed and joined, the session has no stream and is removed. -/
theorem Book.Draining.drained {captured : List ℕ} (hd : b.Draining p captured) (hb : b.Sound)
    (hclosed : ∀ l ∈ captured, (b.life l).closer = .done)
    (hjoined : ∀ l ∈ captured, (b.life l).finisher = .done) : b.Draining p [] := by
  have hempty : ∀ l, l ∉ (b.session p).streams := by
    intro l hmem
    have hl := hd.streams_sub l hmem
    obtain ⟨hlt, howner⟩ := hd.owned l hl
    have hout := (hb.life l hlt).not_listed (hclosed l hl) (hjoined l hl)
    rw [howner] at hout
    exact hout hmem
  refine ⟨hd.known, hd.closed, fun l hmem => absurd hmem (hempty l), fun l hl => ?_, .inr ?_⟩
  · exact absurd hl not_mem_nil
  · rcases hd.removal with hne | hout | ⟨l, hl, hremoving⟩
    · exact absurd (eq_nil_iff_forall_not_mem.mpr hempty) hne
    · exact .inl hout
    · rw [hclosed l hl, hjoined l hl] at hremoving
      simp at hremoving

/-! ## Assertions -/

/-- What holds of a call at its gate. -/
@[mk_iff] structure AtGate (d : Desk) (i : ℕ) (op : Op) : Prop where
  member : ∀ g, i ∈ (d.gate g).members ↔ op.phase.ticket.map Ticket.gate = some g
  holder : ∀ g, (d.gate g).holder = some i ↔ op.phase.token.map Ticket.gate = some g
  client : ∀ t, op.phase.ticket = some t → (d.gate t.gate).client = t.claim.client
  balance : op.taken = op.given + if op.phase.token.isSome then 1 else 0
  untaken : op.phase.untaken = true → op.taken = 0
  given_le : op.given ≤ 1
  ungiven : op.phase.token.isSome = true → op.given = 0

/-- What holds of a call. -/
structure Assertion (s : Shared) (i : ℕ) (op : Op) : Prop where
  atGate : AtGate s.desk i op
  knows : op.phase.Knows s.book

/-- What holds of the connector. -/
structure Kept (s : Shared) : Prop where
  book : s.book.Sound
  desk : s.desk.Sound

variable {d : Desk}

theorem AtGate.apart {d' : Desk} (h : AtGate d j other) (hj : j ≠ i) (ha : d.Apart d' i) :
    AtGate d' j other := by
  refine ⟨fun g => (ha.members j hj g).trans (h.member g),
    fun g => (ha.holder j hj g).trans (h.holder g), fun t ht => ?_, h.balance, h.untaken,
    h.given_le, h.ungiven⟩
  have hmem : j ∈ (d.gate t.gate).members := (h.member t.gate).mpr (by rw [ht]; rfl)
  rw [ha.client t.gate (ne_nil_of_mem hmem)]
  exact h.client t ht

theorem AtGate.at (h : AtGate d i op) (hticket : q.ticket = op.phase.ticket)
    (htoken : q.token = op.phase.token) (huntaken : q.untaken = true → op.phase.untaken = true) :
    AtGate d i (op.at q) := by
  obtain ⟨hmember, hholder, hclient, hbalance, hun, hle, hungiven⟩ := h
  rw [← hticket] at hmember hclient
  rw [← htoken] at hholder hbalance hungiven
  exact ⟨hmember, hholder, hclient, hbalance, fun h => hun (huntaken h), hle, hungiven⟩

/-- What one action does to the connector, as the other calls see it. -/
structure Effect (s s' : Shared) (i : ℕ) : Prop where
  book : s.book.Keeps s'.book
  desk : s'.desk.Sound
  apart : s.desk.Apart s'.desk i

theorem Book.Keeps.refl (hb : b.Sound) : b.Keeps b := ⟨hb, id, by simp [Book.later_iff]⟩

theorem Effect.ofBook (hk : Kept s) (h : s.book.Keeps b) : Effect s ⟨b, s.desk⟩ i :=
  ⟨h, hk.desk, .refl _ i⟩

/-! ## One action -/

attribute [local simp] ticket token untaken

theorem purposeOf_ticket (todo captured : List ℕ) (t : Option Ticket) :
    (closing todo (purposeOf p captured t)).ticket = t ∧
      (closing todo (purposeOf p captured t)).token = t := by
  cases t <;> exact ⟨rfl, rfl⟩

section

variable (hb : b.Sound) {t : Option Ticket} (hp : p < b.nextSession) (hnamed : b.Named p t)
include hb hp hnamed

theorem knows_capture (hne : (b.session p).streams ≠ []) :
    (closing (b.session p).streams (purposeOf p (b.session p).streams t)).Knows (b.capture p) := by
  have hlt : ∀ l ∈ (b.session p).streams, l < b.nextLife := fun l hl => (hb.listed p l hl).1
  cases t with
  | none => exact hlt
  | some t =>
    exact ⟨hlt, capture_draining hb hp hne, hnamed.later hp (capture_keeps hb p).later,
      fun l hl => .inl hl⟩

theorem knows_remove (hclosed : (b.session p).closed = true) (hempty : (b.session p).streams = []) :
    (closing [] (purposeOf p [] t)).Knows (b.remove p) := by
  cases t with
  | none => exact fun l hl => absurd hl not_mem_nil
  | some t =>
    obtain ⟨hsession, hnext, -, -⟩ := remove_frame b p
    refine ⟨fun l hl => absurd hl not_mem_nil, ⟨hnext ▸ hp, hsession ▸ hclosed, ?_, ?_, ?_⟩,
      hnamed.later hp (Book.Keeps.remove hb p).later, fun l hl => absurd hl not_mem_nil⟩
    · rw [hsession, hempty]
      exact fun _ => id
    · exact fun l hl => absurd hl not_mem_nil
    · rw [hsession]
      exact .inr (.inl (remove_sessions_ne b p))

end

variable {l : ℕ} {todo : List ℕ}

section

variable {purpose : Purpose} (h : (closing (l :: todo) purpose).Knows b)
include h

theorem knows_closing (hdone : (b.life l).closer = .done) : (closing todo purpose).Knows b := by
  have htail : (∀ k ∈ l :: todo, k < b.nextLife) → ∀ k ∈ todo, k < b.nextLife :=
    fun h k hk => h k (mem_cons_of_mem l hk)
  cases purpose with
  | close => exact htail h
  | failing k => exact ⟨htail h.1, h.2⟩
  | fence t p captured =>
    obtain ⟨htodo, hd, hnamed, hclosed⟩ := h
    refine ⟨htail htodo, hd, hnamed, fun k hk => ?_⟩
    rcases hclosed k hk with hmem | hk
    · rcases mem_cons.mp hmem with rfl | hmem
      · exact .inr hdone
      · exact .inl hmem
    · exact .inr hk

theorem knows_closing_lt : l < b.nextLife := by
  cases purpose with
  | close => exact h l mem_cons_self
  | failing k => exact h.1 l mem_cons_self
  | fence t p captured => exact h.1 l mem_cons_self

end

variable {t : Ticket}

theorem knows_joining {captured : List ℕ} (h : (joining (l :: todo) t p captured).Knows b)
    (hb : b.Sound) (hdone : (b.life l).rpcDone = true) : (joining todo t p captured).Knows b := by
  obtain ⟨hd, hnamed, hclosed, hjoined⟩ := h
  refine ⟨hd, hnamed, hclosed, fun k hk => ?_⟩
  rcases hjoined k hk with hmem | hk'
  · rcases mem_cons.mp hmem with rfl | hmem
    · exact .inr ((hb.life k (hd.owned k hk).1).joined.mp hdone)
    · exact .inl hmem
  · exact .inr hk'

/-- What an action of the call `i` leads to. -/
structure Step (s s' : Shared) (i : ℕ) (op' : Op) : Prop where
  effect : Effect s s' i
  assertion : Assertion s' i op'

theorem Step.advance (hk : Kept s) (h : AtGate s.desk i op) {q₀ : Phase} (hphase : op.phase = q₀)
    (hb : s.book.Keeps b) (hticket : q.ticket = q₀.ticket) (htoken : q.token = q₀.token)
    (huntaken : q.untaken = true → q₀.untaken = true) (hknows : q.Knows b) :
    Step s ⟨b, s.desk⟩ i (op.at q) := by
  subst hphase
  exact ⟨.ofBook hk hb, h.at hticket htoken huntaken, hknows⟩

theorem Step.move (hk : Kept s) (h : AtGate s.desk i op) {q₀ : Phase} (hphase : op.phase = q₀)
    (hticket : q.ticket = q₀.ticket) (htoken : q.token = q₀.token)
    (huntaken : q.untaken = true → q₀.untaken = true) (hknows : q.Knows s.book) :
    Step s s i (op.at q) :=
  .advance hk h hphase (.refl hk.book) hticket htoken huntaken hknows

theorem install_getD_keeps (hb : b.Sound) (client epoch : ℕ) :
    b.Keeps ((b.install client epoch).getD b) := by
  cases h : b.install client epoch with
  | none => exact .refl hb
  | some b' => exact install_keeps hb h

variable (hk : Kept s)
include hk

section

variable (h : AtGate s.desk i op)
include h

theorem Step.capture {t : Option Ticket} (hphase : op.phase = .capturing p t)
    (hp : p < s.book.nextSession) (hnamed : s.book.Named p t) :
    Step s ⟨s.book.capture p, s.desk⟩ i (op.at (match (s.book.session p).streams with
      | [] => .removing p t
      | l :: ls => .closing (l :: ls) (purposeOf p (l :: ls) t))) := by
  have hb := hk.book
  have hkeeps := capture_keeps hb p
  obtain ⟨-, -, hstreams, hclosed⟩ := capture_session s.book p p
  split
  · rename_i hempty
    refine .advance hk h hphase hkeeps rfl rfl id ⟨hp, hnamed.later hp hkeeps.later, ?_, ?_⟩
    · exact hclosed.mpr (.inl rfl)
    · rw [hstreams, hempty]
  · rename_i l ls hsome
    obtain ⟨hticket, htoken⟩ := purposeOf_ticket (p := p) (l :: ls) (l :: ls) t
    refine .advance hk h hphase hkeeps hticket htoken nofun ?_
    have hknows := knows_capture hb hp hnamed (by simp [hsome])
    rw [hsome] at hknows
    exact hknows

theorem Step.register {claim : Claim} {g : ℕ} (hphase : op.phase = .idle)
    (hd : s.desk.register claim.client i = some (d, g)) :
    Step s ⟨s.book, d⟩ i (op.at (.queued ⟨claim, g⟩)) := by
  simp only [atGate_iff, hphase] at h
  have hout : ∀ g, i ∉ (s.desk.gate g).members := by simp_all
  obtain ⟨hsound, hapart, hclient, hmember, hholder⟩ := register_sound hk.desk hout hd
  refine ⟨⟨.refl hk.book, hsound, hapart⟩, ?_, trivial⟩
  simp_all [atGate_iff, Op.at]
  grind

theorem Step.take (hphase : op.phase = .queued t) (hfree : (s.desk.gate t.gate).holder = none) :
    Step s ⟨s.book, s.desk.setHolder t.gate (some i)⟩ i ⟨.checking t, op.taken + 1, op.given⟩ := by
  have hgate := setHolder_gate s.desk t.gate (some i)
  simp only [atGate_iff, hphase] at h
  refine ⟨⟨.refl hk.book, setHolder_sound hk.desk fun j hj => ?_,
    setHolder_apart (.inl hfree) (.inr rfl)⟩, ?_, trivial⟩
  · cases hj
    exact (h.1 t.gate).mpr rfl
  · simp_all [atGate_iff]
    grind

theorem Step.give (hphase : op.phase = .giving t) :
    Step s ⟨s.book, s.desk.setHolder t.gate none⟩ i ⟨.dropping t, op.taken, op.given + 1⟩ := by
  have hgate := setHolder_gate s.desk t.gate none
  simp only [atGate_iff, hphase] at h
  refine ⟨⟨.refl hk.book, setHolder_sound hk.desk fun j hj => by simp at hj,
    setHolder_apart (.inr ((h.2.1 t.gate).mpr rfl)) (.inl rfl)⟩, ?_, trivial⟩
  simp_all [atGate_iff]
  grind

theorem Step.drop (hphase : op.phase = .dropping t) :
    Step s ⟨s.book, s.desk.releaseReference t.gate i⟩ i (op.at .returned) := by
  simp only [atGate_iff, hphase] at h
  obtain ⟨hsound, hapart, hout, hothers⟩ :=
    releaseReference_sound hk.desk ((h.1 t.gate).mpr rfl) (by simp_all)
  have hholder := hsound.holder_mem
  refine ⟨⟨.refl hk.book, hsound, hapart⟩, ?_, trivial⟩
  simp_all [atGate_iff, Op.at]
  grind

theorem Step.look (hphase : op.phase = .looking t) :
    Step s s i (op.at (match s.book.sessions t.claim.client with
      | some p => if (s.book.session p).epoch = t.claim.epoch then .capturing p (some t)
        else .past t none
      | none => .past t none)) := by
  split
  · rename_i p hp
    obtain ⟨hlt, hclient⟩ := hk.book.installed _ p hp
    split
    · rename_i hepoch
      refine .move hk h hphase rfl rfl id ⟨hlt, fun r hr => ?_⟩
      cases hr
      exact ⟨hclient, hepoch⟩
    · exact .move hk h hphase rfl rfl id trivial
  · exact .move hk h hphase rfl rfl id trivial

end

theorem act_step (h : Assertion s i op) (hact : act s i op a = some (s', op')) :
    Step s s' i op' := by
  obtain ⟨hgate, hknows⟩ := h
  have hb := hk.book
  unfold act at hact
  split at hact
  all_goals rename_i hphase
  all_goals try rw [hphase] at hknows
  · -- a stream is opened
    split at hact
    · rename_i hp
      split at hact
      · rename_i b hb'
        cases hact
        refine .advance hk hgate hphase (streamContext_keeps hb hp hb') rfl rfl
          nofun ?_
        rw [Phase.Knows, streamContext_nextLife hb']
        exact Nat.lt_succ_self _
      · cases hact
        exact .move hk hgate hphase rfl rfl nofun trivial
    · simp at hact
  · cases hact
    exact .move hk hgate hphase rfl rfl id hknows
  · cases hact
    exact .move hk hgate hphase rfl rfl id ⟨by simpa [Phase.Knows] using hknows, hknows⟩
  · -- the receive loop ends
    split at hact
    · rename_i b hb'
      cases hact
      have hkeeps := finishStep_keeps hb hknows hb'
      refine ⟨.ofBook hk hkeeps, hgate, ?_⟩
      rw [hphase]
      exact hknows.keeps hkeeps
    · cases hact
      exact .move hk hgate hphase rfl rfl id trivial
  · obtain ⟨hl, rfl, rfl⟩ := by simpa using hact
    exact .advance hk hgate hphase (interrupt_keeps hb hl) rfl rfl nofun trivial
  · obtain ⟨hp, rfl, rfl⟩ := by simpa using hact
    split
    · exact .move hk hgate hphase rfl rfl nofun trivial
    · exact .move hk hgate hphase rfl rfl nofun trivial
  · obtain ⟨hl, rfl, rfl⟩ := by simpa using hact
    exact .move hk hgate hphase rfl rfl nofun (by simpa [Phase.Knows] using hl)
  · obtain ⟨hp, rfl, rfl⟩ := by simpa using hact
    exact .move hk hgate hphase rfl rfl nofun ⟨hp, by simp [Book.Named]⟩
  · rw [Option.some_inj, Prod.ext_iff] at hact
    obtain ⟨rfl, rfl⟩ := hact
    exact .capture hk hgate hphase hknows.1 hknows.2
  · rename_i p t
    cases hact
    obtain ⟨hp, hnamed, hclosed, hempty⟩ := hknows
    obtain ⟨hticket, htoken⟩ := purposeOf_ticket (p := p) [] [] t
    exact .advance hk hgate hphase (.remove hb p) hticket htoken id
      (knows_remove hb hp hnamed hclosed hempty)
  · cases hact
    exact .move hk hgate hphase rfl rfl id trivial
  · cases hact
    exact .move hk hgate hphase rfl rfl id hknows.2
  · -- all captured streams are closed
    cases hact
    obtain ⟨-, hd, hnamed, hclosed⟩ := hknows
    refine .move hk hgate hphase rfl rfl id ⟨hd, hnamed, fun l hl => ?_, fun l hl => .inl hl⟩
    exact (hclosed l hl).resolve_left not_mem_nil
  · -- one stream is being closed
    rename_i l todo purpose
    split at hact
    · rename_i hdone
      cases hact
      refine .move hk hgate hphase ?_ ?_ id (knows_closing hknows hdone)
      · cases purpose <;> rfl
      · cases purpose <;> rfl
    · split at hact
      · obtain ⟨b, hb', heq⟩ := Option.map_eq_some_iff.mp hact
        obtain ⟨rfl, rfl⟩ := Prod.ext_iff.mp heq
        have hkeeps := closeStep_keeps hb (knows_closing_lt hknows) hb'
        refine ⟨.ofBook hk hkeeps, hgate, ?_⟩
        rw [hphase]
        exact hknows.keeps hkeeps
      · simp at hact
  · -- all captured streams have ended
    cases hact
    obtain ⟨hd, hnamed, hclosed, hjoined⟩ := hknows
    refine .move hk hgate hphase rfl rfl id ⟨hd.drained hb hclosed fun l hl => ?_, hnamed⟩
    exact (hjoined l hl).resolve_left not_mem_nil
  · obtain ⟨hdone, rfl, rfl⟩ := by simpa using hact
    exact .move hk hgate hphase rfl rfl id (knows_joining hknows hb hdone)
  · cases hact
    exact .move hk hgate hphase rfl rfl id trivial
  · cases hact
    exact .advance hk hgate hphase (install_getD_keeps hb _ _) rfl rfl nofun
      trivial
  · split at hact
    · rename_i d g hd
      cases hact
      exact .register hk hgate hphase hd
    · cases hact
      exact .move hk hgate hphase rfl rfl nofun trivial
  · cases hact
    exact .move hk hgate hphase rfl rfl nofun trivial
  · obtain ⟨hfree, rfl, rfl⟩ := by simpa using hact
    exact .take hk hgate hphase hfree
  · cases hact
    exact .move hk hgate hphase rfl rfl id trivial
  · cases hact
    exact .move hk hgate hphase rfl rfl id trivial
  · rw [Option.some_inj, Prod.ext_iff] at hact
    obtain ⟨rfl, rfl⟩ := hact
    exact .look hk hgate hphase
  · rename_i t _ epoch
    cases hact
    refine .advance hk hgate hphase ?_ rfl rfl id trivial
    cases epoch with
    | none => exact .refl hb
    | some epoch => exact install_getD_keeps hb _ epoch
  · cases hact
    exact .give hk hgate hphase
  · cases hact
    exact .drop hk hgate hphase
  · simp at hact

end SpiceAgent.Grpcclient
