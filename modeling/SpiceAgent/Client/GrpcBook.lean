import SpiceAgent.Client.GrpcSession

/-!
# Steps on the book of sessions and streams

Every step keeps the book consistent, keeps a session that is being drained on the way to its
removal, and takes back nothing that was done for good.
-/

namespace SpiceAgent.Grpcclient

open Function (update_apply update_of_ne update_self)

variable {b b' b'' : Book} {l p i : ℕ} {x : Lifetime} {captured : List ℕ}

/-- What every step on the book does. -/
structure Book.Keeps (b b' : Book) : Prop where
  sound : b'.Sound
  draining : ∀ {p captured}, b.Draining p captured → b'.Draining p captured
  later : b.Later b'

/-! ## The flags of a stream -/

theorem Book.Keeps.setLife (hb : b.Sound) (hl : l < b.nextLife)
    (howner : x.owner = (b.life l).owner) (hx : x.Sound (l ∈ (b.session (b.life l).owner).streams))
    (hcloser : (b.life l).closer = .removing ∨ (b.life l).closer = .done →
      x.closer = (b.life l).closer)
    (hfinisher : (b.life l).finisher = .removing ∨ (b.life l).finisher = .done →
      x.finisher = (b.life l).finisher) : b.Keeps (b.setLife l x) := by
  unfold Book.setLife
  constructor
  case sound =>
    simp only [Book.sound_iff, update_apply] at *
    grind
  case draining =>
    simp only [Book.draining_iff, update_apply]
    grind
  case later =>
    simp only [Book.later_iff, update_apply]
    grind

/-! ## Removal of a session -/

theorem remove_sessions_ne (b : Book) (p : ℕ) :
    (b.remove p).sessions (b.session p).client ≠ some p := by
  unfold Book.remove
  split
  · simp
  · assumption

theorem remove_frame (b : Book) (p : ℕ) : (b.remove p).session = b.session ∧
    (b.remove p).nextSession = b.nextSession ∧ (b.remove p).life = b.life ∧
    (b.remove p).nextLife = b.nextLife := by
  unfold Book.remove
  split <;> exact ⟨rfl, rfl, rfl, rfl⟩

theorem Book.Keeps.remove (hb : b.Sound) (p : ℕ) : b.Keeps (b.remove p) := by
  unfold Book.remove
  split
  all_goals
    constructor
    case sound =>
      simp only [Book.sound_iff, update_apply] at *
      grind
    case draining =>
      simp only [Book.draining_iff, update_apply]
      grind
    case later =>
      simp only [Book.later_iff, update_apply]
      grind

/-- Who removed the session is done with it. -/
theorem Book.Keeps.removing (hb : b.Sound) (hl : l < b.nextLife)
    (howner : x.owner = (b.life l).owner) (hx : x.Sound (l ∈ (b.session (b.life l).owner).streams))
    (hcloser : (b.life l).closer = .done → x.closer = .done)
    (hfinisher : (b.life l).finisher = .done → x.finisher = .done) :
    b.Keeps ((b.remove (b.life l).owner).setLife l x) := by
  unfold Book.remove Book.setLife
  split
  all_goals
    constructor
    case sound =>
      simp only [Book.sound_iff, update_apply] at *
      grind
    case draining =>
      simp only [Book.draining_iff, update_apply]
      grind
    case later =>
      simp only [Book.later_iff, update_apply]
      grind

/-! ## Release of a stream -/

theorem release_session (b : Book) (l q : ℕ) :
    ((b.release l).session q).client = (b.session q).client ∧
      ((b.release l).session q).epoch = (b.session q).epoch ∧
      ((b.release l).session q).closed = (b.session q).closed := by
  simp only [Book.release, Book.setSession, update_apply]
  grind

theorem mem_streams_release {q k : ℕ} (hb : b.Sound) :
    k ∈ ((b.release l).session q).streams ↔ k ∈ (b.session q).streams ∧ k ≠ l := by
  have hlisted := hb.listed
  simp only [Book.release, Book.setSession, update_apply]
  grind

/-- The stream is released, and its last release in a closed session leads to a removal. -/
theorem Book.Keeps.release (hb : b.Sound) (hl : l < b.nextLife)
    (howner : x.owner = (b.life l).owner) (hx : x.Sound False)
    (hremoves : (b.release l).removes (b.life l).owner = true →
      x.closer = .removing ∨ x.finisher = .removing)
    (hcloser : (b.life l).closer = .removing ∨ (b.life l).closer = .done →
      x.closer = (b.life l).closer)
    (hfinisher : (b.life l).finisher = .removing ∨ (b.life l).finisher = .done →
      x.finisher = (b.life l).finisher) : b.Keeps ((b.release l).setLife l x) := by
  have hsession := release_session b l
  have hmem : ∀ {q k}, k ∈ ((b.release l).session q).streams ↔
      k ∈ (b.session q).streams ∧ k ≠ l := mem_streams_release hb
  refine ⟨?_, fun {q cap} hd => ?_, ?_⟩
  · simp only [Book.sound_iff, Book.release, Book.setLife, Book.setSession, update_apply] at *
    grind
  · have hlife : ∀ k, ((b.release l).setLife l x).life k = if k = l then x else b.life k :=
      fun k => update_apply ..
    refine ⟨hd.known, (hsession q).2.2.trans hd.closed, fun k hk => hd.streams_sub k (hmem.mp hk).1,
      fun k hk => ?_, ?_⟩
    · obtain ⟨hlt, howned⟩ := hd.owned k hk
      refine ⟨hlt, ?_⟩
      grind
    · by_cases hlq : l ∈ (b.session q).streams
      · by_cases hempty : ((b.release l).session q).streams = []
        · -- the last stream: this release leads to the removal
          obtain ⟨-, rfl⟩ := hb.listed q l hlq
          refine .inr (.inr ⟨l, hd.streams_sub l hlq, ?_⟩)
          rw [hlife, if_pos rfl]
          exact hremoves (by simp [Book.removes, (hsession _).2.2, hd.closed, hempty])
        · exact .inl hempty
      · have hold : ((b.release l).session q).streams = [] → (b.session q).streams = [] := by
          simp only [List.eq_nil_iff_forall_not_mem]
          exact fun hempty k hk => hempty k (hmem.mpr ⟨hk, fun h => hlq (h ▸ hk)⟩)
        have hclient := (hsession q).1
        have := hd.removal
        change ((b.release l).session q).streams ≠ [] ∨
          b.sessions ((b.release l).session q).client ≠ some q ∨ _
        grind
  · simp only [Book.later_iff, Book.release, Book.setLife, Book.setSession, update_apply]
    grind

/-! ## The bodies of `close` and `finishRPC` -/

/-! ### Flags -/

namespace Lifetime.Sound

variable {listed : Prop}

attribute [local grind =] Lifetime.sound_iff Closer.hasStored Closer.hasCancelled
    Finisher.hasSwapped

variable (h : x.Sound listed)
include h

theorem enter (hpc : x.closer = .fresh) (i : ℕ) :
    Lifetime.Sound { x with closer := .entered, runner := i } listed := by
  grind

theorem store : Lifetime.Sound { x with closed := true, closer := .stored } listed := by
  grind

theorem cancel (hpc : x.closer = .stored) :
    Lifetime.Sound { x with cancelled := true, closer := .cancelled } listed := by
  grind

theorem look (hpc : x.closer = .cancelled) :
    Lifetime.Sound { x with closer := if x.ended then .releasing else .leaving } listed := by
  grind

theorem closeRelease (hpc : x.closer = .releasing) (r : Bool) :
    Lifetime.Sound { x with closer := if r then .removing else .leaving } False := by
  grind

theorem closeRemove (hpc : x.closer = .removing) :
    Lifetime.Sound { x with closer := .leaving } listed := by
  grind

theorem leave (hpc : x.closer = .leaving) : Lifetime.Sound { x with closer := .done } listed := by
  grind

theorem swap (hpc : x.finisher = .active) :
    Lifetime.Sound { x with ended := true, finisher := .swapped } listed := by
  grind

theorem lookBack (hpc : x.finisher = .swapped) :
    Lifetime.Sound { x with finisher := if x.closed then .releasing else .joining } listed := by
  grind

theorem finishRelease (hpc : x.finisher = .releasing) (r : Bool) :
    Lifetime.Sound { x with finisher := if r then .removing else .joining } False := by
  grind

theorem finishRemove (hpc : x.finisher = .removing) :
    Lifetime.Sound { x with finisher := .joining } listed := by
  grind

theorem join (hpc : x.finisher = .joining) :
    Lifetime.Sound { x with rpcDone := true, finisher := .done } listed := by
  grind

theorem interrupt : Lifetime.Sound { x with cancelled := true } listed := by
  grind

end Lifetime.Sound

/-! ### Steps -/

section

variable (hb : b.Sound) (hl : l < b.nextLife)
include hb hl

theorem closeStep_keeps (h : b.closeStep l i = some b') : b.Keeps b' := by
  have hx := hb.life l hl
  unfold Book.closeStep at h
  dsimp only at h
  split at h
  all_goals rename_i hpc
  · cases h
    exact .setLife hb hl rfl (hx.enter hpc i) (by simp [hpc]) (fun _ => rfl)
  · cases h
    exact .setLife hb hl rfl hx.store (by simp [hpc]) (fun _ => rfl)
  · cases h
    exact .setLife hb hl rfl (hx.cancel hpc) (by simp [hpc]) (fun _ => rfl)
  · cases h
    exact .setLife hb hl rfl (hx.look hpc) (by simp [hpc]) (fun _ => rfl)
  · cases h
    refine .release hb hl rfl (hx.closeRelease hpc _) (fun hr => .inl ?_) (by simp [hpc])
      (fun _ => rfl)
    simp [hr]
  · cases h
    exact .removing hb hl rfl (hx.closeRemove hpc) (by simp [hpc]) id
  · cases h
    exact .setLife hb hl rfl (hx.leave hpc) (by simp [hpc]) (fun _ => rfl)
  · simp at h

theorem finishStep_keeps (h : b.finishStep l = some b') : b.Keeps b' := by
  have hx := hb.life l hl
  unfold Book.finishStep at h
  dsimp only at h
  split at h
  all_goals rename_i hpc
  · cases h
    exact .setLife hb hl rfl (hx.swap hpc) (fun _ => rfl) (by simp [hpc])
  · cases h
    exact .setLife hb hl rfl (hx.lookBack hpc) (fun _ => rfl) (by simp [hpc])
  · cases h
    refine .release hb hl rfl (hx.finishRelease hpc _) (fun hr => .inr ?_) (fun _ => rfl)
      (by simp [hpc])
    simp [hr]
  · cases h
    exact .removing hb hl rfl (hx.finishRemove hpc) id (by simp [hpc])
  · cases h
    exact .setLife hb hl rfl (hx.join hpc) (fun _ => rfl) (by simp [hpc])
  · simp at h

theorem interrupt_keeps : b.Keeps (b.interrupt l) :=
  .setLife hb hl rfl (hb.life l hl).interrupt (fun _ => rfl) (fun _ => rfl)

end

/-! ## Sessions -/

theorem capture_session (b : Book) (p q : ℕ) :
    ((b.capture p).session q).client = (b.session q).client ∧
      ((b.capture p).session q).epoch = (b.session q).epoch ∧
      ((b.capture p).session q).streams = (b.session q).streams ∧
      (((b.capture p).session q).closed = true ↔ q = p ∨ (b.session q).closed = true) := by
  simp only [Book.capture, Book.setSession, update_apply]
  grind

theorem capture_keeps (hb : b.Sound) (p : ℕ) : b.Keeps (b.capture p) := by
  unfold Book.capture Book.setSession
  constructor
  case sound =>
    simp only [Book.sound_iff, update_apply] at *
    grind
  case draining =>
    simp only [Book.draining_iff, update_apply]
    grind
  case later =>
    simp only [Book.later_iff, update_apply]
    grind

theorem capture_draining (hb : b.Sound) (hp : p < b.nextSession)
    (hne : (b.session p).streams ≠ []) : (b.capture p).Draining p (b.session p).streams := by
  have hsession := capture_session b p p
  refine ⟨hp, hsession.2.2.2.mpr (.inl rfl), ?_, fun l hl => hb.listed p l hl, .inl ?_⟩
  · rw [hsession.2.2.1]
    exact fun _ => id
  · rw [hsession.2.2.1]
    exact hne

theorem install_keeps (hb : b.Sound) {client epoch : ℕ}
    (h : b.install client epoch = some b') : b.Keeps b' := by
  unfold Book.install at h
  split_ifs at h
  cases h
  constructor
  case sound =>
    simp only [Book.sound_iff, update_apply] at *
    grind
  case draining =>
    simp only [Book.draining_iff, update_apply]
    grind
  case later =>
    simp only [Book.later_iff, update_apply]
    grind

theorem streamContext_nextLife (h : b.streamContext p = some b') : b'.nextLife =
    b.nextLife + 1 := by
  unfold Book.streamContext at h
  split_ifs at h
  cases h
  rfl

theorem newStreamLifetime_sound (p : ℕ) : (newStreamLifetime p).Sound True := by
  constructor <;> simp [newStreamLifetime, Closer.hasStored, Closer.hasCancelled,
    Finisher.hasSwapped]

/-- A session that is drained is closed, so a new stream is not its own. -/
theorem streamContext_keeps (hb : b.Sound) (hp : p < b.nextSession)
    (h : b.streamContext p = some b') : b.Keeps b' := by
  have hnew := newStreamLifetime_sound p
  have howner : (newStreamLifetime p).owner = p := rfl
  unfold Book.streamContext at h
  split_ifs at h
  cases h
  constructor
  case sound =>
    simp only [Book.sound_iff, update_apply] at *
    grind
  case draining =>
    simp only [Book.draining_iff, update_apply]
    grind
  case later =>
    simp only [Book.later_iff, update_apply]
    grind

end SpiceAgent.Grpcclient
