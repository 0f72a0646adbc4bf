import SpiceAgent.Stage.DispatchGuard

/-!
# The chain of guards

The frames of one guarded dispatch form a chain: a continuation starts at most one frame, so that
frame `k + 1` is the one that the continuation of frame `k` called, with argument `k + 1`. `Linked`
says how far the word, the channel and the deferred function between two neighbours are, `Tip` what
holds of the last frame. A frame that has returned has closed its continuation, and a closed
continuation that ran has let the next frame finish; by induction along the chain everything below a
frame that has returned is over.
-/

namespace SpiceAgent.Stage

open SpiceAgent.Lib SpiceAgent.Agent SpiceAgent.Tool List Option

variable {E R : Type} (isJson : List UInt8 → Bool) (q : Request R) (D : Outcome E → Prop)

/-! ## One frame -/

/-- The moves of guards that do not end their goroutine and of a delegate whose outcomes are in
`D`. -/
def Move.Allowed : Move E → Prop
  | .guardExits => False
  | .delegateReturns o => D o
  | _ => True

/-- How the phase of a frame, its word and its outcome fit. -/
def Frame.Coherent (f : Frame E) : Prop :=
  match f.phase with
  | .entered => f.cell = .absent
  | .delegating | .unwound => f.cell = .absent ∧ f.index = q.guards
  | .guarding | .closing _ => f.cell ≠ .absent ∧ f.index < q.guards
  | .loading _ | .waiting _ => (f.cell = .running ∨ f.cell = .closed) ∧ f.index < q.guards
  | .returned o =>
    (f.cell = .absent ∨ f.cell = .closed) ∧
      (o.Sound isJson q.call ∨ f.index = q.guards ∧ D o)

/-- What a move changes. -/
structure Frame.Moved (f g : Frame E) : Prop where
  index : g.index = f.index
  caller : g.caller = f.caller
  done : g.done = f.done
  deferred : g.deferred = f.deferred
  unfinished : f.finished = false
  coherent : g.Coherent isJson q D
  cell : g.cell = f.cell ∨ (f.cell = .absent ∧ g.cell = .fresh) ∨
    (f.cell = .fresh ∧ g.cell = .closed ∧ g.finished = true)
  starts : g.delegating = true → f.phase = .entered ∧ f.index = q.guards
  left : g.phase ≠ .entered

variable {isJson q D}

variable {f : Frame E}

theorem Frame.Coherent.cell_of_finished (h : f.Coherent isJson q D) (hf : f.finished = true) :
    f.cell = .absent ∨ f.cell = .closed := by
  unfold Frame.Coherent at h
  unfold Frame.finished at hf
  cases hphase : f.phase with
  | returned o =>
    rw [hphase] at h
    exact h.1
  | unwound =>
    rw [hphase] at h
    exact .inl h.1
  | _ =>
    rw [hphase] at hf
    simp at hf

theorem Frame.Coherent.lt_of_fresh (h : f.Coherent isJson q D) (hcell : f.cell = .fresh) :
    f.index < q.guards := by
  unfold Frame.Coherent at h
  split at h <;> simp_all

theorem Frame.Moved.phase {p : Phase E} (hf : f.finished = false)
    (hcoherent : { f with phase := p }.Coherent isJson q D)
    (hdelegating : p = .delegating → f.phase = .entered ∧ f.index = q.guards) (hp : p ≠ .entered) :
    f.Moved isJson q D { f with phase := p } where
  index := rfl
  caller := rfl
  done := rfl
  deferred := rfl
  unfinished := hf
  coherent := hcoherent
  cell := .inl rfl
  starts := by
    intro hd
    apply hdelegating
    unfold Frame.delegating at hd
    cases p <;> simp at hd ⊢
  left := hp

variable {g : Frame E}

/-- A frame keeps its word unless it makes its continuation or closes one that was never called. -/
theorem Frame.moved {m : Move E} (hm : f.move isJson q m = some g) (hallowed : m.Allowed D)
    (hf : f.Coherent isJson q D) (hindex : f.index ≤ q.guards)
    (hdone : f.done = true → f.cell = .closed) : f.Moved isJson q D g := by
  unfold Frame.move at hm
  unfold Frame.Coherent at hf
  split at hm
  all_goals rename_i hphase
  case h_1 e =>
    rw [hphase] at hf
    cases hm
    exact .phase (by simp [finished, hphase])
      ⟨.inl hf, .inl (Outcome.fail_sound isJson q.call _)⟩ nofun nofun
  case h_2 =>
    rw [hphase] at hf
    split at hm
    · rename_i hlast
      cases hm
      exact .phase (by simp [finished, hphase]) ⟨hf, hlast⟩ (fun _ => ⟨hphase, hlast⟩) (by simp)
    · rename_i hlast
      cases hm
      exact ⟨rfl, rfl, rfl, rfl, by simp [finished, hphase],
        ⟨by simp, lt_of_le_of_ne hindex hlast⟩, .inr (.inl ⟨hf, rfl⟩),
        fun hd => by simp [delegating] at hd, by simp⟩
  case h_3 o =>
    rw [hphase] at hf
    cases hm
    exact .phase (by simp [finished, hphase]) ⟨.inl hf.1, .inr ⟨hf.2, hallowed⟩⟩ (by simp) (by simp)
  case h_4 | h_5 | h_6 =>
    rw [hphase] at hf
    cases hm
    exact .phase (by simp [finished, hphase]) hf (by simp) (by simp)
  case h_7 => exact absurd hallowed id
  case h_8 o =>
    rw [hphase] at hf
    split at hm
    · rename_i hfresh
      cases hm
      exact ⟨rfl, rfl, rfl, rfl, by simp [finished, hphase],
        ⟨.inr rfl, .inl (validateGuardOutcome_sound isJson q.call o)⟩,
        .inr (.inr ⟨hfresh, rfl, rfl⟩), fun hd => by simp [delegating] at hd, by simp⟩
    · rename_i hfresh
      cases hm
      have hused : f.cell = .running ∨ f.cell = .closed := by
        have habsent := hf.1
        cases hcell : f.cell <;> simp_all
      exact .phase (by simp [finished, hphase]) ⟨hused, hf.2⟩ (by simp) (by simp)
  case h_9 o =>
    rw [hphase] at hf
    split at hm
    · cases hm
      exact .phase (by simp [finished, hphase]) hf (by simp) (by simp)
    · rename_i hrunning
      cases hm
      exact .phase (by simp [finished, hphase]) ⟨.inr (hf.1.resolve_left hrunning),
        .inl (validateGuardOutcome_sound isJson q.call o)⟩ nofun nofun
  case h_10 o =>
    split at hm
    · rename_i hclosed
      cases hm
      exact .phase (by simp [finished, hphase]) ⟨.inr (hdone hclosed),
        .inl (validateGuardOutcome_sound isJson q.call o)⟩ nofun nofun
    · cases hm
  case h_11 => cases hm

/-! ## Two neighbours and the last frame -/

/-- The continuation of `f` that called `g`, with its deferred function: running, past the store, or
past the close of `done`. -/
def Linked (f g : Frame E) : Prop :=
  match g.deferred with
  | .pending => f.cell = .running ∧ f.done = false
  | .stored => f.cell = .closed ∧ f.done = false ∧ g.finished = true
  | .ran => f.cell = .closed ∧ f.done = true ∧ g.finished = true

/-- The continuation of the last frame was not called. -/
structure Frame.Tip (f : Frame E) : Prop where
  cell : f.cell ≠ .running
  closed : f.cell = .closed → f.finished = true
  done : f.done = false

section

variable (h : Linked f g)
include h

theorem Linked.cell : f.cell = .running ∨ f.cell = .closed := by
  unfold Linked at h
  split at h
  · exact .inl h.1
  · exact .inr h.1
  · exact .inr h.1

theorem Linked.done (hdone : f.done = true) : f.cell = .closed := by
  unfold Linked at h
  split at h
  · simp [h.2] at hdone
  · exact h.1
  · exact h.1

theorem Linked.finished (hf : f.Coherent isJson q D)
    (hfinished : f.finished = true) : g.finished = true := by
  have hcell := hf.cell_of_finished hfinished
  unfold Linked at h
  split at h
  · simp [h.1] at hcell
  · exact h.2.2
  · exact h.2.2

variable {f' : Frame E}

theorem Linked.moved_left (hm : f.Moved isJson q D f') : Linked f' g := by
  have hcell : f'.cell = f.cell := by
    have hused := h.cell
    rcases hm.cell with hsame | ⟨habsent, -⟩ | ⟨hfresh, -⟩
    · exact hsame
    · simp [habsent] at hused
    · simp [hfresh] at hused
  unfold Linked
  rw [hcell, hm.done]
  exact h

variable {g' : Frame E}

theorem Linked.moved_right (hm : g.Moved isJson q D g') : Linked f g' := by
  have hunfinished := hm.unfinished
  unfold Linked at h ⊢
  rw [hm.deferred]
  split at h
  · exact h
  · simp [h.2.2] at hunfinished
  · simp [h.2.2] at hunfinished

end

theorem Frame.Tip.moved (h : f.Tip) (hm : f.Moved isJson q D f') : f'.Tip := by
  have hunfinished := hm.unfinished
  have hdone : f'.done = false := hm.done.trans h.done
  rcases hm.cell with hsame | ⟨-, hfresh⟩ | ⟨-, hclosed, hfinished⟩
  · refine ⟨hsame ▸ h.cell, fun hc => ?_, hdone⟩
    have hf := h.closed (hsame ▸ hc)
    simp [hf] at hunfinished
  · exact ⟨by simp [hfresh], by simp [hfresh], hdone⟩
  · exact ⟨by simp [hclosed], fun _ => hfinished, hdone⟩

theorem Frame.Coherent.close (h : f.Coherent isJson q D) (hcell : f.cell = .running) :
    { f with cell := .closed }.Coherent isJson q D := by
  unfold Frame.Coherent at h ⊢
  cases hphase : f.phase with
  | entered | delegating | unwound =>
    rw [hphase] at h
    simp [hcell] at h
  | guarding | closing o =>
    rw [hphase] at h
    exact ⟨by simp, h.2⟩
  | loading o | waiting o =>
    rw [hphase] at h
    exact ⟨.inr rfl, h.2⟩
  | returned o =>
    rw [hphase] at h
    simp [hcell] at h

theorem Frame.Coherent.run (h : f.Coherent isJson q D) (hcell : f.cell = .fresh) :
    { f with cell := .running }.Coherent isJson q D := by
  unfold Frame.Coherent at h ⊢
  cases hphase : f.phase with
  | guarding | closing o =>
    rw [hphase] at h
    exact ⟨by simp, h.2⟩
  | _ =>
    rw [hphase] at h
    simp [hcell] at h

/-! ## The chain -/

variable (isJson q D)

/-- The frames `0, …, count - 1` in a row, each called by the continuation of the one before. -/
structure Chain (w : World E R) : Prop where
  present : ∀ k, (∃ f, w.frames k = some f) ↔ k < w.count
  pos : 0 < w.count
  index : ∀ {k f}, w.frames k = some f → f.index = k ∧ k ≤ q.guards
  coherent : ∀ {k f}, w.frames k = some f → f.Coherent isJson q D
  root : ∀ {f}, w.frames 0 = some f → f.caller = none
  caller : ∀ {k f}, w.frames (k + 1) = some f → f.caller = some k
  link : ∀ {k f g}, w.frames k = some f → w.frames (k + 1) = some g → Linked f g
  tip : ∀ {k f}, w.frames k = some f → w.frames (k + 1) = none → f.Tip

variable {isJson q D}

variable {w t : World E R} {k j : ℕ} {l : Label E}

/-- The labels of guards that do not end their goroutine. -/
def Label.Allowed (D : Outcome E → Prop) : Label E → Prop
  | .move _ m => m.Allowed D
  | _ => True

section

variable (h : Chain isJson q D w)
include h

theorem Chain.present_of (hf : w.frames k = some f) : k < w.count := (h.present k).mp ⟨f, hf⟩

theorem Chain.absent (hk : w.count ≤ k) : w.frames k = none := by
  by_contra hne
  have hlt := (h.present k).mp (ne_none_iff_exists'.mp hne)
  omega

theorem Chain.done (hf : w.frames k = some f) (hdone : f.done = true) : f.cell = .closed := by
  cases hnext : w.frames (k + 1) with
  | none => simp [(h.tip hf hnext).done] at hdone
  | some g => exact (h.link hf hnext).done hdone

theorem Chain.moved {m : Move E} (hf : w.frames k = some f) (hm : f.move isJson q m = some g)
    (hallowed : m.Allowed D) : f.Moved isJson q D g := by
  obtain ⟨hindex, hle⟩ := h.index hf
  exact Frame.moved hm hallowed (h.coherent hf) (by omega) (h.done hf)

theorem Chain.eq_succ (hf : w.frames k = some f) (hcaller : f.caller = some j) : k = j + 1 := by
  cases k with
  | zero => simp [h.root hf] at hcaller
  | succ i =>
    rw [h.caller hf] at hcaller
    simpa using hcaller

theorem Chain.last_of_fresh (hf : w.frames k = some f) (hcell : f.cell = .fresh) :
    w.count = k + 1 := by
  have hk := h.present_of hf
  by_contra hne
  obtain ⟨g, hg⟩ := (h.present (k + 1)).mpr (by omega)
  have hused := (h.link hf hg).cell
  simp [hcell] at hused

theorem Chain.map (φ : ℕ → Frame E → Frame E)
    (hframes : ∀ k, t.frames k = (w.frames k).map (φ k)) (hcount : t.count = w.count)
    (hindex : ∀ k f, w.frames k = some f → (φ k f).index = f.index ∧ (φ k f).caller = f.caller)
    (hcoherent : ∀ k f, w.frames k = some f → (φ k f).Coherent isJson q D)
    (hlink : ∀ k f g, w.frames k = some f → w.frames (k + 1) = some g → Linked f g →
      Linked (φ k f) (φ (k + 1) g))
    (htip : ∀ k f, w.frames k = some f → w.frames (k + 1) = none → (φ k f).Tip) :
    Chain isJson q D t := by
  have hsome : ∀ {k g}, t.frames k = some g → ∃ f, w.frames k = some f ∧ φ k f = g := by
    intro k g hg
    rw [hframes] at hg
    exact map_eq_some_iff.mp hg
  refine ⟨fun k => ?_, hcount ▸ h.pos, ?_, ?_, ?_, ?_, ?_, ?_⟩
  · rw [hcount, ← h.present k, hframes]
    simp
  · intro k g hg
    obtain ⟨f, hf, rfl⟩ := hsome hg
    rw [(hindex k f hf).1]
    exact h.index hf
  · intro k g hg
    obtain ⟨f, hf, rfl⟩ := hsome hg
    exact hcoherent k f hf
  · intro g hg
    obtain ⟨f, hf, rfl⟩ := hsome hg
    rw [(hindex 0 f hf).2]
    exact h.root hf
  · intro k g hg
    obtain ⟨f, hf, rfl⟩ := hsome hg
    rw [(hindex (k + 1) f hf).2]
    exact h.caller hf
  · intro k g g' hg hg'
    obtain ⟨f, hf, rfl⟩ := hsome hg
    obtain ⟨f', hf', rfl⟩ := hsome hg'
    exact hlink k f f' hf hf' (h.link hf hf')
  · intro k g hg hnone
    obtain ⟨f, hf, rfl⟩ := hsome hg
    rw [hframes, map_eq_none_iff] at hnone
    exact htip k f hf hnone

theorem Chain.move (hf : w.frames k = some f) (hm : f.Moved isJson q D g)
    (hframes : t.frames = (w.put k g).frames) (hcount : t.count = w.count) :
    Chain isJson q D t := by
  have hself : ∀ {x}, w.frames k = some x → x = f := fun hx => some.inj (hx.symm.trans hf)
  refine h.map (fun i x => if i = k then g else x) (fun i => ?_) hcount ?_ ?_ ?_ ?_
  · rw [hframes]
    by_cases hi : i = k
    · subst hi
      simp [World.put, hf]
    · simp [World.put, hi]
  · intro i x hx
    split
    · rename_i hi
      obtain rfl := hself (hi ▸ hx)
      exact ⟨hm.index, hm.caller⟩
    · exact ⟨rfl, rfl⟩
  · intro i x hx
    split
    · exact hm.coherent
    · exact h.coherent hx
  · intro i x y hx hy hxy
    by_cases hi : i = k
    · obtain rfl := hself (hi ▸ hx)
      rw [if_pos hi, if_neg (by omega)]
      exact hxy.moved_left hm
    · rw [if_neg hi]
      split
      · rename_i hi'
        obtain rfl := hself (hi' ▸ hy)
        exact hxy.moved_right hm
      · exact hxy
  · intro i x hx hnone
    split
    · rename_i hi
      obtain rfl := hself (hi ▸ hx)
      exact (h.tip hx hnone).moved hm
    · exact h.tip hx hnone

theorem Chain.link_step (hg : w.frames j = some g)
    (hf : w.frames (j + 1) = some f) (hframes : t.frames = ((w.put (j + 1) f').put j g').frames)
    (hcount : t.count = w.count)
    (hgkeep : g'.index = g.index ∧ g'.caller = g.caller ∧ g'.phase = g.phase ∧
      g'.deferred = g.deferred) (hgcoherent : g'.Coherent isJson q D)
    (hfkeep : f' = { f with deferred := f'.deferred }) (hlinked : Linked g' f') :
    Chain isJson q D t := by
  have hself : ∀ {x}, w.frames j = some x → x = g := fun hx => some.inj (hx.symm.trans hg)
  have hchild : ∀ {x}, w.frames (j + 1) = some x → x = f :=
    fun hx => some.inj (hx.symm.trans hf)
  have hgfinished : g'.finished = g.finished := by
    unfold Frame.finished
    rw [hgkeep.2.2.1]
  refine h.map (fun i x => if i = j then g' else if i = j + 1 then f' else x) (fun i => ?_) hcount
    ?_ ?_ ?_ ?_
  · rw [hframes]
    by_cases hi : i = j
    · subst hi
      simp [World.put, hg]
    · by_cases hi' : i = j + 1
      · subst hi'
        simp [World.put, hf]
      · simp [World.put, hi, hi']
  · intro i x hx
    split
    · rename_i hi
      obtain rfl := hself (hi ▸ hx)
      exact ⟨hgkeep.1, hgkeep.2.1⟩
    · split
      · rename_i hi
        obtain rfl := hchild (hi ▸ hx)
        rw [hfkeep]
        exact ⟨rfl, rfl⟩
      · exact ⟨rfl, rfl⟩
  · intro i x hx
    split
    · exact hgcoherent
    · split
      · rename_i hi
        obtain rfl := hchild (hi ▸ hx)
        have hcoherent := h.coherent hx
        rw [hfkeep]
        exact hcoherent
      · exact h.coherent hx
  · intro i x y hx hy hxy
    by_cases hi : i = j
    · rw [if_pos hi, if_neg (by omega), if_pos (by omega)]
      exact hlinked
    · by_cases hi' : i = j + 1
      · obtain rfl := hchild (hi' ▸ hx)
        rw [if_neg hi, if_pos hi', if_neg (by omega), if_neg (by omega), hfkeep]
        exact hxy
      · rw [if_neg hi, if_neg hi']
        split
        · rename_i hy'
          obtain rfl := hself (hy' ▸ hy)
          unfold Linked at hxy ⊢
          rw [hgkeep.2.2.2, hgfinished]
          exact hxy
        · rw [if_neg (by omega)]
          exact hxy
  · intro i x hx hnone
    by_cases hi : i = j
    · rw [hi, hf] at hnone
      simp at hnone
    · rw [if_neg hi]
      split
      · rename_i hi'
        obtain rfl := hchild (hi' ▸ hx)
        have htip := h.tip hx hnone
        rw [hfkeep]
        exact ⟨htip.cell, htip.closed, htip.done⟩
      · exact h.tip hx hnone

theorem Chain.spawn (hf : w.frames k = some f) (hcell : f.cell = .fresh) :
    Chain isJson q D (w.spawn k f) := by
  have hlast := h.last_of_fresh hf hcell
  have hlt := (h.coherent hf).lt_of_fresh hcell
  obtain ⟨hindex, -⟩ := h.index hf
  have hold : ∀ {i x}, i < k → w.frames i = some x → (w.spawn k f).frames i = some x := by
    intro i x hi hx
    simp [World.spawn, hlast, show i ≠ k + 1 by omega, hi.ne, hx]
  have hcases : ∀ {i x}, (w.spawn k f).frames i = some x →
      (i < k ∧ w.frames i = some x) ∨ (i = k ∧ x = { f with cell := .running }) ∨
        (i = k + 1 ∧ x = .enter (k + 1) (some k) .entered) := by
    intro i x hx
    by_cases hi : i = k + 1
    · subst hi
      refine .inr (.inr ⟨rfl, ?_⟩)
      simpa [World.spawn, hlast, hindex] using hx.symm
    · by_cases hi' : i = k
      · subst hi'
        refine .inr (.inl ⟨rfl, ?_⟩)
        simpa [World.spawn, hlast] using hx.symm
      · have hx' : w.frames i = some x := by simpa [World.spawn, hlast, hi, hi'] using hx
        have hlt := h.present_of hx'
        exact .inl ⟨by omega, hx'⟩
  refine ⟨fun i => ?_, by simp [World.spawn], ?_, ?_, ?_, ?_, ?_, ?_⟩
  · constructor
    · rintro ⟨x, hx⟩
      show i < w.count + 1
      rcases hcases hx with ⟨hi, -⟩ | ⟨rfl, -⟩ | ⟨rfl, -⟩ <;> omega
    · intro hi
      have hi : i < w.count + 1 := hi
      by_cases hi' : i < k
      · obtain ⟨x, hx⟩ := (h.present i).mpr (by omega)
        exact ⟨x, hold hi' hx⟩
      · obtain rfl | rfl : i = k ∨ i = k + 1 := by omega
        · exact ⟨{ f with cell := .running }, by simp [World.spawn, hlast]⟩
        · exact ⟨.enter (f.index + 1) (some k) .entered, by simp [World.spawn, hlast]⟩
  · intro i x hx
    rcases hcases hx with ⟨-, hx⟩ | ⟨rfl, rfl⟩ | ⟨rfl, rfl⟩
    · exact h.index hx
    · exact ⟨hindex, by omega⟩
    · exact ⟨rfl, by omega⟩
  · intro i x hx
    rcases hcases hx with ⟨-, hx⟩ | ⟨rfl, rfl⟩ | ⟨rfl, rfl⟩
    · exact h.coherent hx
    · exact (h.coherent hf).run hcell
    · exact rfl
  · intro x hx
    rcases hcases hx with ⟨-, hx⟩ | ⟨rfl, rfl⟩ | ⟨hi, -⟩
    · exact h.root hx
    · have hroot := h.root hf
      exact hroot
    · omega
  · intro i x hx
    rcases hcases hx with ⟨-, hx⟩ | ⟨rfl, rfl⟩ | ⟨hi, rfl⟩
    · exact h.caller hx
    · have hcaller := h.caller hf
      exact hcaller
    · obtain rfl : i = k := by omega
      rfl
  · intro i x y hx hy
    rcases hcases hy with ⟨hi, hy⟩ | ⟨rfl, rfl⟩ | ⟨hi, rfl⟩
    · obtain ⟨-, hx⟩ | ⟨hik, -⟩ | ⟨hik, -⟩ := hcases hx
      · exact h.link hx hy
      · omega
      · omega
    · obtain ⟨-, hx⟩ | ⟨hik, -⟩ | ⟨hik, -⟩ := hcases hx
      · have hlink := h.link hx hf
        exact hlink
      · omega
      · omega
    · obtain rfl : i = k := by omega
      obtain ⟨hik, -⟩ | ⟨-, rfl⟩ | ⟨hik, -⟩ := hcases hx
      · omega
      · exact ⟨rfl, (h.tip hf (h.absent (by omega))).done⟩
      · omega
  · intro i x hx hnone
    rcases hcases hx with ⟨hi, hx⟩ | ⟨rfl, rfl⟩ | ⟨rfl, rfl⟩
    · by_cases hik : i + 1 = k
      · simp [World.spawn, hlast, hik] at hnone
      · obtain ⟨y, hy⟩ := (h.present (i + 1)).mpr (by omega)
        rw [hold (by omega) hy] at hnone
        simp at hnone
    · simp [World.spawn, hlast] at hnone
    · exact ⟨by simp [Frame.enter], by simp [Frame.enter], rfl⟩

theorem Chain.step (hl : l.Allowed D) (hst : w.step isJson q l = some t) : Chain isJson q D t := by
  cases World.effect_of_step isJson q hst with
  | move hf hg => exact h.move hf (h.moved hf hg hl) rfl rfl
  | spawn hf hcell => exact h.spawn hf hcell
  | refuse => exact h
  | store hf hg hfinished hpending hcaller =>
    obtain rfl := h.eq_succ hf hcaller
    have hlink := h.link hg hf
    unfold Linked at hlink
    rw [hpending] at hlink
    exact h.link_step hg hf rfl rfl ⟨rfl, rfl, rfl, rfl⟩ ((h.coherent hg).close hlink.1) rfl
      ⟨rfl, hlink.2, hfinished⟩
  | closeDone hf hg hstored hcaller =>
    obtain rfl := h.eq_succ hf hcaller
    have hcoherent := h.coherent hg
    have hlink := h.link hg hf
    unfold Linked at hlink
    rw [hstored] at hlink
    exact h.link_step hg hf rfl rfl ⟨rfl, rfl, rfl, rfl⟩ hcoherent rfl ⟨hlink.1, rfl, hlink.2.2⟩

end

theorem Chain.start (s : Surroundings E) : Chain isJson q D (start isJson q s) := by
  have hcases : ∀ {k f}, (Stage.start isJson q s).frames k = some f →
      k = 0 ∧ ∃ phase, f = .enter 0 none phase ∧
        (phase = .entered ∨ ∃ e, phase = .returned (.fail e)) := by
    intro k f hf
    unfold Stage.start at hf
    by_cases hk : k = 0
    · refine ⟨hk, _, by simpa [hk] using hf.symm, ?_⟩
      cases refusal isJson q s with
      | none => exact .inl rfl
      | some e => exact .inr ⟨e, rfl⟩
    · simp [hk] at hf
  refine ⟨fun k => ?_, Nat.one_pos, ?_, ?_, ?_, ?_, ?_, ?_⟩
  · constructor
    · rintro ⟨f, hf⟩
      obtain ⟨rfl, -⟩ := hcases hf
      exact Nat.one_pos
    · intro hk
      obtain rfl : k = 0 := Nat.lt_one_iff.mp hk
      exact ⟨_, rfl⟩
  · intro k f hf
    obtain ⟨rfl, phase, rfl, -⟩ := hcases hf
    exact ⟨rfl, Nat.zero_le _⟩
  · intro k f hf
    obtain ⟨rfl, phase, rfl, rfl | ⟨e, rfl⟩⟩ := hcases hf
    · exact rfl
    · exact ⟨.inl rfl, .inl (Outcome.fail_sound isJson q.call e)⟩
  · intro f hf
    obtain ⟨-, phase, rfl, -⟩ := hcases hf
    rfl
  · intro k f hf
    have hk := (hcases hf).1
    omega
  · intro k f g hf hg
    have hk := (hcases hg).1
    omega
  · intro k f hf _
    obtain ⟨rfl, phase, rfl, -⟩ := hcases hf
    exact ⟨by simp [Frame.enter], by simp [Frame.enter], rfl⟩

/-! ## The events -/

variable (q) in
/-- What a call does at most, in this order: every guard calls its continuation, then the delegate
is called. -/
def script : List (Event R) :=
  (range q.guards).map .next ++ [.delegate q.scope q.call q.reporter]

variable (q) in
/-- The events so far: a continuation for each frame but the first, and the delegate if the last
frame called it. -/
def Logged (w : World E R) : Prop :=
  w.log = (range (w.count - 1)).map .next ∨
    (w.log = script q ∧ w.count = q.guards + 1 ∧ ∀ f, w.frames q.guards = some f →
    f.phase ≠ .entered)

section

variable (h : Logged q w) (hc : Chain isJson q D w)
include h hc

theorem Logged.prefix_script : w.log <+: script q := by
  rcases h with hlog | ⟨hlog, -⟩
  · have hpos := hc.pos
    obtain ⟨f, hf⟩ := (hc.present (w.count - 1)).mpr (by omega)
    obtain ⟨-, hle⟩ := hc.index hf
    have hrange : range (w.count - 1) = (range q.guards).take (w.count - 1) := by
      rw [take_range, Nat.min_eq_left hle]
    rw [hlog, hrange]
    exact ((List.take_prefix _ _).map _).trans (prefix_append _ _)
  · exact hlog ▸ prefix_refl _

theorem Logged.move (hf : w.frames k = some f) (hm : f.Moved isJson q D g) :
    Logged q { w.put k g with log := w.log ++ World.observed q f g } := by
  obtain ⟨hindex, hle⟩ := hc.index hf
  unfold World.observed
  split
  · rename_i hstarts
    simp only [Bool.and_eq_true] at hstarts
    obtain ⟨hentered, hlast⟩ := hm.starts hstarts.1
    obtain rfl : k = q.guards := by omega
    have hlink : w.count = q.guards + 1 := by
      have hk := hc.present_of hf
      by_contra hne
      obtain ⟨x, hx⟩ := (hc.present (q.guards + 1)).mpr (by omega)
      have hbound := (hc.index hx).2
      omega
    rcases h with hlog | ⟨-, -, hnot⟩
    · refine .inr ⟨?_, hlink, fun x hx => ?_⟩
      · show w.log ++ _ = _
        rw [hlog, hlink, Nat.add_sub_cancel]
        rfl
      · obtain rfl : g = x := by simpa [World.put] using hx
        exact hm.left
    · exact absurd hentered (hnot f hf)
  · rcases h with hlog | ⟨hlog, hcount, hnot⟩
    · exact .inl (by simpa [World.put] using hlog)
    · refine .inr ⟨by simpa [World.put] using hlog, hcount, fun x hx => ?_⟩
      by_cases hk : k = q.guards
      · subst hk
        obtain rfl : g = x := by simpa [World.put] using hx
        exact hm.left
      · apply hnot
        have hne : q.guards ≠ k := Ne.symm hk
        simpa [World.put, hne] using hx

theorem Logged.spawn (hf : w.frames k = some f) (hcell : f.cell = .fresh) :
    Logged q (w.spawn k f) := by
  have hlast := hc.last_of_fresh hf hcell
  have hlt := (hc.coherent hf).lt_of_fresh hcell
  obtain ⟨hindex, -⟩ := hc.index hf
  rcases h with hlog | ⟨-, hcount, -⟩
  · left
    show w.log ++ [.next f.index] = (range (w.count + 1 - 1)).map .next
    rw [hlog, hindex, hlast, Nat.add_sub_cancel, Nat.add_sub_cancel, range_succ, map_append,
      map_singleton]
  · omega

end

theorem World.phase_put {i : ℕ} {x : Frame E} (hf : w.frames k = some f)
    (hphase : f'.phase = f.phase) (hx : (w.put k f').frames i = some x) :
    ∃ y, w.frames i = some y ∧ y.phase = x.phase := by
  by_cases hi : i = k
  · subst hi
    obtain rfl : f' = x := by simpa [World.put] using hx
    exact ⟨f, hf, hphase.symm⟩
  · exact ⟨x, by simpa [World.put, hi] using hx, rfl⟩

theorem World.phase_put_put {i : ℕ} {x : Frame E} (hf : w.frames (j + 1) = some f)
    (hg : w.frames j = some g) (hx : ((w.put (j + 1) f').put j g').frames i = some x)
    (hf' : f'.phase = f.phase) (hg' : g'.phase = g.phase) :
    ∃ y, w.frames i = some y ∧ y.phase = x.phase := by
  have hg₁ : (w.put (j + 1) f').frames j = some g := by simpa [World.put] using hg
  obtain ⟨y, hy, hyx⟩ := World.phase_put hg₁ hg' hx
  obtain ⟨z, hz, hzy⟩ := World.phase_put hf hf' hy
  exact ⟨z, hz, hzy.trans hyx⟩

theorem Logged.keep (h : Logged q w) (hlog : t.log = w.log) (hcount : t.count = w.count)
    (hphase : ∀ i x, t.frames i = some x → ∃ y, w.frames i = some y ∧ y.phase = x.phase) :
    Logged q t := by
  unfold Logged
  rw [hlog, hcount]
  rcases h with hw | ⟨hw, hlast, hnot⟩
  · exact .inl hw
  · refine .inr ⟨hw, hlast, fun x hx => ?_⟩
    obtain ⟨y, hy, hyx⟩ := hphase _ x hx
    rw [← hyx]
    exact hnot y hy

theorem Logged.step (h : Logged q w) (hc : Chain isJson q D w) (hl : l.Allowed D)
    (hst : w.step isJson q l = some t) : Logged q t := by
  cases World.effect_of_step isJson q hst with
  | move hf hg => exact h.move hc hf (hc.moved hf hg hl)
  | spawn hf hcell => exact h.spawn hc hf hcell
  | refuse => exact h
  | store hf hg _ _ hcaller =>
    obtain rfl := hc.eq_succ hf hcaller
    exact h.keep rfl rfl fun i x hx => World.phase_put_put hf hg hx rfl rfl
  | closeDone hf hg _ hcaller =>
    obtain rfl := hc.eq_succ hf hcaller
    exact h.keep rfl rfl fun i x hx => World.phase_put_put hf hg hx rfl rfl

/-! ## The end -/

/-- Every frame is over and no continuation can be called. -/
def Settled (w : World E R) : Prop :=
  ∀ k f, w.frames k = some f → f.finished = true ∧ f.cell ≠ .fresh

theorem Chain.settled (h : Chain isJson q D w) {r : Frame E} (hr : w.frames 0 = some r)
    (hfinished : r.finished = true) : Settled w := by
  have hall : ∀ k f, w.frames k = some f → f.finished = true := by
    intro k
    induction k with
    | zero =>
      intro f hf
      cases hr.symm.trans hf
      exact hfinished
    | succ k ih =>
      intro g hg
      have hk := h.present_of hg
      obtain ⟨f, hf⟩ := (h.present k).mpr (by omega)
      exact (h.link hf hg).finished (h.coherent hf) (ih f hf)
  intro k f hf
  refine ⟨hall k f hf, ?_⟩
  have hcell := (h.coherent hf).cell_of_finished (hall k f hf)
  rcases hcell with hcell | hcell <;> simp [hcell]

theorem Settled.idle (h : Settled w) : w.Idle := by
  intro k f hf
  have hfinished := (h k f hf).1
  unfold Frame.finished at hfinished
  unfold Frame.delegating
  cases hphase : f.phase <;> simp_all

theorem Frame.move_finished (h : f.finished = true) (m : Move E) : f.move isJson q m = none := by
  unfold Frame.finished at h
  unfold Frame.move
  cases hphase : f.phase <;> simp_all

theorem Settled.step (h : Settled w) (hst : w.step isJson q l = some t) :
    Settled t ∧ t.log = w.log := by
  have hput : ∀ {w : World E R} {k : ℕ} {f : Frame E}, Settled w → f.finished = true →
      f.cell ≠ .fresh → Settled (w.put k f) := by
    intro w k f hw hf hcell i x hx
    by_cases hi : i = k
    · subst hi
      obtain rfl : f = x := by simpa [World.put] using hx
      exact ⟨hf, hcell⟩
    · exact hw i x (by simpa [World.put, hi] using hx)
  cases World.effect_of_step isJson q hst with
  | move hf hg =>
    rw [Frame.move_finished (h _ _ hf).1] at hg
    simp at hg
  | spawn hf hcell => exact absurd hcell (h _ _ hf).2
  | refuse => exact ⟨h, rfl⟩
  | store hf hg =>
    exact ⟨hput (hput h (h _ _ hf).1 (h _ _ hf).2) (h _ _ hg).1 nofun, rfl⟩
  | closeDone hf hg =>
    exact ⟨hput (hput h (h _ _ hf).1 (h _ _ hf).2) (h _ _ hg).1 (h _ _ hg).2, rfl⟩

end SpiceAgent.Stage
