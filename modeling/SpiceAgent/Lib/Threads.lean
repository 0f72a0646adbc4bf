import SpiceAgent.Lib.Transition

/-!
# Threads over a shared state

A pool of threads, each with a state of its own, acts on one shared state: an action of a thread
changes the shared state and the state of that thread alone. An `Outline` is an invariant of the
shared state and an assertion for each thread, such that an action keeps the invariant and its own
thread's assertion and interferes with no other thread's; the invariant and all assertions then
hold in every state that the pool reaches.
-/

namespace SpiceAgent.Lib

/-- Threads of one program: the shared state and the state of each thread at the beginning, and the
actions that are open to a thread. -/
structure Threads (σ τ α : Type*) where
  shared : σ
  thread : τ
  act : σ → ℕ → τ → α → Option (σ × τ)

/-- The shared state and the states of the threads. -/
structure Pool (σ τ : Type*) where
  shared : σ
  threads : ℕ → τ

namespace Threads

variable {σ τ α : Type*} (T : Threads σ τ α)

def step (w : Pool σ τ) (l : ℕ × α) : Option (Pool σ τ) :=
  (T.act w.shared l.1 (w.threads l.1) l.2).map fun x =>
    ⟨x.1, Function.update w.threads l.1 x.2⟩

def system : System (Pool σ τ) (ℕ × α) where
  init := ⟨T.shared, fun _ => T.thread⟩
  step := T.step

variable {T}

theorem step_eq_some {w w' : Pool σ τ} {l : ℕ × α} (h : T.step w l = some w') :
    T.act w.shared l.1 (w.threads l.1) l.2 = some (w'.shared, w'.threads l.1) ∧
      ∀ j, j ≠ l.1 → w'.threads j = w.threads j := by
  obtain ⟨⟨s, t⟩, hact, rfl⟩ := Option.map_eq_some_iff.mp h
  exact ⟨by simpa using hact, fun j hj => Function.update_of_ne hj ..⟩

/-- A condition on the actions, as a condition on the steps of the pool. -/
def Meets (C : σ → ℕ → τ → α → Prop) (w : Pool σ τ) (l : ℕ × α) : Prop :=
  C w.shared l.1 (w.threads l.1) l.2

/-- An invariant `G` of the shared state and an assertion `L` for each thread, free of interference
by the actions that meet `C`. -/
structure Outline (T : Threads σ τ α) (C : σ → ℕ → τ → α → Prop) (G : σ → Prop)
    (L : σ → ℕ → τ → Prop) : Prop where
  init_shared : G T.shared
  init_thread : ∀ i, L T.shared i T.thread
  own : ∀ {s s' i t t' a}, G s → L s i t → C s i t a → T.act s i t a = some (s', t') →
    G s' ∧ L s' i t'
  others : ∀ {s s' i t t' a j u}, G s → L s i t → L s j u → j ≠ i → C s i t a →
    T.act s i t a = some (s', t') → L s' j u

namespace Outline

variable {C : σ → ℕ → τ → α → Prop} {G : σ → Prop} {L : σ → ℕ → τ → Prop}

theorem step (O : Outline T C G L) {w w' : Pool σ τ} {l : ℕ × α}
    (hw : G w.shared ∧ ∀ i, L w.shared i (w.threads i)) (hc : Meets C w l)
    (h : T.system.step w l = some w') : G w'.shared ∧ ∀ i, L w'.shared i (w'.threads i) := by
  obtain ⟨hact, hothers⟩ := step_eq_some h
  have hown := O.own hw.1 (hw.2 l.1) hc hact
  refine ⟨hown.1, fun j => ?_⟩
  by_cases hj : j = l.1
  · rw [hj]
    exact hown.2
  · rw [hothers j hj]
    exact O.others hw.1 (hw.2 l.1) (hw.2 j) hj hc hact

/-- The invariant and the assertions hold wherever actions that meet the condition lead. -/
theorem holds (O : Outline T C G L) {w : Pool σ τ} (h : T.system.ReachableIf (Meets C) w) :
    G w.shared ∧ ∀ i, L w.shared i (w.threads i) :=
  h.invariant (I := fun w => G w.shared ∧ ∀ i, L w.shared i (w.threads i))
    ⟨O.init_shared, O.init_thread⟩ (fun _ hw hc hst => O.step hw hc hst)

end Outline

end Threads

end SpiceAgent.Lib
