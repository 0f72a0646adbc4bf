import Mathlib.Tactic

/-!
# Labelled transition systems

A concurrent program is a `System`: an initial state and a partial step function whose labels
name the thread that moves and the choice its environment makes. A label is enabled in the states
where the step function is defined, so that every interleaving is a list of labels and every
concrete run is a computation.

`System.Reachable.invariant` is the induction over runs; `System.ReachableIf` restricts the runs
to those whose steps all meet a condition on the state before the step.
-/

namespace SpiceAgent.Lib

open Option

/-- A transition system with states `σ` and labels `ι`. -/
structure System (σ ι : Type*) where
  /-- The initial state. -/
  init : σ
  /-- The state after the labelled step, where the step is enabled. -/
  step : σ → ι → Option σ

namespace System

variable {σ ι : Type*} (M : System σ ι)

def run : σ → List ι → Option σ
  | s, [] => some s
  | s, l :: ls => (M.step s l).bind fun t => run t ls

@[simp] theorem run_nil (s : σ) : M.run s [] = some s := rfl

theorem run_cons (s : σ) (l : ι) (ls : List ι) :
    M.run s (l :: ls) = (M.step s l).bind fun t => M.run t ls := rfl

/-- The state that a run from the initial one ends in. -/
abbrev after (ls : List ι) : Option σ := M.run M.init ls

/-- The states reached by steps that all meet the condition `C` on the state before the step and
its label. -/
inductive ReachableIf (C : σ → ι → Prop) : σ → Prop
  | init : ReachableIf C M.init
  | step {s t : σ} {l : ι} : ReachableIf C s → C s l → M.step s l = some t → ReachableIf C t

def Reachable : σ → Prop := M.ReachableIf fun _ _ => True

variable {M}

variable {ls : List ι}

theorem run_trans {ls' : List ι} : ∀ {s t u : σ}, M.run s ls = some t → M.run t ls' = some u →
    M.run s (ls ++ ls') = some u := by
  induction ls with
  | nil =>
    intro s t u h h'
    obtain rfl : s = t := by simpa using h
    exact h'
  | cons l ls ih =>
    intro s t u h h'
    rw [run_cons, bind_eq_some_iff] at h
    obtain ⟨v, hv, h⟩ := h
    rw [List.cons_append, run_cons, hv, bind_some]
    exact ih h h'

variable {I : σ → Prop}

theorem run_invariant (hstep : ∀ {s l t}, I s → M.step s l = some t → I t) :
    ∀ {s t : σ}, M.run s ls = some t → I s → I t := by
  induction ls with
  | nil =>
    intro s t h hs
    obtain rfl : s = t := by simpa using h
    exact hs
  | cons l ls ih =>
    intro s t h hs
    rw [run_cons, bind_eq_some_iff] at h
    obtain ⟨v, hv, h⟩ := h
    exact ih h (hstep hs hv)

theorem Reachable.init : M.Reachable M.init := ReachableIf.init

variable {s t : σ}

theorem Reachable.step {l : ι} (hs : M.Reachable s) (h : M.step s l = some t) :
    M.Reachable t := ReachableIf.step hs trivial h

variable {C : σ → ι → Prop}

theorem ReachableIf.reachable (h : M.ReachableIf C s) : M.Reachable s := by
  induction h with
  | init => exact Reachable.init
  | step _ _ hst ih => exact ih.step hst

/-- A property of the initial state that every step meeting `C` preserves holds in every state
reached by such steps. -/
theorem ReachableIf.invariant (h0 : I M.init)
    (hstep : ∀ {s l t}, M.Reachable s → I s → C s l → M.step s l = some t → I t)
    (h : M.ReachableIf C s) : I s := by
  induction h with
  | init => exact h0
  | step hs hc hst ih => exact hstep hs.reachable ih hc hst

/-- A property of the initial state that every step preserves holds in every reachable state. -/
theorem Reachable.invariant (h0 : I M.init)
    (hstep : ∀ {s l t}, M.Reachable s → I s → M.step s l = some t → I t) (h : M.Reachable s) :
    I s :=
  ReachableIf.invariant h0 (fun hs hi _ hst => hstep hs hi hst) h

theorem ReachableIf.run : ∀ {s t : σ}, M.ReachableIf C s →
    (∀ l ∈ ls, ∀ u, C u l) → M.run s ls = some t → M.ReachableIf C t := by
  induction ls with
  | nil =>
    intro s t hs _ h
    obtain rfl : s = t := by simpa using h
    exact hs
  | cons l ls ih =>
    intro s t hs hC h
    rw [run_cons, bind_eq_some_iff] at h
    obtain ⟨u, hu, h⟩ := h
    exact ih (hs.step (hC l List.mem_cons_self s) hu)
      (fun l' hl' => hC l' (List.mem_cons_of_mem l hl')) h

/-- A run that stops where a check of the state and the label fails. -/
def checkedRun (M : System σ ι) (c : σ → ι → Bool) : σ → List ι → Option σ
  | s, [] => some s
  | s, l :: ls => if c s l then (M.step s l).bind fun t => checkedRun M c t ls else none

/-- The states that steps meeting the condition lead to. -/
def Leads (M : System σ ι) (C : σ → ι → Prop) : σ → σ → Prop :=
  Relation.ReflTransGen fun s t => ∃ l, C s l ∧ M.step s l = some t

theorem Leads.refl (s : σ) : M.Leads C s s := Relation.ReflTransGen.refl

theorem Leads.single {l : ι} (hc : C s l) (h : M.step s l = some t) :
    M.Leads C s t := Relation.ReflTransGen.single ⟨l, hc, h⟩

theorem Leads.trans {u : σ} (h : M.Leads C s t) (h' : M.Leads C t u) :
    M.Leads C s u := Relation.ReflTransGen.trans h h'

theorem Leads.checkedRun {c : σ → ι → Bool} (hC : ∀ s l, c s l = true → C s l) :
    ∀ {s t : σ}, M.checkedRun c s ls = some t → M.Leads C s t := by
  induction ls with
  | nil =>
    intro s t h
    obtain rfl : s = t := some_inj.mp h
    exact .refl s
  | cons l ls ih =>
    intro s t h
    unfold System.checkedRun at h
    split_ifs at h with hl
    obtain ⟨u, hu, h⟩ := bind_eq_some_iff.mp h
    exact (Leads.single (hC s l hl) hu).trans (ih h)

theorem ReachableIf.leads (hs : M.ReachableIf C s) (h : M.Leads C s t) : M.ReachableIf C t := by
  induction h with
  | refl => exact hs
  | tail _ hlast ih =>
    obtain ⟨l, hc, hstep⟩ := hlast
    exact ih.step hc hstep

theorem ReachableIf.checkedRun {c : σ → ι → Bool} (hC : ∀ s l, c s l = true → C s l)
    (hs : M.ReachableIf C s) (h : M.checkedRun c s ls = some t) : M.ReachableIf C t :=
  hs.leads (Leads.checkedRun hC h)

theorem reachable_of_run (h : M.run M.init ls = some s) : M.Reachable s :=
  ReachableIf.init.run (fun _ _ _ => trivial) h

end System

end SpiceAgent.Lib
