import Mathlib.Data.List.Basic

/-!
# The history of one cell

The writes to a cell that is empty in the beginning, oldest first, where every write is allowed on
the content that it replaces. If the contents rise along a rank, no content occurs twice, and so at
most one write replaces it.
-/

namespace SpiceAgent.Lib

open List

variable {ρ ε : Type*} {content : ε → ρ} {allowed : Option ρ → ε → Prop} {log : List ε} {e e' : ε}
  {i j : ℕ}

/-- The content that the write with index `i` replaces. -/
def replaced (content : ε → ρ) (log : List ε) : ℕ → Option ρ
  | 0 => none
  | i + 1 => (log[i]?).map content

def present (content : ε → ρ) (log : List ε) : Option ρ := log.getLast?.map content

/-- Every write is allowed on the content that it replaces. -/
def Linked (content : ε → ρ) (allowed : Option ρ → ε → Prop) (log : List ε) : Prop :=
  ∀ i e, log[i]? = some e → allowed (replaced content log i) e

theorem Linked.nil : Linked content allowed [] := by
  intro i e h
  simp at h

theorem replaced_length (content : ε → ρ) (log : List ε) :
    replaced content log log.length = present content log := by
  cases log with
  | nil => rfl
  | cons a rest => rw [present, getLast?_eq_getElem?, length_cons, replaced, Nat.add_sub_cancel]

theorem replaced_concat (hi : i ≤ log.length) :
    replaced content (log ++ [e]) i = replaced content log i := by
  cases i with
  | zero => rfl
  | succ i => rw [replaced, replaced, getElem?_append_left (by omega)]

theorem present_concat : present content (log ++ [e]) = some (content e) := by
  rw [present, getLast?_concat, Option.map_some]

theorem Linked.concat (h : Linked content allowed log) (he : allowed (present content log) e) :
    Linked content allowed (log ++ [e]) := by
  intro i a ha
  rcases Nat.lt_or_ge i log.length with hi | hi
  · rw [getElem?_append_left hi] at ha
    rw [replaced_concat (by omega)]
    exact h i a ha
  · have hlt := (List.getElem?_eq_some_iff.mp ha).1
    rw [length_append, length_singleton] at hlt
    obtain rfl : i = log.length := by omega
    obtain rfl : e = a := by simpa using ha
    rw [replaced_concat (Nat.le_refl _), replaced_length]
    exact he

section Rank

variable {rank : ρ → ℕ} (hrank : ∀ p e, allowed (some p) e → rank p < rank (content e))

include hrank

variable (h : Linked content allowed log)
include h

theorem Linked.rank_lt (hi : log[i]? = some e) (hj : log[j]? = some e') (hij : i < j) :
    rank (content e) < rank (content e') := by
  induction j generalizing e' with
  | zero => omega
  | succ j ih =>
    have hstep := h (j + 1) e' hj
    have hlt := (List.getElem?_eq_some_iff.mp hj).1
    have hbefore : log[j]? = some (log[j]) := getElem?_eq_getElem (by omega)
    rw [replaced, hbefore, Option.map_some] at hstep
    have hlast := hrank _ _ hstep
    rcases Nat.lt_or_ge i j with hlt' | hge
    · exact Nat.lt_trans (ih hbefore hlt') hlast
    · obtain rfl : i = j := by omega
      cases hi.symm.trans hbefore
      exact hlast

theorem Linked.index_eq (hi : log[i]? = some e) (hj : log[j]? = some e')
    (heq : rank (content e) = rank (content e')) : i = j := by
  rcases Nat.lt_trichotomy i j with hlt | rfl | hgt
  · have := h.rank_lt hrank hi hj hlt
    omega
  · rfl
  · have := h.rank_lt hrank hj hi hgt
    omega

theorem Linked.replaced_eq {p q : ρ} (hp : replaced content log i = some p)
    (hq : replaced content log j = some q) (heq : rank p = rank q) : i = j := by
  cases i with
  | zero => cases hp
  | succ i =>
    cases j with
    | zero => cases hq
    | succ j =>
      obtain ⟨e, hi, rfl⟩ := Option.map_eq_some_iff.mp hp
      obtain ⟨e', hj, rfl⟩ := Option.map_eq_some_iff.mp hq
      rw [h.index_eq hrank hi hj heq]

end Rank

end SpiceAgent.Lib
