import Mathlib.Tactic

/-!
# The longest prefix within a count and a budget

A greedy loop that takes members from the front of a list until either bound would be exceeded
takes the longest prefix that respects both: weights are nonnegative, so no longer prefix fits.
-/

namespace SpiceAgent.Lib

open List

variable {α : Type*}

/-- `taken` is the longest prefix of `l` with at most `count` members whose weights sum to at most
`budget`. -/
structure IsLongestPrefix (w : α → ℤ) (count budget : ℤ) (l taken : List α) : Prop where
  isPrefix : taken <+: l
  length_le : (taken.length : ℤ) ≤ count
  weight_le : (taken.map w).sum ≤ budget
  longest : ∀ p, p <+: l → (p.length : ℤ) ≤ count → (p.map w).sum ≤ budget →
    p.length ≤ taken.length

namespace IsLongestPrefix

variable {w : α → ℤ} {count budget : ℤ} {taken left : List α}

section

variable (hlen : (taken.length : ℤ) ≤ count) (hw : (taken.map w).sum ≤ budget)
include hlen hw

theorem of_all : IsLongestPrefix w count budget taken taken :=
  ⟨prefix_rfl, hlen, hw, fun _ hp _ _ => hp.length_le⟩

theorem of_stop {e : α} (hnonneg : ∀ x ∈ left, 0 ≤ w x)
    (hstop : (taken.length : ℤ) = count ∨ budget < (taken.map w).sum + w e) :
    IsLongestPrefix w count budget (taken ++ e :: left) taken := by
  refine ⟨prefix_append _ _, hlen, hw, fun p hp hplen hpw => ?_⟩
  by_contra hlonger
  obtain ⟨q, rfl⟩ : taken <+: p :=
    prefix_of_prefix_length_le (prefix_append _ _) hp (by omega)
  cases q with
  | nil => simp at hlonger
  | cons x q =>
    rw [prefix_append_right_inj, cons_prefix_cons] at hp
    obtain ⟨rfl, hq⟩ := hp
    have hrest : 0 ≤ (q.map w).sum := by
      refine sum_nonneg fun y hy => ?_
      obtain ⟨z, hz, rfl⟩ := mem_map.mp hy
      exact hnonneg z (hq.subset hz)
    simp only [length_append, length_cons, map_append, map_cons,
      sum_append, sum_cons] at hplen hpw
    omega

end

theorem ne_nil {e : α} (h : IsLongestPrefix w count budget (e :: left) taken) (hcount : 1 ≤ count)
    (he : w e ≤ budget) : taken ≠ [] := by
  rintro rfl
  have hone := h.longest [e] (by simp) (by simpa using hcount) (by simpa using he)
  simp at hone

end IsLongestPrefix

end SpiceAgent.Lib
