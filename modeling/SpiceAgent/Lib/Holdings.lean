import Mathlib.Data.List.Nodup
import Mathlib.Logic.Function.Basic
import Mathlib.Tactic

/-!
# Items with exclusive holders

Each holder has a list of items, and no item is listed twice or by two holders. A holder can take a
new item, hand all its items to a holder that has none, or drop them.
-/

namespace SpiceAgent.Lib

open List

open Function (update update_of_ne update_self)

variable {η ι : Type*} [DecidableEq η] {held : η → List ι} {a b : η} {i : ι}

/-- No item is held twice. -/
structure Exclusive (held : η → List ι) : Prop where
  nodup : ∀ a, (held a).Nodup
  disjoint : ∀ a b, a ≠ b → List.Disjoint (held a) (held b)

variable (h : Exclusive held)
include h

omit [DecidableEq η] in
theorem Exclusive.holder_unique (ha : i ∈ held a) (hb : i ∈ held b) : a = b := by
  by_contra hne
  exact h.disjoint a b hne ha hb

theorem Exclusive.replace {items : List ι} (hnodup : items.Nodup)
    (hdisjoint : ∀ b, b ≠ a → List.Disjoint items (held b)) : Exclusive (update held a items) := by
  constructor
  · intro b
    by_cases hb : b = a
    · subst hb
      rwa [update_self]
    · rw [update_of_ne hb]
      exact h.nodup b
  · intro b c hne
    by_cases hb : b = a
    · subst hb
      rw [update_self, update_of_ne (Ne.symm hne)]
      exact hdisjoint c (Ne.symm hne)
    · by_cases hc : c = a
      · subst hc
        rw [update_self, update_of_ne hb]
        exact (hdisjoint b hb).symm
      · rw [update_of_ne hb, update_of_ne hc]
        exact h.disjoint b c hne

theorem Exclusive.drop (a : η) : Exclusive (update held a []) :=
  h.replace nodup_nil fun _ _ => disjoint_nil_left _

theorem Exclusive.take (a : η) (hfresh : ∀ b, i ∉ held b) :
    Exclusive (update held a (held a ++ [i])) := by
  refine h.replace ?_ ?_
  · rw [nodup_append]
    refine ⟨h.nodup a, nodup_singleton i, ?_⟩
    intro x hx y hy hxy
    rw [mem_singleton] at hy
    subst hxy hy
    exact hfresh a hx
  · intro b hb x hx hxb
    rcases mem_append.mp hx with hx | hx
    · exact h.disjoint a b (Ne.symm hb) hx hxb
    · rw [mem_singleton] at hx
      subst hx
      exact hfresh b hxb

theorem Exclusive.move (a b : η) : Exclusive (update (update held a []) b (held a)) := by
  refine (h.drop a).replace (h.nodup a) ?_
  intro c hc x hx hxc
  by_cases hca : c = a
  · subst hca
    rw [update_self] at hxc
    exact not_mem_nil hxc
  · rw [update_of_ne hca] at hxc
    exact h.disjoint a c (Ne.symm hca) hx hxc

end SpiceAgent.Lib
