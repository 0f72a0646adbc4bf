import Mathlib.Data.List.Basic

/-!
# A log of changes and the states between them

The states through which a log of changes leads, and the rule that replaying any part of the log
from the state where it begins gives the state where it ends.
-/

namespace SpiceAgent.Lib

open List

variable {σ δ : Type*} {f : σ → δ → σ} {views : List σ} {log : List δ} {s : σ}

/-- `views` are the states before, between and after the changes of `log`. -/
structure Follows (f : σ → δ → σ) (views : List σ) (log : List δ) : Prop where
  length : views.length = log.length + 1
  next : ∀ i s d, views[i]? = some s → log[i]? = some d → views[i + 1]? = some (f s d)

theorem Follows.init (f : σ → δ → σ) (s : σ) : Follows f [s] [] := ⟨rfl, by simp⟩

theorem Follows.snoc (h : Follows f views log) (hs : views.getLast? = some s) (d : δ) :
    Follows f (views ++ [f s d]) (log ++ [d]) := by
  refine ⟨by simp [h.length], fun i t e ht he => ?_⟩
  rcases Nat.lt_or_ge i log.length with hi | hi
  · have hlen := h.length
    rw [getElem?_append_left (by omega)] at ht he
    rw [getElem?_append_left (by omega)]
    exact h.next i t e ht he
  · -- the last state and the new change
    obtain ⟨hile, -⟩ := List.getElem?_eq_some_iff.mp he
    rw [length_append, length_singleton] at hile
    have hi' : i = log.length := by omega
    have hlen := h.length
    subst hi'
    rw [getElem?_append_left (by omega)] at ht
    rw [getLast?_eq_getElem?, hlen, Nat.add_sub_cancel, ht] at hs
    have hd : d = e := by simpa using he
    rw [getElem?_append_right (by omega), ← hlen, Nat.sub_self, Option.some.inj hs, ← hd]
    rfl

theorem Follows.fold (h : Follows f views log) {r : ℕ} (hs : views[r]? = some s) {k : ℕ}
    (hk : r + k ≤ log.length) : views[r + k]? = some (((log.drop r).take k).foldl f s) := by
  induction k with
  | zero => simpa using hs
  | succ k ih =>
    have hlt : k < (log.drop r).length := by
      rw [length_drop]
      omega
    have hd : log[r + k]? = some ((log.drop r)[k]) := by
      rw [← getElem?_drop]
      exact getElem?_eq_getElem hlt
    rw [take_add_one, getElem?_eq_getElem hlt, Option.toList_some, foldl_append]
    exact h.next (r + k) _ _ (ih (by omega)) hd

end SpiceAgent.Lib
