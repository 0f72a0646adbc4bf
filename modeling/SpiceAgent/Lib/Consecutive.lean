import Mathlib.Tactic

/-!
# Consecutive numbers

`Consecutive n l` says that `l` is `n + 1, n + 2, …` without a gap or a repetition: what a
sequenced log retains, what a cursor has still to deliver and what it has delivered.
-/

namespace SpiceAgent.Lib

open List

/-- `l` lists the numbers that follow `n`, in order and without a gap. -/
def Consecutive : ℕ → List ℕ → Prop
  | _, [] => True
  | n, x :: l => x = n + 1 ∧ Consecutive (n + 1) l

namespace Consecutive

@[simp] theorem nil (n : ℕ) : Consecutive n [] := trivial

variable {n x : ℕ} {l : List ℕ}

@[simp] theorem cons_iff : Consecutive n (x :: l) ↔ x = n + 1 ∧ Consecutive (n + 1) l := Iff.rfl

theorem append_iff {l₂ : List ℕ} : ∀ {l₁ : List ℕ} {n : ℕ},
    Consecutive n (l₁ ++ l₂) ↔ Consecutive n l₁ ∧ Consecutive (n + l₁.length) l₂
  | [], n => by simp
  | x :: l₁, n => by
    rw [cons_append, cons_iff, cons_iff, append_iff, length_cons, and_assoc,
      show n + 1 + l₁.length = n + (l₁.length + 1) by omega]

theorem concat (h : Consecutive n l) : Consecutive n (l ++ [n + l.length + 1]) :=
  append_iff.mpr ⟨h, rfl, trivial⟩

theorem eq_range' : ∀ {l : List ℕ} {n : ℕ}, Consecutive n l → l = range' (n + 1) l.length
  | [], _, _ => rfl
  | x :: l, n, ⟨hx, hl⟩ => by
    rw [length_cons, range'_succ, ← eq_range' hl, hx]

variable (h : Consecutive n l)
include h

theorem mem (hx : x ∈ l) : n < x ∧ x ≤ n + l.length := by
  rw [h.eq_range', mem_range'_1] at hx
  omega

theorem mem_of_lt (hlo : n < x) (hhi : x ≤ n + l.length) : x ∈ l := by
  rw [h.eq_range', mem_range'_1]
  omega

theorem drop {k : ℕ} (hk : k ≤ l.length) : Consecutive (n + k) (l.drop k) := by
  rw [← take_append_drop k l, append_iff, length_take, min_eq_left hk] at h
  exact h.2

theorem getLast?_getD : l.getLast?.getD n = n + l.length := by
  rcases eq_nil_or_concat l with rfl | ⟨l, x, rfl⟩
  · rfl
  · rw [concat_eq_append, append_iff, cons_iff] at h
    rw [concat_eq_append, getLast?_concat, Option.getD_some, h.2.1, length_append,
      length_singleton]
    omega

theorem nodup : l.Nodup := by
  rw [h.eq_range']
  exact nodup_range'

end Consecutive

end SpiceAgent.Lib
