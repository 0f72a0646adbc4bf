import Mathlib.Data.Set.Card
import Mathlib.Tactic

/-!
# The keys of a partial map

What a partial map gives after one key is set or cleared, and how the number of keys with a value
changes.
-/

namespace SpiceAgent.Lib

open Function (update update_of_ne)

variable {κ β : Type*} [DecidableEq κ] {f : κ → Option β} {k : κ} {b c : β}

theorem update_eq_some {v : Option β} {i : κ} :
    update f k v i = some b ↔ (i = k ∧ v = some b) ∨ (i ≠ k ∧ f i = some b) := by
  by_cases hi : i = k
  · subst hi
    simp
  · simp [hi]

section

variable {P : κ → β → Prop} (h : ∀ i x, i ≠ k → f i = some x → P i x)
include h

theorem forall_update (hk : P k b) : ∀ i x, update f k (some b) i = some x → P i x := by
  intro i x hi
  rcases update_eq_some.mp hi with ⟨rfl, hv⟩ | ⟨hne, hi⟩
  · exact Option.some.inj hv ▸ hk
  · exact h i x hne hi

theorem forall_clear : ∀ i x, update f k none i = some x → P i x := by
  intro i x hi
  rcases update_eq_some.mp hi with ⟨_, hv⟩ | ⟨hne, hi⟩
  · cases hv
  · exact h i x hne hi

end

theorem forall_value_update {f : κ → β} {P : κ → β → Prop} (hk : P k b)
    (h : ∀ i, i ≠ k → P i (f i)) : ∀ i, P i (update f k b i) :=
  (Function.forall_update_iff f P).mpr ⟨hk, h⟩

theorem map_update {γ : Type*} {g : β → γ} (h : f k = some c) (hg : g b = g c) (i : κ) :
    (update f k (some b) i).map g = (f i).map g := by
  rcases eq_or_ne i k with rfl | hne
  · rw [Function.update_self, h, Option.map_some, Option.map_some, hg]
  · rw [update_of_ne hne]

theorem apply_update {γ : Type*} {f : κ → β} {g : β → γ} (h : g b = g (f k)) (i : κ) :
    g (update f k b i) = g (f i) :=
  forall_value_update (P := fun i x => g x = g (f i)) h (fun _ _ => rfl) i

section Encard

variable {P : β → Prop} [DecidablePred P]

omit [DecidableEq κ] in
theorem encard_split (f : κ → β) (k : κ) :
    {i | P (f i)}.encard = ({i | P (f i)} \ {k}).encard + if P (f k) then 1 else 0 := by
  split_ifs with hk
  · exact (Set.encard_sdiff_singleton_add_one (s := {i | P (f i)}) hk).symm
  · rw [Set.sdiff_singleton_eq_self (s := {i | P (f i)}) hk, add_zero]

/-- Setting one key changes the number of keys by what its two values count. -/
theorem encard_update (f : κ → β) (k : κ) (b : β) :
    {i | P (update f k b i)}.encard + (if P (f k) then 1 else 0) =
      {i | P (f i)}.encard + if P b then 1 else 0 := by
  have hrest : {i | P (update f k b i)} \ {k} = {i | P (f i)} \ {k} := by
    ext i
    by_cases hi : i = k <;> simp [hi]
  rw [encard_split (update f k b) k, encard_split f k, hrest, Function.update_self, add_right_comm]

theorem encard_update_eq {f : κ → β} {n n' : ℕ} (h : {i | P (f i)}.encard = n)
    (hn : n' + (if P (f k) then 1 else 0) = n + if P b then 1 else 0) :
    {i | P (update f k b i)}.encard = n' := by
  have hcount := encard_update (P := P) f k b
  rw [h] at hcount
  generalize {i | P (update f k b i)}.encard = m at hcount ⊢
  cases m with
  | top =>
    rw [top_add] at hcount
    norm_cast at hcount
  | coe m =>
    norm_cast at hcount ⊢
    omega

end Encard

theorem encard_keys_set (h : f k = none) :
    {i | update f k (some b) i = some b}.encard = {i | f i = some b}.encard + 1 := by
  classical
  simpa [h] using encard_update (P := (· = some b)) f k (some b)

theorem encard_keys_clear (h : f k = some b) :
    {i | update f k none i = some b}.encard + 1 = {i | f i = some b}.encard := by
  classical
  simpa [h] using encard_update (P := (· = some b)) f k none

theorem keys_update_of_ne {v : Option β} (hold : f k ≠ some c) (hnew : v ≠ some c) :
    {i | update f k v i = some c} = {i | f i = some c} := by
  ext i
  by_cases hi : i = k
  · subst hi
    simp [hold, hnew]
  · simp [update_of_ne hi]

end SpiceAgent.Lib
