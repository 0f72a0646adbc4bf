import Mathlib.Algebra.BigOperators.Group.Multiset.Basic
import Mathlib.Data.Finmap
import Mathlib.Tactic

/-!
# Totals and images of finite maps

The total weight of the values of a finite map, how an insertion and a deletion change it, and maps
that hold the values of another map under new keys.
-/

namespace SpiceAgent.Lib

open Finmap

section

variable {α β : Type*} [DecidableEq α] {m : Finmap fun _ : α => β} {a : α} {b : β}

def count (m : Finmap fun _ : α => β) : ℕ := m.entries.card

variable (w : β → ℤ)

def total (m : Finmap fun _ : α => β) : ℤ := (m.entries.map fun e => w e.2).sum

theorem lookup_eq_some_iff : m.lookup a = some b ↔ (⟨a, b⟩ : Σ _ : α, β) ∈ m.entries := by
  induction m using induction_on with
  | H s =>
    rw [lookup_toFinmap, AList.toFinmap_entries, Multiset.mem_coe]
    exact AList.mem_lookup_iff

theorem entries_of_lookup (h : m.lookup a = some b) :
    m.entries = (⟨a, b⟩ : Σ _ : α, β) ::ₘ (m.erase a).entries := by
  rw [← entries_insert_of_notMem notMem_erase_self]
  congr 1
  refine ext_lookup fun x => ?_
  rcases eq_or_ne x a with rfl | hne
  · rw [lookup_insert, h]
  · rw [lookup_insert_of_ne _ hne, lookup_erase_ne hne]

omit [DecidableEq α] in
@[simp] theorem count_empty : count (∅ : Finmap fun _ : α => β) = 0 := rfl

omit [DecidableEq α] in
@[simp] theorem total_empty : total w (∅ : Finmap fun _ : α => β) = 0 := rfl

theorem count_insert (h : a ∉ m) : count (m.insert a b) = count m + 1 := by
  unfold count
  rw [entries_insert_of_notMem h, Multiset.card_cons]

theorem total_insert (h : a ∉ m) : total w (m.insert a b) = total w m + w b := by
  unfold total
  rw [entries_insert_of_notMem h, Multiset.map_cons, Multiset.sum_cons, add_comm]

section

variable (h : m.lookup a = some b)
include h

theorem count_erase : count (m.erase a) + 1 = count m := by
  unfold count
  rw [entries_of_lookup h, Multiset.card_cons]

theorem total_erase : total w (m.erase a) + w b = total w m := by
  unfold total
  rw [entries_of_lookup h, Multiset.map_cons, Multiset.sum_cons, add_comm]

theorem total_replace (b' : β) : total w (m.insert a b') + w b = total w m + w b' := by
  have hinsert : m.insert a b' = (m.erase a).insert a b' := by
    refine ext_lookup fun x => ?_
    rcases eq_or_ne x a with rfl | hne
    · rw [lookup_insert, lookup_insert]
    · rw [lookup_insert_of_ne _ hne, lookup_insert_of_ne _ hne,
        lookup_erase_ne hne]
  rw [hinsert, total_insert w notMem_erase_self, ← total_erase w h]
  ring

theorem weight_le_total {w : β → ℤ} (hw : ∀ b, 0 ≤ w b) : w b ≤ total w m := by
  have hrest : 0 ≤ total w (m.erase a) := by
    refine Multiset.sum_nonneg fun x hx => ?_
    obtain ⟨e, -, rfl⟩ := Multiset.mem_map.mp hx
    exact hw e.2
  have hsum := total_erase w h
  omega

end

end

section

variable {α β α' β' : Type*} [DecidableEq α] [DecidableEq α'] {key : β → α'} {val : β → β'}
  {m : Finmap fun _ : α => β} {m' : Finmap fun _ : α' => β'} {a : α} {b : β}

/-- The second map has the values of the first one under keys of their own. -/
def IsImage (key : β → α') (val : β → β') (m : Finmap fun _ : α => β)
    (m' : Finmap fun _ : α' => β') : Prop :=
  m'.entries = m.entries.map fun e => ⟨key e.2, val e.2⟩

namespace IsImage

omit [DecidableEq α] [DecidableEq α'] in
theorem empty : IsImage key val (∅ : Finmap fun _ : α => β) ∅ := rfl

section

variable (h : IsImage key val m m')
include h

theorem lookup (hb : m.lookup a = some b) : m'.lookup (key b) = some (val b) := by
  rw [lookup_eq_some_iff, h]
  exact Multiset.mem_map.mpr ⟨⟨a, b⟩, lookup_eq_some_iff.mp hb, rfl⟩

theorem notMem {k : α'} (hk : ∀ a b, m.lookup a = some b → key b ≠ k) : k ∉ m' := by
  intro hin
  obtain ⟨v, hv⟩ := mem_iff.mp hin
  rw [lookup_eq_some_iff, h] at hv
  obtain ⟨⟨a, b⟩, hmem, heq⟩ := Multiset.mem_map.mp hv
  exact hk a b (lookup_eq_some_iff.mpr hmem) (congrArg Sigma.fst heq)

theorem insert (ha : a ∉ m) (hk : key b ∉ m') :
    IsImage key val (m.insert a b) (m'.insert (key b) (val b)) := by
  unfold IsImage
  rw [entries_insert_of_notMem ha, entries_insert_of_notMem hk, Multiset.map_cons, h]

theorem erase (hb : m.lookup a = some b) : IsImage key val (m.erase a) (m'.erase (key b)) := by
  have heq : m'.entries = m.entries.map fun e => ⟨key e.2, val e.2⟩ := h
  rw [entries_of_lookup hb, entries_of_lookup (h.lookup hb), Multiset.map_cons] at heq
  exact Multiset.cons_inj_right _ |>.mp heq

end

omit [DecidableEq α] [DecidableEq α'] in
theorem count_eq (h : IsImage key val m m') : count m' = count m := by
  unfold count
  rw [h, Multiset.card_map]

omit [DecidableEq α] [DecidableEq α'] in
theorem values (h : IsImage key val m m') :
    (m'.entries.map fun e => e.2) = m.entries.map fun e => val e.2 := by
  rw [h, Multiset.map_map]
  rfl

end IsImage

end

end SpiceAgent.Lib
