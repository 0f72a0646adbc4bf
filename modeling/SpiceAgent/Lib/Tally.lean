import Mathlib.Algebra.BigOperators.Group.Finset.Basic
import Mathlib.Algebra.Order.BigOperators.Group.Finset
import Mathlib.Data.Finmap

/-!
# Counting the keys of a map by class

A map of counters that is kept beside a set of keys: a class has a counter exactly when it has a
key, and the counter is the number of its keys. Adding and removing a key keep this, and it
determines the counters.
-/

namespace SpiceAgent.Lib

open Finset Finmap

variable {κ γ : Type*} [DecidableEq γ] {cls : κ → γ} {keys : Finset κ}
  {counts counts' : Finmap fun _ : γ => ℕ}

def classKeys (cls : κ → γ) (keys : Finset κ) (c : γ) : Finset κ := keys.filter fun k => cls k = c

def tally (counts : Finmap fun _ : γ => ℕ) (c : γ) : ℕ := (counts.lookup c).getD 0

theorem tally_insert_self (counts : Finmap fun _ : γ => ℕ) (c : γ) (n : ℕ) :
    tally (counts.insert c n) c = n := by
  simp [tally]

theorem tally_insert_ne (counts : Finmap fun _ : γ => ℕ) {c c' : γ} (hne : c' ≠ c) (n : ℕ) :
    tally (counts.insert c n) c' = tally counts c' := by
  simp [tally, lookup_insert_of_ne _ hne]

theorem keys_insert {α β : Type*} [DecidableEq α] (m : Finmap fun _ : α => β) (a : α) (b : β) :
    (m.insert a b).keys = insert a m.keys := by
  ext x
  simp [Finmap.mem_keys, Finmap.mem_insert]

def Tallies (cls : κ → γ) (keys : Finset κ) (counts : Finmap fun _ : γ => ℕ) : Prop :=
  ∀ c, counts.lookup c =
    if (classKeys cls keys c).card = 0 then none else some (classKeys cls keys c).card

theorem Tallies.empty : Tallies cls ∅ ∅ := fun _ => rfl

section

variable (h : Tallies cls keys counts)
include h

theorem Tallies.tally_eq (c : γ) : tally counts c = (classKeys cls keys c).card := by
  unfold tally
  rw [h c]
  split_ifs with hzero
  · exact hzero.symm
  · rfl

theorem Tallies.unique (h' : Tallies cls keys counts') : counts = counts' :=
  ext_lookup fun c => (h c).trans (h' c).symm

theorem Tallies.mem_iff (c : γ) : c ∈ counts ↔ ∃ k ∈ keys, cls k = c := by
  rw [← lookup_isSome, h c]
  split_ifs with hzero
  · have hempty := filter_eq_empty_iff.mp (card_eq_zero.mp hzero)
    simpa using hempty
  · obtain ⟨k, hk⟩ := card_pos.mp (Nat.pos_of_ne_zero hzero)
    simpa using ⟨k, mem_filter.mp hk⟩

end

variable [DecidableEq κ]

theorem classKeys_insert_self (k : κ) :
    classKeys cls (insert k keys) (cls k) = insert k (classKeys cls keys (cls k)) := by
  unfold classKeys
  rw [filter_insert, if_pos rfl]

theorem classKeys_insert_ne {k : κ} {c : γ} (hne : c ≠ cls k) :
    classKeys cls (insert k keys) c = classKeys cls keys c := by
  unfold classKeys
  rw [filter_insert, if_neg hne.symm]

theorem classKeys_erase_self (k : κ) :
    classKeys cls (keys.erase k) (cls k) = (classKeys cls keys (cls k)).erase k :=
  filter_erase ..

theorem classKeys_erase_ne {k : κ} {c : γ} (hne : c ≠ cls k) :
    classKeys cls (keys.erase k) c = classKeys cls keys c := by
  unfold classKeys
  rw [filter_erase, erase_eq_of_notMem]
  simp [hne.symm]

theorem Tallies.insert (h : Tallies cls keys counts) {k : κ} (hk : k ∉ keys) :
    Tallies cls (insert k keys) (counts.insert (cls k) (tally counts (cls k) + 1)) := by
  intro c
  rcases eq_or_ne c (cls k) with rfl | hne
  · have hnot : k ∉ classKeys cls keys (cls k) := fun hin => hk (mem_filter.mp hin).1
    rw [lookup_insert, classKeys_insert_self, card_insert_of_notMem hnot,
      h.tally_eq, if_neg (Nat.succ_ne_zero _)]
  · rw [lookup_insert_of_ne _ hne, classKeys_insert_ne hne, h c]

theorem Tallies.erase (h : Tallies cls keys counts) {k : κ} (hk : k ∈ keys) :
    Tallies cls (keys.erase k) (if tally counts (cls k) - 1 = 0 then counts.erase (cls k)
        else counts.insert (cls k) (tally counts (cls k) - 1)) := by
  have hmem : k ∈ classKeys cls keys (cls k) := mem_filter.mpr ⟨hk, rfl⟩
  have hcard := card_erase_of_mem hmem
  intro c
  rcases eq_or_ne c (cls k) with rfl | hne
  · rw [classKeys_erase_self, hcard, ← h.tally_eq]
    split_ifs with hzero
    · exact lookup_erase ..
    · exact lookup_insert ..
  · rw [classKeys_erase_ne hne, ← h c]
    split_ifs with hzero
    · exact lookup_erase_ne hne
    · exact lookup_insert_of_ne _ hne

end SpiceAgent.Lib
