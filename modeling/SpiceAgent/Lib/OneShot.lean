import Mathlib.Data.Set.Basic

/-!
# Results that are set once

Several parties compete to set the result of a slot. Whoever wins sets it and then closes the slot's
channel, which tells the readers that the result is there. `OneShot` has the slots and the parties
that have yet to close a channel. Its invariant says that every result without a closed channel has
exactly one such party, so that no channel is closed twice and none is forgotten.
-/

namespace SpiceAgent.Lib

/-- Slots `ι` with results `R`. `closes i k` says that the party `k` has yet to close the channel
of `i`. -/
structure OneShot (ι κ R : Type*) where
  result : ι → Option R
  done : ι → Prop
  closes : ι → κ → Prop

namespace OneShot

variable {ι κ R : Type*} {s s' : OneShot ι κ R} {i : ι} {k : κ} {r : R}

/-- The invariant of the slots. -/
structure Ok (s : OneShot ι κ R) : Prop where
  owed : ∀ i k, s.closes i k → (∃ r, s.result i = some r) ∧ ¬ s.done i
  closer : ∀ i r, s.result i = some r → ¬ s.done i → ∃ k, s.closes i k
  unique : ∀ i k k', s.closes i k → s.closes i k' → k = k'
  settled : ∀ i, s.done i → ∃ r, s.result i = some r

/-- The party `k` sets the results of the slots `S`, which have none. -/
structure Settle (s s' : OneShot ι κ R) (S : Set ι) (r : R) (k : κ) : Prop where
  fresh : ∀ i ∈ S, s.result i = none
  result : ∀ i ∈ S, s'.result i = some r
  others : ∀ i, i ∉ S → s'.result i = s.result i
  done : ∀ i, s'.done i ↔ s.done i
  closes : ∀ i l, s'.closes i l ↔ s.closes i l ∨ i ∈ S ∧ l = k

/-- The party `k` closes the channel of the slot `i`. -/
structure Close (s s' : OneShot ι κ R) (i : ι) (k : κ) : Prop where
  owed : s.closes i k
  result : ∀ j, s'.result j = s.result j
  done : ∀ j, s'.done j ↔ s.done j ∨ j = i
  closes : ∀ j l, s'.closes j l ↔ s.closes j l ∧ ¬ (j = i ∧ l = k)

theorem Settle.keeps {S : Set ι} {x : R} (h : s.Settle s' S x k) (hr : s.result i = some r) :
    s'.result i = some r := by
  by_cases hi : i ∈ S
  · rw [h.fresh i hi] at hr
    cases hr
  · rw [h.others i hi, hr]

theorem Settle.ok {S : Set ι} (h : s.Settle s' S r k) (hs : s.Ok) : s'.Ok where
  owed i l hl := by
    rw [h.done]
    rcases (h.closes i l).mp hl with hl | ⟨hi, -⟩
    · obtain ⟨⟨x, hx⟩, hdone⟩ := hs.owed i l hl
      exact ⟨⟨x, h.keeps hx⟩, hdone⟩
    · refine ⟨⟨r, h.result i hi⟩, fun hdone => ?_⟩
      obtain ⟨x, hx⟩ := hs.settled i hdone
      rw [h.fresh i hi] at hx
      cases hx
  closer i x hx hdone := by
    by_cases hi : i ∈ S
    · exact ⟨k, (h.closes i k).mpr (.inr ⟨hi, rfl⟩)⟩
    · rw [h.others i hi] at hx
      obtain ⟨l, hl⟩ := hs.closer i x hx (fun hd => hdone ((h.done i).mpr hd))
      exact ⟨l, (h.closes i l).mpr (.inl hl)⟩
  unique i l l' hl hl' := by
    -- a slot of `S` had no result and hence no closer before
    have hnone : ∀ m, i ∈ S → ¬ s.closes i m := by
      intro m hi hm
      obtain ⟨⟨x, hx⟩, -⟩ := hs.owed i m hm
      rw [h.fresh i hi] at hx
      cases hx
    rcases (h.closes i l).mp hl with hl | ⟨hi, rfl⟩ <;>
      rcases (h.closes i l').mp hl' with hl' | ⟨hi', rfl⟩
    · exact hs.unique i l l' hl hl'
    · exact absurd hl (hnone l hi')
    · exact absurd hl' (hnone l' hi)
    · rfl
  settled i hdone := by
    obtain ⟨x, hx⟩ := hs.settled i ((h.done i).mp hdone)
    exact ⟨x, h.keeps hx⟩

theorem Close.ok (h : s.Close s' i k) (hs : s.Ok) : s'.Ok where
  owed j l hl := by
    obtain ⟨hl, hne⟩ := (h.closes j l).mp hl
    obtain ⟨hr, hdone⟩ := hs.owed j l hl
    rw [h.result, h.done]
    refine ⟨hr, ?_⟩
    rintro (hd | rfl)
    · exact hdone hd
    · exact hne ⟨rfl, hs.unique j l k hl h.owed⟩
  closer j x hx hdone := by
    rw [h.result] at hx
    rw [h.done, not_or] at hdone
    obtain ⟨l, hl⟩ := hs.closer j x hx hdone.1
    exact ⟨l, (h.closes j l).mpr ⟨hl, fun heq => hdone.2 heq.1⟩⟩
  unique j l l' hl hl' := hs.unique j l l' ((h.closes j l).mp hl).1 ((h.closes j l').mp hl').1
  settled j hdone := by
    rw [h.result]
    rcases (h.done j).mp hdone with hd | rfl
    · exact hs.settled j hd
    · exact (hs.owed j k h.owed).1

end OneShot

end SpiceAgent.Lib
