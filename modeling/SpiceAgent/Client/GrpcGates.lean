import SpiceAgent.Client.GrpcConnector

/-!
# The reconnect gates

A gate is in the connector's map while a call is registered at it, so a client has one gate at a
time; a gate counts its calls, at most two of them, and one of these may have the token.
-/

namespace SpiceAgent.Grpcclient

open Function (update_apply update_of_ne update_self)
open Desk

variable {d d' : Desk} {g i j client : ℕ}

/-- What holds of the gates between any two actions. -/
@[mk_iff] structure Desk.Sound (d : Desk) : Prop where
  mapped : ∀ c g, d.reconnects c = some g → g < d.next ∧ (d.gate g).client = c
  used : ∀ g, (d.gate g).members ≠ [] → d.reconnects (d.gate g).client = some g
  users_eq : ∀ g, (d.gate g).users = (d.gate g).members.length
  users_le : ∀ g, (d.gate g).users ≤ maximumReconnectWaitersPerClient + 1
  nodup : ∀ g, (d.gate g).members.Nodup
  holder_mem : ∀ g i, (d.gate g).holder = some i → i ∈ (d.gate g).members
  fresh : ∀ g, d.next ≤ g → (d.gate g).members = []

/-- What an action of the call `i` leaves to the others. -/
@[mk_iff] structure Desk.Apart (d d' : Desk) (i : ℕ) : Prop where
  client : ∀ g, (d.gate g).members ≠ [] → (d'.gate g).client = (d.gate g).client
  members : ∀ j, j ≠ i → ∀ g, j ∈ (d'.gate g).members ↔ j ∈ (d.gate g).members
  holder : ∀ j, j ≠ i → ∀ g, (d'.gate g).holder = some j ↔ (d.gate g).holder = some j

theorem Desk.Apart.refl (d : Desk) (i : ℕ) : d.Apart d i :=
  ⟨fun _ _ => rfl, fun _ _ _ => .rfl, fun _ _ _ => .rfl⟩

/-! ## Token -/

theorem setHolder_gate (d : Desk) (g : ℕ) (holder : Option ℕ) (k : ℕ) :
    ((d.setHolder g holder).gate k).client = (d.gate k).client ∧
      ((d.setHolder g holder).gate k).users = (d.gate k).users ∧
      ((d.setHolder g holder).gate k).members = (d.gate k).members ∧
      ((d.setHolder g holder).gate k).holder = if k = g then holder else (d.gate k).holder := by
  simp only [setHolder, setGate, update_apply]
  grind

theorem setHolder_sound (hd : d.Sound) {holder : Option ℕ}
    (h : ∀ i, holder = some i → i ∈ (d.gate g).members) : (d.setHolder g holder).Sound := by
  simp only [sound_iff, setHolder, setGate, update_apply] at *
  grind

theorem setHolder_apart {holder : Option ℕ}
    (hold : (d.gate g).holder = none ∨ (d.gate g).holder = some i)
    (hnew : holder = none ∨ holder = some i) : d.Apart (d.setHolder g holder) i := by
  simp only [apart_iff, setHolder, setGate, update_apply]
  grind

/-! ## Registration -/

theorem gateOf_sound (hd : d.Sound) (client : ℕ) :
    (d.gateOf client).1.Sound ∧
      (d.gateOf client).1.reconnects client = some (d.gateOf client).2 ∧
      (∀ g, (d.gate g).members ≠ [] → (d.gateOf client).1.gate g = d.gate g) ∧
      ∀ g, ((d.gateOf client).1.gate g).members = (d.gate g).members ∧
        ∀ j, ((d.gateOf client).1.gate g).holder = some j ↔ (d.gate g).holder = some j := by
  unfold gateOf
  split
  · rename_i g hg
    exact ⟨hd, hg, fun _ _ => rfl, fun _ => ⟨rfl, fun _ => .rfl⟩⟩
  · have hempty := hd.fresh d.next le_rfl
    have hholder : (d.gate d.next).holder = none := by
      refine Option.eq_none_iff_forall_ne_some.mpr fun j hj => ?_
      exact List.not_mem_nil (hempty ▸ hd.holder_mem d.next j hj)
    simp only [sound_iff, update_apply] at *
    refine ⟨⟨?_, ?_, ?_, ?_, ?_, ?_, ?_⟩, ?_, ?_, ?_⟩
    all_goals grind

theorem count_sound (hd : d.Sound) (hi : ∀ g, i ∉ (d.gate g).members)
    (hmap : d.reconnects client = some g)
    (hfew : (d.gate g).users < maximumReconnectWaitersPerClient + 1) :
    (d.setGate g { d.gate g with
      users := (d.gate g).users + 1, members := i :: (d.gate g).members }).Sound := by
  simp only [sound_iff, setGate, update_apply] at *
  grind

/-- What a registration does: the call is a member of the client's gate, and nothing else
changes. -/
theorem register_sound (hd : d.Sound) (hi : ∀ g, i ∉ (d.gate g).members)
    (h : d.register client i = some (d', g)) : d'.Sound ∧ d.Apart d' i ∧
      (d'.gate g).client = client ∧ (∀ k, i ∈ (d'.gate k).members ↔ k = g) ∧
      ∀ k, (d'.gate k).holder ≠ some i := by
  obtain ⟨hsound, hmap, hsame, hgates⟩ := gateOf_sound hd client
  unfold register at h
  generalize d.gateOf client = x at *
  obtain ⟨e, k⟩ := x
  dsimp only at *
  split at h
  · simp at h
  · rename_i hfew
    obtain ⟨rfl, rfl⟩ := by simpa using h
    have hi' : ∀ g, i ∉ (e.gate g).members := fun g => (hgates g).1 ▸ hi g
    have hclient := (hsound.mapped client k hmap).2
    have hout : ∀ g, (e.gate g).holder ≠ some i := fun g hg => hi' g (hsound.holder_mem g i hg)
    refine ⟨count_sound hsound hi' hmap (by omega), ?_⟩
    simp only [apart_iff, setGate, update_apply] at *
    grind

/-! ## Departure -/

/-- The gate leaves the map only with its last call. -/
theorem releaseReference_sound (hd : d.Sound) (hi : i ∈ (d.gate g).members)
    (hholder : (d.gate g).holder ≠ some i) :
    (d.releaseReference g i).Sound ∧ d.Apart (d.releaseReference g i) i ∧
      i ∉ ((d.releaseReference g i).gate g).members ∧
      ∀ k, k ≠ g → (d.releaseReference g i).gate k = d.gate k := by
  have hlength : ((d.gate g).members.erase i).length = (d.gate g).users - 1 := by
    rw [List.length_erase_of_mem hi, hd.users_eq g]
  have hnodup := hd.nodup g
  have hmem : ∀ j, j ∈ (d.gate g).members.erase i ↔ j ≠ i ∧ j ∈ (d.gate g).members :=
    fun j => hnodup.mem_erase_iff
  have hempty : (d.gate g).users - 1 = 0 → (d.gate g).members.erase i = [] :=
    fun h => List.length_eq_zero_iff.mp (hlength.trans h)
  unfold releaseReference
  dsimp only
  split <;> simp only [sound_iff, apart_iff, setGate, update_apply] at * <;>
    refine ⟨⟨?_, ?_, ?_, ?_, ?_, ?_, ?_⟩, ⟨?_, ?_, ?_⟩, ?_, ?_⟩
  all_goals grind [List.Nodup.erase]

end SpiceAgent.Grpcclient
