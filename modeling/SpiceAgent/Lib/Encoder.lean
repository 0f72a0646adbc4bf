import SpiceAgent.Lib.Check

/-!
# Encoders and what they keep of a value

An encoder that may fail determines a view of its values if two values with one encoding have one
view.
-/

namespace SpiceAgent.Lib

open List

variable {ε α β δ : Type}

def Determines (encode : α → Except ε δ) (view : α → β) : Prop :=
  ∀ ⦃a b v⦄, encode a = .ok v → encode b = .ok v → view a = view b

theorem mapM_cons_ok {encode : α → Except ε δ} {a : α} {l : List α} {vs : List δ} :
    (a :: l).mapM encode = .ok vs ↔
      ∃ v ws, encode a = .ok v ∧ l.mapM encode = .ok ws ∧ vs = v :: ws := by
  simp only [mapM_cons, bind_ok, pure, Except.pure, Except.ok.injEq, eq_comm (b := vs)]
  constructor
  · rintro ⟨v, hv, ws, hws, rfl⟩
    exact ⟨v, ws, hv, hws, rfl⟩
  · rintro ⟨v, ws, hv, hws, rfl⟩
    exact ⟨v, hv, ws, hws, rfl⟩

namespace Determines

variable {encode : α → Except ε δ} {view : α → β}

theorem mapM (h : Determines encode view) :
    Determines (fun l : List α => l.mapM encode) (map view) := by
  intro l l' vs hl hl'
  induction l generalizing l' vs with
  | nil =>
    obtain rfl := Except.ok.inj hl
    cases l' with
    | nil => rfl
    | cons b l' =>
      rw [mapM_cons_ok] at hl'
      obtain ⟨v, ws, -, -, hnil⟩ := hl'
      exact absurd hnil (cons_ne_nil v ws).symm
  | cons a l ih =>
    rw [mapM_cons_ok] at hl
    obtain ⟨v, ws, ha, hl, rfl⟩ := hl
    cases l' with
    | nil => exact absurd (Except.ok.inj hl') (cons_ne_nil v ws).symm
    | cons b l' =>
      rw [mapM_cons_ok] at hl'
      obtain ⟨v', ws', hb, hl', heq⟩ := hl'
      obtain ⟨rfl, rfl⟩ := cons.inj heq
      rw [map_cons, map_cons, h ha hb, ih hl hl']

end Determines

end SpiceAgent.Lib
