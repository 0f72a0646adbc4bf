import Mathlib.Tactic

/-!
# Chains of checks

A validator runs checks in order and stops at the first that fails: it is a computation in `Except`
without a result. It succeeds exactly if all of its checks do.
-/

namespace SpiceAgent.Lib

variable {ε α : Type}

/-- Fails with the error if the condition holds. -/
def refuseIf (bad : Prop) [Decidable bad] (err : ε) : Except ε Unit :=
  if bad then .error err else .ok ()

variable {bad : Prop} {err : ε}

@[simp] theorem refuseIf_ok [Decidable bad] : refuseIf bad err = .ok () ↔ ¬ bad := by
  unfold refuseIf
  split_ifs with h
  · simp [h]
  · simp [h]

theorem refuseIf_error [Decidable bad] {err' : ε} :
    refuseIf bad err = .error err' ↔ bad ∧ err = err' := by
  unfold refuseIf
  split_ifs with h
  · simp [h]
  · simp [h]

variable {check : Except ε Unit} {a : α}

@[simp] theorem check_bind_ok {rest : Unit → Except ε α} :
    (check >>= rest) = .ok a ↔ check = .ok () ∧ rest () = .ok a := by
  cases check <;> simp [bind, Except.bind]

variable {ε' : Type}

@[simp] theorem mapError_ok {f : ε → ε'} : check.mapError f = .ok () ↔ check = .ok () := by
  cases check <;> simp [Except.mapError]

variable {β : Type} {x : Except ε α}

theorem bind_ok {f : α → Except ε β} {b : β} :
    (x >>= f) = .ok b ↔ ∃ a, x = .ok a ∧ f a = .ok b := by
  cases x <;> simp [bind, Except.bind]

theorem bind_pure_ok {f : α → β} (hf : f.Injective) {a : α} :
    (x >>= fun a => pure (f a)) = .ok (f a) ↔ x = .ok a := by
  rw [bind_ok]
  constructor
  · rintro ⟨b, hb, heq⟩
    rw [hb, hf (Except.ok.inj heq)]
  · exact fun h => ⟨a, h, rfl⟩

theorem mapError_eq_ok {f : ε → ε'} : x.mapError f = .ok a ↔ x = .ok a := by
  cases x <;> simp [Except.mapError]

/-- Every error of the computation has the property. -/
def ErrorsIn (P : ε → Prop) (x : Except ε α) : Prop := ∀ err, x = .error err → P err

namespace ErrorsIn

variable {P Q : ε → Prop}

theorem ok : ErrorsIn P (.ok a) := nofun

theorem error (h : P err) : ErrorsIn P (.error err : Except ε α) := by
  rintro _ ⟨⟩
  exact h

theorem mono (h : ErrorsIn P x) (hPQ : ∀ err, P err → Q err) : ErrorsIn Q x :=
  fun err herr => hPQ err (h err herr)

theorem refuse [Decidable bad] (h : P err) : ErrorsIn P (refuseIf bad err) := by
  intro err' herr
  rw [← (refuseIf_error.mp herr).2]
  exact h

theorem bind {f : α → Except ε β} (hx : ErrorsIn P x) (hf : ∀ a, x = .ok a → ErrorsIn P (f a)) :
    ErrorsIn P (x >>= f) := by
  cases x with
  | error err => exact .error (hx err rfl)
  | ok a => exact hf a rfl

theorem mapError {P : ε' → Prop} {g : ε → ε'} (h : ErrorsIn (fun err => P (g err)) x) :
    ErrorsIn P (x.mapError g) := by
  cases x with
  | error err => exact .error (h err rfl)
  | ok a => exact .ok

end ErrorsIn

end SpiceAgent.Lib
