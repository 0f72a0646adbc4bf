import SpiceAgent.PluginHost.Holders

/-!
# The ledger of a host

What each critical section of the host does to its ledger: the recovery sections leave it, and the
others are the operations of `Ledger`.
-/

namespace SpiceAgent.Pluginhost

open Lib Function
open Ledger

def Generation.entry (generation : Generation) : Entry where
  id := generation.id
  candidates := generation.candidates
  refs := generation.refs
  current := generation.current
  cleaning := generation.cleaning
  cleaned := generation.cleaned
  cleanupErr := generation.cleanupErr

namespace Host

/-- The generations of a host and their cleanups. -/
def ledger (host : Host) : Ledger where
  entry g := (host.generation g).entry
  generations := host.generations
  live := if host.closing then none else some host.current
  available := host.available
  owned := host.owned
  cleanups := host.cleanups
  spawned := host.spawned

variable (host : Host) (done : ℕ → Bool)

/-! ## Sections that leave the ledger -/

@[simp] theorem ledger_signal : host.signal.ledger = host.ledger := rfl

variable (g : ℕ)

@[simp] theorem ledger_scheduleRecovery : (host.scheduleRecovery g).ledger = host.ledger := by
  unfold scheduleRecovery
  split_ifs <;> rfl

@[simp] theorem ledger_finishRecoveryFailure (serial : ℕ) :
    (host.finishRecoveryFailure serial).1.ledger = host.ledger := by
  unfold finishRecoveryFailure
  cases host.recovery with
  | none => rfl
  | some e =>
    simp only
    split_ifs <;> rfl

theorem ledger_setUnhealthy :
    (host.setGeneration g { host.generation g with unhealthy := true }).ledger = host.ledger := by
  have hentry : (fun g' => (update host.generation g
      { host.generation g with unhealthy := true } g').entry) =
      fun g' => (host.generation g').entry := by
    funext g'
    by_cases hg : g' = g
    · subst hg
      rw [update_self]
      rfl
    · rw [update_of_ne hg]
  simp only [ledger, setGeneration, hentry]
  rfl

@[simp] theorem ledger_generationHealth :
    (host.generationHealth done g).1.ledger = host.ledger := by
  unfold generationHealth
  split_ifs
  · rfl
  · rw [ledger_scheduleRecovery, ledger_setUnhealthy]
  · rfl

@[simp] theorem ledger_finishExplicitActivation (succeeded : Bool) :
    (host.finishExplicitActivation done succeeded).ledger = host.ledger := by
  unfold finishExplicitActivation
  cases succeeded with
  | true => rfl
  | false =>
    simp only [Bool.false_eq_true, if_false]
    split_ifs
    · rw [ledger_signal, ledger_scheduleRecovery, ledger_generationHealth]
      rfl
    · rw [ledger_signal, ledger_generationHealth]
      rfl

@[simp] theorem ledger_observe : (host.observe g).ledger = host.ledger := by
  unfold observe
  split_ifs
  · rw [ledger_signal, ledger_scheduleRecovery, ledger_setUnhealthy]
  · rfl

/-! ## Sections that change it -/

theorem entry_update (generation : Generation) :
    (fun g' => (update host.generation g generation g').entry) =
      update host.ledger.entry g generation.entry := by
  funext g'
  by_cases hg : g' = g
  · subst hg
    rw [update_self, update_self]
  · rw [update_of_ne hg, update_of_ne hg]
    rfl

theorem ledger_setGeneration (generation : Generation) :
    (host.setGeneration g generation).ledger = host.ledger.setEntry g generation.entry := by
  simp only [ledger, setGeneration, setEntry, entry_update]
  rfl

theorem ledger_queueCleanup (g attempt : ℕ) :
    (host.queueCleanup g attempt).ledger =
      if (host.generation g).cleaning || (host.generation g).cleaned || (host.generation g).refs ≠ 0
      then host.ledger else host.ledger.queue g := by
  by_cases hrefused : ((host.generation g).cleaning || (host.generation g).cleaned ||
      (host.generation g).refs ≠ 0 : Bool) = true
  · rw [if_pos hrefused]
    simp only [queueCleanup, hrefused, if_true]
  · rw [if_neg hrefused]
    simp only [queueCleanup, hrefused, if_false, Bool.false_eq_true]
    simp only [ledger, setGeneration, queue, setEntry, entry_update]
    rfl

theorem ledger_exchange (id : PlanID) (candidates : List ℕ) (hopen : host.closing = false) :
    (host.exchange id candidates).ledger =
      host.ledger.publish host.current id.val candidates := by
  have hentry : (fun g => ((host.exchange id candidates).generation g).entry) =
      (host.ledger.publish host.current id.val candidates).entry := by
    funext g
    by_cases hg : g = host.generations
    · subst hg
      simp [exchange, publish, promote, adopt, shut, setEntry,
        ledger, Generation.entry, Generation.fresh, Entry.fresh]
    · by_cases hc : g = host.current
      · subst hc
        simp [exchange, publish, promote, adopt, shut, setEntry,
          ledger, Generation.entry, hg]
      · simp [exchange, publish, promote, adopt, shut,
          setEntry, ledger, hg, hc]
  have havailable : (host.exchange id candidates).available =
      (host.ledger.publish host.current id.val candidates).available := by
    simp [exchange, publish, promote, adopt, shut, setEntry,
      ledger, Entry.fresh]
  simp only [ledger, hentry, havailable]
  simp [exchange, hopen, publish, promote, adopt, shut, setEntry]

theorem ledger_retainAborted (candidates : List ℕ) :
    (host.retainAborted candidates).ledger = host.ledger.retain candidates := by
  simp only [retainAborted, signal, ledger, retain, adopt, setEntry,
    entry_update]
  rfl

theorem ledger_finishCleanup (k g : ℕ) (failed : Bool) :
    (host.finishCleanup k g failed).ledger = host.ledger.finish k g failed := by
  simp only [finishCleanup, setGeneration, signal, ledger, finish, setEntry,
    entry_update]
  rfl

theorem ledger_beginClose :
    host.beginClose.1.ledger =
      if host.closing then host.ledger else host.ledger.shut host.current := by
  unfold beginClose
  by_cases hc : host.closing = true
  · simp only [hc, if_true, ledger]
  · simp only [hc, if_false, Bool.false_eq_true]
    simp only [cancelRecovery, setGeneration, signal, ledger, shut, setEntry,
      entry_update]
    rfl

theorem acquire_cases (request : Option String) :
    ((host.acquire done request).2 = none ∧ (host.acquire done request).1.ledger = host.ledger) ∨
      ∃ g, (host.acquire done request).2 = some g ∧ host.closing = false ∧
        host.select request = some g ∧ host.ledger.Leasable g ∧
        (host.acquire done request).1.ledger =
          host.ledger.setRefs g ((host.ledger.entry g).refs + 1) := by
  unfold acquire
  by_cases hclosing : host.closing = true
  · simp [hclosing]
  · cases hselect : host.select request with
    | none => simp [hclosing]
    | some g =>
      by_cases hleasable : host.leasable g = true
      · cases hfailure : (host.generationHealth done g).2 with
        | true => simp [hclosing, hleasable, hfailure]
        | false =>
          right
          refine ⟨g, ?_, by simpa using hclosing, rfl, ?_, ?_⟩
          · simp [hclosing, hleasable, hfailure]
          · simpa [leasable, Ledger.Leasable, ledger, Generation.entry, and_assoc] using hleasable
          · have hsame : (host.generationHealth done g).1 = host := by
              unfold generationHealth at hfailure ⊢
              split_ifs at hfailure ⊢
              rfl
            simp only [hclosing, hleasable, hfailure, hsame, if_true, if_false, Bool.false_eq_true,
              ledger_signal, ledger_setGeneration]
            rfl
      · simp [hclosing, hleasable]

end Host

end SpiceAgent.Pluginhost
