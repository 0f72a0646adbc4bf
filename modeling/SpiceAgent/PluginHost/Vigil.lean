import SpiceAgent.PluginHost.HostSystem

/-!
# What automatic recovery depends on

`Vigil` keeps the health of the current generation, the recovery episode, the revisions and the
number of explicit activations. Leases, cleanups and retained candidates leave it; the other
critical sections of the host are its operations.
-/

namespace SpiceAgent.Pluginhost

/-- What automatic recovery depends on in a host. -/
structure Vigil where
  enabled : Bool
  current : ℕ
  planID : String
  unhealthy : Bool
  desired : PluginSet
  hasDesired : Bool
  recovery : Option Episode
  episodes : ℕ
  recoveryWake : Bool
  cancelled : Bool
  desiredRevision : ℕ
  explicitRevision : ℕ
  explicitActivations : ℕ
  closing : Bool

namespace Vigil

variable (v : Vigil)

def Fits (e : Episode) : Prop :=
  v.closing = false ∧ v.explicitActivations = 0 ∧ v.current = e.generation ∧ v.planID = e.planID ∧
    v.desiredRevision = e.desiredRevision ∧ v.explicitRevision = e.explicitRevision ∧
    v.unhealthy = true

instance (v : Vigil) (e : Episode) : Decidable (v.Fits e) := by
  unfold Fits
  infer_instance

def Due : Prop :=
  v.closing = false ∧ v.explicitActivations = 0 ∧ v.enabled = true ∧ v.hasDesired = true ∧
    v.unhealthy = true

instance (v : Vigil) : Decidable v.Due := by
  unfold Due
  infer_instance

def arm : Vigil :=
  { v with
    recovery := some
      { serial := v.episodes
        generation := v.current
        planID := v.planID
        desired := v.desired
        desiredRevision := v.desiredRevision
        explicitRevision := v.explicitRevision
        attempts := 0
        failed := false
        exhausted := false
        cancel := false }
    episodes := v.episodes + 1
    recoveryWake := true }

/-- Schedules recovery of the current generation. -/
def schedule : Vigil :=
  if v.Due then if v.recovery.any (fun e => v.Fits e) then v else v.arm else v

theorem fits_arm {v : Vigil} (h : v.Due) {e : Episode} (he : v.arm.recovery = some e) :
    v.arm.Fits e := by
  obtain ⟨hclosing, hexplicit, _, _, hunhealthy⟩ := h
  cases he
  exact ⟨hclosing, hexplicit, rfl, rfl, rfl, rfl, hunhealthy⟩

theorem schedule_of_not_due {v : Vigil} (h : ¬ v.Due) : v.schedule = v := if_neg h

/-- Scheduling leaves the state, or starts a new episode where none is of the current state. -/
theorem schedule_cases : v.schedule = v ∨ (v.Due ∧ v.schedule = v.arm) := by
  unfold schedule
  by_cases hdue : v.Due
  · rw [if_pos hdue]
    split_ifs
    · exact .inl rfl
    · exact .inr ⟨hdue, rfl⟩
  · rw [if_neg hdue]
    exact .inl rfl

theorem schedule_schedule : v.schedule.schedule = v.schedule := by
  rcases v.schedule_cases with h | ⟨hdue, h⟩
  · rw [h, h]
  · rw [h]
    unfold schedule
    rw [if_pos (show v.arm.Due from hdue), if_pos]
    exact decide_eq_true (fits_arm hdue rfl)

theorem schedule_of_due {v : Vigil} (h : v.Due) :
    ∃ e, v.schedule.recovery = some e ∧ v.schedule.Fits e := by
  unfold schedule
  rw [if_pos h]
  split_ifs with hany
  · cases hr : v.recovery with
    | none => simp [hr] at hany
    | some e => exact ⟨e, rfl, by simpa [hr] using hany⟩
  · exact ⟨_, rfl, fits_arm h rfl⟩

def mark : Vigil := { v with unhealthy := true }.schedule

def cancel : Vigil :=
  { v with recovery := none, cancelled := v.cancelled || v.recovery.any Episode.cancel }

end Vigil

namespace Host

def vigil (host : Host) : Vigil where
  enabled := host.restart.enabled
  current := host.current
  planID := (host.generation host.current).id
  unhealthy := (host.generation host.current).unhealthy
  desired := host.desired
  hasDesired := host.hasDesired
  recovery := host.recovery
  episodes := host.episodes
  recoveryWake := host.recoveryWake
  cancelled := host.cancelled
  desiredRevision := host.desiredRevision
  explicitRevision := host.explicitRevision
  explicitActivations := host.explicitActivations
  closing := host.closing

variable (host : Host) (done : ℕ → Bool)

theorem recoveryMatches_iff (e : Episode) : host.recoveryMatches e = true ↔ host.vigil.Fits e := by
  simp [recoveryMatches, Vigil.Fits, vigil, and_assoc]

@[simp] theorem vigil_signal : host.signal.vigil = host.vigil := rfl

theorem vigil_scheduleRecovery {g : ℕ} (hg : host.current = g) :
    (host.scheduleRecovery g).vigil = host.vigil.schedule := by
  subst hg
  have hdue : (host.closing || host.explicitActivations ≠ 0 || !host.restart.enabled ||
      !host.hasDesired || host.current ≠ host.current || !(host.generation host.current).unhealthy
        : Bool) = true ↔ ¬ host.vigil.Due := by
    grind [Vigil.Due, vigil]
  have hany : host.recovery.any host.recoveryMatches =
      host.vigil.recovery.any (fun e => decide (host.vigil.Fits e)) := by
    show _ = host.recovery.any _
    congr
    funext e
    rw [Bool.eq_iff_iff, recoveryMatches_iff, decide_eq_true_iff]
  unfold scheduleRecovery Vigil.schedule
  by_cases hd : host.vigil.Due
  · rw [if_neg (by rw [hdue]; simpa using hd), if_pos hd, ← hany]
    split_ifs <;> rfl
  · rw [if_pos (hdue.mpr hd), if_neg hd]

theorem scheduleRecovery_other {g : ℕ} (hg : host.current ≠ g) : host.scheduleRecovery g =
    host := by
  unfold scheduleRecovery
  rw [if_pos]
  simp [hg]

theorem vigil_setGeneration_other {g : ℕ} (hg : host.current ≠ g) (generation : Generation) :
    (host.setGeneration g generation).vigil = host.vigil := by
  simp [vigil, setGeneration, Function.update_of_ne hg]

theorem vigil_setGeneration_same (g : ℕ) (generation : Generation)
    (hid : generation.id = (host.generation g).id)
    (hunhealthy : generation.unhealthy = (host.generation g).unhealthy) :
    (host.setGeneration g generation).vigil = host.vigil := by
  by_cases hg : host.current = g
  · subst hg
    simp [vigil, setGeneration, hid, hunhealthy]
  · exact host.vigil_setGeneration_other hg generation

theorem vigil_setUnhealthy (g : ℕ) :
    ((host.setGeneration g { host.generation g with unhealthy := true }).scheduleRecovery g).vigil =
      if host.current = g then host.vigil.mark else host.vigil := by
  split_ifs with hg
  · rw [vigil_scheduleRecovery _ (by exact hg)]
    subst hg
    simp [Vigil.mark, vigil, setGeneration]
  · rw [scheduleRecovery_other _ (by exact hg), vigil_setGeneration_other _ hg]

theorem vigil_generationHealth (g : ℕ) :
    (host.generationHealth done g).1.vigil = host.vigil ∨
      (host.vigil.unhealthy = false ∧
      (host.generationHealth done g).1.vigil = host.vigil.mark) := by
  unfold generationHealth
  by_cases hu : (host.generation g).unhealthy = true
  · simp [hu]
  · by_cases hd : candidateHealth done (host.generation g).candidates = true
    · simp only [hu, hd, if_true, if_false, Bool.false_eq_true, vigil_setUnhealthy]
      split_ifs with hg
      · right
        subst hg
        refine ⟨?_, rfl⟩
        show (host.generation host.current).unhealthy = false
        simpa using hu
      · exact .inl rfl
    · simp [hu, hd]

theorem vigil_observe (g : ℕ) :
    (host.observe g).vigil = host.vigil ∨ (host.observe g).vigil = host.vigil.mark := by
  unfold observe
  split_ifs
  · rw [vigil_signal, vigil_setUnhealthy]
    split_ifs
    · exact .inr rfl
    · exact .inl rfl
  · exact .inl rfl

/-- `finishExplicitActivation` of an activation that failed: recovery is scheduled again if the
current generation is unhealthy. -/
theorem vigil_finishExplicitActivation_false :
    ∃ unhealthy, (host.vigil.unhealthy = true → unhealthy = true) ∧
      (host.finishExplicitActivation done false).vigil =
        if unhealthy then
          ({ host.vigil with
            explicitActivations := host.explicitActivations - 1, unhealthy := true }).schedule
        else { host.vigil with explicitActivations := host.explicitActivations - 1 } := by
  unfold finishExplicitActivation generationHealth
  by_cases hu : (host.generation host.current).unhealthy = true
  · refine ⟨true, fun _ => rfl, ?_⟩
    simp only [hu, if_true, if_false, Bool.false_eq_true, vigil_signal]
    rw [vigil_scheduleRecovery _ rfl]
    simp [vigil, hu]
  · by_cases hd : candidateHealth done (host.generation host.current).candidates = true
    · refine ⟨true, fun _ => rfl, ?_⟩
      simp only [hu, hd, if_true, if_false, Bool.false_eq_true, vigil_signal]
      rw [vigil_scheduleRecovery _ rfl]
      have hmark := vigil_setUnhealthy
        { host with explicitActivations := host.explicitActivations - 1 } host.current
      rw [if_pos rfl] at hmark
      refine (congrArg Vigil.schedule hmark).trans ?_
      exact Vigil.schedule_schedule _
    · refine ⟨false, fun h => absurd h hu, ?_⟩
      simp only [hu, hd, if_false, Bool.false_eq_true, vigil_signal]
      rfl

@[simp] theorem vigil_queueCleanup (g attempt : ℕ) :
    (host.queueCleanup g attempt).vigil = host.vigil := by
  unfold queueCleanup
  dsimp only
  split_ifs
  · rfl
  all_goals exact host.vigil_setGeneration_same g { host.generation g with
      cleaning := true, cleanupTry := attempt, cleanupErr := false } rfl rfl

/-- A failed attempt of an episode of the current state is counted; any other one has lapsed. -/
theorem finishRecoveryFailure_cases (serial : ℕ) :
    (host.finishRecoveryFailure serial = (host, false) ∧
        ∀ e, host.recovery = some e → e.serial ≠ serial ∨ ¬ host.vigil.Fits e) ∨
      ∃ e exhausted, host.recovery = some e ∧
        (host.finishRecoveryFailure serial).1.vigil = { host.vigil with
          recovery := some
            { e with attempts := e.attempts + 1, failed := true, exhausted := exhausted } } ∧
        (host.finishRecoveryFailure serial).2 = !exhausted := by
  unfold finishRecoveryFailure
  cases hr : host.recovery with
  | none => exact .inl ⟨rfl, by simp⟩
  | some e =>
    by_cases hlapsed : (e.serial ≠ serial || !host.recoveryMatches e : Bool) = true
    · left
      refine ⟨by simp only [hlapsed, if_true], fun e' he' => ?_⟩
      cases he'
      rw [Bool.or_eq_true, decide_eq_true_iff, Bool.not_eq_true', ← Bool.not_eq_true,
        recoveryMatches_iff] at hlapsed
      exact hlapsed
    · right
      simp only [hlapsed, if_false, Bool.false_eq_true]
      exact ⟨e, _, rfl, rfl, rfl⟩

theorem vigil_retirePrevious (previous : ℕ) : (host.retirePrevious previous).vigil =
    host.vigil := by
  unfold retirePrevious
  split_ifs
  · rw [vigil_signal, vigil_queueCleanup]
  · rfl

variable (id : PlanID)

/-- The current generation after a publication is new and healthy, with no recovery episode. -/
theorem vigil_exchange (candidates : List ℕ) : (host.exchange id candidates).vigil =
      { host.vigil with
        current := host.generations, planID := id.val, unhealthy := false, recovery := none } := by
  simp [exchange, vigil, Generation.fresh]

theorem vigil_publishRecovery (candidates : List ℕ) : (host.publishRecovery id candidates).vigil =
      { host.vigil with
        current := host.generations, planID := id.val, unhealthy := false, recovery := none } := by
  unfold publishRecovery
  rw [vigil_retirePrevious, vigil_exchange]

theorem vigil_publishExplicit (candidates : List ℕ) (set : PluginSet) :
    (host.publishExplicit id candidates set).vigil =
      { host.vigil with
        current := host.generations
        planID := id.val
        unhealthy := false
        recovery := none
        desired := set
        hasDesired := true
        desiredRevision := host.desiredRevision + 1 } := by
  unfold publishExplicit
  rw [vigil_retirePrevious]
  simp [exchange, vigil, Generation.fresh]

theorem vigil_retainAborted (candidates : List ℕ) (hlt : host.current < host.generations) :
    (host.retainAborted candidates).vigil = host.vigil := by
  simp [retainAborted, signal, vigil, Function.update_of_ne hlt.ne]

theorem vigil_finishCleanup (k g : ℕ) (failed : Bool) :
    (host.finishCleanup k g failed).vigil = host.vigil :=
  host.vigil_setGeneration_same g { host.generation g with
    cleaning := false, cleanupErr := failed, cleaned := (host.generation g).cleaned || !failed }
    rfl rfl

theorem vigil_acquire (request : Option String) :
    (host.acquire done request).1.vigil = host.vigil ∨
      (host.vigil.unhealthy = false ∧ (host.acquire done request).1.vigil = host.vigil.mark) := by
  unfold acquire
  split_ifs
  · exact .inl rfl
  · cases host.select request with
    | none => exact .inl rfl
    | some g =>
      simp only
      split_ifs
      · exact host.vigil_generationHealth done g
      · rw [vigil_signal, vigil_setGeneration_same _ _ _ (by rfl) (by rfl)]
        exact host.vigil_generationHealth done g
      · exact .inl rfl

theorem vigil_release (g : ℕ) : (host.release g).vigil = host.vigil := by
  unfold release
  dsimp only
  split_ifs
  · rw [vigil_signal, vigil_queueCleanup, vigil_setGeneration_same _ _ _ (by rfl) (by rfl)]
  · rw [vigil_signal, vigil_setGeneration_same _ _ _ (by rfl) (by rfl)]

theorem vigil_beginClose :
    host.beginClose.1.vigil =
      if host.closing then host.vigil else { host.vigil.cancel with closing := true } := by
  unfold beginClose
  by_cases hc : host.closing = true
  · simp only [hc, if_true, vigil]
  · simp only [hc, if_false, Bool.false_eq_true]
    exact Host.vigil_setGeneration_same { host with closing := true }.cancelRecovery host.current
      { host.generation host.current with current := false } rfl rfl

theorem vigil_queueCleanups (attempt : ℕ) : (host.queueCleanups attempt).vigil = host.vigil := by
  unfold queueCleanups
  generalize host.owned.sort (· ≤ ·) = gs
  induction gs generalizing host with
  | nil => rfl
  | cons g gs ih =>
    rw [List.foldl_cons, ih]
    split_ifs
    · exact host.vigil_queueCleanup g attempt
    · rfl

theorem vigil_closeProgress (attempt : ℕ) (controllerDone : Bool) :
    (host.closeProgress attempt controllerDone).1.vigil = host.vigil ∨
      (host.closeProgress attempt controllerDone).1.vigil =
        { host.vigil with desired := PluginSet.empty, hasDesired := false } := by
  unfold closeProgress
  dsimp only
  split_ifs
  · exact .inl (host.vigil_queueCleanups attempt)
  · right
    show { (host.queueCleanups attempt).vigil with
      desired := PluginSet.empty, hasDesired := false } = _
    rw [vigil_queueCleanups]
  · exact .inl (host.vigil_queueCleanups attempt)
  · exact .inl (host.vigil_queueCleanups attempt)
  · exact .inl rfl
  · exact .inr rfl
  · exact .inl rfl
  · exact .inl rfl

end Host

end SpiceAgent.Pluginhost
