import SpiceAgent.PluginHost.HostInvariant

/-!
# Automatic recovery

A generation that is marked unhealthy while it is current is replaced by the recovery controller.
Marking it schedules an episode unless an explicit activation runs; the end of that activation
schedules it again if the activation failed. It does not if the activation succeeded, so a candidate
of the new generation that stops before `finishExplicitActivation` is never replaced
(`recovery_lost`). In the runs without such an end recovery is never lost (`recovery_recorded`).
Between its attempts the controller waits for the backoff of the policy.
-/

namespace SpiceAgent.Pluginhost

open Lib

variable {K : CandidateKind}

namespace Helm

theorem Move.enabled {h h' : Helm} (hmove : Move h h') : h'.vigil.enabled = h.vigil.enabled := by
  have hschedule : ∀ v : Vigil, v.schedule.enabled = v.enabled := by
    intro v
    rcases v.schedule_cases with hv | ⟨_, hv⟩
    · rw [hv]
    · rw [hv]
      rfl
  cases hmove with
  | mark => exact hschedule _
  | abandon t unhealthy =>
    cases unhealthy with
    | true => exact hschedule _
    | false => rfl
  | idle | begin | close | forget | wake | stop | rest | recover | timer | giveUp | stage |
    succeed | lapse | fail | resume => rfl

end Helm

namespace World

variable {w w' : World K} {p : Party}

/-- The recovery of the current generation is recorded, and while it is neither exhausted nor run by
the controller a wake-up is pending. -/
def RecoveryRecorded (w : World K) : Prop :=
  w.host.closing = false → w.host.hasDesired = true → w.host.explicitActivations = 0 →
    (w.host.generation w.host.current).unhealthy = true →
    ∃ e, w.host.recovery = some e ∧ e.generation = w.host.current ∧
      (e.exhausted = false → ¬ w.controller.Runs e.serial → w.host.recoveryWake = true)

/-- The last successful activation to end finds the current generation healthy. -/
def EndsHealthy (w : World K) (label : HostLabel K.Input) : Prop :=
  ∀ t, label = .finish t → w.phase (.activation t) = some (.ended true) →
    w.host.explicitActivations = 1 → (w.host.generation w.host.current).unhealthy = false

theorem kept_published {id : PlanID} {cs : List ℕ} {ended : Bool} {host : Host}
    (hkept : w.helm.Kept) (hp : w.phase p = some (.staged id cs))
    (hhost : Published w id cs ended p host) :
    Helm.Kept { (w.setPhase p (.ended true)).helm with vigil := host.vigil } := by
  obtain ⟨v, hv, _, _, hepisodes, _, hphase⟩ := helm_published hp hhost
  have hnone : host.vigil.recovery = none := by
    rw [hv]
    rfl
  have hepisodes : host.vigil.episodes = w.helm.vigil.episodes := by
    rw [hv]
    exact hepisodes
  refine ⟨?_, ?_, ?_, ?_⟩
  · intro e he
    cases hnone.symm.trans he
  · intro s hs
    rw [show Vigil.episodes _ = _ from hepisodes]
    apply hkept.serial s
    rcases hphase with ⟨_, _, hhelm⟩ | ⟨s', phase, _, hc, hhelm⟩
    · rw [hhelm] at hs
      exact hs
    · rw [hhelm] at hs
      show w.controller.serial = some s
      rw [hc]
      exact hs
  · intro s d e _ he
    cases hnone.symm.trans he
  · intro e he
    cases hnone.symm.trans he

theorem step_armed (hok : w.Ok) (hkept : w.helm.Kept ∧ w.helm.Armed ∧ w.helm.vigil.enabled = true)
    {label : HostLabel K.Input} (hends : w.EndsHealthy label) (h : w.step label = some w') :
    w'.helm.Kept ∧ w'.helm.Armed ∧ w'.helm.vigil.enabled = true := by
  obtain ⟨hkept, harmed, henabled⟩ := hkept
  rcases step_helm hok.current_lt h with hmove | ⟨t, hlabel, hphase, ht, hfinish⟩ |
    ⟨p, id, cs, ended, host, _, hp, hhost, rfl⟩
  · exact ⟨hmove.kept hok.calls hkept, hmove.armed harmed, hmove.enabled.trans henabled⟩
  · rw [hfinish]
    refine ⟨hkept.finished hok.calls ht, ?_, henabled⟩
    intro hdue
    have hpos := hok.calls.pos ht
    have hone : w.host.explicitActivations = 1 := by
      have hzero : w.host.explicitActivations - 1 = 0 := hdue.2.1
      have hne : w.host.explicitActivations ≠ 0 := hpos
      omega
    have hunhealthy : (w.host.generation w.host.current).unhealthy = true := hdue.2.2.2.2
    rw [hends t hlabel hphase hone] at hunhealthy
    cases hunhealthy
  · obtain ⟨v, hv, _, _, _, hsame, _⟩ := helm_published hp hhost
    refine ⟨kept_published hkept hp hhost, ?_, ?_⟩
    · intro hdue
      have hunhealthy : host.vigil.unhealthy = true := hdue.2.2.2.2
      rw [hv] at hunhealthy
      exact absurd hunhealthy nofun
    · show host.vigil.enabled = true
      rw [hv]
      exact hsame.trans henabled

theorem armed_init {restart : RestartPolicy} (henabled : restart.enabled = true) (digest : String) :
    (World.init K restart digest).helm.Kept ∧ (World.init K restart digest).helm.Armed ∧
      (World.init K restart digest).helm.vigil.enabled = true := by
  have hcontroller : (World.init K restart digest).controller = .selecting := if_pos henabled
  refine ⟨⟨?_, ?_, ?_, ?_⟩, ?_, henabled⟩
  · intro e he
    exact absurd he nofun
  · intro s hs
    rw [show (World.init K restart digest).helm.controller = _ from hcontroller] at hs
    exact absurd hs nofun
  · intro s d e _ he
    exact absurd he nofun
  · intro e he
    exact absurd he nofun
  · intro hdue
    exact absurd hdue.2.2.2.1 nofun

end World

/-- Automatic recovery is never lost in the runs in which no successful activation ends on a current
generation that is already unhealthy. -/
theorem recovery_recorded {restart : RestartPolicy} (henabled : restart.enabled = true)
    {digest : String} {w : World K}
    (h : (hostSystem K restart digest).ReachableIf World.EndsHealthy w) : w.RecoveryRecorded := by
  have hinv : w.helm.Kept ∧ w.helm.Armed ∧ w.helm.vigil.enabled = true := by
    refine h.invariant (I := fun w => w.helm.Kept ∧ w.helm.Armed ∧ w.helm.vigil.enabled = true)
      (World.armed_init henabled digest) ?_
    intro s l t hs hI hC hst
    exact World.step_armed (World.reachable_ok hs) hI hC hst
  obtain ⟨hkept, harmed, henabled⟩ := hinv
  intro hclosing hdesired hexplicit hunhealthy
  have hsome := harmed ⟨hclosing, hexplicit, henabled, hdesired, hunhealthy⟩
  obtain ⟨e, he⟩ := Option.ne_none_iff_exists'.mp hsome
  refine ⟨e, he, (hkept.fits e he).1.2.2.1.symm, ?_⟩
  intro hexhausted hruns
  exact (hkept.runs e he hexhausted).resolve_right hruns

/-! ## The backoff of an attempt -/

/-- `MaximumOperationTimeout`, a day in nanoseconds. -/
def maximumOperationTimeout : Int64 := 24 * 60 * 60 * 10 ^ 9

def maximumRestartAttempts : ℕ := 8

namespace RestartPolicy

/-- `Validate`; `none` is the nil error. -/
def validate (policy : RestartPolicy) : Option String :=
  if policy = ⟨0, 0, 0, 0⟩ then none
  else if policy.maximumAttempts = 0 ∨ maximumRestartAttempts < policy.maximumAttempts then
    some "runtime plugin restart maximum attempts is out of range"
  else if policy.initialBackoff ≤ 0 ∨ maximumOperationTimeout < policy.initialBackoff then
    some "runtime plugin restart initial backoff is out of range"
  else if policy.maximumBackoff < policy.initialBackoff ∨
      maximumOperationTimeout < policy.maximumBackoff then
    some "runtime plugin restart maximum backoff is out of range"
  else if policy.attemptTimeout ≤ 0 ∨ maximumOperationTimeout < policy.attemptTimeout then
    some "runtime plugin restart attempt timeout is out of range"
  else none

variable {policy : RestartPolicy} {value : Int64}

theorem toInt_min (a b : Int64) : (min a b).toInt = min a.toInt b.toInt := by
  rw [min_def]
  exact (apply_ite Int64.toInt ..).trans (if_congr Int64.le_iff_toInt_le rfl rfl)

theorem toInt_half {d : Int64} (h : 0 ≤ d.toInt) : (d / 2).toInt = d.toInt / 2 := by
  have hlt := d.toInt_lt
  rw [Int64.toInt_div, show (2 : Int64).toInt = 2 from rfl, Int.tdiv_eq_ediv_of_nonneg h,
    Int.bmod_eq_of_le_mul_two (by omega) (by omega)]

theorem toInt_double {d : Int64} (h : 0 ≤ d.toInt) (hlt : d.toInt * 2 < 2 ^ 63) :
    (d * 2).toInt = d.toInt * 2 := by
  rw [Int64.toInt_mul, show (2 : Int64).toInt = 2 from rfl,
    Int.bmod_eq_of_le_mul_two (by omega) (by omega)]

theorem backoffFrom_head (n : ℕ) (value : Int64) :
    (policy.backoffFrom n value).1.head? = some value := by
  cases n with
  | zero => rfl
  | succ n =>
    rw [backoffFrom]
    split_ifs <;> rfl

/-- The loop variable is doubled without overflow, and the loop returns the power or the maximum. -/
theorem backoffFrom_eq (n : ℕ) (hvalue : 0 ≤ value.toInt) :
    (policy.backoffFrom n value).2.toInt =
        min policy.maximumBackoff.toInt (value.toInt * 2 ^ n) ∧
      (policy.backoffFrom n value).1.IsChain fun value next => next.toInt = value.toInt * 2 := by
  induction n generalizing value with
  | zero =>
    rw [backoffFrom, toInt_min, pow_zero, mul_one, min_comm]
    exact ⟨rfl, .singleton _⟩
  | succ n ih =>
    have hpow : value.toInt * 2 ≤ value.toInt * 2 ^ (n + 1) :=
      mul_le_mul_of_nonneg_left (le_self_pow₀ one_le_two n.succ_ne_zero) hvalue
    rw [backoffFrom]
    split_ifs with hless hhalf
    · rw [Int64.lt_iff_toInt_lt] at hless
      rw [gt_iff_lt, Int64.lt_iff_toInt_lt, toInt_half (by omega)] at hhalf
      have hmaximum : policy.maximumBackoff.toInt ≤ value.toInt * 2 ^ (n + 1) := by omega
      exact ⟨(min_eq_left hmaximum).symm, .singleton _⟩
    · rw [Int64.lt_iff_toInt_lt] at hless
      rw [gt_iff_lt, Int64.lt_iff_toInt_lt, toInt_half (by omega)] at hhalf
      have hdouble := toInt_double hvalue (by have := policy.maximumBackoff.toInt_lt; omega)
      obtain ⟨hresult, hvalues⟩ := @ih (value * 2) (by omega)
      rw [hdouble, mul_assoc, ← pow_succ'] at hresult
      refine ⟨hresult, List.isChain_cons.mpr ⟨?_, hvalues⟩⟩
      intro next hnext
      rw [backoffFrom_head, Option.mem_some_iff] at hnext
      rw [← hnext, hdouble]
    · rw [Int64.lt_iff_toInt_lt, not_lt] at hless
      refine ⟨?_, .singleton _⟩
      rw [toInt_min, min_eq_right hless, min_eq_left (by omega)]

theorem bounds_of_validate (h : policy.validate = none) :
    0 ≤ policy.initialBackoff.toInt ∧ policy.initialBackoff.toInt ≤
      policy.maximumBackoff.toInt := by
  unfold validate at h
  split_ifs at h with hzero _ hinitial hmaximum
  · rw [hzero]
    decide
  · rw [not_or, Int64.le_iff_toInt_le, not_le] at hinitial
    rw [not_or, Int64.lt_iff_toInt_lt, not_lt] at hmaximum
    exact ⟨hinitial.1.le, hmaximum.1⟩

/-- The first attempt starts at once, and each later one waits twice as long as the one before it,
up to the maximum. No doubling overflows. -/
theorem backoff_closed_form (hvalid : policy.validate = none) :
    (∀ attempt, (policy.backoff attempt).toInt =
      if attempt ≤ 1 then 0
      else min policy.maximumBackoff.toInt (policy.initialBackoff.toInt * 2 ^ (attempt - 2))) ∧
    (∀ attempt, (policy.backoffFrom (attempt - 2) policy.initialBackoff).1.IsChain
      fun value next => next.toInt = value.toInt * 2) ∧
    Monotone fun attempt => (policy.backoff attempt).toInt := by
  obtain ⟨hinitial, hmaximum⟩ := bounds_of_validate hvalid
  have hclosed : ∀ attempt, (policy.backoff attempt).toInt = if attempt ≤ 1 then 0
      else min policy.maximumBackoff.toInt (policy.initialBackoff.toInt * 2 ^ (attempt - 2)) := by
    intro attempt
    rw [backoff, apply_ite Int64.toInt, (backoffFrom_eq _ hinitial).1]
    rfl
  refine ⟨hclosed, fun attempt => (backoffFrom_eq _ hinitial).2, fun attempt attempt' hle => ?_⟩
  simp only [hclosed]
  split_ifs
  · exact le_rfl
  · exact le_min (hinitial.trans hmaximum) (mul_nonneg hinitial (pow_nonneg zero_le_two _))
  · omega
  · have hpow : (2 : ℤ) ^ (attempt - 2) ≤ 2 ^ (attempt' - 2) :=
      pow_le_pow_right₀ one_le_two (Nat.sub_le_sub_right hle 2)
    exact min_le_min_left _ (mul_le_mul_of_nonneg_left hpow hinitial)

/-- The fifth attempt waits the maximum, which the fourth reaches. -/
theorem backoff_closed_form_fifth :
    (⟨5, 250, 1000, 1⟩ : RestartPolicy).validate = none ∧
      ((⟨5, 250, 1000, 1⟩ : RestartPolicy).backoff 5).toInt = 1000 := by
  have hvalid : (⟨5, 250, 1000, 1⟩ : RestartPolicy).validate = none := by decide
  exact ⟨hvalid, (backoff_closed_form hvalid).1 5⟩

end RestartPolicy

/-! ## Runs -/

/-- Candidates that start, stop when they change, and close without error. -/
def plainKind : CandidateKind where
  State := Bool
  Input := Unit
  start _ _ := (some false, true)
  done stopped := stopped
  close _ _ := (true, true)
  change _ _ := true

def defaultRestartPolicy : RestartPolicy := ⟨3, 250000000, 1000000000, 30000000000⟩

abbrev plainHost := hostSystem plainKind defaultRestartPolicy ""

def oneExecutable : PluginSet := ⟨["one"], by decide, by decide⟩

/-- The steps of an activation up to its publication. -/
def publishOne (t : ℕ) : List (HostLabel Unit) :=
  [.activate t oneExecutable, .attempt (.activation t) .begin, .attempt (.activation t) (.start ()),
    .attempt (.activation t) (.compose (some "")), .attempt (.activation t) .leave,
    .attempt (.activation t) (.publish false)]

/-- A check of `World.EndsHealthy`. -/
def endsHealthy (w : World plainKind) : HostLabel Unit → Bool
  | .finish t => w.phase (.activation t) ≠ some (.ended true) || w.host.explicitActivations ≠ 1 ||
      !(w.host.generation w.host.current).unhealthy
  | _ => true

theorem endsHealthy_sound (w : World plainKind) (label : HostLabel Unit)
    (h : endsHealthy w label = true) : w.EndsHealthy label := by
  rintro t rfl hphase hone
  simpa [endsHealthy, hphase, hone] using h

/-- A crash after the activation has ended is recovered. -/
theorem recovery_recorded_crash : ∃ w,
    plainHost.ReachableIf World.EndsHealthy w ∧
      (w.host.generation w.host.current).unhealthy = true ∧ w.host.explicitActivations = 0 ∧
      w.host.hasDesired = true ∧ w.host.closing = false ∧ w.RecoveryRecorded := by
  have hrun : plainHost.checkedRun endsHealthy plainHost.init
      (publishOne 0 ++ [.finish 0, .change 0 (), .observe 1 0]) = some _ := rfl
  have hreach := System.ReachableIf.init.checkedRun endsHealthy_sound hrun
  exact ⟨_, hreach, rfl, rfl, rfl, rfl, recovery_recorded (by decide) hreach⟩

/-- A candidate that stops between the publication and the end of its activation is not
recovered. -/
theorem recovery_lost : ∃ w, plainHost.Reachable w ∧ ¬ w.RecoveryRecorded := by
  have hrun : plainHost.after
      (publishOne 0 ++ [.change 0 (), .observe 1 0, .finish 0]) = some _ := rfl
  refine ⟨_, System.reachable_of_run hrun, ?_⟩
  intro hrecorded
  obtain ⟨e, he, _⟩ := hrecorded rfl rfl rfl rfl
  cases he

end SpiceAgent.Pluginhost
