import Mathlib.Data.Set.Card
import SpiceAgent.PluginHost.Vigil

/-!
# Who may change the current generation

`Helm` is what the explicit activations and the recovery controller do to a `Vigil`. Its moves say
everything that happens to it except a publication and the end of the activation that made it.
`Helm.CallsOk` counts and orders the explicit activations, `Helm.Kept` says that a recovery episode
is attempted or has a wake-up, and `Helm.Armed` that there is one wherever recovery is due.
-/

namespace SpiceAgent.Pluginhost

open Function (update update_apply)

/-- What recovery depends on, the controller, the revisions of the explicit activations that have
begun and those that have not returned. -/
structure Helm where
  vigil : Vigil
  controller : Controller
  revision : ℕ → Option ℕ
  running : Set ℕ

/-- The controller attempts the episode, or is about to read it. -/
def Controller.Runs (serial : ℕ) : Controller → Prop
  | .awake => True
  | .backingOff s _ => s = serial
  | .attempting s phase => s = serial ∧ phase ≠ .ended true
  | .leaving _ again => again = true
  | _ => False

def Controller.serial : Controller → Option ℕ
  | .backingOff s _ => some s
  | .attempting s _ => some s
  | .leaving s _ => some s
  | _ => none

namespace Vigil

/-- The end of a failed explicit activation, with the health it found. -/
def finish (v : Vigil) (unhealthy : Bool) : Vigil :=
  if unhealthy then
    ({ v with explicitActivations := v.explicitActivations - 1, unhealthy := true }).schedule
  else { v with explicitActivations := v.explicitActivations - 1 }

def begin (v : Vigil) : Vigil :=
  { v with
    explicitRevision := v.explicitRevision + 1
    explicitActivations := v.explicitActivations + 1 }.cancel

def exchange (v : Vigil) (g : ℕ) (id : String) : Vigil :=
  { v with current := g, planID := id, unhealthy := false, recovery := none }

end Vigil

namespace Helm

/-- The end of an explicit activation that published. -/
def finish (h : Helm) (t : ℕ) : Helm :=
  { h with
    vigil := { h.vigil with explicitActivations := h.vigil.explicitActivations - 1 }
    running := h.running \ {t} }

/-- Everything that happens to a helm except a publication and the end of the activation that made
it. -/
inductive Move : Helm → Helm → Prop
  | idle (h : Helm) : Move h h
  | begin (h : Helm) (t : ℕ) (ht : h.revision t = none) :
      Move h { h with
        vigil := h.vigil.begin
        revision := update h.revision t (some (h.vigil.explicitRevision + 1))
        running := insert t h.running }
  /-- The end of an activation that failed. -/
  | abandon (h : Helm) (t : ℕ) (unhealthy : Bool) (ht : t ∈ h.running)
      (hu : h.vigil.unhealthy = true → unhealthy = true) :
      Move h { h with vigil := h.vigil.finish unhealthy, running := h.running \ {t} }
  | mark (h : Helm) : Move h { h with vigil := h.vigil.mark }
  /-- `Close` begins. -/
  | close (h : Helm) : Move h { h with vigil := { h.vigil.cancel with closing := true } }
  /-- `Close` ends. -/
  | forget (h : Helm) :
      Move h { h with vigil := { h.vigil with desired := PluginSet.empty, hasDesired := false } }
  | wake (h : Helm) (hc : h.controller = .selecting) :
      Move h { h with vigil := { h.vigil with recoveryWake := false }, controller := .awake }
  | stop (h : Helm) (hclosing : h.vigil.closing = true) : Move h { h with controller := .stopped }
  /-- The controller finds no episode to attempt. -/
  | rest (h : Helm)
      (hnone : ∀ e, h.vigil.recovery = some e → e.exhausted = true ∨ h.vigil.closing = true) :
      Move h { h with controller := .selecting }
  | recover (h : Helm) {e : Episode} {c : Controller} (he : h.vigil.recovery = some e)
      (hc : c.Runs e.serial) (hs : c.serial = some e.serial) :
      Move h { h with
        vigil := { h.vigil with recovery := some { e with cancel := true }, cancelled := false }
        controller := c }
  | timer (h : Helm) {s : ℕ} {d : PluginSet} (hc : h.controller = .backingOff s d) :
      Move h { h with controller := .attempting s (.waiting d) }
  | giveUp (h : Helm) {s : ℕ} {d : PluginSet} (hc : h.controller = .backingOff s d)
      (hended : h.vigil.cancelled = true ∨ h.vigil.closing = true) :
      Move h { h with controller := .leaving s false }
  | stage (h : Helm) {s : ℕ} {phase phase' : AttemptPhase} (hc : h.controller = .attempting s phase)
      (hphase : phase ≠ .ended true) (hphase' : phase' ≠ .ended true) :
      Move h { h with controller := .attempting s phase' }
  | succeed (h : Helm) {s : ℕ} (hc : h.controller = .attempting s (.ended true)) :
      Move h { h with controller := .leaving s false }
  /-- A failed attempt of an episode that is no longer of the current state. -/
  | lapse (h : Helm) {s : ℕ} (hc : h.controller = .attempting s (.ended false))
      (hother : ∀ e, h.vigil.recovery = some e → e.serial ≠ s ∨ ¬ h.vigil.Fits e) :
      Move h { h with controller := .leaving s false }
  /-- A failed attempt. -/
  | fail (h : Helm) {s : ℕ} {e : Episode} {exhausted : Bool}
      (hc : h.controller = .attempting s (.ended false)) (he : h.vigil.recovery = some e) :
      Move h { h with
        vigil := { h.vigil with
          recovery := some
            { e with attempts := e.attempts + 1, failed := true, exhausted := exhausted } }
        controller := .leaving s !exhausted }
  | resume (h : Helm) {s : ℕ} {again : Bool} (hc : h.controller = .leaving s again) :
      Move h { h with
        vigil := { h.vigil with
          recovery := h.vigil.recovery.map fun (e : Episode) =>
            if e.serial = s then { e with cancel := false } else e
          cancelled := true }
        controller := if again then .awake else .selecting }

theorem Move.current {h h' : Helm} (hmove : Move h h') : h'.vigil.current = h.vigil.current := by
  have hschedule : ∀ v : Vigil, v.schedule.current = v.current := fun v => by
    rcases v.schedule_cases with hv | ⟨_, hv⟩ <;> rw [hv]
    rfl
  cases hmove with
  | mark => exact hschedule _
  | abandon t unhealthy => cases unhealthy <;> simp [Vigil.finish, hschedule]
  | idle | begin | close | forget | wake | stop | rest | recover | timer | giveUp | stage |
    succeed | lapse | fail | resume => rfl

/-! ## Explicit activations -/

/-- The explicit activations are counted, and revisions number them in the order in which they
began. -/
@[mk_iff] structure CallsOk (h : Helm) : Prop where
  count : h.running.encard = h.vigil.explicitActivations
  begun : ∀ t ∈ h.running, h.revision t ≠ none
  le : ∀ t r, h.revision t = some r → r ≤ h.vigil.explicitRevision
  injective : ∀ t t' r, h.revision t = some r → h.revision t' = some r → t = t'

namespace CallsOk

variable {h h' : Helm}

variable (hok : h.CallsOk)
include hok

theorem pos {t : ℕ} (ht : t ∈ h.running) : h.vigil.explicitActivations ≠ 0 := by
  intro hzero
  have hcount := hok.count
  rw [hzero, Nat.cast_zero, Set.encard_eq_zero] at hcount
  rw [hcount] at ht
  exact ht

theorem congr (hcount : h'.vigil.explicitActivations = h.vigil.explicitActivations)
    (hrevision : h'.vigil.explicitRevision = h.vigil.explicitRevision)
    (hrevisions : h'.revision = h.revision) (hrunning : h'.running = h.running) : h'.CallsOk := by
  simp only [callsOk_iff, hcount, hrevision, hrevisions, hrunning] at *
  exact hok

theorem begin {t : ℕ} (ht : h.revision t = none) :
    CallsOk { h with
      vigil := h.vigil.begin
      revision := update h.revision t (some (h.vigil.explicitRevision + 1))
      running := insert t h.running } := by
  have hnew : t ∉ h.running := fun hmem => hok.begun t hmem ht
  have hcount : (insert t h.running).encard = ((h.vigil.explicitActivations + 1 : ℕ) : ℕ∞) := by
    rw [Set.encard_insert_of_notMem hnew, hok.count]
    rfl
  simp only [callsOk_iff, Vigil.begin, Vigil.cancel, update_apply, Set.mem_insert_iff] at *
  refine ⟨hcount, ?_, ?_, ?_⟩
  all_goals grind

theorem finish {t : ℕ} (ht : t ∈ h.running) {v : Vigil}
    (hcount : v.explicitActivations = h.vigil.explicitActivations - 1)
    (hrevision : v.explicitRevision = h.vigil.explicitRevision) :
    CallsOk { h with vigil := v, running := h.running \ {t} } := by
  refine ⟨?_, fun t' ht' => hok.begun t' ht'.1, by rw [hrevision]; exact hok.le, hok.injective⟩
  have hpos := hok.pos ht
  have hcard := Set.encard_sdiff_singleton_add_one ht
  have hsucc : h.vigil.explicitActivations = v.explicitActivations + 1 := by omega
  rw [hok.count, hsucc, Nat.cast_add, Nat.cast_one] at hcard
  exact (ENat.add_left_injective_of_ne_top (by simp : (1 : ℕ∞) ≠ ⊤)) hcard

end CallsOk

theorem schedule_counts (v : Vigil) : v.schedule.explicitActivations = v.explicitActivations ∧
    v.schedule.explicitRevision = v.explicitRevision := by
  rcases v.schedule_cases with hv | ⟨_, hv⟩ <;> rw [hv] <;> exact ⟨rfl, rfl⟩

theorem finish_counts (v : Vigil) (unhealthy : Bool) :
    (v.finish unhealthy).explicitActivations = v.explicitActivations - 1 ∧
      (v.finish unhealthy).explicitRevision = v.explicitRevision := by
  cases unhealthy with
  | true => exact schedule_counts _
  | false => exact ⟨rfl, rfl⟩

theorem CallsOk.finished {h : Helm} (hok : h.CallsOk) {t : ℕ} (ht : t ∈ h.running) :
    (h.finish t).CallsOk := hok.finish ht rfl rfl

theorem Move.calls {h h' : Helm} (hmove : Move h h') (hok : h.CallsOk) : h'.CallsOk := by
  cases hmove with
  | begin t ht => exact hok.begin ht
  | abandon t unhealthy ht =>
    obtain ⟨hcount, hrevision⟩ := finish_counts h.vigil unhealthy
    exact hok.finish ht hcount hrevision
  | mark =>
    obtain ⟨hcount, hrevision⟩ := schedule_counts { h.vigil with unhealthy := true }
    exact hok.congr hcount hrevision rfl rfl
  | idle => exact hok
  | close | forget | wake | stop | rest | recover | timer | giveUp | stage | succeed | lapse |
    fail | resume => exact hok.congr rfl rfl rfl rfl

/-! ## Recovery -/

/-- The recovery episode is of the current state, and is attempted or has a wake-up. -/
@[mk_iff] structure Kept (h : Helm) : Prop where
  fits : ∀ e, h.vigil.recovery = some e → h.vigil.Fits e ∧ e.serial < h.vigil.episodes
  serial : ∀ s, h.controller.serial = some s → s < h.vigil.episodes
  cancelled : ∀ s d e, h.controller = .backingOff s d → h.vigil.recovery = some e → e.serial = s →
    h.vigil.cancelled = false
  runs : ∀ e, h.vigil.recovery = some e → e.exhausted = false →
    h.vigil.recoveryWake = true ∨ h.controller.Runs e.serial

/-- An episode is recorded wherever recovery is due. -/
def Armed (h : Helm) : Prop := h.vigil.Due → h.vigil.recovery ≠ none

namespace Kept

variable {h h' : Helm}

variable (hkept : h.Kept)
include hkept

theorem of_none (hnone : h'.vigil.recovery = none) (hcontroller : h'.controller = h.controller)
    (hepisodes : h'.vigil.episodes = h.vigil.episodes) : h'.Kept := by
  simp only [kept_iff, hnone, hcontroller, hepisodes] at *
  grind

theorem arm {v : Vigil} (hdue : v.Due) (hepisodes : v.episodes = h.vigil.episodes) :
    Kept { h with vigil := v.arm } := by
  have hserial := hkept.serial
  rw [← hepisodes] at hserial
  refine ⟨fun e he => ⟨Vigil.fits_arm hdue he, ?_⟩, fun s hs => Nat.lt_succ_of_lt (hserial s hs),
    fun s d e hc he hes => ?_, fun _ _ _ => .inl rfl⟩
  · cases he
    exact Nat.lt_succ_self _
  · cases he
    have := hserial s (by rw [show h.controller = _ from hc]; rfl)
    grind

theorem schedule {v : Vigil} (hsame : Kept { h with vigil := v })
    (hepisodes : v.episodes = h.vigil.episodes) : Kept { h with vigil := v.schedule } := by
  rcases v.schedule_cases with hv | ⟨hdue, hv⟩ <;> rw [hv]
  · exact hsame
  · exact hkept.arm hdue hepisodes

theorem recovery_none (hpos : h.vigil.explicitActivations ≠ 0) : h.vigil.recovery = none := by
  by_contra hne
  obtain ⟨e, he⟩ := Option.ne_none_iff_exists'.mp hne
  exact hpos (hkept.fits e he).1.2.1

theorem steer {c : Controller} (hserial : ∀ s, c.serial = some s →
      h.controller.serial = some s) (hbackoff : ∀ s d, c ≠ .backingOff s d)
    (hruns : ∀ e, h.vigil.recovery = some e → e.exhausted = false → h.controller.Runs e.serial →
      c.Runs e.serial) : Kept { h with controller := c } := by
  refine ⟨hkept.fits, fun s hs => hkept.serial s (hserial s hs), ?_, ?_⟩
  · intro s d e hc
    exact absurd hc (hbackoff s d)
  · intro e he hex
    exact (hkept.runs e he hex).imp_right (hruns e he hex)

end Kept

theorem Move.kept {h h' : Helm} (hmove : Move h h') (hcalls : h.CallsOk) (hkept : h.Kept) :
    h'.Kept := by
  -- a closing host has no episode
  have hopen : ∀ e, h.vigil.recovery = some e → h.vigil.closing = false :=
    fun e he => (hkept.fits e he).1.1
  cases hmove with
  | idle => exact hkept
  | begin => exact hkept.of_none rfl rfl rfl
  | abandon t unhealthy ht =>
    have hnone := hkept.recovery_none (hcalls.pos ht)
    cases unhealthy with
    | false => exact hkept.of_none hnone rfl rfl
    | true =>
      have hsame : Kept { h with vigil := { h.vigil with
          explicitActivations := h.vigil.explicitActivations - 1, unhealthy := true } } :=
        hkept.of_none hnone rfl rfl
      have hscheduled := hkept.schedule hsame rfl
      exact ⟨hscheduled.fits, hscheduled.serial, hscheduled.cancelled, hscheduled.runs⟩
  | mark =>
    refine hkept.schedule ⟨fun e he => ?_, hkept.serial, hkept.cancelled, hkept.runs⟩ rfl
    obtain ⟨⟨h1, h2, h3, h4, h5, h6, _⟩, hlt⟩ := hkept.fits e he
    exact ⟨⟨h1, h2, h3, h4, h5, h6, rfl⟩, hlt⟩
  | close => exact hkept.of_none rfl rfl rfl
  | forget => exact ⟨hkept.fits, hkept.serial, hkept.cancelled, hkept.runs⟩
  | wake hc => exact ⟨hkept.fits, nofun, nofun, fun _ _ _ => .inr trivial⟩
  | stop | rest => exact hkept.steer nofun nofun (by grind)
  | recover he hc hs =>
    have := hkept.fits _ he
    refine ⟨?_, ?_, fun _ _ _ _ _ _ => rfl, ?_⟩
    · rintro _ ⟨⟩
      exact this
    · grind
    · rintro _ ⟨⟩ _
      exact .inr hc
  | timer hc | giveUp hc | stage hc | succeed hc | lapse hc =>
    have hcancelled := hkept.cancelled
    have hfits := hkept.fits
    refine hkept.steer (by simp [hc, Controller.serial]) nofun ?_
    simp only [hc, Controller.Runs] at *
    grind
  | fail hc he =>
    have := hkept.fits _ he
    refine ⟨?_, fun s hs => hkept.serial s (by rw [hc]; exact hs), nofun, ?_⟩
    · rintro _ ⟨⟩
      exact this
    · rintro _ ⟨⟩ hex
      exact .inr (by simpa [Controller.Runs] using hex)
  | @resume s again hc =>
    -- the deferred section changes the cancel function of the episode only
    have hold : ∀ e', (h.vigil.recovery.map fun (e : Episode) =>
        if e.serial = s then { e with cancel := false } else e) = some e' →
        ∃ e, h.vigil.recovery = some e ∧ e.serial = e'.serial ∧ e.exhausted = e'.exhausted ∧
          (h.vigil.Fits e → h.vigil.Fits e') := by
      intro e' he'
      obtain ⟨e, he, heq⟩ := Option.map_eq_some_iff.mp he'
      refine ⟨e, he, ?_⟩
      split_ifs at heq <;> subst heq <;> exact ⟨rfl, rfl, fun hf => hf⟩
    refine ⟨fun e' he' => ?_, ?_, ?_, fun e' he' hex => ?_⟩
    · obtain ⟨e, he, hserial, _, hfits⟩ := hold e' he'
      exact ⟨hfits (hkept.fits e he).1, hserial ▸ (hkept.fits e he).2⟩
    · cases again <;> nofun
    · cases again <;> nofun
    · obtain ⟨e, he, hserial, hexhausted, _⟩ := hold e' he'
      refine (hkept.runs e he (hexhausted.trans hex)).imp_right fun hr => ?_
      rw [hc] at hr
      rw [show again = true from hr]
      trivial

theorem Kept.finished {h : Helm} (hkept : h.Kept) (hcalls : h.CallsOk) {t : ℕ}
    (ht : t ∈ h.running) : (h.finish t).Kept :=
  hkept.of_none (hkept.recovery_none (hcalls.pos ht)) rfl rfl

theorem Move.armed {h h' : Helm} (hmove : Move h h') (harmed : h.Armed) : h'.Armed := by
  -- scheduling records an episode wherever recovery is due
  have hschedule : ∀ v : Vigil, v.schedule.Due → v.schedule.recovery ≠ none := by
    intro v hdue hnone
    have hdue' : v.Due := by
      by_contra hnot
      exact hnot (Vigil.schedule_of_not_due hnot ▸ hdue)
    obtain ⟨e, he, _⟩ := Vigil.schedule_of_due hdue'
    cases he.symm.trans hnone
  cases hmove with
  | idle => exact harmed
  | begin => exact fun hdue => absurd hdue.2.1 (Nat.succ_ne_zero _)
  | abandon t unhealthy ht hu =>
    cases unhealthy with
    | false => exact fun hdue => absurd (hu hdue.2.2.2.2) nofun
    | true => exact hschedule _
  | mark => exact hschedule _
  | close => exact fun hdue => absurd hdue.1 nofun
  | forget => exact fun hdue => absurd hdue.2.2.2.1 nofun
  | recover | fail => simp [Armed]
  | resume hc => exact fun hdue hnone => harmed hdue (Option.map_eq_none_iff.mp hnone)
  | wake | stop | rest | timer | giveUp | stage | succeed | lapse => exact harmed

end Helm

end SpiceAgent.Pluginhost
