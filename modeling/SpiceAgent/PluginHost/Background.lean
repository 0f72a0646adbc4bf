import SpiceAgent.PluginHost.Generations

/-!
# Steps outside staging calls

`Host.Calm` says what the critical sections outside staging calls do to a host while closes succeed:
they add no generation and begin no staging, no failed cleanup is recorded, and a host that was busy
stays busy unless the change is signalled. `World.Quiet` says the same of the goroutines: the
staging calls stay where they are. The activation token is counted in `World.TokenOk`.
-/

namespace SpiceAgent.Pluginhost

open Lib Function Option
open AttemptPhase

variable {K : CandidateKind}

namespace Host

variable {h h' h'' : Host}

/-- Something that `closeProgress` waits for besides the recovery controller. -/
def Busy (h : Host) : Prop :=
  h.activations ≠ 0 ∨ h.explicitActivations ≠ 0 ∨
    ∃ g ∈ h.owned, (h.generation g).refs ≠ 0 ∨ (h.generation g).cleaning = true

/-- The host stays busy, or the change is signalled. -/
def Announces (h h' : Host) : Prop :=
  h.changed < h'.changed ∨ (h'.changed = h.changed ∧ (h.Busy → h'.Busy))

/-- No cleanup has failed, and only those that have started have the number of an attempt. -/
structure Faultless (h : Host) : Prop where
  errs : ∀ g, (h.generation g).cleanupErr = false
  closers : ∀ k c, h.cleanups k = some c → c.closer.failed = false ∧ c.closer.tried = false
  tries : ∀ g, (h.generation g).retired = false → (h.generation g).cleanupTry = 0

theorem Announces.refl (h : Host) : h.Announces h := .inr ⟨rfl, id⟩

theorem Announces.trans (h₁ : h.Announces h') (h₂ : h'.Announces h'') : h.Announces h'' := by
  rcases h₁ with hlt₁ | ⟨heq₁, hbusy₁⟩
  · rcases h₂ with hlt₂ | ⟨heq₂, _⟩
    · exact .inl (hlt₁.trans hlt₂)
    · exact .inl (heq₂ ▸ hlt₁)
  · rcases h₂ with hlt₂ | ⟨heq₂, hbusy₂⟩
    · exact .inl (heq₁ ▸ hlt₂)
    · exact .inr ⟨heq₂.trans heq₁, hbusy₂ ∘ hbusy₁⟩

theorem announces_signal (h h' : Host) (hle : h.changed ≤ h'.changed) : h.Announces h'.signal :=
  .inl (Nat.lt_succ_of_le hle)

theorem Faultless.congr (hf : h.Faultless) (hcleanups : h'.cleanups = h.cleanups)
    (hgeneration : ∀ g, (h'.generation g).cleanupErr = (h.generation g).cleanupErr ∧
      (h'.generation g).retired = (h.generation g).retired ∧
      (h'.generation g).cleanupTry = (h.generation g).cleanupTry) : h'.Faultless where
  errs g := (hgeneration g).1.trans (hf.errs g)
  closers := by
    rw [hcleanups]
    exact hf.closers
  tries g hg := by
    rw [(hgeneration g).2.2]
    exact hf.tries g ((hgeneration g).2.1.symm.trans hg)

/-- What a critical section outside staging calls does. -/
structure Calm (h h' : Host) : Prop where
  generations : h'.generations = h.generations
  activations : h'.activations = h.activations
  faultless : h.Faultless → h'.Faultless
  announces : h.Announces h'

theorem Calm.refl (h : Host) : h.Calm h := ⟨rfl, rfl, id, .refl h⟩

theorem Calm.trans (h₁ : h.Calm h') (h₂ : h'.Calm h'') : h.Calm h'' where
  generations := h₂.generations.trans h₁.generations
  activations := h₂.activations.trans h₁.activations
  faultless := h₂.faultless ∘ h₁.faultless
  announces := h₁.announces.trans h₂.announces

theorem Calm.congr (hgeneration : h'.generation = h.generation)
    (hgenerations : h'.generations = h.generations) (howned : h'.owned = h.owned)
    (hcleanups : h'.cleanups = h.cleanups) (hactivations : h'.activations = h.activations)
    (hexplicit : h'.explicitActivations = h.explicitActivations) (hle : h.changed ≤ h'.changed) :
    h.Calm h' where
  generations := hgenerations
  activations := hactivations
  faultless hf := hf.congr hcleanups fun g => by rw [hgeneration]; exact ⟨rfl, rfl, rfl⟩
  announces := by
    rcases hle.lt_or_eq with hlt | heq
    · exact .inl hlt
    · refine .inr ⟨heq.symm, fun hbusy => ?_⟩
      unfold Busy at hbusy ⊢
      rw [hgeneration, howned, hactivations, hexplicit]
      exact hbusy

variable {g : ℕ} {x : Generation}

theorem Faultless.setGeneration (hf : h.Faultless)
    (herr : x.cleanupErr = (h.generation g).cleanupErr)
    (hretired : x.retired = (h.generation g).retired)
    (htry : x.cleanupTry = (h.generation g).cleanupTry) : (h.setGeneration g x).Faultless :=
  hf.congr rfl (forall_value_update (P := fun g (x : Generation) =>
    x.cleanupErr = (h.generation g).cleanupErr ∧ x.retired = (h.generation g).retired ∧
      x.cleanupTry = (h.generation g).cleanupTry) ⟨herr, hretired, htry⟩ fun _ _ => ⟨rfl, rfl, rfl⟩)

theorem errs_setGeneration (hf : h.Faultless) (hx : x.cleanupErr = false) :
    ∀ g', ((h.setGeneration g x).generation g').cleanupErr = false :=
  forall_value_update (P := fun _ (x : Generation) => x.cleanupErr = false) hx fun g' _ =>
    hf.errs g'

theorem tries_setGeneration (hf : h.Faultless) (hx : x.retired = false → x.cleanupTry = 0) :
    ∀ g', ((h.setGeneration g x).generation g').retired =
      false → ((h.setGeneration g x).generation g').cleanupTry = 0 :=
  forall_value_update (P := fun _ (x : Generation) => x.retired = false → x.cleanupTry = 0) hx
    fun g' _ => hf.tries g'

/-- A host in which one generation changes stays busy if that generation does. -/
theorem Busy.setGeneration (hbusy : h.Busy)
    (hx : (h.generation g).refs ≠ 0 ∨ (h.generation g).cleaning = true →
      x.refs ≠ 0 ∨ x.cleaning = true) : (h.setGeneration g x).Busy := by
  rcases hbusy with hbusy | hbusy | ⟨g', hg', hbusy⟩
  · exact .inl hbusy
  · exact .inr (.inl hbusy)
  · refine .inr (.inr ⟨g', hg', ?_⟩)
    by_cases hg : g' = g
    · subst hg
      simpa [Host.setGeneration] using hx hbusy
    · simpa [Host.setGeneration, hg] using hbusy

theorem Calm.signal (hcalm : h.Calm h') : h.Calm h'.signal :=
  hcalm.trans (.congr rfl rfl rfl rfl rfl rfl (Nat.le_succ _))

variable (h)

theorem calm_setUnhealthy (g : ℕ) :
    h.Calm (h.setGeneration g { h.generation g with unhealthy := true }) where
  generations := rfl
  activations := rfl
  faultless hf := hf.setGeneration rfl rfl rfl
  announces := .inr ⟨rfl, fun hbusy => hbusy.setGeneration id⟩

theorem calm_scheduleRecovery (g : ℕ) : h.Calm (h.scheduleRecovery g) := by
  unfold Host.scheduleRecovery
  split_ifs
  · exact .refl h
  · exact .refl h
  · exact .congr rfl rfl rfl rfl rfl rfl (Nat.le_succ _)

variable (done : ℕ → Bool)

theorem calm_generationHealth (g : ℕ) : h.Calm (h.generationHealth done g).1 := by
  unfold Host.generationHealth
  split_ifs
  · exact .refl h
  · exact (calm_setUnhealthy h g).trans (calm_scheduleRecovery _ g)
  · exact .refl h

theorem calm_finishExplicitActivation (succeeded : Bool) :
    h.Calm (h.finishExplicitActivation done succeeded) := by
  let h₀ : Host := { h with explicitActivations := h.explicitActivations - 1 }
  have hfaultless : h.Faultless → h₀.Faultless := fun hf => hf.congr rfl fun _ => ⟨rfl, rfl, rfl⟩
  -- whatever follows, the end is signalled
  have hend : ∀ h₁ : Host, h₀.Calm h₁ → h.Calm h₁.signal := by
    intro h₁ hcalm
    refine ⟨hcalm.generations, hcalm.activations, fun hf => ?_, announces_signal h h₁ ?_⟩
    · exact (hcalm.faultless (hfaultless hf)).congr rfl fun _ => ⟨rfl, rfl, rfl⟩
    · rcases hcalm.announces with hlt | ⟨heq, _⟩
      · exact hlt.le
      · exact heq.ge
  unfold Host.finishExplicitActivation
  dsimp only
  split_ifs
  · exact hend h₀ (.refl h₀)
  · exact hend _ ((calm_generationHealth h₀ done _).trans (calm_scheduleRecovery _ _))
  · exact hend _ (calm_generationHealth h₀ done _)

theorem calm_finishRecoveryFailure (serial : ℕ) : h.Calm (h.finishRecoveryFailure serial).1 := by
  unfold Host.finishRecoveryFailure
  split
  · exact .refl h
  · split_ifs
    · exact .refl h
    · exact .congr rfl rfl rfl rfl rfl rfl (Nat.le_succ _)

theorem calm_observe (g : ℕ) : h.Calm (h.observe g) := by
  unfold Host.observe
  split_ifs
  · exact ((calm_setUnhealthy h g).trans (calm_scheduleRecovery _ g)).signal
  · exact .refl h

theorem calm_queueCleanup (g attempt : ℕ) : h.Calm (h.queueCleanup g attempt) := by
  unfold Host.queueCleanup
  dsimp only
  split
  · exact .refl h
  · refine ⟨rfl, rfl, fun hf => ⟨?_, ?_, ?_⟩, .inr ⟨rfl, fun hbusy => ?_⟩⟩
    · exact errs_setGeneration hf rfl
    · exact forall_update (fun k c _ hk => hf.closers k c hk) ⟨rfl, rfl⟩
    · exact tries_setGeneration hf nofun
    · exact hbusy.setGeneration fun _ => .inr rfl

theorem calm_queueCleanups (attempt : ℕ) : h.Calm (h.queueCleanups attempt) := by
  unfold Host.queueCleanups
  generalize h.owned.sort (· ≤ ·) = gs
  induction gs generalizing h with
  | nil => exact .refl h
  | cons g gs ih =>
    rw [List.foldl_cons]
    refine Calm.trans ?_ (ih _)
    split_ifs
    · exact calm_queueCleanup h g attempt
    · exact .refl h

theorem calm_closeProgress (attempt : ℕ) (controllerDone : Bool) :
    h.Calm (h.closeProgress attempt controllerDone).1 := by
  have hqueue := calm_queueCleanups h attempt
  have hend : ∀ h₁ : Host, h.Calm h₁ →
      h.Calm { h₁ with desired := PluginSet.empty, hasDesired := false, stopped := true } :=
    fun h₁ hcalm => hcalm.trans (.congr rfl rfl rfl rfl rfl rfl (le_refl _))
  unfold Host.closeProgress
  dsimp only
  split_ifs
  all_goals first
    | exact .refl h
    | exact hqueue
    | exact hend _ hqueue
    | exact hend _ (.refl h)

theorem calm_setRefs (g refs : ℕ) :
    h.Calm (h.setGeneration g { h.generation g with refs := refs }).signal where
  generations := rfl
  activations := rfl
  faultless hf :=
    (hf.setGeneration (g := g) (x := { h.generation g with refs := refs }) rfl rfl rfl).congr
    rfl fun _ => ⟨rfl, rfl, rfl⟩
  announces := announces_signal h _ (le_refl _)

theorem calm_acquire (request : Option String) : h.Calm (h.acquire done request).1 := by
  unfold Host.acquire
  split_ifs
  · exact .refl h
  · split
    · exact .refl h
    · dsimp only
      split_ifs
      · exact calm_generationHealth h done _
      · exact (calm_generationHealth h done _).trans (calm_setRefs _ _ _)
      · exact .refl h

theorem calm_release (g : ℕ) : h.Calm (h.release g) := by
  let h₀ : Host := h.setGeneration g { h.generation g with refs := (h.generation g).refs - 1 }
  have hrefs := calm_setRefs h g ((h.generation g).refs - 1)
  have hqueue := calm_queueCleanup h₀ g 0
  unfold Host.release
  dsimp only
  split_ifs
  · refine ⟨hqueue.generations, hqueue.activations, fun hf => ?_, ?_⟩
    · have hf₀ : h₀.Faultless := (hrefs.faultless hf).congr rfl fun _ => ⟨rfl, rfl, rfl⟩
      exact (hqueue.faultless hf₀).congr rfl fun _ => ⟨rfl, rfl, rfl⟩
    · refine announces_signal h _ ?_
      rcases hqueue.announces with hlt | ⟨heq, _⟩
      · exact hlt.le
      · exact heq.ge
  · exact hrefs

theorem calm_beginClose : h.Calm h.beginClose.1 := by
  unfold Host.beginClose
  dsimp only
  split_ifs
  · exact .congr rfl rfl rfl rfl rfl rfl (le_refl _)
  · refine ⟨rfl, rfl, fun hf => ?_, .inl (Nat.lt_succ_of_le (Nat.le_succ _))⟩
    have hcurrent := hf.setGeneration (g := h.current)
      (x := { h.generation h.current with current := false }) rfl rfl rfl
    exact hcurrent.congr rfl fun _ => ⟨rfl, rfl, rfl⟩

theorem calm_turn (k g : ℕ) {closer : Closer} (hfailed : closer.failed = false)
    (htried : closer.tried = false) :
    h.Calm { h with cleanups := update h.cleanups k (some ⟨g, closer⟩) } where
  generations := rfl
  activations := rfl
  faultless hf :=
    ⟨hf.errs, forall_update (fun k' c _ hk => hf.closers k' c hk) ⟨hfailed, htried⟩, hf.tries⟩
  announces := .inr ⟨rfl, id⟩

theorem calm_finishCleanup {k : ℕ} {closer : Closer}
    (hk : h.cleanups k = some ⟨g, closer⟩) : h.Calm (h.finishCleanup k g closer.failed) where
  generations := rfl
  activations := rfl
  faultless hf := by
    have hfailed : closer.failed = false := (hf.closers k _ hk).1
    rw [hfailed]
    exact ⟨errs_setGeneration hf rfl, forall_clear fun k' c _ hk => hf.closers k' c hk,
      tries_setGeneration hf (by simp [Generation.retired])⟩
  announces := announces_signal h _ (le_refl _)

theorem calm_beginExplicitActivation : h.Calm h.beginExplicitActivation.1 where
  generations := rfl
  activations := rfl
  faultless hf := hf.congr rfl fun _ => ⟨rfl, rfl, rfl⟩
  announces := .inl (Nat.lt_succ_self _)

end Host

/-! ## Staging calls -/

/-- The number of candidates that a staging call holds or may still start. -/
def AttemptPhase.quota : AttemptPhase → Option ℕ
  | .starting _ cs rest => some (cs.length + rest.length)
  | .aborting _ cs _ => some cs.length
  | .leaving none => some 0
  | .leaving (some (_, cs)) => some cs.length
  | .staged _ cs => some cs.length
  | _ => none

def AttemptPhase.hasToken : AttemptPhase → Bool
  | .starting _ _ _ => true
  | .aborting staging _ _ => staging
  | .leaving _ => true
  | _ => false

section

variable {phase : AttemptPhase}

theorem AttemptPhase.candidates_le {n : ℕ} (h : phase.quota = some n) :
    phase.candidates.length ≤ n := by
  cases phase with
  | starting s cs rest =>
    cases h
    exact Nat.le_add_right _ _
  | aborting staging cs closer =>
    cases h
    exact le_refl _
  | leaving generation =>
    cases generation with
    | none => exact Nat.zero_le _
    | some generation =>
      cases h
      exact le_refl _
  | staged id cs =>
    cases h
    exact le_refl _
  | waiting | ended | returned => exact absurd h nofun

theorem AttemptPhase.candidates_of_quota_none (h : phase.quota = none) : phase.candidates = [] := by
  cases phase with
  | leaving generation => cases generation <;> exact absurd h nofun
  | starting | aborting | staged => exact absurd h nofun
  | waiting | ended | returned => rfl

theorem AttemptPhase.quota_of_hasToken (h : phase.hasToken = true) : ∃ n, phase.quota = some n := by
  cases phase with
  | starting | aborting | staged => exact ⟨_, rfl⟩
  | leaving generation => cases generation <;> exact ⟨_, rfl⟩
  | waiting | ended | returned => exact absurd h nofun

end

def closesNone {I : Type} : HostLabel I → Bool
  | .attempt _ (.close _) => false
  | .cleanup _ _ => false
  | _ => true

namespace World

variable {w w' : World K} {p : Party}

/-- The close of the first candidate of a closer returns no error. -/
def CloseSucceeds (w : World K) (closer : Closer) (input : Option K.Input) : Prop :=
  ∃ i c rest state, input = some i ∧ closer.todo = c :: rest ∧ w.candidate c = some state ∧
    (K.close state i).2 = true

/-- What holds of the closer and the input of a turn of `closeCandidates`, if the step is one. -/
def AtClose (w : World K) (label : HostLabel K.Input) (P : Closer → Option K.Input → Prop) : Prop :=
  (∀ p input staging cs closer, label = .attempt p (.close input) →
    w.phase p = some (.aborting staging cs closer) → P closer input) ∧
  ∀ k input cleanup, label = .cleanup k input → w.host.cleanups k = some cleanup →
    P cleanup.closer input

variable {label : HostLabel K.Input}

theorem atClose_of_closesNone {P : Closer → Option K.Input → Prop} (h : closesNone label = true) :
    w.AtClose label P := by
  constructor
  · rintro p input staging cs closer rfl
    exact absurd h nofun
  · rintro k input cleanup rfl
    exact absurd h nofun

def ClosesSucceed (w : World K) (label : HostLabel K.Input) : Prop :=
  w.AtClose label w.CloseSucceeds

theorem CloseSucceeds.closer {closer closer' : Closer} {input : Option K.Input}
    (hclose : w.CloseSucceeds closer input) (h : w.closeNext closer input = some (w', closer')) :
    closer' = ⟨closer.todo.tail, false, closer.failed⟩ := by
  obtain ⟨i, c, rest, state, rfl, htodo, hc, hok⟩ := hclose
  simp only [closeNext, closeCandidate, htodo, hc] at h
  obtain rfl := (Prod.mk.inj (some_inj.mp h)).2
  simp [Closer.attempt, hok, htodo]

/-! ## Steps -/

/-- What a step outside staging calls leaves: the phases that hold candidates and the activation
token. -/
structure Quiet (w w' : World K) : Prop where
  token : w'.token = w.token
  calm : w.host.Calm w'.host
  activates : ∀ t, w'.activates t = w.activates t ∨
    (∀ a, w.activates t = some a → a.phase.quota = none) ∧
      ∀ a, w'.activates t = some a → a.phase.quota = none
  controller : w'.controller = w.controller ∨
    (∀ phase, w.controller.phase = some phase → phase.quota = none) ∧
      ∀ phase, w'.controller.phase = some phase → ∃ set, phase = .waiting set

variable {host : Host}

/-- The controller holds no candidate outside its staging call. -/
theorem Steered.quiet {c : Controller} (h : Steered w label host c) : w.host.Calm host ∧
      (∀ phase, w.controller.phase = some phase → phase.quota = none) ∧
        ∀ phase, c.phase = some phase → ∃ set, phase = .waiting set := by
  have hbegin : ∀ e, w.host.Calm (w.host.beginRecovery e) := fun e =>
    .congr rfl rfl rfl rfl rfl rfl (Nat.le_succ _)
  cases h with
  | wake hc => exact ⟨.congr rfl rfl rfl rfl rfl rfl (le_refl _), by simp [hc, Controller.phase]⟩
  | backOff hc | recover hc => exact ⟨hbegin _, by simp [hc, Controller.phase]⟩
  | fail hc =>
    exact ⟨Host.calm_finishRecoveryFailure .., by simp [hc, Controller.phase, quota]⟩
  | @resume s again hc =>
    refine ⟨.congr rfl rfl rfl rfl rfl rfl (Nat.le_succ _), by simp [hc, Controller.phase], ?_⟩
    cases again <;> simp [Controller.phase]
  | stop hc | rest hc | giveUp hc | timer hc | succeed hc =>
    exact ⟨.refl _, by simp [hc, Controller.phase, quota]⟩

theorem Leased.calm {leases : ℕ → Option Lease} (h : Leased w label host leases) :
    w.host.Calm host := by
  cases h with
  | refuse | acquire => exact Host.calm_acquire ..
  | confirm => exact Host.calm_generationHealth ..
  | drop => exact .refl _
  | release => exact Host.calm_release ..

theorem Called.calm {t : ℕ} {phase : ClosePhase} {gate : Bool}
    (h : Called w t label phase host gate) : w.host.Calm host := by
  cases h with
  | enter => exact Host.calm_beginClose _
  | wait | done | failed => exact Host.calm_closeProgress ..
  | close | late | changed | giveUp => exact .refl _

theorem step_quiet (hlabel : ∀ p event, label ≠ .attempt p event) (hclose : w.ClosesSucceed label)
    (hfaultless : w.host.Faultless) (h : w.step label = some w') : Quiet w w' := by
  cases step_inv h with
  | @activate t set ht =>
    refine ⟨rfl, Host.calm_beginExplicitActivation w.host, fun t' => ?_, .inl rfl⟩
    by_cases heq : t' = t
    · subst heq
      right
      refine ⟨fun a ha => absurd (ht.symm.trans ha) nofun, fun a ha => ?_⟩
      simp only [update_self, some.injEq] at ha
      subst ha
      rfl
    · exact .inl (update_of_ne heq ..)
  | attempt => exact absurd rfl (hlabel _ _)
  | @finish t published hp =>
    obtain ⟨a, ha, hphase⟩ := map_eq_some_iff.mp hp
    refine ⟨rfl, Host.calm_finishExplicitActivation .., fun t' => ?_, .inl rfl⟩
    by_cases heq : t' = t
    · subst heq
      right
      refine ⟨fun a' ha' => ?_, fun a' ha' => ?_⟩
      · obtain rfl : a = a' := some_inj.mp (ha.symm.trans ha')
        rw [hphase]
        rfl
      · have ha' : update w.activates t' ((w.activates t').map fun a =>
            { a with phase := .returned published }) t' = some a' := ha'
        rw [update_self, ha] at ha'
        cases ha'
        rfl
    · exact .inl (update_of_ne heq ..)
  | steer hsteer =>
    obtain ⟨hcalm, hphases⟩ := hsteer.quiet
    exact ⟨rfl, hcalm, fun _ => .inl rfl, .inr hphases⟩
  | lease hlease => exact ⟨rfl, hlease.calm, fun _ => .inl rfl, .inl rfl⟩
  | observe => exact ⟨rfl, Host.calm_observe .., fun _ => .inl rfl, .inl rfl⟩
  | unobserve | change => exact ⟨rfl, .refl _, fun _ => .inl rfl, .inl rfl⟩
  | @cleanup k g closer _ input _ hk hnext =>
    obtain rfl := (hclose.2 k input _ rfl hk).closer hnext
    have hfailed := (hfaultless.closers k _ hk).1
    exact ⟨rfl, Host.calm_turn w.host k g hfailed rfl, fun _ => .inl rfl, .inl rfl⟩
  | cleaned hk => exact ⟨rfl, Host.calm_finishCleanup w.host hk, fun _ => .inl rfl, .inl rfl⟩
  | call hcall => exact ⟨rfl, hcall.calm, fun _ => .inl rfl, .inl rfl⟩

theorem Quiet.phase (h : Quiet w w') (p : Party) :
    w'.phase p = w.phase p ∨ (∀ phase, w.phase p = some phase → phase.quota = none) ∧
      ∀ phase, w'.phase p = some phase → phase.quota = none := by
  cases p with
  | activation t =>
    rcases h.activates t with hsame | ⟨hold, hnew⟩
    · exact .inl (by simp only [World.phase, hsame])
    · right
      constructor
      · intro phase hp
        obtain ⟨a, ha, rfl⟩ := map_eq_some_iff.mp hp
        exact hold a ha
      · intro phase hp
        obtain ⟨a, ha, rfl⟩ := map_eq_some_iff.mp hp
        exact hnew a ha
  | controller =>
    rcases h.controller with hsame | ⟨hold, hnew⟩
    · exact .inl (by simp only [World.phase, hsame])
    · refine .inr ⟨hold, fun phase hp => ?_⟩
      obtain ⟨set, rfl⟩ := hnew phase hp
      rfl

theorem Published.calm {id : PlanID} {cs : List ℕ} {ended : Bool}
    (h : Published w id cs ended p host) :
    (w.host.Faultless → host.Faultless) ∧ host.activations = w.host.activations ∧
      w.host.Announces host := by
  have hexchange : w.host.Faultless → (w.host.exchange id cs).Faultless := by
    intro hf
    have hshut : (w.host.setGeneration w.host.current
        { w.host.generation w.host.current with current := false }).Faultless :=
      hf.setGeneration rfl rfl rfl
    exact ⟨Host.errs_setGeneration hshut (g := w.host.generations) rfl, hf.closers,
      Host.tries_setGeneration hshut (g := w.host.generations) fun _ => rfl⟩
  have hretire : ∀ h₁ : Host, h₁.Calm (h₁.retirePrevious w.host.current) ∧
      h₁.changed < (h₁.retirePrevious w.host.current).changed := by
    intro h₁
    unfold Host.retirePrevious
    split_ifs
    · have hqueue := Host.calm_queueCleanup h₁ w.host.current 0
      refine ⟨hqueue.signal, Nat.lt_succ_of_le ?_⟩
      rcases hqueue.announces with hlt | ⟨heq, _⟩
      · exact hlt.le
      · exact heq.ge
    · exact ⟨(Host.Calm.refl h₁).signal, Nat.lt_succ_self _⟩
  cases h with
  | explicit | recovery =>
    obtain ⟨hcalm, hlt⟩ := hretire _
    refine ⟨fun hf => hcalm.faultless ((hexchange hf).congr rfl fun _ => ⟨rfl, rfl, rfl⟩),
      hcalm.activations, .inl hlt⟩

/-! ## Order among staging calls -/

def Holds (w : World K) (p : Party) : Prop :=
  ∃ phase, w.phase p = some phase ∧ phase.hasToken = true

/-- The activation token is in its channel and no staging is counted, or one staging call has it and
is counted. -/
def TokenOk (w : World K) : Prop :=
  (w.token = true ∧ w.host.activations = 0 ∧ ∀ p, ¬ w.Holds p) ∨
    (w.token = false ∧ w.host.activations = 1 ∧ ∃ p, ∀ q, w.Holds q ↔ q = p)

/-- No close has failed, the activation token is where it belongs, and the recovery controller is
not where only an activation comes. -/
structure Orderly (w : World K) : Prop where
  faultless : w.host.Faultless
  controller : ∀ phase, w.phase .controller = some phase → phase.hasReturned = false
  closers : ∀ p staging cs closer, w.phase p = some (.aborting staging cs closer) →
    closer.failed = false ∧ closer.tried = false
  token : w.TokenOk

theorem TokenOk.congr (h : w.TokenOk) (htoken : w'.token = w.token)
    (hactivations : w'.host.activations = w.host.activations)
    (hholds : ∀ p, w'.Holds p ↔ w.Holds p) : w'.TokenOk := by
  unfold TokenOk
  simp only [htoken, hactivations, hholds]
  exact h

theorem Quiet.holds (h : Quiet w w') (p : Party) : w'.Holds p ↔ w.Holds p := by
  have hnot : ∀ v : World K, (∀ phase, v.phase p = some phase → phase.quota = none) →
      ¬ v.Holds p := by
    rintro v hv ⟨phase, hp, ht⟩
    obtain ⟨n, hn⟩ := quota_of_hasToken ht
    exact absurd ((hv phase hp).symm.trans hn) nofun
  rcases h.phase p with hsame | ⟨hold, hnew⟩
  · simp only [Holds, hsame]
  · exact ⟨fun hp => absurd hp (hnot w' hnew), fun hp => absurd hp (hnot w hold)⟩

namespace Orderly

section

variable (ho : w.Orderly)
include ho

theorem quiet (h : Quiet w w') : w'.Orderly where
  faultless := h.calm.faultless ho.faultless
  controller phase hp := by
    rcases h.controller with hsame | ⟨_, hnew⟩
    · apply ho.controller phase
      show w.controller.phase = some phase
      rw [← hsame]
      exact hp
    · obtain ⟨set, rfl⟩ := hnew phase hp
      rfl
  closers p staging cs closer hp := by
    rcases h.phase p with hsame | ⟨_, hnew⟩
    · exact ho.closers p staging cs closer (hsame ▸ hp)
    · exact absurd (hnew _ hp) nofun
  token := ho.token.congr h.token h.calm.activations h.holds

section

variable {phase : AttemptPhase} (phase' : AttemptPhase) (hp : w.phase p = some phase)
  (hphase : ∀ q, w'.phase q = (w.setPhase p phase').phase q) (hfaultless : w'.host.Faultless)
  (hreturned : phase'.hasReturned = false)
  (hcloser : ∀ staging cs closer, phase' = .aborting staging cs closer →
    closer.failed = false ∧ closer.tried = false)
include hp hphase hfaultless hreturned hcloser

/-- What a step has to show of the token, if it changes the phase of one party. -/
theorem setPhase (htoken : w'.TokenOk) : w'.Orderly where
  faultless := hfaultless
  controller phase₀ hc := by
    rw [hphase] at hc
    by_cases hqp : .controller = p
    · subst hqp
      rw [phase_setPhase_self hp] at hc
      cases hc
      exact hreturned
    · rw [phase_setPhase_ne hqp] at hc
      exact ho.controller phase₀ hc
  closers q staging cs closer hq := by
    rw [hphase q] at hq
    by_cases hqp : q = p
    · subst hqp
      rw [phase_setPhase_self hp] at hq
      exact hcloser staging cs closer (some_inj.mp hq)
    · rw [phase_setPhase_ne hqp] at hq
      exact ho.closers q staging cs closer hq
  token := htoken

theorem move (hactivations : w'.host.activations = w.host.activations) (htoken : w'.token = w.token)
    (hkept : phase'.hasToken = phase.hasToken) : w'.Orderly := by
  refine ho.setPhase phase' hp hphase hfaultless hreturned hcloser
    (ho.token.congr htoken hactivations fun q => ?_)
  by_cases hqp : q = p
  · subst hqp
    simp [Holds, hphase, phase_setPhase_self hp, hp, hkept]
  · simp [Holds, hphase, phase_setPhase_ne hqp]

theorem take (hactivations : w'.host.activations = w.host.activations + 1) (htoken : w.token = true)
    (htoken' : w'.token = false) (hnew : phase'.hasToken = true) : w'.Orderly := by
  refine ho.setPhase phase' hp hphase hfaultless hreturned hcloser ?_
  rcases ho.token with ⟨_, hzero, hnone⟩ | ⟨hfalse, _⟩
  · refine .inr ⟨htoken', by rw [hactivations, hzero], p, fun q => ?_⟩
    by_cases hqp : q = p
    · subst hqp
      simp [Holds, hphase, phase_setPhase_self hp, hnew]
    · have hq : ¬ w'.Holds q := by
        simpa [Holds, hphase, phase_setPhase_ne hqp] using hnone q
      exact ⟨fun h => absurd h hq, fun h => absurd h hqp⟩
  · rw [htoken] at hfalse
    cases hfalse

theorem give (hactivations : w'.host.activations = w.host.activations - 1)
    (htoken' : w'.token = true)
    (hold : phase.hasToken = true) (hnew : phase'.hasToken = false) : w'.Orderly := by
  refine ho.setPhase phase' hp hphase hfaultless hreturned hcloser ?_
  rcases ho.token with ⟨_, _, hnone⟩ | ⟨_, hone, p₀, honly⟩
  · exact absurd ⟨phase, hp, hold⟩ (hnone p)
  · obtain rfl : p = p₀ := (honly p).mp ⟨phase, hp, hold⟩
    refine .inl ⟨htoken', by rw [hactivations, hone], fun q => ?_⟩
    by_cases hqp : q = p
    · subst hqp
      simp [Holds, hphase, phase_setPhase_self hp, hnew]
    · intro hq
      have hq : w.Holds q := by simpa [Holds, hphase, phase_setPhase_ne hqp] using hq
      exact hqp ((honly q).mp hq)

end

theorem attempt {event : AttemptEvent K.Input} (hclose : w.ClosesSucceed (.attempt p event))
    (h : Attempted w p event w') : w'.Orderly ∧ w.host.Announces w'.host := by
  -- a call that goes on with the same host, and closes nothing or begins to close
  have hmove : ∀ {phase phase' : AttemptPhase} {candidate : ℕ → Option K.State} {started : ℕ}
      {closed : ℕ → Bool}, w.phase p = some phase → phase'.hasToken = phase.hasToken →
      phase'.hasReturned = false → (∀ staging cs closer, phase' = .aborting staging cs closer →
        closer.failed = false ∧ closer.tried = false) →
      Orderly { w.setPhase p phase' with
        candidate := candidate, started := started, closed := closed } ∧ w.host.Announces w.host :=
    fun hp hkept hreturned hcloser =>
      ⟨ho.move _ hp (fun _ => rfl) ho.faultless hreturned hcloser rfl rfl hkept, .refl _⟩
  have habort : ∀ (b : Bool) (cs : List ℕ) (staging : Bool) (cs' : List ℕ) (closer : Closer),
      abortPhase b cs = .aborting staging cs' closer →
        closer.failed = false ∧ closer.tried = false := by
    intro b cs staging cs' closer heq
    obtain ⟨_, _, rfl⟩ := aborting.inj heq
    exact ⟨rfl, rfl⟩
  have hfinish : w.host.finishActivation.Faultless :=
    ho.faultless.congr rfl fun _ => ⟨rfl, rfl, rfl⟩
  cases h with
  | refuse hp | start hp | skip hp | compose hp => exact hmove hp rfl rfl nofun
  | begin hp htoken =>
    refine ⟨ho.take _ hp (fun _ => rfl) ?_ rfl nofun rfl htoken rfl rfl, .inl (Nat.lt_succ_self _)⟩
    exact ho.faultless.congr rfl fun _ => ⟨rfl, rfl, rfl⟩
  | startFails hp | fail hp | withdraw hp => exact hmove hp rfl rfl (habort _ _)
  | @close staging cs closer closer' input _ hp hnext =>
    refine hmove hp rfl rfl fun staging' cs' closer'' heq => ?_
    obtain ⟨_, _, rfl⟩ := aborting.inj heq
    rw [(hclose.1 p input staging cs closer rfl hp).closer hnext]
    exact ⟨(ho.closers p staging cs closer hp).1, rfl⟩
  | @abort staging cs closer hp =>
    unfold endAbort
    rw [(ho.closers p staging cs closer hp).1]
    cases staging <;> exact hmove hp rfl rfl nofun
  | leave hp | stage hp =>
    exact ⟨ho.give _ hp (fun _ => rfl) hfinish rfl nofun rfl rfl rfl rfl,
      .inl (Nat.lt_succ_self _)⟩
  | publish hp hhost =>
    obtain ⟨hfaultless, hactivations, hannounces⟩ := hhost.calm
    exact ⟨ho.move (.ended true) hp (fun _ => rfl) (hfaultless ho.faultless) rfl nofun
      hactivations rfl rfl, hannounces⟩

/-- Every step in which closes succeed keeps the order, and signals unless the host stays busy. -/
theorem step (hclose : w.ClosesSucceed label) (h : w.step label = some w') :
    w'.Orderly ∧ w.host.Announces w'.host := by
  by_cases hl : ∃ p event, label = .attempt p event
  · obtain ⟨p, event, rfl⟩ := hl
    exact ho.attempt hclose (attemptStep_inv h)
  · have hquiet := step_quiet (fun p event heq => hl ⟨p, event, heq⟩) hclose ho.faultless h
    exact ⟨ho.quiet hquiet, hquiet.calm.announces⟩

end

theorem init (K : CandidateKind) (restart : RestartPolicy) (digest : String) :
    (World.init K restart digest).Orderly where
  faultless := by
    have hgeneration : ∀ g, ((World.init K restart digest).host.generation g).cleanupErr = false ∧
        ((World.init K restart digest).host.generation g).cleanupTry = 0 := by
      intro g
      by_cases hg : g = 0
      · subst hg
        exact ⟨rfl, rfl⟩
      · simp [World.init, Host.init, hg, Generation.fresh]
    refine ⟨fun g => (hgeneration g).1, fun k c hk => ?_, fun g _ => (hgeneration g).2⟩
    cases hk
  controller phase hp := absurd hp (by simp [phase_init])
  closers p staging cs closer hp := absurd hp (by simp [phase_init])
  token := .inl ⟨rfl, rfl, fun p hp => by
    obtain ⟨phase, hphase, _⟩ := hp
    exact absurd hphase (by simp [phase_init])⟩

end Orderly

end World

end SpiceAgent.Pluginhost
