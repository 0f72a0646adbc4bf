import SpiceAgent.PluginHost.Helm
import SpiceAgent.PluginHost.Ownership

/-!
# The invariants of a host

`World.helm` forgets ownership, as `World.estate` forgets recovery. `World.step_helm` shows that it
changes by the moves of `Helm`, by a publication, or by the end of the activation that made it.
`World.Ok` collects what holds in every reachable state.
-/

namespace SpiceAgent.Pluginhost

open Lib
open Function (update)
open Generation

variable {K : CandidateKind}

/-- The staging call has returned to its caller. -/
def AttemptPhase.hasReturned : AttemptPhase → Bool
  | .returned _ => true
  | _ => false

theorem Host.retirePrevious_generations (host : Host) (g : ℕ) :
    (host.retirePrevious g).current = host.current ∧
      (host.retirePrevious g).generations = host.generations := by
  unfold Host.retirePrevious Host.queueCleanup
  dsimp only
  split_ifs <;> exact ⟨rfl, rfl⟩

variable {id : PlanID} {cs : List ℕ} {ended : Bool} {host : Host}

theorem World.Published.generations {w : World K} {p : Party}
    (h : World.Published w id cs ended p host) :
    host.current = w.host.generations ∧ host.generations = w.host.generations + 1 := by
  cases h with
  | explicit => exact Host.retirePrevious_generations ..
  | recovery => exact Host.retirePrevious_generations ..

variable {label : HostLabel K.Input}

namespace World

variable {w w' : World K} {p : Party}

/-- What the choice of the current generation depends on. -/
def helm (w : World K) : Helm where
  vigil := w.host.vigil
  controller := w.controller
  revision t := (w.activates t).map Activation.revision
  running := { t | ∃ a, w.activates t = some a ∧ a.phase.hasReturned = false }

/-! ## Staging calls -/

variable {t : ℕ} {phase : AttemptPhase}

theorem helm_setPhase_activation {phase' : AttemptPhase} (hp : w.phase (.activation t) = some phase)
    (hphase : phase.hasReturned = false) (hphase' : phase'.hasReturned = false) :
    (w.setPhase (.activation t) phase').helm = w.helm := by
  obtain ⟨a, ha, rfl⟩ := Option.map_eq_some_iff.mp hp
  have hrevision : (w.setPhase (.activation t) phase').helm.revision = w.helm.revision := by
    funext t'
    by_cases ht : t' = t
    · subst ht
      simp [helm, setPhase, ha]
    · simp [helm, setPhase, ht]
  have hrunning : (w.setPhase (.activation t) phase').helm.running = w.helm.running := by
    ext t'
    by_cases ht : t' = t
    · subst ht
      simp [helm, setPhase, ha, hphase, hphase']
    · simp [helm, setPhase, ht]
  show (⟨w.host.vigil, w.controller, (w.setPhase (.activation t) phase').helm.revision,
    (w.setPhase (.activation t) phase').helm.running⟩ : Helm) = w.helm
  rw [hrevision, hrunning]
  rfl

theorem helm_setPhase_controller {s : ℕ} (hc : w.controller = .attempting s phase)
    (phase' : AttemptPhase) :
    (w.setPhase .controller phase').helm = { w.helm with controller := .attempting s phase' } := by
  simp [setPhase, helm, hc]

theorem move_setPhase {phase' : AttemptPhase} (hp : w.phase p = some phase)
    (hphase : phase.hasReturned = false ∧ phase ≠ .ended true)
    (hphase' : phase'.hasReturned = false ∧ phase' ≠ .ended true) :
    Helm.Move w.helm (w.setPhase p phase').helm := by
  cases p with
  | activation t =>
    rw [helm_setPhase_activation hp hphase.1 hphase'.1]
    exact .idle _
  | controller =>
    cases hc : w.controller with
    | attempting s phase₀ =>
      obtain rfl : phase₀ = phase := by
        simpa [World.phase, hc, Controller.phase] using hp
      rw [helm_setPhase_controller hc]
      exact .stage _ hc hphase.2 hphase'.2
    | selecting | awake | backingOff | leaving | stopped =>
      simp [World.phase, hc, Controller.phase] at hp

theorem helm_eq (hvigil : host.vigil = w.host.vigil) (hcontroller : w'.controller = w.controller)
    (hactivates : w'.activates = w.activates) (hhost : w'.host = host) : w'.helm = w.helm := by
  simp only [helm, hcontroller, hactivates, hhost, hvigil]

theorem Attempted.helm (hlt : w.host.current < w.host.generations) {event : AttemptEvent K.Input}
    (h : Attempted w p event w') :
    Helm.Move w.helm w'.helm ∨ ∃ id cs ended host, event = .publish ended ∧
      w.phase p = some (.staged id cs) ∧ Published w id cs ended p host ∧
      w' = w.swap p cs host := by
  cases h with
  | publish hp hhost => exact .inr ⟨_, _, _, _, rfl, hp, hhost, rfl⟩
  | @abort staging cs closer hp =>
    left
    have hvigil : (if closer.failed then w.host.retainAborted cs else w.host).vigil =
        w.host.vigil := by
      split_ifs
      · exact w.host.vigil_retainAborted cs hlt
      · rfl
    have hsame : (w.endAbort p staging cs closer.failed).helm =
        (w.setPhase p (if staging then .leaving none else .ended false)).helm :=
      helm_eq hvigil rfl rfl rfl
    rw [hsame]
    refine move_setPhase hp ⟨rfl, by simp⟩ ?_
    cases staging <;> exact ⟨rfl, by simp⟩
  | refuse hp | begin hp | start hp | startFails hp | skip hp | fail hp | compose hp | close hp
  | leave hp | stage hp | withdraw hp =>
    exact .inl (move_setPhase (w := w) hp ⟨rfl, by simp⟩ ⟨rfl, by simp [abortPhase]⟩)

/-! ## The other goroutines -/

theorem move_vigil {v : Vigil} (hv : v = w.host.vigil ∨ v = w.host.vigil.mark) :
    Helm.Move w.helm { w.helm with vigil := v } := by
  rcases hv with rfl | rfl
  · exact .idle _
  · exact .mark _

theorem activate_helm (ht : w.activates t = none) (set : PluginSet) :
    Helm.Move w.helm ({ w with
      host := w.host.beginExplicitActivation.1
      activates := update w.activates t
        (some ⟨set, w.host.beginExplicitActivation.2, .waiting set⟩) }).helm := by
  have hmove := Helm.Move.begin w.helm t (by simp [helm, ht])
  have hrevision : (fun t' => (update w.activates t
      (some ⟨set, w.host.beginExplicitActivation.2, .waiting set⟩) t').map Activation.revision) =
      update w.helm.revision t (some w.host.beginExplicitActivation.2) := by
    funext t'
    by_cases ht : t' = t
    · subst ht
      simp
    · simp [ht, helm]
  have hrunning : { t' | ∃ a, update w.activates t
      (some ⟨set, w.host.beginExplicitActivation.2, .waiting set⟩) t' = some a ∧
        a.phase.hasReturned = false } = insert t w.helm.running := by
    ext t'
    by_cases ht : t' = t
    · subst ht
      simp [AttemptPhase.hasReturned]
    · simp [ht, helm]
  show Helm.Move w.helm ⟨_, w.controller, _, _⟩
  rw [hrevision, hrunning]
  exact hmove

theorem finish_helm {published : Bool} (hp : w.phase (.activation t) = some (.ended published)) :
    t ∈ w.helm.running ∧ ({ w.setPhase (.activation t) (.returned published) with
        host := w.host.finishExplicitActivation w.done published } : World K).helm =
      { w.helm with
        vigil := (w.host.finishExplicitActivation w.done published).vigil
        running := w.helm.running \ {t} } := by
  obtain ⟨a, ha, hphase⟩ := Option.map_eq_some_iff.mp hp
  have hrevision : (fun t' => (update w.activates t ((w.activates t).map fun a =>
      { a with phase := .returned published }) t').map Activation.revision) = w.helm.revision := by
    funext t'
    by_cases ht : t' = t
    · subst ht
      simp [ha, helm]
    · simp [ht, helm]
  have hrunning : { t' | ∃ a', update w.activates t ((w.activates t).map fun a =>
      { a with phase := .returned published }) t' = some a' ∧ a'.phase.hasReturned = false } =
      w.helm.running \ {t} := by
    ext t'
    by_cases ht : t' = t
    · subst ht
      simp [ha, AttemptPhase.hasReturned]
    · simp [ht, helm]
  exact ⟨⟨a, ha, by rw [hphase]; rfl⟩,
    congrArg₂ (fun revision running => (⟨(w.host.finishExplicitActivation w.done published).vigil,
      w.controller, revision, running⟩ : Helm)) hrevision hrunning⟩

theorem Steered.helm {c : Controller} (h : Steered w label host c) :
    Helm.Move w.helm { w.helm with vigil := host.vigil, controller := c } := by
  cases h with
  | wake hc => exact .wake w.helm hc
  | stop _ hclosing => exact .stop w.helm hclosing
  | rest _ hrest => exact .rest w.helm hrest
  | @backOff e _ hr => exact .recover w.helm (c := .backingOff e.serial e.desired) hr rfl rfl
  | @recover e _ hr =>
    exact .recover w.helm (c := .attempting e.serial (.waiting e.desired)) hr ⟨rfl, by simp⟩ rfl
  | giveUp hc hended => exact .giveUp w.helm hc hended
  | timer hc => exact .timer w.helm hc
  | succeed hc => exact .succeed w.helm hc
  | @fail s hc =>
    rcases w.host.finishRecoveryFailure_cases s with
      ⟨heq, hlapsed⟩ | ⟨e, exhausted, he, hvigil, hagain⟩
    · rw [heq]
      exact .lapse w.helm hc hlapsed
    · rw [hvigil, hagain]
      exact .fail w.helm hc he
  | resume hc => exact .resume w.helm hc

theorem Leased.helm {leases : ℕ → Option Lease} (h : Leased w label host leases) :
    host.vigil = w.host.vigil ∨ host.vigil = w.host.vigil.mark := by
  cases h with
  | refuse | acquire => exact (w.host.vigil_acquire w.done _).imp_right And.right
  | confirm => exact (w.host.vigil_generationHealth w.done _).imp_right And.right
  | drop => exact .inl rfl
  | release => exact .inl (w.host.vigil_release _)

theorem Called.helm {phase : ClosePhase} {gate : Bool} (h : Called w t label phase host gate) :
    Helm.Move w.helm { w.helm with vigil := host.vigil } := by
  have hprogress : ∀ attempt, Helm.Move w.helm { w.helm with
      vigil := (w.progress attempt).1.vigil } := by
    intro attempt
    rcases w.host.vigil_closeProgress attempt w.controllerDone with hvigil | hvigil
    · rw [hvigil]
      exact .idle _
    · rw [hvigil]
      exact .forget _
  cases h with
  | enter =>
    rw [Host.vigil_beginClose]
    split_ifs
    · exact .idle _
    · exact .close _
  | wait | done | failed => exact hprogress _
  | close | late | changed | giveUp => exact .idle _

theorem step_helm (hlt : w.host.current < w.host.generations) (h : w.step label = some w') :
    Helm.Move w.helm w'.helm ∨
      (∃ t, label = .finish t ∧ w.phase (.activation t) = some (.ended true) ∧
        t ∈ w.helm.running ∧ w'.helm = w.helm.finish t) ∨
      ∃ p id cs ended host, label = .attempt p (.publish ended) ∧
        w.phase p = some (.staged id cs) ∧ Published w id cs ended p host ∧
        w' = w.swap p cs host := by
  cases step_inv h with
  | activate ht => exact .inl (activate_helm ht _)
  | attempt hattempt =>
    rcases hattempt.helm hlt with hmove | ⟨id, cs, ended, host, rfl, hpublish⟩
    · exact .inl hmove
    · exact .inr (.inr ⟨_, id, cs, ended, host, rfl, hpublish⟩)
  | @finish t published hp =>
    obtain ⟨hmem, hhelm⟩ := finish_helm hp
    rw [hhelm]
    cases published with
    | true => exact .inr (.inl ⟨t, rfl, hp, hmem, rfl⟩)
    | false =>
      obtain ⟨unhealthy, hu, hvigil⟩ := w.host.vigil_finishExplicitActivation_false w.done
      rw [hvigil]
      exact .inl (.abandon w.helm t unhealthy hmem hu)
  | steer hsteer => exact .inl hsteer.helm
  | lease hlease => exact .inl (move_vigil hlease.helm)
  | observe => exact .inl (move_vigil (w.host.vigil_observe _))
  | unobserve | change | cleanup => exact .inl (.idle _)
  | cleaned => exact .inl (move_vigil (.inl (w.host.vigil_finishCleanup ..)))
  | call hcall => exact .inl hcall.helm

/-! ## Reachable states -/

theorem helm_published (hp : w.phase p = some (.staged id cs))
    (hhost : Published w id cs ended p host) :
    ∃ v : Vigil, host.vigil = v.exchange w.host.generations id.val ∧
      v.explicitActivations = w.host.explicitActivations ∧
      v.explicitRevision = w.host.explicitRevision ∧ v.episodes = w.host.episodes ∧
      v.enabled = w.host.restart.enabled ∧
      ((∃ t, p = .activation t ∧ (w.setPhase p (.ended true)).helm = w.helm) ∨
        ∃ s phase, p = .controller ∧ w.controller = .attempting s phase ∧
          (w.setPhase p (.ended true)).helm =
            { w.helm with controller := .attempting s (.ended true) }) := by
  cases hhost with
  | @explicit t a ha hcan =>
    refine ⟨{ w.host.vigil with
      desired := a.set, hasDesired := true, desiredRevision := w.host.desiredRevision + 1 },
      ?_, rfl, rfl, rfl, rfl, .inl ⟨_, rfl, ?_⟩⟩
    · rw [Host.vigil_publishExplicit]
      rfl
    · exact helm_setPhase_activation hp rfl rfl
  | @recovery s phase hc hcan =>
    refine ⟨w.host.vigil, ?_, rfl, rfl, rfl, rfl,
      .inr ⟨s, phase, rfl, hc, helm_setPhase_controller hc _⟩⟩
    rw [Host.vigil_publishRecovery]
    rfl

theorem calls_published (hok : w.helm.CallsOk) (hp : w.phase p = some (.staged id cs))
    (hhost : Published w id cs ended p host) :
    Helm.CallsOk { (w.setPhase p (.ended true)).helm with vigil := host.vigil } := by
  obtain ⟨v, hv, hcount, hrevision, _, _, hphase⟩ := helm_published hp hhost
  refine hok.congr ?_ ?_ ?_ ?_
  · show host.vigil.explicitActivations = _
    rw [hv]
    exact hcount
  · show host.vigil.explicitRevision = _
    rw [hv]
    exact hrevision
  · rcases hphase with ⟨_, _, hhelm⟩ | ⟨_, _, _, _, hhelm⟩
    · rw [hhelm]
    · rw [hhelm]
  · rcases hphase with ⟨_, _, hhelm⟩ | ⟨_, _, _, _, hhelm⟩
    · rw [hhelm]
    · rw [hhelm]

/-- What holds in every reachable state of a host. -/
structure Ok (w : World K) : Prop where
  estate : w.estate.Ok
  begun : w.ClosesBegun
  current_lt : w.host.current < w.host.generations
  calls : w.helm.CallsOk

theorem step_begun (hbegun : w.ClosesBegun)
    (hclosing : w.host.closing = true → w'.host.closing = true) (h : w.step label = some w') :
    w'.ClosesBegun := by
  cases hlabel : label.ofClose with
  | false =>
    intro t hrun
    rw [step_closes hlabel h] at hrun
    exact hclosing (hbegun t hrun)
  | true =>
    cases step_inv h with
    | @call t _ phase host gate hcall =>
      -- the call that moves runs before and after, or begins to close the host
      have hself : (∃ a, phase = .looping a) ∨ (∃ a v b, phase = .waiting a v b) →
          host.closing = true := by
        intro hphase
        cases hcall with
        | enter =>
          show w.host.beginClose.1.closing = true
          unfold Host.beginClose
          by_cases hc : w.host.closing = true <;> simp [hc, Host.setGeneration, Host.signal,
            Host.cancelRecovery]
        | wait ht => exact hclosing (hbegun t (.inl ⟨_, ht⟩))
        | changed ht => exact hclosing (hbegun t (.inr ⟨_, _, _, ht⟩))
        | close | late | done | failed | giveUp => simp at hphase
      intro t' hrun
      by_cases heq : t' = t
      · subst heq
        apply hself
        simpa [setClose] using hrun
      · apply hclosing
        apply hbegun t'
        simpa [setClose, heq] using hrun
    | attempt | activate | finish | observe | unobserve | change | cleanup | cleaned =>
      cases hlabel
    | steer hsteer => cases hsteer <;> cases hlabel
    | lease hlease => cases hlease <;> cases hlabel

end World

theorem Estate.Moves.generations_le {e e' : Estate} (h : Estate.Moves e e') :
    e.generations ≤ e'.generations := by
  induction h with
  | refl => exact le_refl _
  | tail _ hmove ih =>
    refine ih.trans ?_
    cases hmove with
    | retain | publish => exact Nat.le_succ _
    | start | abort | turnAbort | drop | queue | turnCleanup | finish | acquire | release | shut =>
      exact le_refl _

namespace World

variable {w w' : World K}

theorem Ok.step (hok : w.Ok) (h : w.step label = some w') : w'.Ok := by
  have hmoves := step_moves hok.estate hok.begun h
  have hclosing : w.host.closing = true → w'.host.closing = true := by
    rw [closing_iff, closing_iff]
    exact hmoves.live_none
  refine ⟨hmoves.ok hok.estate, step_begun hok.begun hclosing h, ?_, ?_⟩
  · have hle : w.host.generations ≤ w'.host.generations := hmoves.generations_le
    rcases step_helm hok.current_lt h with hmove | ⟨t, _, _, _, hfinish⟩ |
      ⟨p, id, cs, ended, host, _, hp, hhost, rfl⟩
    · have hcurrent : w'.host.current = w.host.current := hmove.current
      rw [hcurrent]
      exact lt_of_lt_of_le hok.current_lt hle
    · have hcurrent : w'.host.current = w.host.current :=
        congrArg (fun h : Helm => h.vigil.current) hfinish
      rw [hcurrent]
      exact lt_of_lt_of_le hok.current_lt hle
    · obtain ⟨hcurrent, hgenerations⟩ := hhost.generations
      show host.current < host.generations
      rw [hcurrent, hgenerations]
      exact Nat.lt_succ_self _
  · rcases step_helm hok.current_lt h with hmove | ⟨t, _, _, ht, hfinish⟩ |
      ⟨p, id, cs, ended, host, _, hp, hhost, rfl⟩
    · exact hmove.calls hok.calls
    · rw [hfinish]
      exact hok.calls.finished ht
    · exact calls_published hok.calls hp hhost

section Init

variable (K) (restart : RestartPolicy) (digest : String)

theorem phase_init (p : Party) : (World.init K restart digest).phase p = none := by
  cases p with
  | activation t => rfl
  | controller =>
    show Controller.phase (if restart.enabled then .selecting else .stopped) = none
    split_ifs <;> rfl

theorem ledger_init : (World.init K restart digest).estate.toLedger.Ok := by
  -- the compiled generation is the only one
  have hzero : ∀ g, g < (World.init K restart digest).estate.generations → g = 0 := by
    intro g hlt
    have : g < 1 := hlt
    omega
  constructor
  case fits =>
    intro g hlt
    obtain rfl := hzero g hlt
    refine ⟨?_, ?_, ?_, ?_⟩
    · simp [estate, Host.ledger, World.init, Host.init, entry]
    · simp [estate, Host.ledger, World.init, Host.init, entry, fresh]
    · simp [estate, Host.ledger, World.init, Host.init, entry, fresh,
        Entry.retired]
    · simp [estate, Host.ledger, World.init, Host.init, entry, fresh]
  case live_lt =>
    intro g hg
    obtain rfl : 0 = g := by simpa [estate, Host.ledger, World.init, Host.init] using hg
    exact Nat.zero_lt_one
  case owned_lt =>
    intro g hg
    obtain rfl : g = 0 := by simpa [estate, Host.ledger, World.init, Host.init] using hg
    exact Nat.zero_lt_one
  case available =>
    intro id g hav
    have hav : update (fun _ => none) (Host.generationPlanID 0 digest).val (some 0) id =
        some g := hav
    rcases update_eq_some.mp hav with ⟨rfl, hg⟩ | ⟨_, hg⟩
    · cases hg
      exact ⟨(Host.generationPlanID 0 digest).property, Nat.zero_lt_one, rfl, rfl⟩
    · cases hg
  case cleanups => exact fun k c hk => by cases hk
  case cleanup_unique =>
    exact fun k _ c _ hk => by cases hk
  case cleaned_up =>
    intro g hlt hc
    obtain rfl := hzero g hlt
    exact absurd hc (by simp [estate, Host.ledger, World.init, Host.init, entry,
      fresh])

theorem refs_init : (World.init K restart digest).estate.RefsOk := by
  constructor
  · intro g hlt
    obtain rfl : g = 0 := by
      have : g < 1 := hlt
      omega
    simp [estate, World.init, Host.ledger, Host.init, entry, fresh]
  · intro l g hl
    cases hl

theorem homes_init : (World.init K restart digest).estate.HomesOk := by
  have hentry : ∀ g, ((World.init K restart digest).estate.entry g).candidates = [] := by
    intro g
    by_cases hg : g = 0
    · subst hg
      rfl
    · simp [estate, Host.ledger, World.init, Host.init, entry, fresh, hg]
  have hhome : ∀ x, (World.init K restart digest).estate.home x = [] := by
    intro x
    cases x with
    | inl p => simp [Estate.home, estate, phase_init]
    | inr g =>
      simp only [Estate.home, hentry]
      split_ifs <;> rfl
  constructor
  case exclusive => exact ⟨fun x => by simp [hhome], fun x y _ => by simp [hhome]⟩
  case bound => exact fun x c hc => absurd hc (by simp [hhome])
  case accounted => exact fun c hc => by cases hc
  case aborts => exact fun p closer hp => absurd hp (by simp [estate, phase_init])
  case cleanups => exact fun k c hk => by cases hk

theorem calls_init : (World.init K restart digest).helm.CallsOk := by
  constructor
  · simp [helm, World.init, Host.vigil, Host.init]
  · intro t ht
    simp [helm, World.init] at ht
  · intro t r hr
    simp [helm, World.init] at hr
  · intro t t' r hr
    simp [helm, World.init] at hr

theorem ok_init : (World.init K restart digest).Ok :=
  ⟨⟨ledger_init K restart digest, refs_init K restart digest, homes_init K restart digest⟩,
    fun t hrun => by simp [World.init] at hrun, Nat.zero_lt_one, calls_init K restart digest⟩

end Init

theorem reachable_ok {restart : RestartPolicy} {digest : String}
    (h : (hostSystem K restart digest).Reachable w) : w.Ok :=
  h.invariant (I := World.Ok) (ok_init K restart digest) fun _ hok hst => hok.step hst

end World

end SpiceAgent.Pluginhost
