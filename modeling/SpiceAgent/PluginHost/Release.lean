import SpiceAgent.PluginHost.Graceful

/-!
# Contained generations are released

A host gives up a generation only after a `closeCandidates` without error, but
`acceptedCandidate.close` also returns the errors of the plugin's session and keeps them once the
candidate is contained. A generation with a crashed candidate is therefore owned for ever and
`Close` always fails (`generation_kept`). In graceful runs every generation whose cleanup has
finished is released, and once the leases are released a `Close` call can always come to its end
without error (`contained_released`).
-/

namespace SpiceAgent.Pluginhost

open Lib Function Finset List Option

/-- A `Close` call of a host of production candidates. -/
structure Closing where
  restart : RestartPolicy
  digest : String
  call : ℕ

abbrev Closing.host (q : Closing) := hostSystem productionKind q.restart q.digest

namespace World

variable {w w' w'' : World productionKind} {p : Party} {q : Closing}

/-! ## Finishing -/

/-- A graceful run in which a `Close` call has begun, every lease is released and every candidate
that is not contained is healthy. -/
structure Finishing (q : Closing) (w : World productionKind) : Prop where
  reach : q.host.ReachableIf ClosesGracefully w
  sane : w.Sane
  free : ∀ l g, ¬ w.Unreleased l g
  loop : ∃ attempt, w.InLoop q.call attempt

abbrev Leads (q : Closing) := q.host.Leads ClosesGracefully

/-- The host comes from one state to another by graceful steps that move at most the activation
`moved`. -/
structure Path (q : Closing) (w w' : World productionKind) (moved : Option ℕ) : Prop where
  leads : Leads q w w'
  finishing : w'.Finishing q
  activates : ∀ t', moved ≠ some t' → w'.activates t' = w.activates t'

theorem Path.refl (hf : w.Finishing q) (moved : Option ℕ) :
    Path q w w moved := ⟨.refl w, hf, fun _ _ => rfl⟩

theorem Path.trans {moved : Option ℕ} (h : Path q w w' moved)
    (h' : Path q w' w'' moved) : Path q w w'' moved :=
  ⟨h.leads.trans h'.leads, h'.finishing, fun t' ht' =>
    (h'.activates t' ht').trans (h.activates t' ht')⟩

namespace Finishing

section

variable (hf : w.Finishing q)
include hf

theorem graceful : w.Graceful := reachable_graceful hf.reach

theorem closing : w.host.closing = true := by
  obtain ⟨attempt, hloop⟩ := hf.loop
  refine hf.graceful.ok.begun q.call ?_
  rcases hloop with hlooping | ⟨n, watching, hwaiting⟩
  · exact .inl ⟨attempt, hlooping⟩
  · exact .inr ⟨attempt, n, watching, hwaiting⟩

/-- The candidates stay sane and no lease comes back in a step of neither a lease nor a health
observer. -/
theorem kept {label : HostLabel (Launch × CloseInput)} (hlease : label.ofLease = false)
    (hchange : label.changes = false) (hC : w.ClosesGracefully label) (h : w.step label = some w') :
    w'.Sane ∧ ∀ l g, ¬ w'.Unreleased l g := by
  have hg := hf.graceful
  refine ⟨hf.sane.step (fun x i s hs => (Production.clean_start hs).2)
    (fun heq => absurd (hchange.symm.trans heq) nofun) (hC.close hg.ok hg.clean h).2.2 h, ?_⟩
  intro l g hl
  apply hf.free l g
  unfold Unreleased at hl ⊢
  rwa [← step_leases hlease h]

theorem step (label : HostLabel (Launch × CloseInput)) (hclose : label.ofClose = false)
    (hlease : label.ofLease = false) (hchange : label.changes = false)
    (hC : w.ClosesGracefully label) (h : w.step label = some w') :
    Path q w w' label.activation? := by
  obtain ⟨hsane, hfree⟩ := hf.kept hlease hchange hC h
  refine ⟨.single hC h, ⟨hf.reach.step hC h, hsane, hfree, ?_⟩, fun t' => step_activates h⟩
  obtain ⟨attempt, hloop⟩ := hf.loop
  refine ⟨attempt, ?_⟩
  unfold InLoop at hloop ⊢
  rwa [step_closes hclose h]

theorem advance {event : AttemptEvent (Launch × CloseInput)}
    (hnone : closesNone (.attempt p event) = true) (h : w.attemptStep p event = some w') :
    Path q w w' p.activation? :=
  hf.step _ rfl rfl rfl (atClose_of_closesNone hnone) h

end

/-- The input with which candidates can be closed. -/
def bestInput : Launch × CloseInput := (.failed, .best)

theorem closesWell (hf : w.Finishing q) {closer : Closer}
    (htodo : ∀ c ∈ closer.todo, ∃ x, w.ToClose x c) : w.ClosesWell closer (some bestInput) := by
  refine ⟨bestInput, rfl, fun c rest s hcons hs => ?_⟩
  have hmem : c ∈ closer.todo := by
    rw [hcons]
    exact mem_cons_self
  obtain ⟨x, hx⟩ := htodo c hmem
  obtain ⟨s', hs', hsane⟩ := hf.sane c (hf.graceful.ok.toClose_lt hx)
  cases hs.symm.trans hs'
  exact Production.closesWell_best hsane

theorem closeNext_best {closer : Closer} {c : ℕ} {rest : List ℕ} (htodo : closer.todo = c :: rest) :
    ∃ w₁ closer', w.closeNext closer (some bestInput) = some (w₁, closer') := by
  simp only [closeNext, htodo]
  exact ⟨_, _, rfl⟩

theorem closeAborted (n : ℕ) : ∀ {w : World productionKind}, w.Finishing q →
    ∀ {staging : Bool} {cs : List ℕ} {closer : Closer},
      w.phase p = some (.aborting staging cs closer) → closer.todo.length = n →
      ∃ w' closer', Path q w w' p.activation? ∧
        w'.phase p = some (.aborting staging cs closer') ∧ closer'.todo = [] := by
  induction n with
  | zero =>
    intro w hf staging cs closer hp hlength
    exact ⟨w, closer, .refl hf _, hp, length_eq_zero_iff.mp hlength⟩
  | succ n ih =>
    intro w hf staging cs closer hp hlength
    obtain ⟨c, rest, htodo⟩ := exists_cons_of_length_eq_add_one hlength
    obtain ⟨w₁, closer', hnext⟩ := closeNext_best (w := w) htodo
    have hstep : w.attemptStep p (.close (some bestInput)) =
        some (w₁.setPhase p (.aborting staging cs closer')) := by
      simp [attemptStep, hp, hnext]
    have hC : w.ClosesGracefully (.attempt p (.close (some bestInput))) := by
      constructor
      · intro p' input staging' cs' closer₀ heq hp'
        obtain ⟨rfl, hevent⟩ := HostLabel.attempt.inj heq
        obtain rfl := AttemptEvent.close.inj hevent
        obtain ⟨_, _, rfl⟩ := AttemptPhase.aborting.inj (some_inj.mp (hp.symm.trans hp'))
        exact hf.closesWell fun c hc => ⟨.inl p, staging, cs, closer, hp, hc⟩
      · intro k input cleanup heq
        cases heq
    have hpath := hf.step _ rfl rfl rfl hC hstep
    have hw₁ : w₁.phase p = some (.aborting staging cs closer) := by
      rw [(closeNext_turn hnext).2]
      exact hp
    have hsucceeds :=
      ((hC.close hf.graceful.ok hf.graceful.clean hstep).1).1 p _ staging cs closer rfl hp
    obtain ⟨w', closer'', hpath', hphase, hdone⟩ := ih hpath.finishing (phase_setPhase_self hw₁) (by
      rw [hsucceeds.closer hnext, length_tail, hlength]
      rfl)
    exact ⟨w', closer'', hpath.trans hpath', hphase, hdone⟩

/-! ### Staging calls -/

/-- The staging call of a party can come to its end. -/
def Ends (q : Closing) (w : World productionKind) (p : Party) : Prop :=
  ∃ w' published, Path q w w' p.activation? ∧ w'.phase p = some (.ended published)

theorem ends_of_path (hpath : Path q w w' p.activation?)
    (h : w'.Finishing q → Ends q w' p) : Ends q w p := by
  obtain ⟨w'', published, hpath', hphase⟩ := h hpath.finishing
  exact ⟨w'', published, hpath.trans hpath', hphase⟩

section

variable (hf : w.Finishing q)
include hf

theorem ends_of_ended {published : Bool} (hp : w.phase p = some (.ended published)) : Ends q w p :=
  ⟨w, published, .refl hf _, hp⟩

theorem endAborted {staging : Bool} {cs : List ℕ} {closer : Closer}
    (hp : w.phase p = some (.aborting staging cs closer)) : Ends q w p := by
  obtain ⟨w₁, closer', hpath, hp₁, htodo⟩ := closeAborted _ hf hp rfl
  have hstep : w₁.attemptStep p .abort = some (w₁.endAbort p staging cs closer'.failed) := by
    simp [attemptStep, hp₁, htodo]
  refine ends_of_path (hpath.trans (hpath.finishing.advance rfl hstep)) fun hf₂ => ?_
  cases staging with
  | false => exact hf₂.ends_of_ended (phase_setPhase_self hp₁)
  | true =>
    have hp₂ : (w₁.endAbort p true cs closer'.failed).phase p = some (.leaving none) :=
      phase_setPhase_self hp₁
    have hstep₃ : (w₁.endAbort p true cs closer'.failed).attemptStep p .leave =
        some ((w₁.endAbort p true cs closer'.failed).endStage p none) := by
      simp [attemptStep, hp₂]
    exact ends_of_path (hf₂.advance rfl hstep₃) fun hf₃ =>
      hf₃.ends_of_ended (phase_setPhase_self hp₂)

theorem endStaged {id : PlanID} {cs : List ℕ} (hp : w.phase p = some (.staged id cs)) :
    Ends q w p := by
  have hstep : w.attemptStep p (.publish true) = some (w.publish p id cs true) := by
    simp [attemptStep, hp]
  refine ends_of_path (hf.advance rfl hstep) fun hf₁ => ?_
  rcases publish_cases hp true with heq | ⟨host, _, heq⟩
  · rw [heq] at hf₁ ⊢
    exact hf₁.endAborted (phase_setPhase_self hp)
  · rw [heq] at hf₁ ⊢
    exact hf₁.ends_of_ended (phase_setPhase_self hp)

theorem endAttempt {phase : AttemptPhase} (hp : w.phase p = some phase)
    (hreturned : phase.hasReturned = false) : Ends q w p := by
  cases phase with
  | waiting set =>
    have hstep : w.attemptStep p .refuse = some (w.setPhase p (.ended false)) := by
      simp [attemptStep, hp]
    exact ends_of_path (hf.advance rfl hstep) fun hf₁ => hf₁.ends_of_ended (phase_setPhase_self hp)
  | starting n cs rest =>
    cases rest with
    | nil =>
      have hstep : w.attemptStep p (.compose none) = some (w.setPhase p (abortPhase true cs)) := by
        simp [attemptStep, hp]
      exact ends_of_path (hf.advance rfl hstep) fun hf₁ => hf₁.endAborted (phase_setPhase_self hp)
    | cons x rest =>
      have hstep : w.attemptStep p (.start bestInput) =
          some (w.setPhase p (abortPhase true cs)) := by
        show _ = some (w.startNext p n cs x rest bestInput)
        simp [attemptStep, hp]
      exact ends_of_path (hf.advance rfl hstep) fun hf₁ => hf₁.endAborted (phase_setPhase_self hp)
  | aborting staging cs closer => exact hf.endAborted hp
  | leaving generation =>
    have hstep : w.attemptStep p .leave = some (w.endStage p generation) := by
      simp [attemptStep, hp]
    refine ends_of_path (hf.advance rfl hstep) fun hf₁ => ?_
    cases generation with
    | none => exact hf₁.ends_of_ended (phase_setPhase_self hp)
    | some generation => exact hf₁.endStaged (phase_setPhase_self hp)
  | staged id cs => exact hf.endStaged hp
  | ended published => exact hf.ends_of_ended hp
  | returned published => cases hreturned

theorem endActivation {t' : ℕ} {a : Activation} (ha : w.activates t' = some a)
    (hreturned : a.phase.hasReturned = false) :
    ∃ w' a', Path q w w' (some t') ∧ w'.activates t' = some a' ∧
      a'.phase.hasReturned = true := by
  have hp : w.phase (.activation t') = some a.phase := by simp [World.phase, ha]
  obtain ⟨w₁, published, hpath, hp₁⟩ := hf.endAttempt hp hreturned
  have hstep : w₁.finishStep t' = some { w₁.setPhase (.activation t') (.returned published) with
      host := w₁.host.finishExplicitActivation w₁.done published } := by
    simp [finishStep, hp₁]
  have hpath' := hpath.finishing.step (.finish t') rfl rfl rfl
    (atClose_of_closesNone rfl) hstep
  have hphase : (w₁.setPhase (.activation t') (.returned published)).phase (.activation t') =
      some (.returned published) := phase_setPhase_self hp₁
  obtain ⟨a', ha', hphase'⟩ := map_eq_some_iff.mp hphase
  refine ⟨_, a', hpath.trans hpath', ha', ?_⟩
  rw [hphase']
  rfl

end

theorem endActivations (n : ℕ) : ∀ {w : World productionKind}, w.Finishing q →
    w.host.explicitActivations = n →
    ∃ w', w'.Finishing q ∧
      Leads q w w' ∧
      ∀ t' a, w'.activates t' = some a → a.phase.hasReturned = true := by
  induction n with
  | zero =>
    intro w hf hn
    refine ⟨w, hf, .refl w, fun t' a ha => ?_⟩
    by_contra hnot
    exact hf.graceful.ok.calls.pos ⟨a, ha, by simpa using hnot⟩ hn
  | succ n ih =>
    intro w hf hn
    have hcount : w.helm.running.encard = w.host.explicitActivations := hf.graceful.ok.calls.count
    have hne : w.helm.running ≠ ∅ := by
      intro hempty
      rw [hempty, Set.encard_empty, hn] at hcount
      exact absurd hcount.symm nofun
    obtain ⟨t', a, ha, hreturned⟩ := Set.nonempty_iff_ne_empty.mpr hne
    obtain ⟨w₁, a₁, hpath, ha₁, hreturned₁⟩ := hf.endActivation ha hreturned
    have hrunning : w₁.helm.running = w.helm.running \ {t'} := by
      ext t''
      by_cases heq : t'' = t'
      · subst heq
        simp [World.helm, ha₁, hreturned₁]
      · have hsame := hpath.activates t'' fun h => heq (some_inj.mp h).symm
        simp [World.helm, hsame, heq]
    have hcount₁ : w₁.helm.running.encard = w₁.host.explicitActivations :=
      hpath.finishing.graceful.ok.calls.count
    have hn₁ : w₁.host.explicitActivations = n := by
      have hadd :=
        Set.encard_sdiff_singleton_add_one (show t' ∈ w.helm.running from ⟨a, ha, hreturned⟩)
      rw [← hrunning, hcount₁, hcount, hn] at hadd
      exact_mod_cast Nat.succ.inj (by exact_mod_cast hadd)
    obtain ⟨w', hf', hleads, hall⟩ := ih hpath.finishing hn₁
    exact ⟨w', hf', hpath.leads.trans hleads, hall⟩

/-! ### The recovery controller -/

/-- The recovery controller can come to its end. -/
def Stops (q : Closing) (w : World productionKind) : Prop :=
  ∃ w', Path q w w' none ∧ w'.controller = .stopped

theorem stops_of_path (hpath : Path q w w' none)
    (h : w'.Finishing q → Stops q w') : Stops q w := by
  obtain ⟨w'', hpath', hstopped⟩ := h hpath.finishing
  exact ⟨w'', hpath.trans hpath', hstopped⟩

variable (hf : w.Finishing q)
include hf

theorem stopSelecting (hc : w.controller = .selecting) : Stops q w := by
  have hstep : w.step .stop = some { w with controller := .stopped } := by
    simp [World.step, hc, hf.closing]
  exact ⟨_, hf.step _ rfl rfl rfl (atClose_of_closesNone rfl) hstep, rfl⟩

theorem stopAwake (hc : w.controller = .awake) : Stops q w := by
  have hstep : w.step .recover = some { w with controller := .selecting } := by
    simp only [World.step, recoverStep, hc]
    cases w.host.recovery with
    | none => rfl
    | some e => simp [hf.closing]
  exact stops_of_path (hf.step _ rfl rfl rfl (atClose_of_closesNone rfl) hstep) fun hf₁ =>
    hf₁.stopSelecting rfl

theorem stopLeaving {s : ℕ} {again : Bool} (hc : w.controller = .leaving s again) : Stops q w := by
  have hstep : w.step .resume = some { w with
      host := w.host.endRecovery s
      controller := if again then .awake else .selecting } := by
    simp [World.step, resumeStep, hc]
  refine stops_of_path (hf.step _ rfl rfl rfl (atClose_of_closesNone rfl) hstep) fun hf₁ => ?_
  cases again with
  | false => exact hf₁.stopSelecting rfl
  | true => exact hf₁.stopAwake rfl

theorem stopEnded {s : ℕ} {published : Bool}
    (hc : w.controller = .attempting s (.ended published)) : Stops q w := by
  obtain ⟨w₁, again, hstep, hc₁⟩ :
      ∃ w₁ again, w.step .settle = some w₁ ∧ w₁.controller = .leaving s again := by
    cases published <;> simp [World.step, settleStep, hc]
  exact stops_of_path (hf.step _ rfl rfl rfl (atClose_of_closesNone rfl) hstep) fun hf₁ =>
    hf₁.stopLeaving hc₁

theorem stopController : Stops q w := by
  cases hc : w.controller with
  | selecting => exact hf.stopSelecting hc
  | awake => exact hf.stopAwake hc
  | backingOff s desired =>
    have hstep : w.step (.waited true) = some { w with controller := .leaving s false } := by
      simp [World.step, waitedStep, hc, hf.closing]
    exact stops_of_path (hf.step _ rfl rfl rfl (atClose_of_closesNone rfl) hstep) fun hf₁ =>
      hf₁.stopLeaving rfl
  | attempting s phase =>
    have hp : w.phase .controller = some phase := by simp [World.phase, hc, Controller.phase]
    obtain ⟨w₁, published, hpath, hp₁⟩ :=
      hf.endAttempt hp (hf.graceful.orderly.controller phase hp)
    refine stops_of_path hpath fun hf₁ => ?_
    have hp₁ : w₁.controller.phase = some (.ended published) := hp₁
    cases hc₁ : w₁.controller with
    | attempting s₁ phase₁ =>
      rw [hc₁] at hp₁
      cases hp₁
      exact hf₁.stopEnded hc₁
    | selecting | awake | backingOff | leaving | stopped =>
      rw [hc₁] at hp₁
      cases hp₁
  | leaving s again => exact hf.stopLeaving hc
  | stopped => exact ⟨w, .refl hf _, hc⟩

end Finishing

/-! ### Cleanups -/

/-- A `Close` call has only the cleanups of owned generations to wait for. -/
structure Still (q : Closing) (w : World productionKind) : Prop where
  finishing : w.Finishing q
  returned : ∀ t' a, w.activates t' = some a → a.phase.hasReturned = true
  stopped : w.controller = .stopped

namespace Still

section

variable (hs : w.Still q)
include hs

theorem path (hpath : Path q w w' none)
    (hcontroller : w'.controller = w.controller) : w'.Still q where
  finishing := hpath.finishing
  returned t' a ha := hs.returned t' a ((hpath.activates t' nofun).symm.trans ha)
  stopped := hcontroller.trans hs.stopped

theorem idle : w.host.activations = 0 ∧ w.host.explicitActivations = 0 := by
  have hg := hs.finishing.graceful
  constructor
  · rcases hg.orderly.token with ⟨_, hzero, _⟩ | ⟨_, _, p, honly⟩
    · exact hzero
    · -- the phases of activations that have returned and of the ended controller have no token
      obtain ⟨phase, hp, ht⟩ := (honly p).mpr rfl
      cases p with
      | activation t' =>
        obtain ⟨a, ha, rfl⟩ := map_eq_some_iff.mp hp
        have hreturned := hs.returned t' a ha
        cases hphase : a.phase <;>
          simp [hphase, AttemptPhase.hasReturned, AttemptPhase.hasToken] at hreturned ht
      | controller =>
        rw [World.phase, hs.stopped] at hp
        cases hp
  · have hcount : w.helm.running.encard = w.host.explicitActivations := hg.ok.calls.count
    have hempty : w.helm.running = ∅ := by
      refine Set.eq_empty_iff_forall_notMem.mpr ?_
      rintro t' ⟨a, ha, hnot⟩
      rw [hs.returned t' a ha] at hnot
      cases hnot
    rw [hempty, Set.encard_empty] at hcount
    exact_mod_cast hcount.symm

theorem refs {g : ℕ} (hg : g ∈ w.host.owned) : (w.host.generation g).refs = 0 := by
  have hok := hs.finishing.graceful.ok
  have hrefs := hok.refs_eq (hok.estate.ledger.owned_lt g hg)
  have hempty : {l | w.Unreleased l g} = ∅ :=
    Set.eq_empty_iff_forall_notMem.mpr fun l hl => hs.finishing.free l g hl
  rw [hempty, Set.encard_empty] at hrefs
  exact_mod_cast hrefs.symm

end

theorem closeCleanup (n : ℕ) : ∀ {w : World productionKind}, w.Still q →
    ∀ {k g : ℕ} {closer : Closer}, w.host.cleanups k = some ⟨g, closer⟩ → closer.todo.length = n →
      ∃ w' closer', Leads q w w' ∧ w'.Still q ∧
        w'.host.cleanups k = some ⟨g, closer'⟩ ∧ closer'.todo = [] ∧
        w'.host.owned = w.host.owned ∧ w'.host.generation = w.host.generation := by
  induction n with
  | zero =>
    intro w hs k g closer hk hlength
    exact ⟨w, closer, .refl w, hs, hk, length_eq_zero_iff.mp hlength, rfl, rfl⟩
  | succ n ih =>
    intro w hs k g closer hk hlength
    have hf := hs.finishing
    obtain ⟨c, rest, htodo⟩ := exists_cons_of_length_eq_add_one hlength
    obtain ⟨w₁, closer', hnext⟩ := Finishing.closeNext_best (w := w) htodo
    have hstep : w.cleanupStep k (some Finishing.bestInput) = some { w₁ with
        host := { w₁.host with
          cleanups := update w₁.host.cleanups k (some ⟨g, closer'⟩) } } := by
      simp [cleanupStep, hk, hnext]
    have hC : w.ClosesGracefully (.cleanup k (some Finishing.bestInput)) := by
      constructor
      · intro p input staging cs closer₀ heq
        cases heq
      · intro k' input cleanup heq hk'
        obtain ⟨rfl, rfl⟩ := HostLabel.cleanup.inj heq
        cases hk.symm.trans hk'
        exact hf.closesWell fun c hc => ⟨.inr k, ⟨g, closer⟩, hk, hc⟩
    have hpath := hf.step _ rfl rfl rfl hC hstep
    have hsucceeds := ((hC.close hf.graceful.ok hf.graceful.clean hstep).1).2 k _ ⟨g, closer⟩ rfl hk
    have hw₁ := (closeNext_turn hnext).2
    have hs₁ := hs.path hpath (by rw [hw₁])
    obtain ⟨w', closer'', hleads, hs', hk', hdone, howned, hgeneration⟩ :=
      ih hs₁ (update_self ..) (by
        rw [hsucceeds.closer hnext, length_tail, hlength]
        rfl)
    refine ⟨w', closer'', hpath.leads.trans hleads, hs', hk', hdone, howned.trans ?_,
      hgeneration.trans ?_⟩
    · rw [hw₁]
    · rw [hw₁]

theorem endCleanup (hs : w.Still q) {g : ℕ} (hg : g ∈ w.host.owned)
    (hcleaning : (w.host.generation g).cleaning = true) :
    ∃ w', Leads q w w' ∧ w'.Still q ∧
      w'.host.owned = w.host.owned.erase g ∧
      ∀ g', g' ≠ g → w'.host.generation g' = w.host.generation g' := by
  have hok := hs.finishing.graceful.ok
  obtain ⟨k, ⟨g₀, closer⟩, hk, rfl⟩ :=
    hok.estate.ledger.cleaned_up g (hok.estate.ledger.owned_lt g hg) hcleaning
  obtain ⟨w₁, closer', hleads, hs₁, hk₁, htodo, howned, hgeneration⟩ := closeCleanup _ hs hk rfl
  have hfailed := (hs₁.finishing.graceful.orderly.faultless.closers k _ hk₁).1
  have hstep : w₁.cleanedStep k = some { w₁ with host := w₁.host.finishCleanup k g₀ false } := by
    simp only [cleanedStep, hk₁, htodo, if_true]
    rw [hfailed]
  have hpath := hs₁.finishing.step (.cleaned k) rfl rfl rfl (atClose_of_closesNone rfl) hstep
  refine ⟨_, hleads.trans hpath.leads, hs₁.path hpath rfl, ?_, ?_⟩
  · show w₁.host.owned.erase g₀ = _
    rw [howned]
  · intro g' hg'
    show update w₁.host.generation g₀ _ g' = _
    rw [update_of_ne hg', hgeneration]

theorem endCleanups (n : ℕ) : ∀ {w : World productionKind}, w.Still q →
    w.host.owned.card = n →
    ∃ w', Leads q w w' ∧ w'.Still q ∧ w'.host.owned ⊆ w.host.owned ∧
      ∀ g ∈ w'.host.owned, (w'.host.generation g).cleaning = false ∧
        (w.host.generation g).cleaning = false := by
  induction n with
  | zero =>
    intro w hs hcard
    rw [card_eq_zero] at hcard
    exact ⟨w, .refl w, hs, Finset.Subset.refl _, by simp [hcard]⟩
  | succ n ih =>
    intro w hs hcard
    by_cases hany : ∃ g ∈ w.host.owned, (w.host.generation g).cleaning = true
    · obtain ⟨g, hg, hcleaning⟩ := hany
      obtain ⟨w₁, hleads, hs₁, howned, hgeneration⟩ := hs.endCleanup hg hcleaning
      obtain ⟨w', hleads', hs', hsub, hnone⟩ := ih hs₁ (by
        rw [howned, card_erase_of_mem hg, hcard]
        rfl)
      refine ⟨w', hleads.trans hleads', hs', hsub.trans (howned ▸ erase_subset _ _), ?_⟩
      intro g' hg'
      obtain ⟨hnow, hbefore⟩ := hnone g' hg'
      have hne : g' ≠ g := by
        have hmem := hsub hg'
        rw [howned] at hmem
        exact ne_of_mem_erase hmem
      exact ⟨hnow, by rw [← hgeneration g' hne]; exact hbefore⟩
    · refine ⟨w, .refl w, hs, Finset.Subset.refl _, fun g hg => ?_⟩
      have hnot : (w.host.generation g).cleaning = false := by
        by_contra hcleaning
        exact hany ⟨g, hg, by simpa using hcleaning⟩
      exact ⟨hnot, hnot⟩

/-! ### The `Close` call -/

section

variable (hs : w.Still q)
include hs

theorem not_busy (hnone : ∀ g ∈ w.host.owned, (w.host.generation g).cleaning = false) :
    ¬ w.host.Busy := by
  rintro (hactivations | hexplicit | ⟨g, hg, hbusy⟩)
  · exact hactivations hs.idle.1
  · exact hexplicit hs.idle.2
  · rcases hbusy with hrefs | hcleaning
    · exact hrefs (hs.refs hg)
    · rw [hnone g hg] at hcleaning
      cases hcleaning

theorem closeStep {label : HostLabel (Launch × CloseInput)} (hlease : label.ofLease = false)
    (hnone : closesNone label = true) (hchange : label.changes = false)
    (hactivation : label.activation? = none) (h : w.step label = some w')
    (hloop : ∃ attempt, w'.InLoop q.call attempt) (hcontroller : w'.controller = w.controller) :
    Leads q w w' ∧ w'.Still q := by
  have hf := hs.finishing
  have hC : w.ClosesGracefully label := atClose_of_closesNone hnone
  obtain ⟨hsane, hfree⟩ := hf.kept hlease hchange hC h
  refine ⟨.single hC h,
    ⟨⟨hf.reach.step hC h, hsane, hfree, hloop⟩, ?_, hcontroller.trans hs.stopped⟩⟩
  intro t' a ha
  rw [step_activates h fun heq => absurd (hactivation.symm.trans heq) nofun] at ha
  exact hs.returned t' a ha

theorem wake (hnone : ∀ g ∈ w.host.owned, (w.host.generation g).cleaning = false) :
    ∃ w' attempt, Leads q w w' ∧ w'.Still q ∧
      w'.closes q.call = some (.looping attempt) ∧ w'.host = w.host := by
  obtain ⟨attempt, hlooping | ⟨n, watching, hwaiting⟩⟩ := hs.finishing.loop
  · exact ⟨w, attempt, .refl w, hs, hlooping, rfl⟩
  · have hwaits := hs.finishing.graceful.watched.waits q.call attempt n watching hwaiting
    have hwakes : w.host.changed ≠ n ∨ (watching = true ∧ w.controllerDone = true) := by
      by_cases heq : n = w.host.changed
      · right
        refine ⟨(hwaits.wakes heq).resolve_right (hs.not_busy hnone), ?_⟩
        simp [controllerDone, hs.stopped]
      · exact .inl (Ne.symm heq)
    have hstep : w.step (.changed q.call) = some (w.setClose q.call (.looping attempt)) := by
      simp only [World.step, changedStep, hwaiting]
      rw [if_pos hwakes]
    have hself : (w.setClose q.call (.looping attempt)).closes q.call = some (.looping attempt) :=
      update_self ..
    obtain ⟨hleads, hs'⟩ := hs.closeStep rfl rfl rfl rfl hstep ⟨attempt, .inl hself⟩ rfl
    exact ⟨_, attempt, hleads, hs', hself, rfl⟩

theorem progress {attempt : ℕ} (ht : w.closes q.call = some (.looping attempt)) :
    ∃ w', Leads q w w' ∧
      (w'.closes q.call = some (.returned .closed) ∨
        w'.Still q ∧ w'.host.owned = w.host.owned ∧
          ∃ g ∈ w'.host.owned, (w'.host.generation g).cleaning = true) := by
  have hg := hs.finishing.graceful
  have hcleaned : ∀ g ∈ w.host.owned, (w.host.generation g).cleaned = false := fun g hg' =>
    (hg.ok.estate.ledger.fits g (hg.ok.estate.ledger.owned_lt g hg')).owned.mp hg'
  have hattempt := hg.watched.attempts q.call attempt (.inl ht)
  have hcases :=
    Host.closeProgress_faultless hg.orderly.faultless hcleaned hattempt w.controllerDone
  have howned := Host.closeProgress_owned w.host attempt w.controllerDone
  have hstep : w.step (.progress q.call) = w.progressStep q.call := rfl
  unfold progressStep at hstep
  simp only [ht] at hstep
  generalize w.host.closeProgress attempt w.controllerDone = r at hstep hcases howned
  obtain ⟨host, progress⟩ := r
  rcases hcases with ⟨hwait, hbusy⟩ | hdone
  · obtain rfl : progress = .wait := hwait
    have hself : ∀ v : World productionKind,
        (v.setClose q.call (.waiting attempt host.changed !w.controllerDone)).closes q.call =
          some (.waiting attempt host.changed !w.controllerDone) := fun v => update_self ..
    obtain ⟨hleads, hs'⟩ := hs.closeStep rfl rfl rfl rfl hstep
      ⟨attempt, .inr ⟨_, _, hself w⟩⟩ rfl
    refine ⟨_, hleads, .inr ⟨hs', howned, ?_⟩⟩
    have hbusy : host.Busy := by
      refine hbusy.resolve_left ?_
      simp [controllerDone, hs.stopped]
    obtain ⟨hactivations, hexplicit⟩ := hs'.idle
    rcases hbusy with hnot | hnot | ⟨g, hg', hbusy⟩
    · exact absurd hactivations hnot
    · exact absurd hexplicit hnot
    · exact ⟨g, hg', hbusy.resolve_left fun hnot => hnot (hs'.refs hg')⟩
  · obtain rfl : progress = .done := hdone
    have hstep : w.step (.progress q.call) = some { w.setClose q.call (.returned .closed) with
        host := host
        closeGate := true } := hstep
    refine ⟨_, .single (l := .progress q.call) (atClose_of_closesNone rfl) hstep, .inl ?_⟩
    exact update_self ..

end

theorem closes (n : ℕ) : ∀ {w : World productionKind}, w.Still q →
    w.host.owned.card = n →
    ∃ w', Leads q w w' ∧ w'.closes q.call = some (.returned .closed) := by
  induction n using Nat.strong_induction_on with
  | _ n ih =>
    intro w hs hcard
    obtain ⟨w₁, hleads₁, hs₁, hsub₁, hnone₁⟩ := endCleanups _ hs rfl
    obtain ⟨w₂, attempt, hleads₂, hs₂, hlooping, hhost₂⟩ := hs₁.wake fun g hg => (hnone₁ g hg).1
    obtain ⟨w₃, hleads₃, hreturned | ⟨hs₃, howned₃, g, hg, hcleaning⟩⟩ := hs₂.progress hlooping
    · exact ⟨w₃, (hleads₁.trans hleads₂).trans hleads₃, hreturned⟩
    · -- the generation whose cleanup was started is given up
      obtain ⟨w₄, hleads₄, hs₄, hsub₄, hnone₄⟩ := endCleanups _ hs₃ rfl
      have hnot : g ∉ w₄.host.owned := by
        intro hmem
        rw [(hnone₄ g hmem).2] at hcleaning
        cases hcleaning
      have hlt : w₄.host.owned.card < n := by
        have hss : w₄.host.owned ⊂ w₃.host.owned :=
          (ssubset_iff_of_subset hsub₄).mpr ⟨g, hg, hnot⟩
        have hlt := card_lt_card hss
        have hle := card_le_card hsub₁
        rw [howned₃, hhost₂] at hlt
        omega
      obtain ⟨w', hleads', hreturned⟩ := ih _ hlt hs₄ rfl
      exact ⟨w', (((hleads₁.trans hleads₂).trans hleads₃).trans hleads₄).trans hleads', hreturned⟩

end Still

theorem Finishing.closes (hf : w.Finishing q) :
    ∃ w', Leads q w w' ∧
      w'.closes q.call = some (.returned .closed) := by
  obtain ⟨w₁, hf₁, hleads₁, hreturned⟩ := endActivations _ hf rfl
  obtain ⟨w₂, hpath₂, hstopped⟩ := hf₁.stopController
  have hs : w₂.Still q := by
    refine ⟨hpath₂.finishing, fun t' a ha => ?_, hstopped⟩
    exact hreturned t' a ((hpath₂.activates t' nofun).symm.trans ha)
  obtain ⟨w', hleads, hclosed⟩ := Still.closes _ hs rfl
  exact ⟨w', (hleads₁.trans hpath₂.leads).trans hleads, hclosed⟩

end World

/-- **Contained generations are released**: in a graceful run a generation whose cleanup has
finished is not owned any more, no `Close` call fails, and once a `Close` call has begun, every
lease is released and no candidate that is not contained has failed, the call can still return
without error. -/
theorem contained_released {restart : RestartPolicy} {digest : String} {w : World productionKind}
    (h : (hostSystem productionKind restart digest).ReachableIf World.ClosesGracefully w) :
    (∀ g, g < w.host.generations → (w.host.generation g).retired = true →
        (w.host.generation g).cleaning = false → g ∉ w.host.owned) ∧
      (∀ t, w.closes t ≠ some (.returned .cleanupFailed)) ∧
      ∀ t attempt, w.InLoop t attempt → (∀ l g, ¬ w.Unreleased l g) → w.Sane →
        ∃ w', (hostSystem productionKind restart digest).Leads World.ClosesGracefully w w' ∧
          w'.closes t = some (.returned .closed) := by
  have hg := World.reachable_graceful h
  refine ⟨?_, hg.watched.succeeds, ?_⟩
  · intro g hlt hretired hcleaning howned
    have hcleaned := (hg.ok.estate.ledger.fits g hlt).owned.mp howned
    have hcleaned : (w.host.generation g).cleaned = false := hcleaned
    simp [Generation.retired, hcleaning, hcleaned, hg.orderly.faultless.errs g] at hretired
  · intro t attempt hloop hfree hsane
    exact World.Finishing.closes (q := ⟨restart, digest, t⟩) ⟨h, hsane, hfree, attempt, hloop⟩

/-! ## Fixed runs -/

/-- A check of the turn of `closeCandidates` that a step makes. -/
def World.atClose {K : CandidateKind} (w : World K) (check : Closer → Option K.Input → Bool) :
    HostLabel K.Input → Bool
  | .attempt p (.close input) =>
    match w.phase p with
    | some (.aborting _ _ closer) => check closer input
    | _ => true
  | .cleanup k input => (w.host.cleanups k).all fun cleanup => check cleanup.closer input
  | _ => true

theorem World.atClose_sound {K : CandidateKind} (w : World K)
    (check : Closer → Option K.Input → Bool) (label : HostLabel K.Input)
    (h : w.atClose check label = true) :
    w.AtClose label fun closer input => check closer input = true := by
  constructor
  · rintro p input staging cs closer rfl hp
    simpa [World.atClose, hp] using h
  · rintro k input cleanup rfl hk
    simpa [World.atClose, hk] using h

variable (w : World productionKind)

/-- A check of `World.ClosesWell`. -/
def World.closesWell (closer : Closer) : Option (Launch × CloseInput) → Bool
  | none => false
  | some i =>
    match closer.todo with
    | [] => true
    | c :: _ => (w.candidate c).all fun s => Production.closesWell s i.2

theorem World.closesWell_sound {w : World productionKind} {closer : Closer}
    {input : Option (Launch × CloseInput)} (h : w.closesWell closer input = true) :
    w.ClosesWell closer input := by
  cases input with
  | none => exact absurd h nofun
  | some i =>
    refine ⟨i, rfl, fun c rest s htodo hs => ?_⟩
    have hall : (w.candidate c).all (fun s => Production.closesWell s i.2) = true := by
      simpa [World.closesWell, htodo] using h
    rw [hs] at hall
    exact hall

variable (label : HostLabel (Launch × CloseInput))

theorem World.closesGracefully_sound (h : w.atClose w.closesWell label = true) :
    w.ClosesGracefully label := by
  obtain ⟨hattempt, hcleanup⟩ := w.atClose_sound w.closesWell label h
  refine ⟨fun p input staging cs closer heq hp => ?_, fun k input cleanup heq hk => ?_⟩
  · exact World.closesWell_sound (hattempt p input staging cs closer heq hp)
  · exact World.closesWell_sound (hcleanup k input cleanup heq hk)

def noRestart : RestartPolicy := ⟨0, 0, 0, 0⟩

abbrev productionHost := hostSystem productionKind noRestart ""

/-- An accepted candidate, and a call that finds everything in order. -/
def acceptedInput : Launch × CloseInput := (.accepted, .best)

/-- The steps of an activation of one accepted candidate. -/
def publishAccepted (t : ℕ) : List (HostLabel (Launch × CloseInput)) :=
  [.activate t oneExecutable, .attempt (.activation t) .begin,
    .attempt (.activation t) (.start acceptedInput),
    .attempt (.activation t) (.compose (some (Nat.repr t))), .attempt (.activation t) .leave,
    .attempt (.activation t) (.publish false), .finish t]

/-- A generation is replaced and released; then the host, with the candidate of the other one,
closes. -/
theorem contained_released_replaced : ∃ w,
    productionHost.ReachableIf World.ClosesGracefully w ∧
      (w.host.generation 1).retired = true ∧ (w.host.generation 1).cleaning = false ∧
      1 ∉ w.host.owned ∧ 2 ∈ w.host.owned ∧ w.closed 1 = false ∧ w.InLoop 0 1 ∧
      ∃ w', productionHost.Leads World.ClosesGracefully w w' ∧
        w'.closes 0 = some (.returned .closed) := by
  have hrun : productionHost.checkedRun (fun w => w.atClose w.closesWell) productionHost.init
      (publishAccepted 0 ++ publishAccepted 1 ++ [.cleanup 1 (some acceptedInput), .cleaned 1,
        .close 0, .enter 0 false]) = some _ := rfl
  have hreach := System.ReachableIf.init.checkedRun World.closesGracefully_sound hrun
  have hreleased := contained_released hreach
  refine ⟨_, hreach, rfl, rfl, hreleased.1 1 (by decide) rfl rfl, by decide, rfl, .inl rfl,
    hreleased.2.2 0 1 (.inl rfl) ?_ ?_⟩
  · rintro l g ⟨lease, hl, _⟩
    cases hl
  · intro c hc
    have hc : c < 2 := hc
    interval_cases c
    · exact ⟨_, rfl, fun _ => rfl⟩
    · exact ⟨_, rfl, fun _ => rfl⟩

/-- A check of `World.ContainmentSucceeds`. -/
def containsWell (_ : Closer) (input : Option (Launch × CloseInput)) : Bool :=
  input.all fun i => i.2.containment.succeeds

theorem containsWell_sound (h : w.atClose containsWell label = true) :
    w.ContainmentSucceeds label := by
  obtain ⟨hattempt, hcleanup⟩ := w.atClose_sound containsWell label h
  refine ⟨fun p input staging cs closer heq hp => ?_, fun k input cleanup heq hk => ?_⟩
  · rintro i rfl
    exact hattempt p _ staging cs closer heq hp
  · rintro i rfl
    exact hcleanup k _ cleanup heq hk

/-- The steps of a `Close` call whose cleanup `k` closes one candidate twice. -/
def closeTwice (t k : ℕ) : List (HostLabel (Launch × CloseInput)) :=
  [.close t, .enter t false, .progress t, .cleanup k (some acceptedInput),
    .cleanup k (some acceptedInput), .cleaned k, .changed t, .progress t]

/-- The generation of a crashed candidate stays owned although the candidate is contained without
error, and every `Close` call fails. -/
theorem generation_kept : ∃ w,
    productionHost.ReachableIf World.ContainmentSucceeds w ∧
      (w.host.generation 1).retired = true ∧ (w.host.generation 1).refs = 0 ∧
      (w.host.generation 1).cleaning = false ∧ 1 ∈ w.host.owned ∧
      (w.candidate 0).any Production.contained = true ∧
      w.closes 0 = some (.returned .cleanupFailed) ∧
      w.closes 1 = some (.returned .cleanupFailed) := by
  obtain ⟨w, hrun, hw⟩ := map_eq_some_iff.mp
    (show (productionHost.checkedRun (fun w => w.atClose containsWell) productionHost.init
        (publishAccepted 0 ++ [.change 0 acceptedInput, .cleaned 0] ++ closeTwice 0 1 ++
          closeTwice 1 2)).map
        (fun w => (w.host.generation 1).retired && decide ((w.host.generation 1).refs = 0) &&
          !(w.host.generation 1).cleaning && decide (1 ∈ w.host.owned) &&
          (w.candidate 0).any Production.contained &&
          decide (w.closes 0 = some (.returned .cleanupFailed)) &&
          decide (w.closes 1 = some (.returned .cleanupFailed))) = some true by decide +kernel)
  simp only [Bool.and_eq_true, decide_eq_true_eq, Bool.not_eq_true'] at hw
  obtain ⟨⟨⟨⟨⟨⟨hretired, hrefs⟩, hcleaning⟩, howned⟩, hcandidate⟩, hfirst⟩, hsecond⟩ := hw
  have hreach := System.ReachableIf.init.checkedRun containsWell_sound hrun
  exact ⟨w, hreach, hretired, hrefs, hcleaning, howned, hcandidate, hfirst, hsecond⟩

end SpiceAgent.Pluginhost
