import SpiceAgent.PluginHost.HostLedger
import SpiceAgent.PluginHost.HostSteps

/-!
# Every step of the goroutines is a sequence of ownership moves

`World.estate` forgets health, recovery and revisions. `World.step_moves` shows that what remains
changes by the moves of `Estate` only, so that the invariants of the moves hold in every reachable
state of a host.
-/

namespace SpiceAgent.Pluginhost

open Lib
open Function (update update_eq_self update_of_ne update_self)
open AttemptPhase

variable {K : CandidateKind}

def Controller.Empty (c : Controller) : Prop :=
  ∀ phase, c.phase = some phase → phase.candidates = [] ∧ phase.closer = none

variable {c : Controller}

theorem Controller.Empty.candidates (h : c.Empty) : (c.phase.map candidates).getD [] = [] := by
  cases hc : c.phase with
  | none => rfl
  | some phase => exact (h phase hc).1

theorem Controller.Empty.closer (h : c.Empty) : c.phase.bind closer = none := by
  cases hc : c.phase with
  | none => rfl
  | some phase => exact (h phase hc).2

def Lease.retains (lease : Lease) : Option ℕ :=
  if lease.phase = .released then none else some lease.generation

variable {e : Estate}

namespace World

variable {w w' : World K} {p : Party}

def estate (w : World K) : Estate where
  toLedger := w.host.ledger
  held p := ((w.phase p).map candidates).getD []
  aborts p := (w.phase p).bind closer
  leases l := (w.leases l).bind Lease.retains
  started := w.started
  closed := w.closed

theorem estate_eq (hledger : w'.host.ledger = w.host.ledger)
    (hheld : w'.estate.held = w.estate.held) (haborts : w'.estate.aborts = w.estate.aborts)
    (hleases : w'.estate.leases = w.estate.leases) (hstarted : w'.started = w.started)
    (hclosed : w'.closed = w.closed) : w'.estate = w.estate := by
  show (⟨w'.host.ledger, w'.estate.held, w'.estate.aborts, w'.estate.leases, w'.started,
    w'.closed⟩ : Estate) = _
  rw [hledger, hheld, haborts, hleases, hstarted, hclosed]
  rfl

/-! ## Moving a staging call -/

variable {phase : AttemptPhase}

section

variable (hp : w.phase p = some phase)
include hp

theorem estate_setPhase {phase' : AttemptPhase} :
    (w.setPhase p phase').estate = { w.estate with
      held := update w.estate.held p phase'.candidates
      aborts := update w.estate.aborts p phase'.closer } := by
  have hheld : (w.setPhase p phase').estate.held =
      update w.estate.held p phase'.candidates := by
    funext q
    by_cases hq : q = p
    · subst hq
      simp [estate, phase_setPhase_self hp]
    · simp [estate, phase_setPhase_ne hq, hq]
  have haborts : (w.setPhase p phase').estate.aborts =
      update w.estate.aborts p phase'.closer := by
    funext q
    by_cases hq : q = p
    · subst hq
      simp [estate, phase_setPhase_self hp]
    · simp [estate, phase_setPhase_ne hq, hq]
  rw [← hheld, ← haborts]
  rfl

theorem held_eq : w.estate.held p = phase.candidates := by
  simp [estate, hp]

theorem aborts_eq : w.estate.aborts p = phase.closer := by
  simp [estate, hp]

theorem estate_setPhase_of_eq {phase' : AttemptPhase}
    (hcandidates : phase'.candidates = phase.candidates) (hcloser : phase'.closer = phase.closer) :
    (w.setPhase p phase').estate = w.estate := by
  rw [estate_setPhase hp, hcandidates, hcloser, ← held_eq hp, ← aborts_eq hp,
    update_eq_self, update_eq_self]

end

open Estate

theorem moves_of_eq {e' : Estate} (h : e' = e) : Moves e e' := h ▸ .refl

theorem moves_abortPhase (staging : Bool) (hp : w.phase p = some phase)
    (hcloser : phase.closer = none) :
    Moves w.estate (w.setPhase p (abortPhase staging phase.candidates)).estate := by
  rw [estate_setPhase hp]
  have hmove := Move.abort w.estate p (by rw [aborts_eq hp, hcloser])
  rw [held_eq hp] at hmove
  rw [show (abortPhase staging phase.candidates).candidates = w.estate.held p from
    (held_eq hp).symm, update_eq_self]
  exact .single hmove

variable {cs : List ℕ}

theorem moves_start {n : ℕ} {rest : List String} (rest' : List String)
    (hp : w.phase p = some (.starting n cs rest)) :
    Move w.estate { (w.setPhase p (.starting n (cs ++ [w.started]) rest')).estate with
      started := w.started + 1 } := by
  have hmove := Move.start w.estate p (by rw [aborts_eq hp]; rfl)
  rw [held_eq hp] at hmove
  rw [estate_setPhase hp, show closer (.starting n (cs ++ [w.started]) rest') =
    w.estate.aborts p from (aborts_eq hp).symm, update_eq_self]
  exact hmove

/-- A candidate that is started with an error is aborted at once. -/
theorem moves_startFails {n : ℕ} {rest : List String}
    (hp : w.phase p = some (.starting n cs rest)) :
    Moves w.estate { (w.setPhase p (abortPhase true (cs ++ [w.started]))).estate with
      started := w.started + 1 } := by
  have hp' : (w.setPhase p (.starting n (cs ++ [w.started]) rest)).phase p = _ :=
    phase_setPhase_self hp
  refine (Relation.ReflTransGen.single (moves_start rest hp)).tail ?_
  have habort := Move.abort { (w.setPhase p (.starting n (cs ++ [w.started]) rest)).estate with
    started := w.started + 1 } p (by
      show (w.setPhase p _).estate.aborts p = none
      rw [aborts_eq hp']
      rfl)
  have hheld : (w.setPhase p (.starting n (cs ++ [w.started]) rest)).estate.held p =
      cs ++ [w.started] := held_eq hp'
  rw [hheld] at habort
  have hsame : (w.setPhase p (abortPhase true (cs ++ [w.started]))).estate =
      { (w.setPhase p (.starting n (cs ++ [w.started]) rest)).estate with
        aborts := update
          (w.setPhase p (.starting n (cs ++ [w.started]) rest)).estate.aborts p
          (some (Closer.start (cs ++ [w.started]))) } := by
    rw [estate_setPhase hp, estate_setPhase hp]
    simp only [Function.update_idem]
    rfl
  rw [hsame]
  exact habort

theorem moves_close {staging : Bool} {closer closer' : Closer} {closed : ℕ → Bool}
    (hp : w.phase p = some (.aborting staging cs closer))
    (hturn : closer.Turn w.closed closer' closed) :
    Moves w.estate
      { (w.setPhase p (.aborting staging cs closer')).estate with closed := closed } := by
  have hmove := Move.turnAbort w.estate p (by rw [aborts_eq hp]; rfl) hturn
  rw [estate_setPhase hp, show candidates (.aborting staging cs closer') =
    w.estate.held p from (held_eq hp).symm, update_eq_self]
  exact .single hmove

theorem moves_endAbort {staging : Bool} {closer : Closer}
    (hp : w.phase p = some (.aborting staging cs closer)) (htodo : closer.todo = []) :
    Moves w.estate (w.endAbort p staging cs closer.failed).estate := by
  have hyield : ∀ phase : AttemptPhase, phase.candidates = [] → phase.closer = none →
      (w.setPhase p phase).estate = w.estate.yield p w.estate.toLedger := by
    intro phase hcs hcloser
    rw [estate_setPhase hp, hcs, hcloser]
    rfl
  have hphase : (w.setPhase p (if staging then .leaving none else .ended false)).estate =
      w.estate.yield p w.estate.toLedger := by
    cases staging with
    | true => exact hyield _ rfl rfl
    | false => exact hyield _ rfl rfl
  have haborts : w.estate.aborts p = some closer := aborts_eq hp
  unfold endAbort
  cases hfailed : closer.failed with
  | false =>
    have hmove := Move.drop w.estate p haborts htodo hfailed
    rw [← hphase] at hmove
    exact .single hmove
  | true =>
    have hmove := Move.retain w.estate p haborts htodo hfailed
    rw [held_eq hp] at hmove
    show Moves w.estate { (w.setPhase p (if staging then .leaving none else .ended false)).estate
      with toLedger := (w.host.retainAborted cs).ledger }
    rw [hphase, Host.ledger_retainAborted]
    exact .single hmove

variable {host : Host}

theorem moves_queueCleanup (he : e.toLedger = host.ledger) {g : ℕ} (attempt : ℕ)
    (hlt : g < host.generations) (hcurrent : (host.generation g).current = false) :
    Moves e { e with toLedger := (host.queueCleanup g attempt).ledger } := by
  rw [Host.ledger_queueCleanup]
  split_ifs with hrefused
  · rw [← he]
  · rw [← he]
    refine .single (Move.queue e g ?_ ?_)
    · rw [he]
      exact hlt
    · simp only [Bool.or_eq_true, decide_eq_true_eq, not_or, Bool.not_eq_true, not_not] at hrefused
      have hentry : e.toLedger.entry g = (host.generation g).entry := by
        rw [he]
        rfl
      refine ⟨?_, ?_, ?_, ?_⟩
      · rw [hentry]
        exact hrefused.2
      · rw [hentry]
        exact hcurrent
      · rw [hentry]
        exact hrefused.1.1
      · rw [hentry]
        exact hrefused.1.2

theorem moves_exchange {id : PlanID} (hok : w.estate.Ok) (hp : w.phase p = some (.staged id cs))
    (hopen : w.host.closing = false) (hhost : host.ledger = (w.host.exchange id cs).ledger)
    (hgeneration : host.generation = (w.host.exchange id cs).generation)
    (hgenerations : host.generations = (w.host.exchange id cs).generations) :
    Moves w.estate { (w.setPhase p (.ended true)).estate with
      toLedger := (host.retirePrevious w.host.current).ledger } := by
  have hlive : w.estate.live = some w.host.current := by
    show (if w.host.closing then none else some w.host.current) = some w.host.current
    rw [hopen]
    rfl
  have hlt : w.host.current < w.host.generations := hok.ledger.live_lt _ hlive
  have hpublish := Move.publish w.estate p w.host.current id.val id.property hlive
    (by rw [aborts_eq hp]; rfl)
  have hphase : (w.setPhase p (.ended true)).estate = w.estate.yield p w.estate.toLedger := by
    rw [estate_setPhase hp]
    rfl
  have hledger : host.ledger =
      w.estate.toLedger.publish w.host.current id.val (w.estate.held p) := by
    rw [hhost, Host.ledger_exchange _ _ _ hopen, held_eq hp]
    rfl
  rw [← hledger] at hpublish
  refine (Relation.ReflTransGen.single hpublish).trans ?_
  rw [hphase]
  unfold Host.retirePrevious
  split_ifs
  · refine moves_queueCleanup rfl 0 ?_ ?_
    · rw [hgenerations]
      exact Nat.lt_succ_of_lt hlt
    · rw [hgeneration]
      simp [Host.exchange, hlt.ne]
  · exact .refl

theorem Attempted.moves (hok : w.estate.Ok) {event : AttemptEvent K.Input}
    (h : Attempted w p event w') : Moves w.estate w'.estate := by
  -- a call that goes on with the same candidates and the same closer
  have hpass : ∀ {phase phase' : AttemptPhase}, w.phase p = some phase →
      phase'.candidates = phase.candidates → phase'.closer = phase.closer →
      Moves w.estate (w.setPhase p phase').estate := fun hp hcandidates hcloser =>
    moves_of_eq (estate_setPhase_of_eq hp hcandidates hcloser)
  cases h with
  | refuse hp => exact hpass hp rfl rfl
  | begin hp => exact hpass hp rfl rfl
  | start hp => exact .single (moves_start _ hp)
  | startFails hp => exact moves_startFails hp
  | skip hp => exact hpass hp rfl rfl
  | fail hp => exact moves_abortPhase true hp rfl
  | compose hp => exact hpass hp rfl rfl
  | close hp hnext => exact moves_close hp (closeNext_turn hnext).1
  | abort hp htodo => exact moves_endAbort hp htodo
  | leave hp => exact hpass hp rfl rfl
  | stage hp => exact hpass hp rfl rfl
  | withdraw hp => exact moves_abortPhase false hp rfl
  | publish hp hhost =>
    have hopen := hhost.closing
    cases hhost with
    | explicit => exact moves_exchange hok hp hopen rfl rfl rfl
    | recovery => exact moves_exchange hok hp hopen rfl rfl rfl

/-! ## The other goroutines -/

theorem estate_activate {t : ℕ} {a : Activation} (ht : w.activates t = none)
    (hcandidates : a.phase.candidates = []) (hcloser : a.phase.closer = none) :
    ({ w with activates := update w.activates t (some a) }).estate = w.estate := by
  -- the call is new, and the phases of the others stay
  have hboth : ∀ q, ({ w with activates := update w.activates t (some a) }).estate.held q =
      w.estate.held q ∧ ({ w with activates := update w.activates t (some a) }).estate.aborts q =
      w.estate.aborts q := by
    intro q
    by_cases hq : q = .activation t
    · subst hq
      simp [estate, World.phase, ht, hcandidates, hcloser]
    · cases q with
      | activation t' =>
        have hne : t' ≠ t := fun heq => hq (heq ▸ rfl)
        simp [estate, World.phase, hne]
      | controller => exact ⟨rfl, rfl⟩
  exact estate_eq rfl (funext fun q => (hboth q).1) (funext fun q => (hboth q).2) rfl rfl rfl

theorem estate_controller (hold : w.controller.Empty) (hnew : c.Empty) :
    ({ w with controller := c }).estate = w.estate := by
  have hheld : ({ w with controller := c }).estate.held = w.estate.held := by
    funext q
    cases q with
    | activation t => rfl
    | controller =>
      show (c.phase.map candidates).getD [] =
        (w.controller.phase.map candidates).getD []
      rw [hold.candidates, hnew.candidates]
  have haborts : ({ w with controller := c }).estate.aborts = w.estate.aborts := by
    funext q
    cases q with
    | activation t => rfl
    | controller =>
      show c.phase.bind closer = w.controller.phase.bind closer
      rw [hold.closer, hnew.closer]
  exact estate_eq rfl hheld haborts rfl rfl rfl

variable {label : HostLabel K.Input}

theorem Steered.moves (h : Steered w label host c) :
    Moves w.estate ({ w with host := host, controller := c }).estate := by
  have hempty : host.ledger = w.host.ledger ∧ w.controller.Empty ∧ c.Empty := by
    cases h with
    | fail hc =>
      refine ⟨Host.ledger_finishRecoveryFailure _ _,
        ?_, by simp [Controller.Empty, Controller.phase]⟩
      simp [hc, Controller.Empty, Controller.phase, candidates, closer]
    | @resume s again hc =>
      refine ⟨rfl, by simp [hc, Controller.Empty, Controller.phase], ?_⟩
      cases again <;> simp [Controller.Empty, Controller.phase]
    | wake hc | stop hc | rest hc | backOff hc | recover hc | giveUp hc | timer hc | succeed hc =>
      refine ⟨rfl, ?_, ?_⟩ <;>
        simp [hc, Controller.Empty, Controller.phase, candidates, closer]
  obtain ⟨hledger, hold, hnew⟩ := hempty
  have hsame : ({ w with controller := c }).estate = w.estate := estate_controller hold hnew
  refine moves_of_eq (Eq.trans ?_ hsame)
  exact estate_eq hledger rfl rfl rfl rfl rfl

theorem leases_update {l : ℕ} (v : Option Lease) :
    (fun l' => (update w.leases l v l').bind Lease.retains) =
      update w.estate.leases l (v.bind Lease.retains) := by
  funext l'
  by_cases hl : l' = l
  · subst hl
    rw [update_self, update_self]
  · rw [update_of_ne hl, update_of_ne hl]
    rfl

theorem Leased.moves (hok : w.estate.Ok) {leases : ℕ → Option Lease}
    (h : Leased w label host leases) :
    Moves w.estate ({ w with host := host, leases := leases }).estate := by
  -- a lease that retains its generation as before
  have hkept : ∀ {l g : ℕ} {request : Option String} {phase phase' : LeasePhase} {host : Host},
      w.leases l = some ⟨g, request, phase⟩ → phase ≠ .released → phase' ≠ .released →
      host.ledger = w.host.ledger → Moves w.estate ({ w with
        host := host
        leases := update w.leases l (some ⟨g, request, phase'⟩) }).estate := by
    intro l g request phase phase' host hl hphase hphase' hledger
    have hretains : (some (⟨g, request, phase'⟩ : Lease)).bind Lease.retains =
        w.estate.leases l := by
      simp [estate, hl, Lease.retains, hphase, hphase']
    refine moves_of_eq (estate_eq hledger rfl rfl ((leases_update _).trans ?_) rfl rfl)
    rw [hretains, update_eq_self]
  cases h with
  | @refuse l request hnone =>
    rcases w.host.acquire_cases w.done request with ⟨_, hledger⟩ | ⟨g, hg, _⟩
    · exact moves_of_eq (estate_eq hledger rfl rfl rfl rfl rfl)
    · cases hnone.symm.trans hg
  | @acquire l g request hl hg =>
    rcases w.host.acquire_cases w.done request with
      ⟨hnone, _⟩ | ⟨g', hg', hopen, hselect, hlease, hledger⟩
    · cases hnone.symm.trans hg
    · obtain rfl : g' = g := Option.some_inj.mp (hg'.symm.trans hg)
      have hlt : g' < w.estate.generations := by
        cases request with
        | none =>
          obtain rfl : w.host.current = g' := Option.some_inj.mp hselect
          exact hok.ledger.live_lt _ (by simp [estate, Host.ledger, hopen])
        | some id => exact (hok.ledger.available id g' hselect).2.1
      refine .single ?_
      show Move w.estate { w.estate with
        toLedger := (w.host.acquire w.done request).1.ledger
        leases := fun l' => (update w.leases l (some ⟨g', request, .acquired⟩) l').bind
          Lease.retains }
      rw [leases_update, hledger]
      exact Move.acquire w.estate l g' (by simp [estate, hl]) hlt hlease
  | confirm hl hphase => exact hkept hl (by simp) hphase (Host.ledger_generationHealth ..)
  | drop hl => exact hkept hl (by simp) (by simp) rfl
  | @release l g request phase hl hphase =>
    have hlease : w.estate.leases l = some g := by simp [estate, hl, Lease.retains, hphase]
    have hlt : g < w.host.generations := hok.refs.lt l g hlease
    refine (Relation.ReflTransGen.single (Move.release w.estate l g hlease)).trans ?_
    show Moves _ { w.estate with
      toLedger := (w.host.release g).ledger
      leases := fun l' => (update w.leases l (some ⟨g, request, .released⟩) l').bind
        Lease.retains }
    rw [leases_update]
    unfold Host.release
    dsimp only
    split_ifs with hqueue
    · rw [Host.ledger_signal]
      refine moves_queueCleanup ?_ 0 hlt ?_
      · rw [Host.ledger_setGeneration]
        rfl
      · simp only [Bool.and_eq_true, Bool.not_eq_true'] at hqueue
        exact hqueue.1
    · rw [Host.ledger_signal, Host.ledger_setGeneration]
      exact .refl

theorem moves_queueCleanups (attempt : ℕ) : ∀ (gs : List ℕ) (host : Host) (e : Estate), e.Ok →
    e.toLedger = host.ledger → host.closing = true → (∀ g ∈ gs, g < host.generations) →
    Moves e { e with toLedger := (gs.foldl
      (fun h g => if h.cleanable attempt g then h.queueCleanup g attempt else h)
      host).ledger } := by
  intro gs
  induction gs with
  | nil =>
    intro host e _ he _ _
    rw [List.foldl_nil, ← he]
  | cons g gs ih =>
    intro host e hok he hclosing hlt
    rw [List.foldl_cons]
    have hrest : ∀ g' ∈ gs, g' < host.generations := fun g' hg' =>
      hlt g' (List.mem_cons_of_mem g hg')
    split_ifs with hclean
    · have hg := hlt g List.mem_cons_self
      have hcurrent : (host.generation g).current = false := by
        have hfits := (hok.ledger.fits g (by rw [he]; exact hg)).flag
        rw [he] at hfits
        by_contra hne
        have hlive := hfits.mp (show (host.generation g).current = true by simpa using hne)
        simp [Host.ledger, hclosing] at hlive
      have hmoves := moves_queueCleanup he attempt hg hcurrent
      have hsame : (host.queueCleanup g attempt).closing = host.closing ∧
          (host.queueCleanup g attempt).generations = host.generations := by
        unfold Host.queueCleanup
        dsimp only
        split_ifs <;> exact ⟨rfl, rfl⟩
      have htail := ih (host.queueCleanup g attempt)
        { e with toLedger := (host.queueCleanup g attempt).ledger } (hmoves.ok hok) rfl
        (hsame.1.trans hclosing) (by rw [hsame.2]; exact hrest)
      exact hmoves.trans htail
    · exact ih host e hok he hclosing hrest

theorem ledger_closeProgress (host : Host) (attempt : ℕ) (controllerDone : Bool) :
    (host.closeProgress attempt controllerDone).1.ledger = host.ledger ∨
      (host.closeProgress attempt controllerDone).1.ledger =
        (host.queueCleanups attempt).ledger := by
  unfold Host.closeProgress
  dsimp only
  split_ifs <;> first | exact .inl rfl | exact .inr rfl

/-- The states in which a `Close` call has begun to close the host. -/
def ClosesBegun (w : World K) : Prop :=
  ∀ t, (∃ a, w.closes t = some (.looping a)) ∨ (∃ a v b, w.closes t = some (.waiting a v b)) →
    w.host.closing = true

theorem Called.moves (hok : w.estate.Ok) (hbegun : w.ClosesBegun) {t : ℕ} {phase : ClosePhase}
    {gate : Bool} (h : Called w t label phase host gate) :
    Moves w.estate ({ w.setClose t phase with host := host, closeGate := gate }).estate := by
  have hprogress : ∀ {attempt : ℕ}, w.closes t = some (.looping attempt) →
      Moves w.estate { w.estate with
        toLedger := (w.progress attempt).1.ledger } := by
    intro attempt ht
    rcases ledger_closeProgress w.host attempt w.controllerDone with hledger | hledger
    · rw [hledger]
      exact .refl
    · rw [hledger]
      refine moves_queueCleanups attempt _ w.host w.estate hok rfl
        (hbegun t (.inl ⟨attempt, ht⟩)) ?_
      intro g hg
      exact hok.ledger.owned_lt g ((Finset.mem_sort _).mp hg)
  cases h with
  | enter =>
    show Moves w.estate { w.estate with toLedger := w.host.beginClose.1.ledger }
    rw [Host.ledger_beginClose]
    split_ifs with hclosing
    · exact .refl
    · exact .single (Move.shut w.estate w.host.current (by simp [estate, Host.ledger, hclosing]))
  | wait ht => exact hprogress ht
  | done ht => exact hprogress ht
  | failed ht => exact hprogress ht
  | close | late | changed | giveUp => exact .refl

theorem step_moves (hok : w.estate.Ok) (hbegun : w.ClosesBegun) (h : w.step label = some w') :
    Moves w.estate w'.estate := by
  cases step_inv h with
  | activate ht => exact moves_of_eq (estate_activate (a := ⟨_, _, .waiting _⟩) ht rfl rfl)
  | attempt hattempt => exact hattempt.moves hok
  | @finish t published hp =>
    have hsame : (w.setPhase (.activation t) (.returned published)).estate = w.estate :=
      estate_setPhase_of_eq hp rfl rfl
    refine moves_of_eq (Eq.trans ?_ hsame)
    exact estate_eq (Host.ledger_finishExplicitActivation ..) rfl rfl rfl rfl rfl
  | steer hsteer => exact hsteer.moves
  | lease hlease => exact hlease.moves hok
  | observe => exact moves_of_eq (estate_eq (Host.ledger_observe _ _) rfl rfl rfl rfl rfl)
  | unobserve | change => exact .refl
  | cleanup hk hnext =>
    exact .single (Move.turnCleanup w.estate _ (c := ⟨_, _⟩) hk (closeNext_turn hnext).1)
  | @cleaned k g closer hk htodo =>
    refine .single ?_
    show Move w.estate { w.estate with toLedger := (w.host.finishCleanup k g closer.failed).ledger }
    rw [Host.ledger_finishCleanup]
    exact Move.finish w.estate k (c := ⟨g, closer⟩) hk htodo
  | call hcall => exact hcall.moves hok hbegun

/-! ## Runs -/

theorem closing_iff : w.host.closing = true ↔ w.estate.live = none := by
  show _ ↔ (if w.host.closing then none else some w.host.current) = none
  cases w.host.closing <;> simp

end World

theorem Estate.Moves.live_none {e' : Estate} (h : Estate.Moves e e') (hlive : e.live = none) :
    e'.live = none := by
  induction h with
  | refl => exact hlive
  | tail _ hmove ih =>
    cases hmove with
    | publish p g id hid hopen => exact absurd (ih.symm.trans hopen) nofun
    | shut g hopen => exact absurd (ih.symm.trans hopen) nofun
    | start | abort | turnAbort | drop | retain | queue | turnCleanup | finish | acquire |
      release => exact ih

end SpiceAgent.Pluginhost
