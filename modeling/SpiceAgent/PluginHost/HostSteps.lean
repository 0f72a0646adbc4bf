import SpiceAgent.PluginHost.Estate

/-!
# The steps of a host, case by case

`World.step` is a function of its label. `World.Stepped` is the same relation with one constructor
for each way in which a step can be taken, and `World.Attempted`, `World.Steered`, `World.Leased`
and `World.Called` are its parts for staging calls, the recovery controller, leases and `Close`
calls. What every step does is proved by cases on them.
-/

namespace SpiceAgent.Pluginhost

open Lib Option
open Function (update)

variable {K : CandidateKind}

def Party.activation? : Party → Option ℕ
  | .activation t => some t
  | .controller => none

variable {Input : Type}

/-- The steps of `Close` calls. -/
def HostLabel.ofClose : HostLabel Input → Bool
  | .close _ => true
  | .enter _ _ => true
  | .progress _ => true
  | .changed _ => true
  | .giveUp _ => true
  | _ => false

def HostLabel.ofLease : HostLabel Input → Bool
  | .lease _ _ => true
  | .confirm _ _ _ => true
  | .release _ => true
  | _ => false

def HostLabel.activation? : HostLabel Input → Option ℕ
  | .activate t _ => some t
  | .attempt p _ => p.activation?
  | .finish t => some t
  | _ => none

namespace World

variable {w w' : World K} {p : Party} {label : HostLabel K.Input} {event : AttemptEvent K.Input}

/-! ## Staging calls -/

section Phase

variable {phase phase' : AttemptPhase}

theorem phase_setPhase_self (hp : w.phase p = some phase) :
    (w.setPhase p phase').phase p = some phase' := by
  cases p with
  | activation t =>
    obtain ⟨a, ha, _⟩ := map_eq_some_iff.mp hp
    simp [setPhase, World.phase, ha]
  | controller =>
    cases hc : w.controller <;> simp [World.phase, hc, Controller.phase] at hp
    simp [setPhase, World.phase, hc, Controller.phase]

theorem phase_setPhase_ne {q : Party} (hq : q ≠ p) : (w.setPhase p phase).phase q = w.phase q := by
  cases p with
  | activation t =>
    cases q with
    | activation t' =>
      have hne : t' ≠ t := fun heq => hq (heq ▸ rfl)
      simp [setPhase, World.phase, hne]
    | controller => rfl
  | controller =>
    cases q with
    | activation t => rfl
    | controller => exact absurd rfl hq

end Phase

/-- One turn of `closeCandidates` changes its closer and the closed candidates only. -/
theorem closeNext_turn {closer closer' : Closer} {input : Option K.Input}
    (h : w.closeNext closer input = some (w', closer')) :
    closer.Turn w.closed closer' w'.closed ∧
      w' = { w with candidate := w'.candidate, closed := w'.closed } := by
  unfold closeNext at h
  cases htodo : closer.todo with
  | nil => simp [htodo] at h
  | cons c rest =>
    cases input with
    | none =>
      simp only [htodo, some.injEq, Prod.mk.injEq] at h
      obtain ⟨rfl, rfl⟩ := h
      exact ⟨.expires closer w.closed, rfl⟩
    | some input =>
      simp only [htodo, some.injEq, Prod.mk.injEq] at h
      obtain ⟨rfl, rfl⟩ := h
      unfold closeCandidate
      cases w.candidate c with
      | none => exact ⟨.fails closer w.closed, rfl⟩
      | some state =>
        cases hclose : K.close state input with
        | mk state' ok =>
          cases ok with
          | true =>
            simp only [hclose, if_true]
            exact ⟨.closes closer w.closed c rest htodo, trivial⟩
          | false =>
            simp only [hclose, if_false, Bool.false_eq_true]
            exact ⟨.fails closer w.closed, trivial⟩

section Publish

variable {id : PlanID} {cs : List ℕ} {ended : Bool} {host : Host}

/-- The host after a publication by a party that passed its checks. -/
inductive Published (w : World K) (id : PlanID) (cs : List ℕ) (ended : Bool) : Party → Host → Prop
  | explicit {t : ℕ} {a : Activation} (ha : w.activates t = some a)
      (hcan : w.host.canPublishExplicit w.done ended cs a.revision = true) :
      Published w id cs ended (.activation t) (w.host.publishExplicit id cs a.set)
  | recovery {serial : ℕ} {phase : AttemptPhase} (hc : w.controller = .attempting serial phase)
      (hcan : w.host.canPublishRecovery w.done ended cs serial = true) :
      Published w id cs ended .controller (w.host.publishRecovery id cs)

theorem Published.closing (h : Published w id cs ended p host) : w.host.closing = false := by
  cases h with
  | explicit ha hcan =>
    simp only [Host.canPublishExplicit, Bool.and_eq_true, Bool.not_eq_true'] at hcan
    exact hcan.1.1.1
  | recovery hc hcan =>
    simp only [Host.canPublishRecovery, Bool.and_eq_true, Bool.not_eq_true'] at hcan
    exact hcan.1.1.2

/-- The staging call of a party has published its candidates. -/
abbrev swap (w : World K) (p : Party) (cs : List ℕ) (host : Host) : World K :=
  { w.setPhase p (.ended true) with host, observers := w.watch w.host.generations cs }

theorem publish_cases (hp : w.phase p = some (.staged id cs)) (ended : Bool) :
    w.publish p id cs ended = w.setPhase p (abortPhase false cs) ∨
      ∃ host, Published w id cs ended p host ∧ w.publish p id cs ended = w.swap p cs host := by
  cases p with
  | activation t =>
    obtain ⟨a, ha, _⟩ := map_eq_some_iff.mp hp
    by_cases hcan : w.host.canPublishExplicit w.done ended cs a.revision = true
    · right
      refine ⟨_, .explicit ha hcan, ?_⟩
      simp only [publish, ha, hcan, if_true]
    · left
      simp only [publish, ha, hcan, if_false, Bool.false_eq_true]
  | controller =>
    cases hc : w.controller with
    | attempting serial phase =>
      by_cases hcan : w.host.canPublishRecovery w.done ended cs serial = true
      · right
        refine ⟨_, .recovery hc hcan, ?_⟩
        simp only [publish, hc, hcan, if_true]
      · left
        simp only [publish, hc, hcan, if_false, Bool.false_eq_true]
    | selecting | awake | backingOff | leaving | stopped =>
      simp [World.phase, hc, Controller.phase] at hp

end Publish

/-- The ways in which a staging call goes on. -/
inductive Attempted (w : World K) (p : Party) : AttemptEvent K.Input → World K → Prop
  /-- The context has ended, the host closes, or the set is above the limits. -/
  | refuse {event : AttemptEvent K.Input} {set : PluginSet} (hp : w.phase p = some (.waiting set)) :
      Attempted w p event (w.setPhase p (.ended false))
  | begin {set : PluginSet} (hp : w.phase p = some (.waiting set)) (htoken : w.token = true)
      (hlimit : w.host.limitReached set.executables.length = false) :
      Attempted w p .begin
        { w.setPhase p (.starting w.host.beginActivation.sequence [] set.executables) with
          host := w.host.beginActivation
          token := false }
  | start {n : ℕ} {cs : List ℕ} {x : String} {rest : List String} {input : K.Input} {s : K.State}
      (hp : w.phase p = some (.starting n cs (x :: rest))) (hs : (K.start x input).1 = some s) :
      Attempted w p (.start input)
        { w.setPhase p (.starting n (cs ++ [w.started]) rest) with
          candidate := update w.candidate w.started (some s)
          started := w.started + 1 }
  /-- The start of a candidate gives it and an error. -/
  | startFails {n : ℕ} {cs : List ℕ} {x : String} {rest : List String} {input : K.Input}
      {s : K.State} (hp : w.phase p = some (.starting n cs (x :: rest)))
      (hs : (K.start x input).1 = some s) :
      Attempted w p (.start input)
        { w.setPhase p (abortPhase true (cs ++ [w.started])) with
          candidate := update w.candidate w.started (some s)
          started := w.started + 1 }
  /-- There is neither a candidate nor an error. -/
  | skip {n : ℕ} {cs : List ℕ} {x : String} {rest : List String} {input : K.Input}
      (hp : w.phase p = some (.starting n cs (x :: rest))) :
      Attempted w p (.start input) (w.setPhase p (.starting n cs rest))
  | fail {event : AttemptEvent K.Input} {n : ℕ} {cs : List ℕ} {rest : List String}
      (hp : w.phase p = some (.starting n cs rest)) :
      Attempted w p event (w.setPhase p (abortPhase true cs))
  | compose {n : ℕ} {cs : List ℕ} {digest : String} (hp : w.phase p = some (.starting n cs [])) :
      Attempted w p (.compose (some digest))
        (w.setPhase p (.leaving (some (Host.generationPlanID n digest, cs))))
  | close {staging : Bool} {cs : List ℕ} {closer closer' : Closer} {input : Option K.Input}
      {u : World K} (hp : w.phase p = some (.aborting staging cs closer))
      (hnext : w.closeNext closer input = some (u, closer')) :
      Attempted w p (.close input)
        { w.setPhase p (.aborting staging cs closer') with
          candidate := u.candidate
          closed := u.closed }
  | abort {staging : Bool} {cs : List ℕ} {closer : Closer}
      (hp : w.phase p = some (.aborting staging cs closer)) (htodo : closer.todo = []) :
      Attempted w p .abort (w.endAbort p staging cs closer.failed)
  | leave (hp : w.phase p = some (.leaving none)) :
      Attempted w p .leave
        { w.setPhase p (.ended false) with host := w.host.finishActivation, token := true }
  | stage {id : PlanID} {cs : List ℕ} (hp : w.phase p = some (.leaving (some (id, cs)))) :
      Attempted w p .leave
        { w.setPhase p (.staged id cs) with host := w.host.finishActivation, token := true }
  | withdraw {id : PlanID} {cs : List ℕ} {ended : Bool} (hp : w.phase p = some (.staged id cs)) :
      Attempted w p (.publish ended) (w.setPhase p (abortPhase false cs))
  | publish {id : PlanID} {cs : List ℕ} {ended : Bool} {host : Host}
      (hp : w.phase p = some (.staged id cs)) (hhost : Published w id cs ended p host) :
      Attempted w p (.publish ended) (w.swap p cs host)

theorem attempted_startNext {n : ℕ} {cs : List ℕ} {x : String} {rest : List String}
    (hp : w.phase p = some (.starting n cs (x :: rest))) (input : K.Input) :
    Attempted w p (.start input) (w.startNext p n cs x rest input) := by
  unfold startNext
  cases hstart : K.start x input with
  | mk value ok =>
    cases value with
    | none => cases ok with
      | true => exact .skip hp
      | false => exact .fail hp
    | some s =>
      have hs : (K.start x input).1 = some s := by rw [hstart]
      cases ok with
      | true => exact .start hp hs
      | false => exact .startFails hp hs

theorem attemptStep_inv (h : w.attemptStep p event = some w') : Attempted w p event w' := by
  unfold attemptStep at h
  split at h
  case h_1 set hp =>
    cases h
    exact .refuse hp
  case h_2 set hp =>
    split_ifs at h with htoken
    cases h
    unfold beginStage
    split_ifs with hrefused
    · exact .refuse hp
    · simp only [Bool.or_eq_true, not_or, Bool.not_eq_true] at hrefused
      exact .begin hp htoken hrefused.2
  case h_3 n cs x rest input hp =>
    cases h
    exact attempted_startNext hp input
  case h_4 n cs hp =>
    cases h
    exact .fail hp
  case h_5 n cs digest hp =>
    split_ifs at h
    cases h
    exact .compose hp
  case h_6 staging cs closer input hp =>
    obtain ⟨⟨w₁, closer'⟩, hnext, rfl⟩ := map_eq_some_iff.mp h
    rw [(closeNext_turn hnext).2]
    exact .close (u := w₁) hp hnext
  case h_7 staging cs closer hp =>
    split_ifs at h with htodo
    cases h
    exact .abort hp htodo
  case h_8 generation hp =>
    cases h
    cases generation with
    | none => exact .leave hp
    | some generation => exact .stage hp
  case h_9 id cs ended hp =>
    cases h
    rcases publish_cases hp ended with heq | ⟨host, hhost, heq⟩
    · rw [heq]
      exact .withdraw hp
    · rw [heq]
      exact .publish hp hhost
  case h_10 => cases h

/-! ## The other goroutines -/

/-- What the recovery controller does outside its staging call. -/
inductive Steered (w : World K) : HostLabel K.Input → Host → Controller → Prop
  | wake (hc : w.controller = .selecting) :
      Steered w .wake { w.host with recoveryWake := false } .awake
  | stop (hc : w.controller = .selecting) (hclosing : w.host.closing = true) :
      Steered w .stop w.host .stopped
  | rest (hc : w.controller = .awake)
      (hrest : ∀ e, w.host.recovery = some e → e.exhausted = true ∨ w.host.closing = true) :
      Steered w .recover w.host .selecting
  | backOff {e : Episode} (hc : w.controller = .awake) (hr : w.host.recovery = some e) :
      Steered w .recover (w.host.beginRecovery e) (.backingOff e.serial e.desired)
  | recover {e : Episode} (hc : w.controller = .awake) (hr : w.host.recovery = some e) :
      Steered w .recover (w.host.beginRecovery e) (.attempting e.serial (.waiting e.desired))
  | giveUp {s : ℕ} {desired : PluginSet} {ended : Bool} (hc : w.controller = .backingOff s desired)
      (hended : w.host.cancelled = true ∨ w.host.closing = true) :
      Steered w (.waited ended) w.host (.leaving s false)
  | timer {s : ℕ} {desired : PluginSet} {ended : Bool} (hc : w.controller = .backingOff s desired) :
      Steered w (.waited ended) w.host (.attempting s (.waiting desired))
  | succeed {s : ℕ} (hc : w.controller = .attempting s (.ended true)) :
      Steered w .settle w.host (.leaving s false)
  | fail {s : ℕ} (hc : w.controller = .attempting s (.ended false)) :
      Steered w .settle (w.host.finishRecoveryFailure s).1
        (.leaving s (w.host.finishRecoveryFailure s).2)
  | resume {s : ℕ} {again : Bool} (hc : w.controller = .leaving s again) :
      Steered w .resume (w.host.endRecovery s) (if again then .awake else .selecting)

/-- What happens to leases. -/
inductive Leased (w : World K) : HostLabel K.Input → Host → (ℕ → Option Lease) → Prop
  | refuse {l : ℕ} {request : Option String} (hnone : (w.host.acquire w.done request).2 = none) :
      Leased w (.lease l request) (w.host.acquire w.done request).1 w.leases
  | acquire {l g : ℕ} {request : Option String} (hl : w.leases l = none)
      (hg : (w.host.acquire w.done request).2 = some g) :
      Leased w (.lease l request) (w.host.acquire w.done request).1
        (update w.leases l (some ⟨g, request, .acquired⟩))
  | confirm {l g : ℕ} {request : Option String} {ended : Bool} {phase : LeasePhase}
      (hl : w.leases l = some ⟨g, request, .acquired⟩) (hphase : phase ≠ .released) :
      Leased w (.confirm l true ended) (w.host.generationHealth w.done g).1
        (update w.leases l (some ⟨g, request, phase⟩))
  | drop {l g : ℕ} {request : Option String} {ended : Bool}
      (hl : w.leases l = some ⟨g, request, .acquired⟩) :
      Leased w (.confirm l false ended) w.host
        (update w.leases l (some ⟨g, request, .dropping⟩))
  | release {l g : ℕ} {request : Option String} {phase : LeasePhase}
      (hl : w.leases l = some ⟨g, request, phase⟩) (hphase : phase ≠ .released) :
      Leased w (.release l) (w.host.release g)
        (update w.leases l (some ⟨g, request, .released⟩))

abbrev progress (w : World K) (attempt : ℕ) : Host × Host.Progress :=
  w.host.closeProgress attempt w.controllerDone

/-- What a `Close` call does: its phase, the host and `closeGate` afterwards. -/
inductive Called (w : World K) (t : ℕ) : HostLabel K.Input → ClosePhase → Host → Bool → Prop
  | close : Called w t (.close t) .gate w.host w.closeGate
  | late : Called w t (.enter t true) (.returned .context) w.host w.closeGate
  | enter : Called w t (.enter t false) (.looping w.host.beginClose.2) w.host.beginClose.1 false
  | wait {attempt : ℕ} (ht : w.closes t = some (.looping attempt))
      (hwait : (w.progress attempt).2 = .wait) :
      Called w t (.progress t)
        (.waiting attempt (w.progress attempt).1.changed !w.controllerDone)
        (w.progress attempt).1 w.closeGate
  | done {attempt : ℕ} (ht : w.closes t = some (.looping attempt))
      (hdone : (w.progress attempt).2 = .done) :
      Called w t (.progress t) (.returned .closed) (w.progress attempt).1 true
  | failed {attempt : ℕ} (ht : w.closes t = some (.looping attempt))
      (hfailed : (w.progress attempt).2 = .failed) :
      Called w t (.progress t) (.returned .cleanupFailed) (w.progress attempt).1 true
  | changed {attempt n : ℕ} {watching : Bool}
      (ht : w.closes t = some (.waiting attempt n watching)) :
      Called w t (.changed t) (.looping attempt) w.host w.closeGate
  | giveUp {gate : Bool} : Called w t (.giveUp t) (.returned .context) w.host gate

/-- The ways in which a step of a host can be taken. -/
inductive Stepped (w : World K) : HostLabel K.Input → World K → Prop
  | activate {t : ℕ} {set : PluginSet} (ht : w.activates t = none) :
      Stepped w (.activate t set)
        { w with
          host := w.host.beginExplicitActivation.1
          activates := update w.activates t
            (some ⟨set, w.host.beginExplicitActivation.2, .waiting set⟩) }
  | attempt {p : Party} {event : AttemptEvent K.Input} {w' : World K}
      (h : Attempted w p event w') : Stepped w (.attempt p event) w'
  | finish {t : ℕ} {published : Bool} (hp : w.phase (.activation t) = some (.ended published)) :
      Stepped w (.finish t)
        { w.setPhase (.activation t) (.returned published) with
          host := w.host.finishExplicitActivation w.done published }
  | steer {label : HostLabel K.Input} {host : Host} {c : Controller} (h : Steered w label host c) :
      Stepped w label { w with host := host, controller := c }
  | lease {label : HostLabel K.Input} {host : Host} {leases : ℕ → Option Lease}
      (h : Leased w label host leases) : Stepped w label { w with host := host, leases := leases }
  | observe {g c : ℕ} : Stepped w (.observe g c) { w.unwatch g c with host := w.host.observe g }
  | unobserve {g c : ℕ} : Stepped w (.unobserve g c) (w.unwatch g c)
  | change {c : ℕ} {input : K.Input} :
      Stepped w (.change c input)
        { w with
          candidate := update w.candidate c ((w.candidate c).map (K.change · input)) }
  | cleanup {k g : ℕ} {closer closer' : Closer} {input : Option K.Input} {u : World K}
      (hk : w.host.cleanups k = some ⟨g, closer⟩)
      (hnext : w.closeNext closer input = some (u, closer')) :
      Stepped w (.cleanup k input)
        { w with
          host := { w.host with cleanups := update w.host.cleanups k (some ⟨g, closer'⟩) }
          candidate := u.candidate
          closed := u.closed }
  | cleaned {k g : ℕ} {closer : Closer} (hk : w.host.cleanups k = some ⟨g, closer⟩)
      (htodo : closer.todo = []) :
      Stepped w (.cleaned k) { w with host := w.host.finishCleanup k g closer.failed }
  | call {t : ℕ} {label : HostLabel K.Input} {phase : ClosePhase} {host : Host} {gate : Bool}
      (h : Called w t label phase host gate) :
      Stepped w label { w.setClose t phase with host := host, closeGate := gate }

theorem recoverStep_inv (h : w.recoverStep = some w') : Stepped w .recover w' := by
  unfold recoverStep at h
  split at h
  case h_1 hc hr =>
    cases h
    refine .steer (.rest hc fun e he => ?_)
    cases hr.symm.trans he
  case h_2 e hc hr =>
    split_ifs at h with hrest
    · cases h
      refine .steer (.rest hc fun e' he => ?_)
      obtain rfl : e = e' := some_inj.mp (hr.symm.trans he)
      simpa using hrest
    · cases h
      exact .steer (.backOff hc hr)
    · cases h
      exact .steer (.recover hc hr)
  case h_3 => cases h

theorem waitedStep_inv {ended : Bool} (h : w.waitedStep ended = some w') :
    Stepped w (.waited ended) w' := by
  unfold waitedStep at h
  split at h
  case h_1 s desired hc =>
    split_ifs at h with _ hcancelled
    · cases h
      exact .steer (.giveUp hc (by simpa using hcancelled))
    · cases h
      exact .steer (.timer hc)
  case h_2 => cases h

theorem settleStep_inv (h : w.settleStep = some w') : Stepped w .settle w' := by
  unfold settleStep at h
  split at h
  case h_1 s hc =>
    cases h
    exact .steer (.succeed hc)
  case h_2 s hc =>
    cases h
    exact .steer (.fail hc)
  case h_3 => cases h

theorem leaseStep_inv {l : ℕ} {request : Option String} (h : w.leaseStep l request = some w') :
    Stepped w (.lease l request) w' := by
  unfold leaseStep at h
  split_ifs at h with hl
  cases hg : (w.host.acquire w.done request).2 with
  | none =>
    simp only [hg] at h
    cases h
    exact .lease (.refuse hg)
  | some g =>
    simp only [hg] at h
    cases h
    exact .lease (.acquire hl hg)

theorem confirmStep_inv {l : ℕ} {constructed ended : Bool}
    (h : w.confirmStep l constructed ended = some w') :
    Stepped w (.confirm l constructed ended) w' := by
  unfold confirmStep at h
  split at h
  case h_1 g request hl =>
    cases constructed with
    | true =>
      cases h
      refine .lease (.confirm hl ?_)
      split_ifs <;> simp
    | false =>
      cases h
      exact .lease (.drop hl)
  case h_2 => cases h

theorem releaseStep_inv {l : ℕ} (h : w.releaseStep l = some w') : Stepped w (.release l) w' := by
  unfold releaseStep at h
  split at h
  case h_1 g request phase hl =>
    split_ifs at h with hphase
    cases h
    refine .lease (.release hl ?_)
    rintro rfl
    simp at hphase
  case h_2 => cases h

theorem cleanupStep_inv {k : ℕ} {input : Option K.Input} (h : w.cleanupStep k input = some w') :
    Stepped w (.cleanup k input) w' := by
  unfold cleanupStep at h
  split at h
  case h_1 => cases h
  case h_2 g closer hk =>
    obtain ⟨⟨w₁, closer'⟩, hnext, rfl⟩ := map_eq_some_iff.mp h
    rw [(closeNext_turn hnext).2]
    exact .cleanup (u := w₁) hk hnext

theorem progressStep_inv {t : ℕ} (h : w.progressStep t = some w') : Stepped w (.progress t) w' := by
  unfold progressStep at h
  split at h
  case h_1 attempt ht =>
    cases hprogress : (w.progress attempt).2 with
    | wait =>
      simp only [hprogress] at h
      cases h
      exact .call (.wait ht hprogress)
    | done =>
      simp only [hprogress] at h
      cases h
      exact .call (.done ht hprogress)
    | failed =>
      simp only [hprogress] at h
      cases h
      exact .call (.failed ht hprogress)
  case h_2 => cases h

theorem step_inv (h : w.step label = some w') : Stepped w label w' := by
  cases label with
  | activate t set =>
    simp only [step, activateStep] at h
    split_ifs at h with hnew
    cases h
    exact .activate hnew.1
  | attempt p event => exact .attempt (attemptStep_inv h)
  | finish t =>
    simp only [step, finishStep] at h
    split at h
    case h_1 published hp =>
      cases h
      exact .finish hp
    case h_2 => cases h
  | wake =>
    simp only [step] at h
    split_ifs at h with hc
    cases h
    exact .steer (.wake hc.1)
  | stop =>
    simp only [step] at h
    split_ifs at h with hc
    cases h
    exact .steer (.stop hc.1 hc.2)
  | recover => exact recoverStep_inv h
  | waited ended => exact waitedStep_inv h
  | settle => exact settleStep_inv h
  | resume =>
    simp only [step, resumeStep] at h
    split at h
    case h_1 s again hc =>
      cases h
      exact .steer (.resume hc)
    case h_2 => cases h
  | lease l request => exact leaseStep_inv h
  | confirm l constructed ended => exact confirmStep_inv h
  | release l => exact releaseStep_inv h
  | observe g c =>
    simp only [step] at h
    split_ifs at h
    cases h
    exact .observe
  | unobserve g c =>
    simp only [step] at h
    split_ifs at h
    cases h
    exact .unobserve
  | change c input =>
    cases h
    exact .change
  | cleanup k input => exact cleanupStep_inv h
  | cleaned k =>
    simp only [step, cleanedStep] at h
    split at h
    case h_1 => cases h
    case h_2 g closer hk =>
      split_ifs at h with htodo
      cases h
      exact .cleaned hk htodo
  | close t =>
    simp only [step] at h
    split_ifs at h
    cases h
    exact .call .close
  | enter t ended =>
    simp only [step, enterStep] at h
    split_ifs at h with _ hended
    · cases h
      subst hended
      exact .call .late
    · cases h
      obtain rfl : ended = false := by simpa using hended
      exact .call .enter
  | progress t => exact progressStep_inv h
  | changed t =>
    simp only [step, changedStep] at h
    split at h
    case h_1 attempt n watching ht =>
      split_ifs at h
      cases h
      exact .call (.changed ht)
    case h_2 => cases h
  | giveUp t =>
    simp only [step, giveUpStep] at h
    split at h
    case h_1 =>
      cases h
      exact .call (show Called w t _ _ _ w.closeGate from .giveUp)
    case h_2 =>
      cases h
      exact .call .giveUp
    case h_3 => cases h

/-! ## What a step leaves -/

theorem setPhase_activates (w : World K) (p : Party) (phase : AttemptPhase) {t : ℕ}
    (ht : p.activation? ≠ some t) : (w.setPhase p phase).activates t = w.activates t := by
  cases p with
  | activation t' =>
    have hne : t ≠ t' := fun heq => ht (heq ▸ rfl)
    simp [setPhase, hne]
  | controller => rfl

/-- A staging call moves itself and leaves the leases and the `Close` calls. -/
theorem Attempted.frame (h : Attempted w p event w') :
    w'.leases = w.leases ∧ w'.closes = w.closes ∧
      ∀ t, p.activation? ≠ some t → w'.activates t = w.activates t := by
  cases h with
  | refuse | begin | start | startFails | skip | fail | compose | close | abort | leave | stage |
    withdraw | publish => exact ⟨rfl, rfl, fun t ht => setPhase_activates w p _ ht⟩

theorem Leased.ofLease {host : Host} {leases : ℕ → Option Lease} (h : Leased w label host leases) :
    label.ofLease = true := by
  cases h <;> rfl

theorem Called.ofClose {t : ℕ} {phase : ClosePhase} {host : Host} {gate : Bool}
    (h : Called w t label phase host gate) : label.ofClose = true := by
  cases h <;> rfl

theorem step_leases (hlabel : label.ofLease = false) (h : w.step label = some w') :
    w'.leases = w.leases := by
  cases step_inv h with
  | attempt hattempt => exact hattempt.frame.1
  | lease hlease => cases hlabel.symm.trans hlease.ofLease
  | activate | finish | steer | observe | unobserve | change | cleanup | cleaned | call => rfl

theorem step_closes (hlabel : label.ofClose = false) (h : w.step label = some w') :
    w'.closes = w.closes := by
  cases step_inv h with
  | attempt hattempt => exact hattempt.frame.2.1
  | call hcall => cases hlabel.symm.trans hcall.ofClose
  | activate | finish | steer | lease | observe | unobserve | change | cleanup | cleaned => rfl

theorem step_activates (h : w.step label = some w') {t : ℕ} (ht : label.activation? ≠ some t) :
    w'.activates t = w.activates t := by
  cases step_inv h with
  | @activate t' set =>
    have hne : t ≠ t' := fun heq => ht (heq ▸ rfl)
    exact Function.update_of_ne hne ..
  | attempt hattempt => exact hattempt.frame.2.2 t ht
  | @finish t' published => exact setPhase_activates w (.activation t') (.returned published) ht
  | steer | lease | observe | unobserve | change | cleanup | cleaned | call => rfl

end World

end SpiceAgent.Pluginhost
