import SpiceAgent.Agent.Suspension

/-!
# Which call ends a suspension

While a suspension is in force no `Suspend` call can register, so that the calls in progress are
those that were in progress when it was granted. If the boundary granted it while no other call was,
the only call that can still withdraw is the one it was granted to. Otherwise a call that was
answered earlier and then took the branch of its context finds the run suspended and resumes it,
whoever asked for that.
-/

namespace SpiceAgent.Agent.Suspension

open SpiceAgent.Lib Function

namespace World

/-! ## The invariant -/

/-- What holds of a suspension in force. -/
structure Held (w : World) (signal : Signal) : Prop where
  unrequested : w.suspendRequested = false
  alone : ∀ c, w.InProgress c → c = signal.grantedTo
  exec : w.exec = .granting signal ∨ w.exec = .paused signal.id ∨
    ∃ p, w.exec = .undecided p ∧ w.localResume = some p ∧ w.cancelled = true
  unclosed : w.closed signal.id = false

structure Inv (w : World) : Prop where
  held : ∀ signal, w.InForce signal → w.Held signal
  ready : ∀ p, w.localResume = some p → w.prepared p = .ready
  made : ∀ signal, w.resumeSignal = some signal → signal.id < w.signals
  fresh : ∀ n, w.signals ≤ n → w.closed n = false

theorem inv_init (restored : Bool) : (init restored).Inv where
  held := fun _ h => by simp [InForce, init] at h
  ready := fun _ h => by simp [init] at h
  made := fun _ h => by simp [init] at h
  fresh := fun _ _ => rfl

variable {t w : World}

/-- A step that starts no call and changes nothing of a suspension keeps the invariant. -/
theorem Inv.congr (h : w.Inv) (hstatus : t.status = w.status)
    (hsignal : t.resumeSignal = w.resumeSignal) (hrequest : t.suspendRequested = w.suspendRequested)
    (hlocal : t.localResume = w.localResume) (hprepared : t.prepared = w.prepared)
    (hclosed : t.closed = w.closed) (hsignals : t.signals = w.signals)
    (hcancelled : w.cancelled = true → t.cancelled = true)
    (hcalls : ∀ c, t.InProgress c → w.InProgress c)
    (hexec : ∀ signal, w.InForce signal → t.exec = w.exec ∨
      w.exec = .granting signal ∧ t.exec = .paused signal.id) : t.Inv := by
  have hforce : ∀ signal, t.InForce signal → w.InForce signal := by
    intro signal ht
    unfold InForce at ht
    rw [hstatus, hsignal] at ht
    exact ht
  refine ⟨fun signal ht => ?_, ?_, ?_, ?_⟩
  · have hw := h.held signal (hforce signal ht)
    refine ⟨hrequest ▸ hw.unrequested, fun c hc => hw.alone c (hcalls c hc), ?_,
      hclosed ▸ hw.unclosed⟩
    rcases hexec signal (hforce signal ht) with hsame | ⟨-, hpaused⟩
    · rw [hsame, hlocal]
      rcases hw.exec with hgranting | hpaused | ⟨p, hp, hlp, hc⟩
      · exact .inl hgranting
      · exact .inr (.inl hpaused)
      · exact .inr (.inr ⟨p, hp, hlp, hcancelled hc⟩)
    · exact .inr (.inl hpaused)
  · rw [hlocal, hprepared]
    exact h.ready
  · rw [hsignal, hsignals]
    exact h.made
  · rw [hclosed, hsignals]
    exact h.fresh

section

variable (hready : ∀ p, t.localResume = some p → t.prepared p = .ready)
  (hmade : ∀ signal, t.resumeSignal = some signal → signal.id < t.signals)
  (hfresh : ∀ n, t.signals ≤ n → t.closed n = false)
include hready hmade hfresh

theorem Inv.of_not_inForce (hnot : ∀ signal, ¬ t.InForce signal) : t.Inv :=
  ⟨fun signal ht => absurd ht (hnot signal), hready, hmade, hfresh⟩

theorem Inv.of_status (hsuspended : t.status ≠ .suspended) (hpending : t.status ≠ .resumePending) :
    t.Inv := by
  refine .of_not_inForce hready hmade hfresh ?_
  rintro signal ⟨-, hstatus | hstatus⟩
  · exact hsuspended hstatus
  · exact hpending hstatus

end

theorem inProgress_setCall {c d : ℕ} {phase : Call}
    (hphase : phase ≠ .waiting ∧ phase ≠ .withdrawing) (h : (w.setCall c phase).InProgress d) :
    w.InProgress d := by
  unfold InProgress setCall at h
  by_cases hd : d = c
  · subst hd
    simp only [update_self] at h
    exact absurd h (not_or.mpr hphase)
  · simp only [update_of_ne hd] at h
    exact h

theorem Inv.setCall (h : w.Inv) (c : ℕ) {phase : Call}
    (hphase : phase ≠ .waiting ∧ phase ≠ .withdrawing) : (w.setCall c phase).Inv :=
  h.congr rfl rfl rfl rfl rfl rfl rfl id (fun _ hd => inProgress_setCall hphase hd)
    fun _ _ => .inl rfl

theorem Inv.suspend (h : w.Inv) (c : ℕ) : (w.suspendStep c).Inv := by
  unfold suspendStep
  split
  · exact h.setCall c ⟨by simp, by simp⟩
  · exact .of_status h.ready h.made h.fresh nofun nofun

variable {signal : Signal}

section

variable (h : w.Inv)
include h

theorem Inv.fresh_close (hsignal : w.resumeSignal = some signal) :
    ∀ n, w.signals ≤ n → update w.closed signal.id true n = false := by
  intro n hn
  have hid := h.made signal hsignal
  rw [update_of_ne (by omega)]
  exact h.fresh n hn

theorem Inv.withdraw (c : ℕ) : (w.withdrawStep c).Inv := by
  unfold withdrawStep
  split
  · exact .of_status h.ready h.made h.fresh nofun nofun
  · split
    · rename_i signal _ hsignal
      exact .of_status h.ready nofun (h.fresh_close hsignal) nofun nofun
    · exact h

theorem Inv.boundary (halone : w.GrantsAlone .boundary) : w.boundaryStep.Inv := by
  unfold boundaryStep
  split
  · rename_i c _ hwaiter
    split
    · exact .of_status h.ready h.made h.fresh nofun nofun
    · rename_i hactive
      refine ⟨fun signal hforce => ?_, h.ready, ?_, ?_⟩
      · cases hforce.1
        refine ⟨rfl, fun d hd => ?_, .inl rfl, h.fresh _ le_rfl⟩
        exact halone (not_not.mp hactive) c hwaiter d hd
      · intro signal hsignal
        cases hsignal
        exact Nat.lt_succ_self _
      · intro n hn
        exact h.fresh n (Nat.le_of_succ_le hn)
  · exact h

theorem Inv.prepare (p : ℕ) : (w.prepareStep p).Inv := by
  unfold prepareStep
  split
  · exact h
  · split
    · exact h
    · rename_i hready
      simp only [ne_eq, not_or, not_not] at hready
      obtain ⟨hstatus, -, hlocal, -⟩ := hready
      refine ⟨fun signal hforce => ?_, ?_, h.made, h.fresh⟩
      · have hw := h.held signal ⟨hforce.1, .inl hstatus⟩
        refine ⟨hw.unrequested, hw.alone, ?_, hw.unclosed⟩
        rcases hw.exec with hgranting | hpaused | ⟨p', -, hlocal', -⟩
        · exact .inl hgranting
        · exact .inr (.inl hpaused)
        · simp [hlocal] at hlocal'
      · intro p' hp'
        cases hp'
        simp

theorem Inv.commit (p : ℕ) : (w.commitStep p).Inv := by
  unfold commitStep
  split
  · rename_i signal hsignal
    split
    · exact .of_status nofun nofun (h.fresh_close hsignal) nofun nofun
    · exact h
  · exact h

theorem Inv.abort (p : ℕ) : (w.abortStep p).Inv := by
  unfold abortStep
  split
  · rename_i hready
    obtain ⟨-, hlocal, hstatus, -⟩ := hready
    refine ⟨fun signal hforce => ?_, by simp, h.made, h.fresh⟩
    have hw := h.held signal ⟨hforce.1, .inr hstatus⟩
    have hlive : w.cancelled = false := by
      by_contra hne
      have hcancelled : w.cancelled = true := by simpa using hne
      rcases hforce.2 with hs | hs <;> simp [hcancelled] at hs
    refine ⟨hw.unrequested, hw.alone, ?_, hw.unclosed⟩
    rcases hw.exec with hgranting | hpaused | ⟨_, -, -, hcancelled⟩
    · exact .inl hgranting
    · exact .inr (.inl hpaused)
    · simp [hlive] at hcancelled
  · exact h

theorem Inv.execCancelled (hcancelled : w.cancelled = true) : w.execCancelledStep.Inv := by
  unfold execCancelledStep
  split
  · exact .of_status h.ready h.made h.fresh nofun nofun
  · rename_i p hlocal
    refine ⟨fun signal hforce => ?_, h.ready, h.made, h.fresh⟩
    have hw := h.held signal hforce
    exact ⟨hw.unrequested, hw.alone, .inr (.inr ⟨p, rfl, hlocal, hcancelled⟩), hw.unclosed⟩

theorem Inv.moveExec (e : Exec) (hnot : ∀ signal, ¬ w.InForce signal) : { w with exec := e }.Inv :=
  .of_not_inForce h.ready h.made h.fresh hnot

theorem Inv.not_inForce (hexec : (∀ signal, w.exec ≠ .granting signal) ∧ (∀ n, w.exec ≠ .paused n) ∧
      ∀ p, w.exec ≠ .undecided p) (signal : Signal) : ¬ w.InForce signal := by
  intro hforce
  rcases (h.held signal hforce).exec with hgranting | hpaused | ⟨p, hp, -⟩
  · exact hexec.1 signal hgranting
  · exact hexec.2.1 signal.id hpaused
  · exact hexec.2.2 p hp

end

/-! ## How a suspension ends -/

/-- What ends a suspension: a committed resume, the withdrawal of the call it was granted to, or the
cancellation of the run. -/
inductive EndedBy (w : World) (signal : Signal) : Label → Prop
  | commit (p : ℕ) : EndedBy w signal (.commit p)
  | withdraw : EndedBy w signal (.withdraw signal.grantedTo)
  | cancelled (h : w.cancelled = true) : EndedBy w signal .execCancelled
  | aborted (h : w.cancelled = true) (p : ℕ) : EndedBy w signal (.abort p)

theorem InForce.congr (h : w.InForce signal) (hsignal : t.resumeSignal = w.resumeSignal)
    (hstatus : t.status = w.status) : t.InForce signal := by
  unfold InForce
  rw [hsignal, hstatus]
  exact h

theorem suspendStep_inForce (h : w.InForce signal) (c : ℕ) : (w.suspendStep c).InForce signal := by
  have hstatus : w.status ≠ .running := by
    rcases h.2 with hs | hs <;> simp [hs]
  unfold suspendStep
  rw [if_pos (by simp [hstatus])]
  exact h.congr rfl rfl

theorem Inv.abort_inForce (hforce : w.InForce signal) (p : ℕ) :
    (w.abortStep p).InForce signal ∨ w.cancelled = true := by
  unfold abortStep
  split
  · cases hcancelled : w.cancelled with
    | true => exact .inr rfl
    | false => exact .inl ⟨hforce.1, .inl (by simp)⟩
  · exact .inl hforce

theorem prepareStep_inForce (hforce : w.InForce signal) (p : ℕ) :
    (w.prepareStep p).InForce signal := by
  unfold prepareStep
  split
  · exact hforce
  · split
    · exact hforce
    · exact ⟨hforce.1, .inr rfl⟩

/-- A step keeps the invariant, and a suspension in force unless it is one that may end it. -/
def Keeps (w t : World) (l : Label) : Prop :=
  (w.GrantsAlone l → t.Inv) ∧ ∀ signal, w.InForce signal → t.InForce signal ∨ w.EndedBy signal l

theorem Inv.step (h : w.Inv) {l : Label} (hst : w.step l = some t) : w.Keeps t l := by
  -- the step leaves a suspension as it is, or there is none in force
  have hcalm (hinv : t.Inv) (hsignal : t.resumeSignal = w.resumeSignal)
      (hstatus : t.status = w.status) : w.Keeps t l :=
    ⟨fun _ => hinv, fun _ hforce => .inl (hforce.congr hsignal hstatus)⟩
  have hidle (hnot : ∀ signal, ¬w.InForce signal) (hinv : w.GrantsAlone l → t.Inv) : w.Keeps t l :=
    ⟨hinv, fun signal hforce => absurd hforce (hnot signal)⟩
  unfold World.step at hst
  cases l with
  | start started =>
    obtain ⟨hexec, rfl⟩ := by simpa using hst
    have hnot := h.not_inForce (by simp [hexec])
    refine hidle hnot fun _ => ?_
    cases started with
    | true => exact .of_status h.ready h.made h.fresh (by simp) (by simp)
    | false => exact .of_not_inForce h.ready h.made h.fresh hnot
  | suspend c =>
    obtain ⟨-, rfl⟩ := by simpa using hst
    exact ⟨fun _ => h.suspend c, fun _ hforce => .inl (suspendStep_inForce hforce c)⟩
  | suspendExpired c =>
    obtain ⟨-, rfl⟩ := by simpa using hst
    exact hcalm (h.setCall c ⟨by simp, by simp⟩) rfl rfl
  | contextDone c =>
    obtain ⟨hcall, rfl⟩ := by simpa using hst
    refine hcalm (h.congr rfl rfl rfl rfl rfl rfl rfl id (fun d hd => ?_) fun _ _ => .inl rfl)
      rfl rfl
    by_cases hdc : d = c
    · exact .inl (hdc ▸ hcall)
    · simpa [InProgress, World.setCall, hdc] using hd
  | withdraw c =>
    obtain ⟨hc, rfl⟩ := by simpa using hst
    refine ⟨fun _ => (h.withdraw c).setCall c ⟨by simp, by simp⟩, fun signal hforce => ?_⟩
    -- a call that withdraws ends a suspension in force only if the suspension is its own
    obtain rfl := (h.held signal hforce).alone c (.inr hc)
    exact .inr .withdraw
  | receive c =>
    dsimp only at hst
    split at hst
    · rename_i reply hcall hanswer
      cases hst
      exact hcalm (h.setCall c ⟨by simp, by simp⟩) rfl rfl
    · cases hst
  | boundary =>
    obtain ⟨hexec, rfl⟩ := by simpa using hst
    have hnot := h.not_inForce (by simp [hexec])
    exact hidle hnot h.boundary
  | answer =>
    dsimp only at hst
    split at hst
    · rename_i signal hexec
      cases hst
      refine hcalm
        (h.congr rfl rfl rfl rfl rfl rfl rfl id (fun _ hd => hd) fun signal' hforce => ?_) rfl rfl
      have hsignal : signal = signal' := by
        rcases (h.held signal' hforce).exec with hgranting | hpaused | ⟨p, hp, -⟩
        · rw [hexec] at hgranting
          exact Exec.granting.inj hgranting
        · simp [hexec] at hpaused
        · simp [hexec] at hp
      subst hsignal
      exact .inr ⟨hexec, rfl⟩
    · rename_i c hexec
      cases hst
      have hnot := h.not_inForce (by simp [hexec])
      exact hidle hnot fun _ => .of_not_inForce h.ready h.made h.fresh hnot
    · cases hst
  | execCancelled =>
    dsimp only at hst
    split at hst
    · split at hst
      · rename_i hcancelled
        cases hst
        exact ⟨fun _ => h.execCancelled hcancelled, fun _ _ => .inr (.cancelled hcancelled)⟩
      · cases hst
    · cases hst
  | execDecided =>
    dsimp only at hst
    split at hst
    · rename_i p hexec
      split at hst
      · cases hst
      · rename_i hdecided
        cases hst
        refine hcalm (h.moveExec _ fun signal hforce => ?_) rfl rfl
        rcases (h.held signal hforce).exec with hgranting | hpaused | ⟨p', hp', hlocal, -⟩
        · simp [hexec] at hgranting
        · simp [hexec] at hpaused
        · obtain rfl : p = p' := Exec.undecided.inj (hexec.symm.trans hp')
          exact hdecided (h.ready p hlocal)
    · cases hst
  | execResumed =>
    dsimp only at hst
    split at hst
    · rename_i n hexec
      split at hst
      · rename_i hclosed
        cases hst
        refine hcalm (h.moveExec _ fun signal hforce => ?_) rfl rfl
        have hw := h.held signal hforce
        rcases hw.exec with hgranting | hpaused | ⟨p, hp, -⟩
        · simp [hexec] at hgranting
        · obtain rfl : n = signal.id := Exec.paused.inj (hexec.symm.trans hpaused)
          simp [hw.unclosed] at hclosed
        · simp [hexec] at hp
      · cases hst
    · cases hst
  | leave =>
    obtain ⟨hexec, rfl⟩ := by simpa using hst
    have hnot := h.not_inForce (by simp [hexec])
    exact hidle hnot fun _ => h.moveExec _ hnot
  | finalize =>
    obtain ⟨hexec, rfl⟩ := by simpa using hst
    have hnot := h.not_inForce (by simp [hexec])
    exact hidle hnot fun _ => .of_status h.ready h.made h.fresh nofun nofun
  | recordTerminal =>
    obtain ⟨hexec, rfl⟩ := by simpa using hst
    have hnot := h.not_inForce (by simp [hexec])
    exact hidle hnot fun _ => .of_status h.ready h.made h.fresh nofun nofun
  | prepare p =>
    obtain ⟨-, rfl⟩ := by simpa using hst
    exact ⟨fun _ => h.prepare p, fun _ hforce => .inl (prepareStep_inForce hforce p)⟩
  | commit p =>
    cases hst
    exact ⟨fun _ => h.commit p, fun _ _ => .inr (.commit p)⟩
  | abort p =>
    cases hst
    refine ⟨fun _ => h.abort p, fun signal hforce => ?_⟩
    exact (Inv.abort_inForce hforce p).imp_right fun hcancelled => .aborted hcancelled p
  | cancel =>
    cases hst
    exact hcalm (h.congr rfl rfl rfl rfl rfl rfl rfl (fun _ => rfl) (fun _ hd => hd)
      fun _ _ => .inl rfl) rfl rfl
  | reserveInteraction =>
    dsimp only at hst
    split at hst
    · cases hst
      exact hcalm (h.congr rfl rfl rfl rfl rfl rfl rfl id (fun _ hd => hd) fun _ _ => .inl rfl)
        rfl rfl
    · cases hst
      exact ⟨fun _ => h, fun _ hforce => .inl hforce⟩
  | releaseInteraction =>
    dsimp only at hst
    split at hst
    · cases hst
    · cases hst
      exact hcalm (h.congr rfl rfl rfl rfl rfl rfl rfl id (fun _ hd => hd) fun _ _ => .inl rfl)
        rfl rfl

end World

/-- The context of call 0 ends before a boundary grants it a suspension, and call 1 registers. -/
def registering : List Label := [.suspend 0, .contextDone 0, .withdraw 0, .suspend 1]

def registered : World :=
  let w := ((World.init true).suspendStep 0).setCall 0 .withdrawing
  ((w.withdrawStep 0).setCall 0 (.returned .contextError)).suspendStep 1

end SpiceAgent.Agent.Suspension
