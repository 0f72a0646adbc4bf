import SpiceAgent.Client.Managed

/-!
# What the managed connector owns

The token makes the call that has it the only one to change what the connector owns, so an
assertion about a call that works is not interfered with by the others: they close the connector,
cancel a context or wait. Once a `Shutdown` is about to return nil, nobody works, and a call that
takes the token afterwards is refused.
-/

namespace SpiceAgent.Managed

open SpiceAgent.Lib List Option
open Phase

namespace Phase

def holds : Phase → Bool
  | .idle | .waiting | .closing | .cancelling _ | .queued | .returning _ | .returned _ => false
  | _ => true

/-- The call has a startup lease that it has not released. -/
def leased : Phase → Bool
  | .dropping | .rechecking | .ensuring | .starting | .awaiting _ _ | .releasing _ _ => true
  | .cleaning _ .discard _ | .cleaning _ .startFailed _ => true
  | _ => false

/-- The absences that discovery has reported up to the start. -/
def absences : Phase → Option (List Bool)
  | .idle | .waiting | .entered | .discovering => some []
  | .acquiring | .dropping | .rechecking => some [false]
  | .ensuring | .starting => some [false, true]
  | _ => none

/-- Where a call can stand after a `Shutdown` has settled everything. -/
def quiet : Phase → Bool
  | .discovering | .acquiring | .dropping | .rechecking | .ensuring | .starting => false
  | .awaiting _ _ | .releasing _ _ | .finishing _ | .cleaning _ _ _ | .leaving .session => false
  | _ => true

/-- `Shutdown` has closed the connector. -/
def hasClosed : Phase → Bool
  | .cancelling _ | .queued | .reading | .cleaning _ .shutdown _ => true
  | _ => false

/-- `Shutdown` returns nil. -/
def returnsNil : Phase → Bool
  | .leaving .nil | .returning .nil | .returned .nil => true
  | _ => false

def Owns (s : Shared) : Phase → Prop
  | .starting => s.owned = none
  | .awaiting c _ => s.owned = some c
  | .releasing _ (some c) => s.owned = some c
  | .cleaning c job _ => (∃ d, .start c d ∈ s.calls) ∧ (job.ofOwned = true → s.owned = some c)
  | _ => True

theorem quiet_of_not_holds : ∀ {p : Phase}, p.holds = false → p.quiet = true
  | .idle, _ | .waiting, _ | .closing, _ | .cancelling _, _ | .queued, _ | .returning _, _
  | .returned _, _ => rfl

theorem Owns.of_not_holds {s : Shared} : ∀ {p : Phase}, p.holds = false → p.Owns s
  | .idle, _ | .waiting, _ | .closing, _ | .cancelling _, _ | .queued, _ | .returning _, _
  | .returned _, _ => trivial

end Phase

/-- What holds of the connector between any two actions. -/
structure Kept (s : Shared) : Prop where
  owned_started : ∀ c, s.owned = some c → .start c true ∈ s.calls
  owned_until_joined : ∀ c, .start c true ∈ s.calls →
    s.owned = some c ∨ ∃ r : Waited, .wait c true r ∈ s.calls ∧ r.joined = true
  begun_started : ∀ c, .beginShutdown c ∈ s.calls → ∃ d, .start c d ∈ s.calls
  started_lt : ∀ c d, .start c d ∈ s.calls → c < s.next
  settled : s.settled = true → s.closed = true ∧ s.owned = none

/-- What holds of a call. -/
structure Assertion (s : Shared) (i : ℕ) (op : Op) : Prop where
  token : op.phase.holds = true ↔ s.holder = some i
  lease : op.lease = op.phase.leased
  absences : ∀ l, op.phase.absences = some l → op.absences = l
  owns : op.phase.Owns s
  closed : op.phase.hasClosed = true → s.closed = true
  settles : op.phase.returnsNil = true → s.settled = true
  quiet : s.settled = true → op.phase.quiet = true

variable {s s' : Shared} {i j : ℕ} {op op' other : Op} {a : Action}

/-! ## What an action does -/

/-- The moves of a call that change nothing else. -/
inductive Move (s : Shared) : Phase → Phase → Prop
  | callInitialize : Move s .idle .waiting
  | callShutdown : Move s .idle .closing
  | giveUpWaiting : Move s .waiting (.returning .failed)
  | giveUpQueued : Move s .queued (.returning .failed)
  | refused : s.closed = true → Move s .entered (.leaving .failed)
  | discovered (session : Bool) : Move s .discovering (.finishing session)
  | notAcquired : Move s .acquiring (.finishing false)
  | rediscovered (session : Bool) : Move s .rechecking (.releasing session none)
  | adopt (c : ℕ) : s.owned = some c → Move s .ensuring (.awaiting c false)
  | closedMeanwhile : Move s .ensuring (.releasing false none)
  | mayStart : s.owned = none → s.closed = false → Move s .ensuring .starting
  | notStarted : Move s .starting (.releasing false none)
  | ready (c : ℕ) : Move s (.awaiting c true) (.releasing true (some c))
  | adopted (c : ℕ) (session : Bool) : Move s (.awaiting c false) (.releasing session none)
  | nothingActive : Move s (.cancelling none) .queued
  | verdictStands : s.terminalJoin = true → Move s .reading (.leaving .failed)
  | join (c : ℕ) : s.terminalJoin = false → s.owned = some c →
      Move s .reading (.cleaning c .shutdown false)
  | ret (outcome : Outcome) : Move s (.returning outcome) (.returned outcome)

/-- The moves of a call that releases its lease. -/
inductive Drop : Phase → Phase → Prop
  | dropping : Drop .dropping (.finishing false)
  | released (session session' : Bool) (c : Option ℕ) :
      Drop (.releasing session c) (.finishing session')
  | failed (session : Bool) (c : ℕ) :
      Drop (.releasing session (some c)) (.cleaning c .leaseFailed false)

/-- What one action of the call `i` does. -/
inductive Effect (s : Shared) (i : ℕ) (op : Op) : Action → Shared → Op → Prop
  | move {a : Action} {q : Phase} : Move s op.phase q → Effect s i op a s (op.at q)
  | absent {a : Action} : op.phase = .discovering →
      Effect s i op a s ⟨.acquiring, op.lease, op.absences ++ [op.lease]⟩
  | absentAgain {a : Action} : op.phase = .rechecking →
      Effect s i op a s ⟨.ensuring, op.lease, op.absences ++ [op.lease]⟩
  | lease {a : Action} {q : Phase} : op.phase = .acquiring → q = .rechecking ∨ q = .dropping →
      Effect s i op a s ⟨q, true, op.absences⟩
  | giveUp {a : Action} {c : ℕ} {launched : Bool} : op.phase = .awaiting c launched →
      launched = true ∨ a = .await .exited →
      Effect s i op a s (op.at (.cleaning c .startFailed false))
  | drop {a : Action} {q : Phase} : Drop op.phase q → Effect s i op a s ⟨q, false, op.absences⟩
  | take {a : Action} {q : Phase} : s.holder = none →
      op.phase = .waiting ∧ q = .entered ∨ op.phase = .queued ∧ q = .reading →
      Effect s i op a { s with holder := some i } (op.at q)
  | enter {a : Action} : op.phase = .entered → s.closed = false →
      Effect s i op a { s with activeCancel := some i } (op.at .discovering)
  | launch (r : Started) : op.phase = .starting →
      Effect s i op (.start (some r)) (launch s op r).1 (launch s op r).2
  | beginShutdown {a : Action} {c : ℕ} {job : Job} : op.phase = .cleaning c job false →
      Effect s i op a { s with calls := s.calls ++ [.beginShutdown c] }
        (op.at (.cleaning c job true))
  | wait {c : ℕ} {job : Job} (r : Waited) : op.phase = .cleaning c job true →
      Effect s i op (.wait r) (finishCleaning s op c job r).1 (finishCleaning s op c job r).2
  | finish {a : Action} {session : Bool} {outcome : Outcome} : op.phase = .finishing session →
      outcome = .session ∧ s.closed = false ∨ outcome = .failed →
      Effect s i op a { s with activeCancel := none } (op.at (.leaving outcome))
  | close {a : Action} : op.phase = .closing →
      Effect s i op a { s with closed := true } (op.at (.cancelling s.activeCancel))
  | cancel {a : Action} {j : ℕ} : op.phase = .cancelling (some j) →
      Effect s i op a { s with cancelled := Function.update s.cancelled j true } (op.at .queued)
  | settle {a : Action} : op.phase = .reading → s.owned = none →
      Effect s i op a { s with settled := true } (op.at (.leaving .nil))
  | leave {a : Action} {outcome : Outcome} : op.phase = .leaving outcome →
      Effect s i op a { s with holder := none } (op.at (.returning outcome))

theorem Effect.of_move {p q : Phase} (hphase : op.phase = p) (h : Move s p q) :
    Effect s i op a s (op.at q) := .move (hphase ▸ h)

theorem act_effect (hact : act s i op a = some (s', op')) : Effect s i op a s' op' := by
  unfold act at hact
  split at hact
  all_goals rename_i hphase
  · cases hact
    exact .of_move hphase .callInitialize
  · cases hact
    exact .of_move hphase .giveUpWaiting
  · obtain ⟨hfree, rfl, rfl⟩ := by simpa using hact
    exact .take hfree (.inl ⟨hphase, rfl⟩)
  · split at hact
    · rename_i hclosed
      cases hact
      exact .of_move hphase (.refused hclosed)
    · rename_i hclosed
      cases hact
      exact .enter hphase (by simpa using hclosed)
  · -- the first discovery
    split at hact
    · simp at hact
    · split at hact <;> cases hact
      · exact .of_move hphase (.discovered false)
      · exact .of_move hphase (.discovered _)
      · exact .of_move hphase (.discovered false)
      · exact .absent hphase
  · cases hact
    exact .lease hphase (.inl rfl)
  · cases hact
    exact .lease hphase (.inr rfl)
  · cases hact
    exact .of_move hphase .notAcquired
  · cases hact
    exact .drop (hphase ▸ .dropping)
  · -- the second discovery
    split at hact
    · simp at hact
    · split at hact <;> cases hact
      · exact .of_move hphase (.rediscovered false)
      · exact .of_move hphase (.rediscovered _)
      · exact .of_move hphase (.rediscovered false)
      · exact .absentAgain hphase
  · split at hact
    · rename_i howned
      cases hact
      exact .of_move hphase (.adopt _ howned)
    · rename_i howned
      cases hact
      split
      · exact .of_move hphase .closedMeanwhile
      · rename_i hclosed
        exact .of_move hphase (.mayStart howned (by simpa using hclosed))
  · cases hact
    exact .of_move hphase .notStarted
  · rw [some_inj, Prod.ext_iff] at hact
    obtain ⟨rfl, rfl⟩ := hact
    exact .launch _ hphase
  · rename_i c launched
    obtain ⟨-, rfl, rfl⟩ := by simpa using hact
    cases launched
    · exact .of_move hphase (.adopted c true)
    · exact .of_move hphase (.ready c)
  · cases hact
    exact .giveUp hphase (.inr rfl)
  · rename_i c launched
    cases hact
    cases launched
    · exact .of_move hphase (.adopted c false)
    · exact .giveUp hphase (.inl rfl)
  · rename_i session launchedCandidate ok
    cases hact
    refine .drop ?_
    rw [hphase]
    cases ok
    · cases launchedCandidate
      · exact .released ..
      · exact .failed ..
    · exact .released ..
  · obtain ⟨-, rfl, rfl⟩ := by simpa using hact
    refine .finish hphase ?_
    split
    · rename_i h
      exact .inl ⟨rfl, by simp_all⟩
    · exact .inr rfl
  · cases hact
    exact .of_move hphase .callShutdown
  · cases hact
    exact .close hphase
  · cases hact
    exact .of_move hphase .nothingActive
  · cases hact
    exact .cancel hphase
  · cases hact
    exact .of_move hphase .giveUpQueued
  · obtain ⟨hfree, rfl, rfl⟩ := by simpa using hact
    exact .take hfree (.inr ⟨hphase, rfl⟩)
  · split at hact
    · rename_i hverdict
      cases hact
      exact .of_move hphase (.verdictStands hverdict)
    · rename_i hverdict
      split at hact <;> rename_i howned <;> cases hact
      · exact .of_move hphase (.join _ (by simpa using hverdict) howned)
      · exact .settle hphase howned
  · cases hact
    exact .beginShutdown hphase
  · split at hact
    · simp at hact
    · rw [some_inj, Prod.ext_iff] at hact
      obtain ⟨rfl, rfl⟩ := hact
      exact .wait _ hphase
  · cases hact
    exact .leave hphase
  · cases hact
    exact .of_move hphase (.ret _)
  · simp at hact

/-! ## Interference -/

/-- What the action of a call with the token does to the others. -/
structure Working (s s' : Shared) (i : ℕ) : Prop where
  before : s.holder = some i
  after : s'.holder = some i ∨ s'.holder = none
  closed : s'.closed = s.closed
  settled : s.settled = true → s'.settled = true

/-- What the action of a call without the token does to the others. -/
structure Idling (s s' : Shared) (i : ℕ) : Prop where
  after : s'.holder = s.holder ∨ (s.holder = none ∧ s'.holder = some i)
  closed : s.closed = true → s'.closed = true
  owned : s'.owned = s.owned
  calls : s'.calls = s.calls
  terminalJoin : s'.terminalJoin = s.terminalJoin
  settled : s'.settled = s.settled

theorem Idling.refl (s : Shared) (i : ℕ) : Idling s s i := ⟨.inl rfl, id, rfl, rfl, rfl, rfl⟩

theorem launch_shared (s : Shared) (op : Op) (r : Started) :
    (launch s op r).1.holder = s.holder ∧ (launch s op r).1.closed = s.closed ∧
      (launch s op r).1.settled = s.settled := by
  unfold launch
  dsimp only
  split <;> exact ⟨rfl, rfl, rfl⟩

theorem record_shared (s : Shared) (r : Waited) :
    (s.record r).holder = s.holder ∧ (s.record r).closed = s.closed ∧
      (s.record r).settled = s.settled ∧ (s.record r).calls = s.calls ∧
      (s.record r).next = s.next := by
  unfold Shared.record
  split
  · exact ⟨rfl, rfl, rfl, rfl, rfl⟩
  · split <;> exact ⟨rfl, rfl, rfl, rfl, rfl⟩

theorem finishCleaning_shared (s : Shared) (op : Op) (c : ℕ) (job : Job) (r : Waited) :
    (finishCleaning s op c job r).1.holder = s.holder ∧
      (finishCleaning s op c job r).1.closed = s.closed ∧
      (finishCleaning s op c job r).1.next = s.next ∧
      (finishCleaning s op c job r).1.calls = s.calls ++ [.wait c job.ofOwned r] ∧
      (finishCleaning s op c job r).1.settled =
        (s.settled || (decide (job = .shutdown) && r.joined && r.clean)) := by
  unfold finishCleaning
  dsimp only
  split
  · obtain ⟨hholder, hclosed, hsettled, hcalls, hnext⟩ := record_shared _ r
    exact ⟨hholder, hclosed, hnext, hcalls, hsettled⟩
  · exact ⟨rfl, rfl, rfl, rfl, rfl⟩

theorem Effect.interferes (h : Assertion s i op) (he : Effect s i op a s' op') :
    Working s s' i ∨ Idling s s' i := by
  have hholds : op.phase.holds = true → s.holder = some i := h.token.mp
  cases he with
  | move | absent | absentAgain | lease | giveUp | drop => exact .inr (.refl s i)
  | take hfree _ => exact .inr ⟨.inr ⟨hfree, rfl⟩, id, rfl, rfl, rfl, rfl⟩
  | enter | finish | cancel => exact .inr ⟨.inl rfl, id, rfl, rfl, rfl, rfl⟩
  | launch r hp =>
    obtain ⟨hholder, hclosed, hsettled⟩ := launch_shared s op r
    have hi := hholds (by rw [hp]; rfl)
    exact .inl ⟨hi, .inl (hholder.trans hi), hclosed, fun h => hsettled.trans h⟩
  | beginShutdown hp =>
    have hi := hholds (by rw [hp]; rfl)
    exact .inl ⟨hi, .inl hi, rfl, id⟩
  | @wait c job r hp =>
    obtain ⟨hholder, hclosed, -, -, hsettled⟩ := finishCleaning_shared s op c job r
    have hi := hholds (by rw [hp]; rfl)
    refine .inl ⟨hi, .inl (hholder.trans hi), hclosed, fun h => ?_⟩
    rw [hsettled, h, Bool.true_or]
  | close => exact .inr ⟨.inl rfl, fun _ => rfl, rfl, rfl, rfl, rfl⟩
  | settle hp =>
    have hi := hholds (by rw [hp]; rfl)
    exact .inl ⟨hi, .inl hi, rfl, fun _ => rfl⟩
  | leave hp => exact .inl ⟨hholds (by rw [hp]; rfl), .inr rfl, rfl, id⟩

theorem Phase.Owns.congr {p : Phase} (h : p.Owns s) (howned : s'.owned = s.owned)
    (hcalls : s'.calls = s.calls) : p.Owns s' := by
  unfold Phase.Owns at h ⊢
  rw [howned, hcalls]
  exact h

section

variable (hj : Assertion s j other) (hne : j ≠ i)
include hj hne

theorem Assertion.idle_of_working (hw : Working s s' i) : other.phase.holds = false := by
  by_contra hholds
  have hij := hj.token.mp (by simpa using hholds)
  rw [hw.before] at hij
  exact hne (some_inj.mp hij).symm

theorem Assertion.working (hw : Working s s' i) : Assertion s' j other := by
  have hidle := hj.idle_of_working hne hw
  refine ⟨?_, hj.lease, hj.absences, .of_not_holds hidle, fun h => hw.closed.trans (hj.closed h),
    fun h => hw.settled (hj.settles h), fun _ => quiet_of_not_holds hidle⟩
  rw [hidle]
  rcases hw.after with hafter | hafter <;> simp [hafter, hne.symm]

theorem Assertion.idling (hw : Idling s s' i) : Assertion s' j other := by
  refine ⟨?_, hj.lease, hj.absences, hj.owns.congr hw.owned hw.calls,
    fun h => hw.closed (hj.closed h), fun h => hw.settled.trans (hj.settles h),
    fun h => hj.quiet (hw.settled ▸ h)⟩
  rw [hj.token]
  rcases hw.after with hafter | ⟨hfree, hafter⟩
  · rw [hafter]
  · simp [hfree, hafter, hne.symm]

end

/-! ## The connector -/

theorem Kept.congr (h : Kept s) (howned : s'.owned = s.owned) (hcalls : s'.calls = s.calls)
    (hnext : s'.next = s.next) (hsettled : s'.settled = s.settled)
    (hclosed : s.closed = true → s'.closed = true) : Kept s' := by
  refine ⟨?_, ?_, ?_, ?_, ?_⟩
  · rw [howned, hcalls]
    exact h.owned_started
  · rw [howned, hcalls]
    exact h.owned_until_joined
  · rw [hcalls]
    exact h.begun_started
  · rw [hcalls, hnext]
    exact h.started_lt
  · rw [hsettled, howned]
    exact fun hs => ⟨hclosed (h.settled hs).1, (h.settled hs).2⟩

theorem Kept.launch (h : Kept s) (howned : s.owned = none) (hsettled : s.settled = false)
    (r : Started) : Kept (launch s op r).1 := by
  have hfree : s.owned.isSome = false := by rw [howned]; rfl
  have hjoined : ∀ c, .start c true ∈ s.calls →
      ∃ r : Waited, .wait c true r ∈ s.calls ∧ r.joined = true := by
    intro c hc
    rcases h.owned_until_joined c hc with hown | hown
    · rw [howned] at hown
      cases hown
    · exact hown
  have hbegun : ∀ c d, .beginShutdown c ∈ s.calls ++ [.start s.next d] →
      ∃ e, .start c e ∈ s.calls ++ [.start s.next d] := by
    intro c d hc
    obtain ⟨e, he⟩ := h.begun_started c (by simpa using hc)
    exact ⟨e, mem_append_left _ he⟩
  have hlt : ∀ e c d, .start c d ∈ s.calls ++ [.start s.next e] → c < s.next + 1 := by
    intro e c d hc
    rcases mem_append.mp hc with hc | hc
    · exact (h.started_lt c d hc).trans (Nat.lt_succ_self _)
    · obtain ⟨rfl, -⟩ := by simpa using hc
      exact Nat.lt_succ_self _
  have hunsettled : s.settled = true → False := by
    rw [hsettled]
    exact Bool.false_ne_true
  unfold Managed.launch
  dsimp only
  rw [hfree, Bool.or_false]
  cases hd : r.hasDone with
  | false =>
    refine ⟨fun c hc => ?_, fun c hc => .inr ?_, fun c => hbegun c _, hlt _,
      fun hs => (hunsettled hs).elim⟩
    · cases hc.symm.trans howned
    · obtain ⟨w, hw, hj⟩ := hjoined c (by simpa using hc)
      exact ⟨w, mem_append_left _ hw, hj⟩
  | true =>
    refine ⟨fun c hc => ?_, fun c hc => ?_, fun c => hbegun c _, hlt _,
      fun hs => (hunsettled hs).elim⟩
    · obtain rfl : s.next = c := some_inj.mp hc
      exact mem_append_right _ (mem_singleton_self _)
    · rcases mem_append.mp hc with hc | hc
      · obtain ⟨w, hw, hj⟩ := hjoined c hc
        exact .inr ⟨w, mem_append_left _ hw, hj⟩
      · left
        obtain ⟨rfl, -⟩ := by simpa using hc
        rfl

theorem Kept.beginShutdown (h : Kept s) {c : ℕ} (hc : ∃ d, .start c d ∈ s.calls) :
    Kept { s with calls := s.calls ++ [.beginShutdown c] } := by
  refine ⟨fun b hb => mem_append_left _ (h.owned_started b hb), fun b hb => ?_, fun b hb => ?_,
    fun b d hb => h.started_lt b d (by simpa using hb), h.settled⟩
  · rcases h.owned_until_joined b (by simpa using hb) with hown | ⟨r, hr, hj⟩
    · exact .inl hown
    · exact .inr ⟨r, mem_append_left _ hr, hj⟩
  · have hstarted : ∃ d, .start b d ∈ s.calls := by
      rcases mem_append.mp hb with hb | hb
      · exact h.begun_started b hb
      · obtain rfl : b = c := by simpa using hb
        exact hc
    obtain ⟨d, hd⟩ := hstarted
    exact ⟨d, mem_append_left _ hd⟩

theorem record_owned (s : Shared) (r : Waited) :
    (s.record r).owned = if r.joined then none else s.owned := by
  unfold Shared.record
  split
  · rfl
  · split <;> rfl

theorem finishCleaning_owned (s : Shared) (op : Op) (c : ℕ) (job : Job) (r : Waited) :
    (finishCleaning s op c job r).1.owned =
      if job.ofOwned && r.joined then none else s.owned := by
  unfold finishCleaning
  dsimp only
  cases job.ofOwned with
  | false => rfl
  | true => exact record_owned _ r

theorem Kept.wait (h : Kept s) {c : ℕ} {job : Job} (hc : job.ofOwned = true → s.owned = some c)
    (hsettled : s.settled = false) (hclosed : job = .shutdown → s.closed = true) (r : Waited) :
    Kept (finishCleaning s op c job r).1 := by
  obtain ⟨-, hclosed', hnext', hcalls', hsettled'⟩ := finishCleaning_shared s op c job r
  have howned' := finishCleaning_owned s op c job r
  refine ⟨fun b hb => ?_, fun b hb => ?_, fun b hb => ?_, fun b d hb => ?_, fun hs => ?_⟩
  · rw [hcalls']
    rw [howned'] at hb
    split at hb
    · cases hb
    · exact mem_append_left _ (h.owned_started b hb)
  · rw [hcalls'] at hb ⊢
    rcases h.owned_until_joined b (by simpa using hb) with hown | ⟨w, hw, hj⟩
    · rw [howned']
      by_cases hjoin : (job.ofOwned && r.joined) = true
      · -- this very candidate has joined
        obtain ⟨hjob, hj⟩ := by simpa using hjoin
        obtain rfl : c = b := some_inj.mp ((hc hjob).symm.trans hown)
        rw [hjob]
        exact .inr ⟨r, mem_append_right _ (mem_singleton_self _), hj⟩
      · rw [if_neg hjoin]
        exact .inl hown
    · exact .inr ⟨w, mem_append_left _ hw, hj⟩
  · rw [hcalls'] at hb ⊢
    obtain ⟨d, hd⟩ := h.begun_started b (by simpa using hb)
    exact ⟨d, mem_append_left _ hd⟩
  · rw [hcalls'] at hb
    rw [hnext']
    exact h.started_lt b d (by simpa using hb)
  · rw [hsettled', hsettled, Bool.false_or] at hs
    simp only [Bool.and_eq_true, decide_eq_true_eq] at hs
    obtain ⟨⟨rfl, hj⟩, -⟩ := hs
    rw [hclosed', howned', hj]
    exact ⟨hclosed rfl, rfl⟩

theorem Effect.kept (hk : Kept s) (h : Assertion s i op) (he : Effect s i op a s' op') :
    Kept s' := by
  have hunsettled : op.phase.quiet = false → s.settled = false := by
    intro hq
    by_contra hs
    have := h.quiet (by simpa using hs)
    rw [hq] at this
    exact Bool.false_ne_true this
  have howns := h.owns
  have hclosed := h.closed
  cases he with
  | move | absent | absentAgain | lease | giveUp | drop => exact hk
  | take | enter | finish | cancel | leave => exact hk.congr rfl rfl rfl rfl id
  | close => exact hk.congr rfl rfl rfl rfl (fun _ => rfl)
  | launch r hp =>
    rw [hp] at howns
    exact hk.launch howns (hunsettled (by rw [hp]; rfl)) r
  | beginShutdown hp =>
    rw [hp] at howns
    exact hk.beginShutdown howns.1
  | wait r hp =>
    rw [hp] at howns hclosed
    refine hk.wait howns.2 (hunsettled (by rw [hp]; rfl)) (fun hjob => hclosed ?_) r
    rw [hjob]
    rfl
  | settle hp howned =>
    rw [hp] at hclosed
    exact ⟨hk.owned_started, hk.owned_until_joined, hk.begun_started, hk.started_lt,
      fun _ => ⟨hclosed rfl, howned⟩⟩

/-! ## The call itself -/

namespace Move

variable {p q : Phase}

section

variable (h : Move s p q)
include h

theorem holds_eq : q.holds = p.holds := by cases h <;> rfl

theorem leased_eq : q.leased = p.leased := by cases h <;> rfl

theorem absences_eq : q.absences = none ∨ q.absences = p.absences := by
  cases h <;> first | exact .inl rfl | exact .inr rfl

theorem hasClosed (hq : q.hasClosed = true) : p.hasClosed = true := by
  cases h <;> first | rfl | cases hq

theorem returnsNil_eq : q.returnsNil = p.returnsNil := by
  cases h with
  | ret outcome => cases outcome <;> rfl
  | _ => rfl

theorem owns (hk : Kept s) (hp : p.Owns s) : q.Owns s := by
  cases h with
  | adopt c howned => exact howned
  | mayStart howned _ => exact howned
  | ready c => exact hp
  | join c _ howned => exact ⟨⟨true, hk.owned_started c howned⟩, fun _ => howned⟩
  | _ => trivial

theorem quiet (howned : s.owned = none) (hp : p.quiet = true) : q.quiet = true := by
  cases h with
  | join c _ hsome => cases hsome.symm.trans howned
  | _ => first | rfl | cases hp

end

end Move

theorem Assertion.move (hk : Kept s) (h : Assertion s i op) {q : Phase}
    (hm : Move s op.phase q) : Assertion s i (op.at q) := by
  refine ⟨?_, h.lease.trans hm.leased_eq.symm, fun l hl => ?_, hm.owns hk h.owns,
    fun hq => h.closed (hm.hasClosed hq), fun hq => h.settles (hm.returnsNil_eq ▸ hq),
    fun hs => hm.quiet (hk.settled hs).2 (h.quiet hs)⟩
  · rw [← h.token, Op.at, hm.holds_eq]
  · rcases hm.absences_eq with hnone | heq
    · cases hl.symm.trans hnone
    · exact h.absences l (heq ▸ hl)

/-- An assertion about a call that has moved on, while the shared state changed only in what does
not concern it. -/
theorem Assertion.of_working {q : Phase} {lease : Bool} {absences : List Bool}
    (hholder : s'.holder = some i) (hholds : q.holds = true) (hlease : lease = q.leased)
    (habsences : ∀ l, q.absences = some l → absences = l) (howns : q.Owns s')
    (hclosed : q.hasClosed = true → s'.closed = true)
    (hnil : q.returnsNil = true → s'.settled = true)
    (hquiet : s'.settled = true → q.quiet = true) : Assertion s' i ⟨q, lease, absences⟩ :=
  ⟨by simp [hholds, hholder], hlease, habsences, howns, hclosed, hnil, hquiet⟩

theorem launch_assertion (howned : s.owned = none) (hholder : s.holder = some i)
    (hlease : op.lease = true) (hquiet : s.settled = true → false = true) (r : Started) :
    Assertion (launch s op r).1 i (launch s op r).2 := by
  have hfree : s.owned.isSome = false := by rw [howned]; rfl
  unfold launch
  dsimp only
  rw [hfree, Bool.or_false]
  split
  · exact .of_working hholder rfl hlease nofun
      ⟨⟨_, mem_append_right _ (mem_singleton_self _)⟩, by simp [Job.ofOwned]⟩
      nofun nofun hquiet
  · dsimp only
    split
    · exact .of_working hholder rfl hlease nofun
        ⟨⟨_, mem_append_right _ (mem_singleton_self _)⟩, fun _ => rfl⟩
        nofun nofun hquiet
    · exact .of_working hholder rfl hlease nofun rfl
        nofun nofun hquiet

theorem finishCleaning_assertion {c : ℕ} {job : Job} (hholder : s.holder = some i)
    (hlease : op.lease = (cleaning c job true).leased)
    (hquiet : s.settled = true → false = true) (r : Waited) :
    Assertion (finishCleaning s op c job r).1 i (finishCleaning s op c job r).2 := by
  obtain ⟨hholder', -, -, -, hsettled'⟩ := finishCleaning_shared s op c job r
  have hunsettled : s.settled = false := by
    by_contra hs
    exact Bool.false_ne_true (hquiet (by simpa using hs))
  rw [hunsettled, Bool.false_or] at hsettled'
  refine .of_working (hholder'.trans hholder) ?_ ?_ ?_ ?_ ?_ ?_ ?_
  · cases job <;> rfl
  · rw [hlease]
    cases job <;> rfl
  · cases job <;> simp [Job.after, absences]
  · cases job <;> trivial
  · cases job <;> simp [Job.after, hasClosed]
  · intro hnil
    rw [hsettled']
    cases job with
    | shutdown =>
      by_contra hs
      simp only [decide_true, Bool.true_and] at hs
      simp [Job.after, hs, returnsNil] at hnil
    | _ => cases hnil
  · intro hs
    rw [hsettled'] at hs
    simp only [Bool.and_eq_true, decide_eq_true_eq] at hs
    obtain ⟨⟨rfl, hj⟩, hclean⟩ := hs
    simp [Job.after, hj, hclean, quiet]

theorem Effect.assertion (hk : Kept s) (h : Assertion s i op) (he : Effect s i op a s' op') :
    Assertion s' i op' := by
  have hholds : op.phase.holds = true → s.holder = some i := h.token.mp
  have hlease := h.lease
  have habsences := h.absences
  have howns := h.owns
  have hclosed := h.closed
  have hsettles := h.settles
  have hquiet := h.quiet
  cases he with
  | move hm => exact h.move hk hm
  | absent hp =>
    rw [hp] at hholds hlease habsences hquiet
    refine .of_working (hholds rfl) rfl hlease (fun l hl => ?_) trivial nofun
      nofun hquiet
    cases hl
    rw [habsences [] rfl, hlease]
    rfl
  | absentAgain hp =>
    rw [hp] at hholds hlease habsences hquiet
    refine .of_working (hholds rfl) rfl hlease (fun l hl => ?_) trivial nofun
      nofun hquiet
    cases hl
    rw [habsences [false] rfl, hlease]
    rfl
  | lease hp hq =>
    rw [hp] at hholds hlease habsences hquiet
    rcases hq with rfl | rfl
    · exact .of_working (hholds rfl) rfl rfl (by simpa [absences] using habsences) trivial
        nofun nofun hquiet
    · exact .of_working (hholds rfl) rfl rfl (by simpa [absences] using habsences) trivial
        nofun nofun hquiet
  | @giveUp _ c _ hp =>
    rw [hp] at hholds hlease howns hquiet
    exact .of_working (hholds rfl) rfl hlease nofun
      ⟨⟨true, hk.owned_started c howns⟩, fun _ => howns⟩ nofun
      nofun hquiet
  | @drop _ q hd =>
    generalize op.phase = p at hd hholds howns hquiet
    cases hd with
    | dropping =>
      exact .of_working (hholds rfl) rfl rfl nofun trivial
        nofun nofun hquiet
    | released =>
      exact .of_working (hholds rfl) rfl rfl nofun trivial
        nofun nofun hquiet
    | failed session c =>
      exact .of_working (hholds rfl) rfl rfl nofun
        ⟨⟨true, hk.owned_started c howns⟩, fun _ => howns⟩ nofun
        nofun hquiet
  | take hfree hq =>
    rcases hq with ⟨hp, rfl⟩ | ⟨hp, rfl⟩
    · rw [hp] at hlease habsences
      exact .of_working rfl rfl hlease habsences trivial nofun
        nofun (fun _ => rfl)
    · rw [hp] at hlease hclosed
      exact .of_working rfl rfl hlease nofun trivial (fun _ => hclosed rfl)
        nofun (fun _ => rfl)
  | enter hp hopen =>
    rw [hp] at hholds hlease habsences
    refine .of_working (hholds rfl) rfl hlease habsences trivial nofun
      nofun (fun hs => ?_)
    exact absurd ((hk.settled hs).1.symm.trans hopen) nofun
  | launch r hp =>
    rw [hp] at hholds hlease howns hquiet
    exact launch_assertion howns (hholds rfl) hlease hquiet r
  | @beginShutdown _ c job hp =>
    rw [hp] at hholds hlease howns hclosed hquiet
    obtain ⟨⟨d, hd⟩, howned⟩ := howns
    refine .of_working (hholds rfl) rfl ?_ nofun
      ⟨⟨d, mem_append_left _ hd⟩, howned⟩ ?_ nofun hquiet
    · rw [hlease]
      cases job <;> rfl
    · cases job <;> exact hclosed
  | @wait c job r hp =>
    rw [hp] at hholds hlease hquiet
    exact finishCleaning_assertion (hholds rfl) hlease hquiet r
  | finish hp ho =>
    rw [hp] at hholds hlease hquiet
    rcases ho with ⟨rfl, -⟩ | rfl
    · exact .of_working (hholds rfl) rfl hlease nofun trivial
        nofun nofun hquiet
    · exact .of_working (hholds rfl) rfl hlease nofun trivial
        nofun nofun (fun _ => rfl)
  | close hp =>
    rw [hp] at hlease
    have htoken := h.token
    rw [hp] at htoken
    exact ⟨htoken, hlease, by simp [Op.at, absences], trivial, fun _ => rfl,
      by simp [Op.at, returnsNil], fun _ => rfl⟩
  | cancel hp =>
    have htoken := h.token
    rw [hp] at hlease hclosed htoken
    exact ⟨htoken, hlease, by simp [Op.at, absences], trivial, fun _ => hclosed rfl,
      by simp [Op.at, returnsNil], fun _ => rfl⟩
  | settle hp howned =>
    rw [hp] at hholds hlease
    exact .of_working (hholds rfl) rfl hlease nofun trivial
      nofun (fun _ => rfl) (fun _ => rfl)
  | @leave _ outcome hp =>
    rw [hp] at hlease hsettles
    refine ⟨by simp [Op.at, holds], hlease, by simp [Op.at, absences], trivial,
      by simp [Op.at, hasClosed], fun hq => hsettles ?_, fun _ => rfl⟩
    cases outcome <;> exact hq

theorem outline : connector.Outline (fun _ _ _ _ => True) Kept Assertion where
  init_shared := ⟨by simp [connector], by simp [connector], by simp [connector],
    by simp [connector], by simp [connector]⟩
  init_thread i := ⟨by simp [connector, holds], rfl, by simp [connector, absences],
    trivial, by simp [connector, hasClosed], by simp [connector, returnsNil],
    fun _ => rfl⟩
  own hk h _ hact := ⟨(act_effect hact).kept hk h, (act_effect hact).assertion hk h⟩
  others _ h hj hne _ hact :=
    ((act_effect hact).interferes h).elim (hj.working hne) (hj.idling hne)

end SpiceAgent.Managed
