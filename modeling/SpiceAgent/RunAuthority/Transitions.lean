import SpiceAgent.RunAuthority.System

/-!
# The transitions of a record

`Allowed` lists the writes that may replace the record of a run. What the methods of `Active` and
`Import` write is among them, as long as the value is the last one that has written the record.
-/

namespace SpiceAgent.RunAuthority

variable {M : Type*}

section Transitions

variable (identity : Identity) (mac : String → ℕ → SnapshotInput → M)

def Identity.suspendedRecord (runID : String) (runGeneration : ℕ) (snapshot : SnapshotRecord M) :
    Record M :=
  { (identity.baseRecord runID runGeneration .suspended : Record M) with snapshot := some snapshot }

/-- The writes to the record of a run that may replace the given content. -/
inductive Allowed (runID : String) : Option (Record M) → Write M → Prop
  | start (id : ℕ) (success : Bool) :
    Allowed runID none ⟨.start, id, success, identity.baseRecord runID 1 .active⟩
  | suspend (id : ℕ) (success : Bool) (g : ℕ) (snapshot : SnapshotRecord M)
      (input : SnapshotInput) :
    snapshot.authorityMAC = mac runID g input →
    Allowed runID (some (identity.baseRecord runID g .active))
      ⟨.suspend, id, success, identity.suspendedRecord runID g snapshot⟩
  | endActive (id : ℕ) (success : Bool) (g : ℕ) (phase : Phase) : phase.terminal →
    Allowed runID (some (identity.baseRecord runID g .active))
      ⟨.terminal, id, success, identity.baseRecord runID g phase⟩
  | endSuspended (id : ℕ) (success : Bool) (g : ℕ) (snapshot : SnapshotRecord M) (phase : Phase) :
    phase.terminal →
    Allowed runID (some (identity.suspendedRecord runID g snapshot))
      ⟨.terminal, id, success, identity.baseRecord runID g phase⟩
  | resume (id : ℕ) (success : Bool) (g : ℕ) (snapshot : SnapshotRecord M) :
    Allowed runID (some (identity.suspendedRecord runID g snapshot))
      ⟨.resume, id, success, identity.baseRecord runID (g + 1) .active⟩
  | consume (id : ℕ) (success : Bool) (g : ℕ) (snapshot : SnapshotRecord M) :
    Allowed runID (some (identity.suspendedRecord runID g snapshot))
      ⟨.consume snapshot.authorityMAC, id, success, identity.baseRecord runID (g + 1) .importing⟩
  | activate (id : ℕ) (success : Bool) (g : ℕ) (claim : M) :
    Allowed runID (some (identity.baseRecord runID g .importing))
      ⟨.activate claim, id, success, identity.baseRecord runID g .active⟩

/-- The place of a record in the life of its run. -/
def Record.rank (record : Record M) : ℕ :=
  4 * record.runGeneration +
    match record.phase with
    | .importing => 0
    | .active => 1
    | .suspended => 2
    | .completed | .failed | .cancelled => 3

theorem rank_terminal (runID : String) (g : ℕ) {phase : Phase} (h : phase.terminal = true) :
    (identity.baseRecord runID g phase : Record M).rank = 4 * g + 3 := by
  cases phase <;> first | rfl | cases h

variable {identity mac}

theorem Allowed.rank_lt {runID : String} {p : Record M} {e : Write M}
    (h : Allowed identity mac runID (some p) e) : p.rank < e.record.rank := by
  cases h with
  | suspend _ _ g =>
    show 4 * g + 1 < 4 * g + 2
    omega
  | endActive _ _ g phase hp =>
    rw [rank_terminal identity runID g hp]
    show 4 * g + 1 < 4 * g + 3
    omega
  | endSuspended _ _ g _ phase hp =>
    rw [rank_terminal identity runID g hp]
    show 4 * g + 2 < 4 * g + 3
    omega
  | resume _ _ g =>
    show 4 * g + 2 < 4 * (g + 1) + 1
    omega
  | consume _ _ g =>
    show 4 * g + 2 < 4 * (g + 1) + 0
    omega
  | activate _ _ g =>
    show 4 * g + 0 < 4 * g + 1
    omega

end Transitions

/-! ## What the methods write -/

section Methods

variable (identity : Identity) (mac : String → ℕ → SnapshotInput → M)

/-- The record that an `Active` last wrote. -/
def Active.current (active : Active M) : Record M :=
  match active.suspended with
  | none => identity.baseRecord active.runID active.runGeneration .active
  | some snapshot => identity.suspendedRecord active.runID active.runGeneration snapshot

def Active.May (active : Active M) (cause : Cause M) (record : Record M) : Prop :=
  ∀ id success, Allowed identity mac active.runID (some (active.current identity))
    ⟨cause, id, success, record⟩

/-- What a method of an `Active` that has the lock can do. -/
inductive Active.Writes (active : Active M) (cause : Cause M) : Effect M (Active M) → Prop
  | refused (err : AuthorityError) : Active.Writes active cause (.refused err)
  | repeated : Active.Writes active cause .repeated
  | uncertain (err : Option AuthorityError) (record : Record M) (installed : Bool) :
    active.lock = true → active.closed = false → active.uncertain = false →
    active.May identity mac cause record →
    Active.Writes active cause
      (.uncertain { active with uncertain := true, snapshotIssueErr := err } record installed)
  | wrote (runGeneration : ℕ) (suspended : Option (SnapshotRecord M)) (record : Record M) :
    active.lock = true → active.closed = false → active.uncertain = false →
    active.May identity mac cause record →
    Active.current identity { active with runGeneration, suspended } = record →
    Active.Writes active cause (.wrote { active with runGeneration, suspended } record)
  | ended (record : Record M) :
    active.lock = true → active.closed = false → active.uncertain = false →
    active.May identity mac cause record →
    Active.Writes active cause (.ended active record)

variable {identity mac} {active : Active M}

theorem Active.Writes.of_result {cause : Cause M} {record : Record M}
    {success : Effect M (Active M)} (hlock : active.lock = true) (hopen : active.closed = false)
    (hcertain : active.uncertain = false) (err : Option AuthorityError)
    (hallowed : active.May identity mac cause record)
    (hsuccess : Active.Writes identity mac active cause success) (result : WriteResult) :
    Active.Writes identity mac active cause
      (result.effect record { active with uncertain := true, snapshotIssueErr := err }
      success) := by
  cases result with
  | refused err => exact .refused err
  | failed installed => exact .uncertain err record installed hlock hopen hcertain hallowed
  | written => exact hsuccess

variable (active)

theorem Active.may_terminal {phase : Phase} (hphase : phase.terminal = true) :
    active.May identity mac .terminal
      (identity.baseRecord active.runID active.runGeneration phase) := by
  intro id success
  unfold Active.current
  cases active.suspended with
  | none => exact .endActive id success _ phase hphase
  | some snapshot => exact .endSuspended id success _ snapshot phase hphase

theorem Active.terminal_writes (phase : Phase) (outcome : WriteOutcome) :
    Active.Writes identity mac active .terminal (active.terminal identity phase outcome) := by
  unfold Active.terminal
  split_ifs with hcertain hopen hphase
  · exact .refused _
  · exact .refused _
  · exact .refused _
  · simp only [Bool.or_eq_true, Bool.not_eq_true', not_or, Bool.not_eq_true, Bool.not_eq_false]
      at hcertain hopen hphase
    have hallowed : active.May identity mac .terminal _ := active.may_terminal hphase
    exact .of_result hopen.2 hopen.1 hcertain _ hallowed
      (.ended _ hopen.2 hopen.1 hcertain hallowed) _

theorem Active.resume_writes (ctxDone : Bool) (outcome : WriteOutcome) :
    Active.Writes identity mac active .resume (active.resume identity ctxDone outcome) := by
  unfold Active.resume
  split_ifs with hcertain hopen hsuspended
  · exact .refused _
  · exact .refused _
  · exact .refused _
  · exact .refused _
  · exact .refused _
  · simp only [Bool.or_eq_true, Bool.not_eq_true', not_or, Bool.not_eq_true, Bool.not_eq_false]
      at hcertain hopen
    obtain ⟨snapshot, hsnapshot⟩ : ∃ snapshot, active.suspended = some snapshot :=
      Option.ne_none_iff_exists'.mp fun h => hsuspended (by rw [h]; rfl)
    have hallowed : active.May identity mac .resume
        (identity.baseRecord active.runID (active.runGeneration + 1) .active) := by
      intro id success
      unfold Active.current
      rw [hsnapshot]
      exact .resume id success _ snapshot
    exact .of_result hopen.2 hopen.1 hcertain _ hallowed
      (.wrote _ none _ hopen.2 hopen.1 hcertain hallowed rfl) _

theorem phaseForLifecycle_resumable {lifecycle : Lifecycle} {phase : Phase}
    (h : phaseForLifecycle lifecycle = some (phase, true)) :
    lifecycle = .suspended ∧ phase = .suspended := by
  cases lifecycle <;> cases h
  exact ⟨rfl, rfl⟩

theorem phaseForLifecycle_final {lifecycle : Lifecycle} {phase : Phase}
    (h : phaseForLifecycle lifecycle = some (phase, false)) :
    lifecycle ≠ .suspended ∧ phase.terminal = true := by
  cases lifecycle <;> cases h <;> exact ⟨nofun, rfl⟩

variable [DecidableEq M] in
theorem Active.signSnapshot_writes (input : SnapshotInput) (ctxDone : Bool)
    (outcome : WriteOutcome) : Active.Writes identity mac active (World.signCause input)
      (active.signSnapshot identity mac input ctxDone outcome) := by
  unfold Active.signSnapshot
  split
  · exact .refused _
  rename_i hguard
  simp only [Bool.or_eq_true, Bool.not_eq_true', not_or, Bool.not_eq_true, Bool.not_eq_false]
    at hguard
  obtain ⟨⟨⟨hopen, hlock⟩, hcertain⟩, -⟩ := hguard
  split
  · exact .refused _
  split
  · exact .refused _
  rename_i phase resumable hphase
  split_ifs
  · exact .refused _
  · exact .refused _
  · exact .refused _
  · rename_i hresumable
    subst hresumable
    obtain ⟨hlife, rfl⟩ := phaseForLifecycle_resumable hphase
    rw [World.signCause, if_pos hlife]
    have hallowed (hnone : active.suspended = none) : active.May identity mac .suspend
        (identity.suspendedRecord active.runID active.runGeneration
          (active.snapshotRecord mac input)) := by
      intro id success
      unfold Active.current
      rw [hnone]
      exact .suspend id success _ _ input rfl
    dsimp only
    split
    · split_ifs
      · exact .repeated
      · exact .refused _
    · rename_i hnone
      exact .of_result hlock hopen hcertain _ (hallowed hnone)
        (.wrote _ (some _) _ hlock hopen hcertain (hallowed hnone) rfl) _
  · rename_i hfinal
    rw [Bool.not_eq_true] at hfinal
    subst hfinal
    obtain ⟨hlife, hterminal⟩ := phaseForLifecycle_final hphase
    rw [World.signCause, if_neg hlife]
    have hallowed : active.May identity mac .terminal _ := active.may_terminal hterminal
    exact .of_result hlock hopen hcertain _ hallowed (.ended _ hlock hopen hcertain hallowed) _

variable (identity) in
/-- The record that `Consume` writes. -/
def Import.importing (transaction : Import M) : Record M :=
  identity.baseRecord transaction.runID (transaction.sourceRunGeneration + 1) .importing

variable (transaction : Import M)

variable (identity) in
/-- The record that `Activate` writes. -/
def Import.activated : Record M :=
  identity.baseRecord transaction.runID (transaction.sourceRunGeneration + 1) .active

theorem Import.consume_cases (ctxDone : Bool) (outcome : WriteOutcome) :
    (∃ err, transaction.consume identity ctxDone outcome = .refused err) ∨
    (transaction.closed = false ∧ transaction.uncertain = false ∧ transaction.consumed = false ∧
      ((∃ installed, transaction.consume identity ctxDone outcome =
          .uncertain { transaction with consumed := true, uncertain := true }
            (transaction.importing identity) installed) ∨
        transaction.consume identity ctxDone outcome =
          .wrote { transaction with consumed := true } (transaction.importing identity))) := by
  unfold Import.consume
  split_ifs with hcertain hstate
  · exact .inl ⟨_, rfl⟩
  · exact .inl ⟨_, rfl⟩
  · exact .inl ⟨_, rfl⟩
  · exact .inl ⟨_, rfl⟩
  · simp only [Bool.or_eq_true, not_or, Bool.not_eq_true] at hcertain hstate
    dsimp only
    cases identity.writeRecord transaction.runID _ outcome with
    | refused err => exact .inl ⟨err, rfl⟩
    | failed installed => exact .inr ⟨hstate.1, hcertain, hstate.2, .inl ⟨installed, rfl⟩⟩
    | written => exact .inr ⟨hstate.1, hcertain, hstate.2, .inr rfl⟩

theorem Import.activate_cases (outcome : WriteOutcome) :
    (∃ err, transaction.activate identity outcome = .refused err) ∨
    (transaction.closed = false ∧ transaction.uncertain = false ∧ transaction.consumed = true ∧
      ((∃ installed, transaction.activate identity outcome =
          .uncertain { transaction with uncertain := true } (transaction.activated identity)
            installed) ∨
        transaction.activate identity outcome =
          .wrote { transaction with lock := false, closed := true }
            (transaction.activated identity))) := by
  unfold Import.activate
  split_ifs with hcertain hstate
  · exact .inl ⟨_, rfl⟩
  · exact .inl ⟨_, rfl⟩
  · simp only [Bool.or_eq_true, Bool.not_eq_true', not_or, Bool.not_eq_true, Bool.not_eq_false]
      at hcertain hstate
    obtain ⟨⟨hopen, hconsumed⟩, -⟩ := hstate
    dsimp only
    cases identity.writeRecord transaction.runID _ outcome with
    | refused err => exact .inl ⟨err, rfl⟩
    | failed installed => exact .inr ⟨hopen, hcertain, hconsumed, .inl ⟨installed, rfl⟩⟩
    | written => exact .inr ⟨hopen, hcertain, hconsumed, .inr rfl⟩

end Methods

end SpiceAgent.RunAuthority
