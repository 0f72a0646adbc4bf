import SpiceAgent.RunAuthority.Uncertain

/-!
# What an ambiguous write leaves behind

The contract of `Uncertain`, for whole runs: an uncertain value writes nothing any more, a store
refuses later calls for an uncertain run, and a failure before the writer is invoked leaves no
trace.
-/

namespace SpiceAgent.RunAuthority

open SpiceAgent.Lib Function
open World

variable {M : Type*} {w w' : World M} {id store : ℕ} {runID : String} {p : Party M}

/-! ## Later calls -/

section Calls

variable {identity : Identity} {mac : String → ℕ → SnapshotInput → M}
  {validEnvelope : Envelope M → Bool} {l : Label M} {refusal : Option AuthorityError}
  {closing : Bool}

/-- A call of `Start` or `PrepareImport` begins; `refusal` is what its own checks say. -/
inductive Label.Begins (validEnvelope : Envelope M → Bool) (id store : ℕ) (runID : String) :
    Label M → Option AuthorityError → Prop
  | start (ctxDone : Bool) : Label.Begins validEnvelope id store runID
      (.start id store runID ctxDone) (startRefusal runID ctxDone)
  | prepareImport (snapshot : Envelope M) (ctxDone : Bool) : snapshot.runID = runID →
    Label.Begins validEnvelope id store runID (.prepareImport id store snapshot ctxDone)
      (prepareImportRefusal validEnvelope snapshot ctxDone)

def barredError (refusal : Option AuthorityError) (closing : Bool) : AuthorityError :=
  refusal.getD (if closing then .closed else .uncertain)

/-- The call has failed with the given error, or will do so without taking the lock. -/
def Party.Barred (err : AuthorityError) (store : ℕ) (runID : String) : Party M → Prop
  | .call s r _ .entered => s = store ∧ r = runID ∧ err = .uncertain
  | .call s r _ (.releasing err') => s = store ∧ r = runID ∧ err' = .uncertain ∧ err = .uncertain
  | .failed s r err' => s = store ∧ r = runID ∧ err' = err
  | .crashed => True
  | .call .. | .active .. | .importing .. => False

theorem Label.Begins.enter (h : l.Begins validEnvelope id store runID refusal) [DecidableEq M]
    (hstep : w.step identity mac validEnvelope l = some w') :
    ∃ request, w.enter id store runID request refusal = some w' := by
  cases h with
  | start ctxDone => exact ⟨_, hstep⟩
  | prepareImport snapshot ctxDone hrun =>
    subst hrun
    exact ⟨_, hstep⟩

theorem barred_enter {request : Request M} {value : Store} (hvalue : w.stores store = some value)
    (hstep : w.enter id store runID request refusal = some w') :
    ∃ p, w'.parties id = some p ∧
      p.Barred (barredError refusal (value.closing || value.closed)) store runID := by
  unfold enter at hstep
  rw [hvalue] at hstep
  split at hstep
  · rename_i value' hnone hvalue'
    cases hvalue'
    split_ifs at hstep
    split at hstep
    · cases hstep
      exact ⟨_, update_self .., rfl, rfl, rfl⟩
    · split at hstep
      · rename_i hlease
        cases hstep
        refine ⟨_, update_self .., rfl, rfl, ?_⟩
        unfold Store.beginLease at hlease
        split_ifs at hlease with hclosing
        rw [barredError, hclosing]
        rfl
      · rename_i hlease
        cases hstep
        refine ⟨_, update_self .., rfl, rfl, ?_⟩
        unfold Store.beginLease at hlease
        split_ifs at hlease with hclosing
        rw [Bool.not_eq_true] at hclosing
        rw [barredError, hclosing]
        rfl
  · cases hstep

variable [DecidableEq M]

theorem barred_step {err : AuthorityError} (h : w.Marks) (hinv : w.Inv identity mac)
    (hmarked : w.isUncertain store runID = true) (hp : w.parties id = some p)
    (hbarred : p.Barred err store runID) (hstep : w.step identity mac validEnvelope l = some w') :
    ∃ p', w'.parties id = some p' ∧ p'.Barred err store runID := by
  by_cases hmoves : l.Moves id
  · cases l with
    | go i choice =>
      obtain rfl : i = id := hmoves
      change w.goStep identity mac validEnvelope i choice = some w' at hstep
      rw [goStep, hp] at hstep
      match p, hbarred with
      | .call s r request .entered, hbarred =>
        obtain ⟨rfl, rfl, rfl⟩ := hbarred
        cases hstep
        rw [if_pos hmarked]
        exact ⟨_, update_self .., rfl, rfl, rfl, rfl⟩
      | .call s r request (.releasing err'), hbarred =>
        obtain ⟨rfl, rfl, rfl, rfl⟩ := hbarred
        cases hstep
        exact ⟨_, update_self .., rfl, rfl, rfl⟩
      | .failed s r err', _ => cases hstep
      | .crashed, _ => cases hstep
    | method i method choice =>
      obtain rfl : i = id := hmoves
      change w.methodStep identity mac i method choice = some w' at hstep
      rw [methodStep, hp] at hstep
      match p, hbarred with
      | .call s r request .entered, _ => cases hstep
      | .call s r request (.releasing err'), _ => cases hstep
      | .failed s r err', _ => cases hstep
      | .crashed, _ => cases hstep
    | openStore | closeStore | start | prepareImport | crash => exact hmoves.elim
  · rcases (h.step hinv hstep).others id p hmoves hp with hp' | hcrashed
    · exact ⟨p, hp', hbarred⟩
    · exact ⟨_, hcrashed, trivial⟩

theorem barred_run {err : AuthorityError} {ls : List (Label M)}
    (hw : (system identity mac validEnvelope).Reachable w)
    (hmarked : w.isUncertain store runID = true) (hp : w.parties id = some p)
    (hbarred : p.Barred err store runID)
    (hrun : (system identity mac validEnvelope).run w ls = some w') :
    ∃ p', w'.parties id = some p' ∧ p'.Barred err store runID := by
  let I (w : World M) : Prop := (system identity mac validEnvelope).Reachable w ∧
    w.isUncertain store runID = true ∧ ∃ p, w.parties id = some p ∧ p.Barred err store runID
  refine (System.run_invariant (I := I) ?_ hrun ⟨hw, hmarked, p, hp, hbarred⟩).2.2
  rintro w l w' ⟨hw, hmarked, p, hp, hbarred⟩ hstep
  have hmarks := World.Marks.of_reachable hw
  have hinv := World.Inv.of_reachable hw
  exact ⟨hw.step hstep, (hmarks.step hinv hstep).uncertain _ _ hmarked,
    barred_step hmarks hinv hmarked hp hbarred hstep⟩

theorem ambiguous_run {ls : List (Label M)} {x : ℕ × ℕ × String}
    (hw : (system identity mac validEnvelope).Reachable w) (hx : x ∈ w.ambiguous)
    (hrun : (system identity mac validEnvelope).run w ls = some w') :
    (system identity mac validEnvelope).Reachable w' ∧ x ∈ w'.ambiguous := by
  refine System.run_invariant (I := fun w => (system identity mac validEnvelope).Reachable w ∧
    x ∈ w.ambiguous) ?_ hrun ⟨hw, hx⟩
  rintro w l w' ⟨hw, hx⟩ hstep
  have hlater := (World.Marks.of_reachable hw).step (World.Inv.of_reachable hw) hstep
  exact ⟨hw.step hstep, hlater.ambiguous x hx⟩

end Calls

/-! ## Methods -/

section Methods

variable {identity : Identity} {mac : String → ℕ → SnapshotInput → M}
  {validEnvelope : Envelope M → Bool} [DecidableEq M]

/-- Every method that would write is refused. -/
structure Active.Refuses (identity : Identity) (mac : String → ℕ → SnapshotInput → M)
    (active : Active M) : Prop where
  signSnapshot : ∀ input ctxDone outcome,
    ∃ err, active.signSnapshot identity mac input ctxDone outcome = .refused err
  resume : ∀ ctxDone outcome, ∃ err, active.resume identity ctxDone outcome = .refused err
  terminal : ∀ phase outcome, ∃ err, active.terminal identity phase outcome = .refused err

/-- Every method that would write is refused. -/
structure Import.Refuses (identity : Identity) (transaction : Import M) : Prop where
  consume : ∀ ctxDone outcome, ∃ err, transaction.consume identity ctxDone outcome = .refused err
  activate : ∀ outcome, ∃ err, transaction.activate identity outcome = .refused err

theorem Active.refuses {active : Active M} (h : active.uncertain = true) :
    active.Refuses identity mac := by
  refine ⟨fun input ctxDone outcome => ⟨.signing, ?_⟩, fun ctxDone outcome => ⟨.uncertain, ?_⟩,
    fun phase outcome => ⟨.uncertain, ?_⟩⟩
  · rw [Active.signSnapshot, if_pos (by simp [h])]
  · rw [Active.resume, if_pos h]
  · rw [Active.terminal, if_pos h]

omit [DecidableEq M] in
theorem Import.refuses {transaction : Import M} (h : transaction.uncertain = true) :
    transaction.Refuses identity := by
  refine ⟨fun ctxDone outcome => ⟨.uncertain, ?_⟩, fun outcome => ⟨.uncertain, ?_⟩⟩
  · rw [Import.consume, if_pos h]
  · rw [Import.activate, if_pos h]

omit [DecidableEq M] in
theorem install_log_ne (w : World M) (r : String) (e : Write M) : (w.install r e).log ≠ w.log := by
  intro heq
  have hlen := congrArg List.length (congrFun heq r)
  change (update w.log r _ r).length = _ at hlen
  rw [update_self, List.length_append, List.length_singleton] at hlen
  omega

omit [DecidableEq M] in
theorem attempt_ambiguous_ne (w : World M) (s : ℕ) (r : String) (e : Write M) (installed : Bool) :
    (w.attempt s r e installed).ambiguous ≠ w.ambiguous := by
  intro heq
  have hlen := congrArg List.length heq
  change w.ambiguous.length + 1 = _ at hlen
  omega

omit [DecidableEq M] in
/-- An effect that neither installs a record nor leaves it open leaves everything as it was. -/
theorem apply_eq_self {α : Type*} {party : α → After → Party M} {effect : Effect M α}
    {cause : Cause M} (hlog : (w.apply id store runID cause party effect).log = w.log)
    (hambiguous : (w.apply id store runID cause party effect).ambiguous = w.ambiguous) :
    w.apply id store runID cause party effect = w := by
  cases effect with
  | refused err => rfl
  | repeated => rfl
  | uncertain value record installed =>
    exact absurd hambiguous (attempt_ambiguous_ne _ _ _ _ installed)
  | wrote value record => exact absurd hlog (install_log_ne _ _ _)
  | ended value record => exact absurd hlog (install_log_ne _ _ _)

/-- A method that neither installs a record nor leaves it open leaves everything as it was. -/
theorem method_eq_self {method : Method} {choice : Choice} (hclose : method ≠ .close)
    (hstep : w.step identity mac validEnvelope (.method id method choice) = some w')
    (hlog : w'.log = w.log) (hambiguous : w'.ambiguous = w.ambiguous) : w' = w := by
  change w.methodStep identity mac id method choice = some w' at hstep
  unfold methodStep at hstep
  split at hstep
  · cases method with
    | close => exact absurd rfl hclose
    | consume => cases hstep
    | activate lease => cases hstep
    | signSnapshot input =>
      cases hstep
      exact apply_eq_self hlog hambiguous
    | resume =>
      cases hstep
      exact apply_eq_self hlog hambiguous
    | terminal phase =>
      cases hstep
      exact apply_eq_self hlog hambiguous
  · rename_i value hp
    cases method with
    | close => exact absurd rfl hclose
    | consume =>
      cases hstep
      exact apply_eq_self hlog hambiguous
    | activate lease =>
      unfold importMethod at hstep
      dsimp only at hstep
      split_ifs at hstep
      rcases value.activate_cases choice.outcome with
        ⟨err, heffect⟩ | ⟨-, -, -, ⟨installed, heffect⟩ | heffect⟩
      · rw [heffect] at hstep
        cases hstep
        rfl
      · rw [heffect] at hstep
        cases hstep
        exact absurd hambiguous (attempt_ambiguous_ne _ _ _ _ installed)
      · rw [heffect] at hstep
        cases hstep
        exact absurd hlog (install_log_ne _ _ _)
    | signSnapshot input => cases hstep
    | resume => cases hstep
    | terminal phase => cases hstep
  · cases hstep

end Methods

/-! ## Main result -/

section Main

variable (identity : Identity) (mac : String → ℕ → SnapshotInput → M)
  (validEnvelope : Envelope M → Bool) [DecidableEq M]

/-- What is known of ambiguous writes and of failures before a write. -/
structure World.Sticky (w : World M) : Prop where
  /-- Whoever has made an ambiguous write is uncertain from then on. -/
  permanent : ∀ id s r, (id, s, r) ∈ w.ambiguous → ∀ ls w',
    (system identity mac validEnvelope).run w ls = some w' →
    ∃ p, w'.parties id = some p ∧ p.Uncertain s r
  /-- An uncertain lease writes nothing. -/
  active : ∀ id value after, w.parties id = some (.active value after) → value.uncertain = true →
    value.Refuses identity mac
  /-- An uncertain import writes nothing. -/
  importing : ∀ id value after, w.parties id = some (.importing value after) →
    value.uncertain = true → value.Refuses identity
  /-- When the method or call is over, the store has marked the run. -/
  marked : ∀ id s r p, (id, s, r) ∈ w.ambiguous → w.parties id = some p → ¬p.Owes →
    w.isUncertain s r = true
  /-- Later calls for a marked run fail, with `ErrUncertain` unless their own checks or the closing
  of the store refuse them. -/
  barred : ∀ s r value, w.stores s = some value → r ∈ value.uncertain →
    ∀ id l refusal w₁ ls w₂, Label.Begins validEnvelope id s r l refusal →
      w.step identity mac validEnvelope l = some w₁ →
      (system identity mac validEnvelope).run w₁ ls = some w₂ →
      ∃ p, w₂.parties id = some p ∧
        p.Barred (barredError refusal (value.closing || value.closed)) s r
  /-- A method whose writer is not invoked changes nothing. -/
  retry : ∀ id method choice w', method ≠ .close →
    w.step identity mac validEnvelope (.method id method choice) = some w' →
    w'.log = w.log → w'.ambiguous = w.ambiguous → w' = w
  /-- A call that fails with another error has written nothing. -/
  unwritten : ∀ id s r err, w.parties id = some (.failed s r err) → err ≠ .uncertain →
    (∀ s r, (id, s, r) ∉ w.ambiguous) ∧ ∀ r, ∀ e ∈ w.log r, e.party ≠ id
  /-- A store marks a run for an ambiguous write only. -/
  reason : ∀ s r, w.isUncertain s r = true → ∃ id, (id, s, r) ∈ w.ambiguous
  /-- `IssueSnapshotEnvelope` reports an ambiguous write, whatever happens to the lease
  meanwhile. -/
  issue : ∀ id signing snapshot lifecycle choice w₁ ls w₂ before after phase later ctxDone finishErr
      value record installed, w.parties id = some (.active signing .idle) →
    snapshot.lifecycle = some lifecycle →
    w.step identity mac validEnvelope
      (.method id (.signSnapshot (snapshot.input lifecycle)) choice) = some w₁ →
    (system identity mac validEnvelope).run w₁ ls = some w₂ →
    w₂.parties id = some (.active after phase) →
    (issueSnapshotEnvelope identity mac snapshot before signing after later ctxDone choice.ctxDone
      finishErr choice.outcome).2 = some (.uncertain value record installed) →
    (issueSnapshotEnvelope identity mac snapshot before signing after later ctxDone choice.ctxDone
      finishErr choice.outcome).1 = some .uncertain

variable {identity mac validEnvelope}

/-- In every reachable state ambiguous writes are sticky, and failures before a write leave no
trace. -/
theorem ambiguous_writes_sticky (hw : (World.system identity mac validEnvelope).Reachable w) :
    w.Sticky identity mac validEnvelope := by
  have hmarks := World.Marks.of_reachable hw
  have hpermanent {w : World M} (hw : (World.system identity mac validEnvelope).Reachable w)
      {id s : ℕ} {r : String} (hi : (id, s, r) ∈ w.ambiguous) {ls : List (Label M)} {w' : World M}
      (hrun : (World.system identity mac validEnvelope).run w ls = some w') :
      ∃ p, w'.parties id = some p ∧ p.Uncertain s r := by
    obtain ⟨hw', hi'⟩ := ambiguous_run hw hi hrun
    exact (World.Marks.of_reachable hw').sticky id s r hi'
  refine ⟨?_, ?_, ?_, ?_, ?_, ?_, ?_, hmarks.reason, ?_⟩
  · intro id s r hi ls w' hrun
    exact hpermanent hw hi hrun
  · intro id value after _ hu
    exact Active.refuses hu
  · intro id value after _ hu
    exact Import.refuses hu
  · intro id s r p hi hp hdone
    obtain ⟨q, hq, hu⟩ := hmarks.sticky id s r hi
    cases hp.symm.trans hq
    rcases hmarks.told id p s r hp hu with ⟨hmarked, -⟩ | ⟨howes, -⟩
    · exact hmarked
    · exact absurd howes hdone
  · intro s r value hvalue hr id l refusal w₁ ls w₂ hbegins hstep hrun
    have hmarked : w.isUncertain s r = true := by
      rw [World.isUncertain, hvalue]
      exact decide_eq_true hr
    obtain ⟨request, henter⟩ := hbegins.enter hstep
    obtain ⟨p, hp, hbarred⟩ := barred_enter hvalue henter
    have hlater := hmarks.step (World.Inv.of_reachable hw) hstep
    exact barred_run (hw.step hstep) (hlater.uncertain s r hmarked) hp hbarred hrun
  · intro id method choice w' hclose hstep hlog hambiguous
    exact method_eq_self hclose hstep hlog hambiguous
  · intro id s r err hp herr
    refine ⟨fun s' r' hi => ?_, fun r' e he hid => ?_⟩
    · obtain ⟨q, hq, hu⟩ := hmarks.sticky id s' r' hi
      cases hp.symm.trans hq
      exact herr hu.2.2
    · obtain ⟨q, hq, hwrote⟩ := hmarks.wrote r' e he
      rw [hid] at hq
      cases hp.symm.trans hq
      exact herr hwrote
  · intro id signing snapshot lifecycle choice w₁ ls w₂ before after phase later ctxDone finishErr
      value record installed hp hlifecycle hstep hrun hafter heffect
    refine issueSnapshotEnvelope_uncertain ?_ heffect
    have hstep' : (World.system identity mac validEnvelope).step w
        (.method id (.signSnapshot (snapshot.input lifecycle)) choice) = some w₁ := hstep
    have hw₁ := hw.step hstep'
    obtain ⟨lifecycle', hlifecycle', hsign, -⟩ := issueSnapshotEnvelope_signs heffect
    cases hlifecycle.symm.trans hlifecycle'
    change w.methodStep identity mac id _ choice = some w₁ at hstep
    rw [World.methodStep, hp] at hstep
    change some (w.apply id signing.store signing.runID _ Party.active
      (signing.signSnapshot identity mac (snapshot.input lifecycle) choice.ctxDone
      choice.outcome)) =
      some w₁ at hstep
    rw [← hsign] at hstep
    have hi : (id, signing.store, signing.runID) ∈ w₁.ambiguous := by
      rw [← Option.some.inj hstep]
      exact List.mem_cons_self
    obtain ⟨q, hq, hu⟩ := hpermanent hw₁ hi hrun
    cases hafter.symm.trans hq
    exact hu.2.2

end Main

/-- The record of the suspended run is installed, but the writer reports an error. -/
def ambiguousRun : List (Label ℕ) :=
  [.openStore 0, .start 1 0 "r" false, .go 1 smooth, .go 1 smooth, .go 1 smooth, .go 1 smooth,
    .method 1 (.signSnapshot sampleInput) { smooth with outcome := .failed true }, .go 1 smooth]

/-- After it the lease stays uncertain, and the store refuses another `Start` of the run. -/
theorem ambiguous_writes_sticky_suspend :
    ∃ w w₁ w₂, sampleSystem.after ambiguousRun = some w ∧
      sampleSystem.step w (.start 2 0 "r" false) = some w₁ ∧
      sampleSystem.run w₁ [.go 2 smooth, .method 1 .resume smooth, .go 2 smooth] = some w₂ ∧
      (∃ p, w₂.parties 1 = some p ∧ p.Uncertain 0 "r") ∧
      ∃ p, w₂.parties 2 = some p ∧ p.Barred .uncertain 0 "r" := by
  have hrun : sampleSystem.after ambiguousRun = some _ := rfl
  have h := ambiguous_writes_sticky (System.reachable_of_run hrun)
  have hbarred := h.barred 0 "r" _ rfl (by decide) 2 _ _ _
    [.go 2 smooth, .method 1 .resume smooth, .go 2 smooth] _ (.start false) rfl rfl
  have huncertain := h.permanent 1 0 "r" (by decide)
    (.start 2 0 "r" false :: [.go 2 smooth, .method 1 .resume smooth, .go 2 smooth]) _ rfl
  exact ⟨_, _, _, hrun, rfl, rfl, huncertain, hbarred⟩

/-- A later `Start` whose context has ended fails with the error of its context. -/
theorem barred_by_context :
    ∃ w w₁ value, sampleSystem.after ambiguousRun = some w ∧
      w.stores 0 = some value ∧ "r" ∈ value.uncertain ∧
      sampleSystem.step w (.start 2 0 "r" true) = some w₁ ∧
      w₁.parties 2 = some (.failed 0 "r" .context) :=
  ⟨_, _, _, rfl, rfl, by decide, rfl, rfl⟩

end SpiceAgent.RunAuthority
