import SpiceAgent.RunAuthority.Invariant

/-!
# What one step of the run authority can do

A step moves one party, changes the stores only, or ends a store with its parties. `World.Turn`
lists what the party can do: it goes on, takes or closes the lock of its run, tells its store of an
ambiguous write, or writes to the record of the run. The invariants follow from this list.
-/

namespace SpiceAgent.RunAuthority

open SpiceAgent.Lib Option
open Function (update update_of_ne update_self)
open World

variable {M : Type*} {w w' : World M} {id store s : ℕ} {r runID : String} {p p' : Party M}

/-! ## Uncertain parties -/

/-- The party has learned that the run is uncertain in its store. -/
def Party.Uncertain (store : ℕ) (runID : String) : Party M → Prop
  | .call s r _ phase => s = store ∧ r = runID ∧
    match phase with
    | .dropping err | .releasing err => err = .uncertain
    | .marking => True
    | .entered | .checked | .locked | .absent => False
  | .active value _ => value.store = store ∧ value.runID = runID ∧ value.uncertain = true
  | .importing value _ => value.store = store ∧ value.runID = runID ∧ value.uncertain = true
  | .failed s r err => s = store ∧ r = runID ∧ err = .uncertain
  | .crashed => True

/-- The party will still mark the run in its store, or has crashed before it could. -/
def Party.Owes : Party M → Prop
  | .call _ _ _ (.dropping _) | .call _ _ _ .marking => True
  | .active _ .marking | .importing _ .marking => True
  | .crashed => True
  | .call .. | .active .. | .importing .. | .failed .. => False

def Party.Wrote : Party M → Prop
  | .call _ _ _ phase =>
    match phase with
    | .dropping err | .releasing err => err = .uncertain
    | .marking => True
    | .entered | .checked | .locked | .absent => False
  | .failed _ _ err => err = .uncertain
  | .active .. | .importing .. | .crashed => True

def SameMarks (stores stores' : ℕ → Option Store) : Prop :=
  ∀ s, (stores' s).map (·.uncertain) = (stores s).map (·.uncertain)

theorem SameMarks.isSome {stores stores' : ℕ → Option Store} (h : SameMarks stores stores')
    (s : ℕ) : (stores' s).isSome = (stores s).isSome := by
  rw [← isSome_map (f := (·.uncertain)), h s, isSome_map]

theorem isUncertain_eq (w : World M) (s : ℕ) (r : String) :
    w.isUncertain s r = ((w.stores s).map (·.uncertain)).any fun marks => r ∈ marks := by
  rw [isUncertain, any_map]

theorem SameMarks.isUncertain (h : SameMarks w.stores w'.stores) (s : ℕ) (r : String) :
    w'.isUncertain s r = w.isUncertain s r := by
  rw [isUncertain_eq, isUncertain_eq, h s]

theorem SameMarks.refl (stores : ℕ → Option Store) : SameMarks stores stores := fun _ => rfl

theorem SameMarks.update {stores : ℕ → Option Store} {value : Option Store}
    (h : value.map (·.uncertain) = (stores s).map (·.uncertain)) :
    SameMarks stores (update stores s value) := by
  refine (Function.forall_update_iff stores fun s' (value' : Option Store) =>
    value'.map (·.uncertain) = (stores s').map (·.uncertain)).mpr ⟨h, fun _ _ => rfl⟩

theorem sameMarks_endLease (w : World M) (s : ℕ) :
    SameMarks w.stores (w.modifyStore s (·.endLease)).stores := by
  refine .update ?_
  rw [map_map]
  refine congrArg (Option.map · (w.stores s)) (funext fun value => ?_)
  show value.endLease.uncertain = value.uncertain
  unfold Store.endLease
  split_ifs <;> rfl

/-! ## Turns -/

/-- A party goes on without a write. It forgets no ambiguous write, and learns of one from its store
only. -/
structure World.Advances (w : World M) (p p' : Party M) : Prop where
  live : p ≠ .crashed
  store : ∀ s, p'.store = some s → p.store = some s
  kept : ∀ s r, p.Uncertain s r → p'.Uncertain s r
  wrote : p.Wrote → p'.Wrote
  learnt : ∀ s r, p'.Uncertain s r →
    w.isUncertain s r = true ∧ ¬p'.Owes ∨ p.Uncertain s r ∧ (p'.Owes ↔ p.Owes)

theorem World.Advances.calm (hlive : p ≠ .crashed)
    (hstore : ∀ s, p'.store = some s → p.store = some s)
    (hold : ∀ s r, ¬p.Uncertain s r) (hwrote : p.Wrote → p'.Wrote)
    (hnew : ∀ s r, ¬p'.Uncertain s r) : w.Advances p p' :=
  ⟨hlive, hstore, fun s r h => absurd h (hold s r), hwrote, fun s r h => absurd h (hnew s r)⟩

theorem World.Advances.same (hlive : p ≠ .crashed)
    (hstore : ∀ s, p'.store = some s → p.store = some s)
    (hsame : ∀ s r, p'.Uncertain s r ↔ p.Uncertain s r) (hwrote : p.Wrote → p'.Wrote)
    (howes : ∀ s r, p'.Uncertain s r → (p'.Owes ↔ p.Owes)) : w.Advances p p' :=
  ⟨hlive, hstore, fun s r => (hsame s r).mpr, hwrote,
    fun s r h => .inr ⟨(hsame s r).mp h, howes s r h⟩⟩

theorem World.Advances.still (hlive : p ≠ .crashed) (hstore : p'.store = p.store)
    (hsame : ∀ s r, p'.Uncertain s r ↔ p.Uncertain s r) (hwrote : p'.Wrote)
    (howes : p'.Owes ↔ p.Owes) :
    w.Advances p p' :=
  .same hlive (fun _ hs => hstore.symm.trans hs) hsame (fun _ => hwrote) fun _ _ _ => howes

section Turns

variable (identity : Identity) (mac : String → ℕ → SnapshotInput → M)

/-- The party has the lock of the run and has made no ambiguous write, and the record may replace
that of the run. -/
structure World.Writes (w : World M) (id : ℕ) (p : Party M) (s : ℕ) (r : String) (cause : Cause M)
    (record : Record M) : Prop where
  present : w.parties id = some p
  holds : p.Holds r
  certain : ∀ s r, ¬p.Uncertain s r
  store : p.store = some s
  allowed : ∀ success, Allowed identity mac r (w.disk r) ⟨cause, id, success, record⟩
  activate : ∀ claim, cause = .activate claim →
    ∃ record, (w.log r).getLast? = some ⟨.consume claim, id, true, record⟩

/-- What a step can do that moves the party `id`. -/
inductive World.Turn (w : World M) (id : ℕ) : World M → Prop
  | idle : Turn w id w
  /-- A call begins. -/
  | begin {p' : Party M} (stores : ℕ → Option Store) (hnew : w.parties id = none)
      (hstores : SameMarks w.stores stores) (hstore : ∀ s, p'.store = some s → (w.stores s).isSome)
      (hcalm : ∀ s r, ¬p'.Uncertain s r) (hholds : ∀ r, ¬p'.Holds r)
      (hok : ∀ disk log, p'.Ok identity disk log id) : Turn w id ({ w with stores }.setParty id p')
  | pass {p p' : Party M} (stores : ℕ → Option Store) (hp : w.parties id = some p)
      (hstores : SameMarks w.stores stores) (h : w.Advances p p')
      (hholds : ∀ r, p'.Holds r → p.Holds r) (hok : p'.Ok identity w.disk w.log id) :
      Turn w id ({ w with stores }.setParty id p')
  | lock {p p' : Party M} {r : String} (hp : w.parties id = some p) (hfree : w.locks r = none)
      (h : w.Advances p p') (hholds : ∀ r', p'.Holds r' → r' = r)
      (hok : p'.Ok identity w.disk w.log id) :
      Turn w id ({ w with locks := update w.locks r (some (.party id)) }.setParty id p')
  | unlock {p p' : Party M} {r : String} (s : ℕ) (released : Bool) (hp : w.parties id = some p)
      (hr : p.Holds r) (h : w.Advances p p') (hholds : ∀ r', ¬p'.Holds r')
      (hok : p'.Ok identity w.disk w.log id) :
      Turn w id ((w.closeLock r s released).setParty id p')
  /-- The party tells its store of its ambiguous write. -/
  | mark {p p' : Party M} {s : ℕ} {r : String} (hp : w.parties id = some p) (hlive : p ≠ .crashed)
      (howes : p.Owes) (hold : ∀ s' r', p.Uncertain s' r' ↔ s = s' ∧ r = r')
      (hnew : ∀ s' r', p'.Uncertain s' r' ↔ s = s' ∧ r = r') (hstore : p.store = some s)
      (hstore' : p'.store = some s) (hdone : ¬p'.Owes) (hwrote : p'.Wrote)
      (hholds : ∀ r, p'.Holds r → p.Holds r) (hok : p'.Ok identity w.disk w.log id) :
      Turn w id ((w.modifyStore s (·.markUncertain r)).setParty id p')
  /-- A writer fails. -/
  | attempt {p p' : Party M} {s : ℕ} {r : String} {cause : Cause M} {record : Record M}
      (installed : Bool) (h : World.Writes identity mac w id p s r cause record)
      (hstore : p'.store = some s) (hnew : ∀ s' r', p'.Uncertain s' r' ↔ s = s' ∧ r = r')
      (howes : p'.Owes) (hwrote : p'.Wrote) (hholds : ∀ r', p'.Holds r' → r = r')
      (hok : ∀ disk log, p'.Ok identity disk log id) :
      Turn w id ((w.attempt s r ⟨cause, id, false, record⟩ installed).setParty id p')
  | install {p p' : Party M} {s : ℕ} {r : String} {cause : Cause M} {record : Record M}
      (h : World.Writes identity mac w id p s r cause record) (hstore : p'.store = some s)
      (hcalm : ∀ s r, ¬p'.Uncertain s r) (hwrote : p'.Wrote) (hholds : ∀ r', p'.Holds r' → r = r')
      (hok : p'.Ok identity (w.install r ⟨cause, id, true, record⟩).disk
        (w.install r ⟨cause, id, true, record⟩).log id) :
      Turn w id ((w.install r ⟨cause, id, true, record⟩).setParty id p')
  /-- The party hands the lock of the run to a new lease. -/
  | lease {w₁ : World M} {lease : ℕ} {p' : Party M} {r : String} (h : Turn w id w₁)
      (hold : w.parties lease = none) (hnew : w₁.parties lease = none)
      (hfree : w₁.FreeFor lease r)
      (hstore : ∀ s, p'.store = some s → ∃ p, w₁.parties id = some p ∧ p.store = some s)
      (hcalm : ∀ s r, ¬p'.Uncertain s r) (hholds : ∀ r', p'.Holds r' → r' = r)
      (hok : p'.Ok identity w₁.disk w₁.log lease) :
      Turn w id ({ w₁ with locks := update w₁.locks r (some (.party lease)) }.setParty lease p')

end Turns

section Steps

variable {identity : Identity} {mac : String → ℕ → SnapshotInput → M}
  {validEnvelope : Envelope M → Bool} {request : Request M} {phase : CallPhase}
  {err : AuthorityError} {choice : Choice}

theorem call_ok {disk : String → Option (Record M)} {log : String → List (Write M)}
    (hphase : phase ≠ .absent) : (Party.call store r request phase).Ok identity disk log id := by
  cases request <;> cases phase <;> first | exact trivial | exact absurd rfl hphase

theorem World.enter_turn {refusal : Option AuthorityError} (hrefusal : refusal ≠ some .uncertain)
    (hstep : w.enter id store r request refusal = some w') :
    w.parties id = none ∧ w.Turn identity mac id w' := by
  unfold enter at hstep
  split at hstep
  · rename_i value hnone hvalue
    have hfail {err : AuthorityError} (herr : err ≠ .uncertain) :
        w.Turn identity mac id (w.setParty id (.failed store r err)) :=
      .begin w.stores hnone (.refl _) nofun (fun _ _ h => herr h.2.2)
        (fun _ => nofun) fun _ _ => trivial
    refine ⟨hnone, ?_⟩
    split_ifs at hstep
    split at hstep
    · rename_i err
      cases hstep
      exact hfail fun herr => hrefusal (congrArg some herr)
    · split at hstep
      · cases hstep
        exact hfail nofun
      · rename_i value' hlease
        cases hstep
        refine .begin _ hnone (.update ?_) (fun s hs => ?_) (fun _ _ h => h.2.2) (fun _ h => h.2)
          fun _ _ => call_ok nofun
        · unfold Store.beginLease at hlease
          split_ifs at hlease
          cases hlease
          rw [hvalue]
          rfl
        · rw [← some.inj hs, hvalue]
          rfl
  · cases hstep

theorem uncertain_iff {a b u : Prop} (hu : u) : a ∧ b ∧ u ↔ a ∧ b :=
  and_congr_right fun _ => and_iff_left hu

theorem World.Turn.dropping (hp : w.parties id = some (.call store r request phase))
    (hphase : phase = .locked ∨ phase = .absent) (herr : err ≠ .uncertain) :
    w.Turn identity mac id (w.setParty id (.call store r request (.dropping err))) := by
  refine .pass w.stores hp (.refl _) ?_ ?_ (call_ok nofun)
  · rcases hphase with rfl | rfl <;>
      exact .calm nofun (fun _ hs => hs) (fun _ _ h => h.2.2) False.elim fun _ _ h => herr h.2.2
  · rcases hphase with rfl | rfl <;> exact fun _ h => h

theorem readRecord_error (h : w.readRecord identity r = .error err) : err ≠ .uncertain := by
  unfold readRecord at h
  split at h
  · cases h
  · split_ifs at h
    cases h
    exact nofun

theorem readRecord_ok {found : Option (Record M)} (h : w.readRecord identity r = .ok found) :
    w.disk r = found ∧ ∀ value, found = some value → identity.validateRecord value r = true := by
  unfold readRecord at h
  split at h
  · cases h
    exact ⟨‹_›, nofun⟩
  · split_ifs at h with hvalid
    cases h
    refine ⟨‹_›, fun value hvalue => ?_⟩
    cases hvalue
    exact hvalid

variable [DecidableEq M] in
theorem admitted_record {value : Record M} {snapshot : Envelope M}
    (hvalid : identity.validateRecord value r = true)
    (h : admitted identity mac validEnvelope value snapshot = true) :
    ∃ stored : SnapshotRecord M, stored.authorityMAC = snapshot.authority.hmacSHA256 ∧
      value = identity.suspendedRecord r value.runGeneration stored := by
  obtain ⟨version, scopeID, authorityGeneration, runID, runGeneration, phase, stored⟩ := value
  simp only [Identity.validateRecord, admitted, Identity.matchesSuspended, Bool.and_eq_true,
    beq_iff_eq, any_eq_true] at hvalid h
  obtain ⟨⟨⟨⟨⟨⟨rfl, rfl⟩, rfl⟩, rfl⟩, -⟩, -⟩, -⟩ := hvalid
  obtain ⟨⟨⟨⟨⟨⟨rfl, -⟩, -⟩, snapshot, rfl, -, hmac⟩, -⟩, -⟩, -⟩ := h
  exact ⟨snapshot, hmac, rfl⟩

variable [DecidableEq M] in
theorem World.readStep_turn (hp : w.parties id = some (.call store r request .locked)) :
    w.Turn identity mac id (w.readStep identity mac validEnvelope id store r request choice) := by
  have hdrop {err : AuthorityError} (herr : err ≠ .uncertain) :
      w.Turn identity mac id (w.setParty id (.call store r request (.dropping err))) :=
    .dropping hp (.inl rfl) herr
  unfold readStep
  cases request with
  | start =>
    dsimp only
    split_ifs
    · exact hdrop nofun
    · split
      · exact hdrop nofun
      · rename_i hread
        exact .pass w.stores hp (.refl _)
          (.calm nofun (fun _ hs => hs) (fun _ _ h => h.2.2) False.elim fun _ _ h => h.2.2)
          (fun _ h => h) (readRecord_ok hread).1
      · rename_i herr
        exact hdrop (readRecord_error herr)
  | prepareImport snapshot =>
    dsimp only
    split_ifs
    · exact hdrop nofun
    · split
      · rename_i value hread
        split_ifs with hctx hadmitted
        · exact hdrop nofun
        · exact hdrop nofun
        · obtain ⟨hdisk, hvalid⟩ := readRecord_ok hread
          rw [Bool.not_eq_true', Bool.not_eq_false] at hadmitted
          obtain ⟨stored, hmac, hvalue⟩ := admitted_record (hvalid value rfl) hadmitted
          exact .pass w.stores hp (.refl _)
            (.calm nofun (fun _ hs => hs) (fun _ _ h => h.2.2) False.elim fun _ _ h =>
            nomatch h.2.2)
            (fun _ h => ⟨h.1, trivial⟩)
            ⟨rfl, trivial, fun _ _ _ => ⟨stored, hmac, hdisk.trans (congrArg some hvalue)⟩⟩
      · exact hdrop nofun

theorem writeRecord_refused {value : Record M} {outcome : WriteOutcome}
    (h : identity.writeRecord r value outcome = .refused err) : err ≠ .uncertain := by
  unfold Identity.writeRecord at h
  split at h
  · cases h
    exact nofun
  · split_ifs at h
    cases h
    exact nofun
  · split_ifs at h
    cases h
    exact nofun

theorem World.Inv.startWrite_turn (hinv : w.Inv identity mac)
    (hp : w.parties id = some (.call store r .start .absent)) (outcome : WriteOutcome) :
    w.Turn identity mac id (w.startWrite identity id store r outcome) := by
  have hwrites : World.Writes identity mac w id (.call store r .start .absent) store r .start
      (identity.baseRecord r 1 .active) := by
    refine ⟨hp, ⟨rfl, trivial⟩, fun _ _ h => h.2.2, rfl, fun success => ?_, nofun⟩
    rw [show w.disk r = none from hinv.ok id _ hp]
    exact .start id success
  unfold startWrite
  dsimp only
  split
  · rename_i err herr
    exact .dropping hp (.inr rfl) (writeRecord_refused herr)
  · exact .attempt _ hwrites rfl (fun _ _ => uncertain_iff rfl) trivial rfl
      (fun _ h => h.1) fun _ _ => trivial
  · exact .install hwrites rfl (fun _ _ h => nomatch h.2.2) trivial (fun _ h => h.1)
      ⟨rfl, trivial, fun _ _ _ => update_self ..⟩

variable [DecidableEq M] in
theorem World.Inv.callStep_turn (hinv : w.Inv identity mac)
    (hp : w.parties id = some (.call store r request phase))
    (hstep : w.callStep identity mac validEnvelope id store r request phase choice = some w') :
    w.Turn identity mac id w' := by
  cases phase with
  | entered =>
    cases hstep
    split_ifs with hmarked
    · refine .pass w.stores hp (.refl _)
        ⟨nofun, fun _ hs => hs, fun _ _ h => h.2.2.elim, False.elim, ?_⟩
        (fun _ h => h) (call_ok nofun)
      rintro s r' ⟨rfl, rfl, -⟩
      exact .inl ⟨hmarked, not_false⟩
    · exact .pass w.stores hp (.refl _)
        (.calm nofun (fun _ hs => hs) (fun _ _ h => h.2.2) False.elim fun _ _ h => h.2.2)
        (fun _ h => h) (call_ok nofun)
  | checked =>
    have hcalm {phase : CallPhase} (hcalm : ∀ s r',
        ¬(Party.call store r request phase).Uncertain s r') :
        w.Advances (.call store r request .checked) (.call store r request phase) :=
      .calm nofun (fun _ hs => hs) (fun _ _ h => h.2.2) False.elim hcalm
    unfold callStep at hstep
    dsimp only at hstep
    split_ifs at hstep with hfault hlocked
    · cases hstep
      exact .pass w.stores hp (.refl _) (hcalm fun _ _ h => nomatch h.2.2) (fun _ h => h)
        (call_ok nofun)
    · cases hstep
      exact .pass w.stores hp (.refl _) (hcalm fun _ _ h => nomatch h.2.2) (fun _ h => h)
        (call_ok nofun)
    · cases hstep
      rw [not_isSome_iff_eq_none] at hlocked
      exact .lock hp hlocked (hcalm fun _ _ h => h.2.2) (fun _ h => h.1.symm) (call_ok nofun)
  | locked =>
    cases hstep
    exact readStep_turn hp
  | absent =>
    cases request with
    | start =>
      cases hstep
      exact hinv.startWrite_turn hp choice.outcome
    | prepareImport snapshot => cases hstep
  | dropping err =>
    cases hstep
    by_cases herr : err = .uncertain
    · subst herr
      exact .unlock store _ hp ⟨rfl, trivial⟩ (.same nofun (fun _ hs => hs)
        (fun _ _ => and_congr_right fun _ => and_congr_right fun _ => (iff_true_intro rfl).symm)
        (fun _ => trivial) fun _ _ _ => Iff.rfl) (fun _ h => h.2) (call_ok nofun)
    · rw [if_neg herr]
      exact .unlock store _ hp ⟨rfl, trivial⟩ (.same nofun (fun _ hs => hs) (fun _ _ => Iff.rfl)
        (fun h => h) fun _ _ h => absurd h.2.2 herr) (fun _ h => h.2) (call_ok nofun)
  | marking =>
    cases hstep
    exact .mark hp nofun trivial (fun _ _ => and_congr_right fun _ => and_iff_left trivial)
      (fun _ _ => uncertain_iff rfl) rfl rfl False.elim rfl (fun _ h => h)
      (call_ok nofun)
  | releasing err =>
    cases hstep
    exact .pass _ hp (sameMarks_endLease w store)
      (.same nofun nofun (fun _ _ => Iff.rfl) (fun h => h) fun _ _ _ => Iff.rfl) nofun trivial

variable [DecidableEq M] in
theorem World.Inv.goStep_turn (hinv : w.Inv identity mac)
    (hstep : w.goStep identity mac validEnvelope id choice = some w') :
    w.Turn identity mac id w' := by
  unfold goStep at hstep
  split at hstep
  case h_1 hp => exact hinv.callStep_turn hp hstep
  case h_2 value after hp | h_3 value after hp =>
    obtain ⟨hclosed, hfits, -⟩ := hinv.ok id _ hp
    cases after with
    | idle => cases hstep
    | marking =>
      cases hstep
      have hu : value.uncertain = true := hfits
      exact .mark hp nofun trivial (fun _ _ => uncertain_iff hu)
        (fun _ _ => uncertain_iff hu) rfl rfl
        False.elim trivial (fun _ h => h) ⟨hclosed, trivial, fun _ h => nomatch hu.symm.trans h⟩
    | finishing =>
      cases hstep
      exact .unlock _ _ hp ⟨rfl, hfits⟩ (.still nofun rfl (fun _ _ => .rfl) trivial .rfl)
        (fun _ h => nomatch h.2) ⟨rfl, rfl, nofun⟩
    | ending =>
      cases hstep
      have hlock : value.lock = false := hfits
      exact .pass _ hp (sameMarks_endLease w _) (.still nofun rfl (fun _ _ => .rfl) trivial .rfl)
        (fun _ h => h) ⟨hclosed, trivial, fun h => nomatch hlock.symm.trans h⟩
  case h_4 => cases hstep

theorem not_uncertain {u : Bool} {a b : Prop} (hcertain : u = false) : ¬(a ∧ b ∧ u = true) :=
  fun h => nomatch hcertain.symm.trans h.2.2

theorem World.Inv.applyActive_turn {value : Active M} {cause : Cause M}
    {effect : Effect M (Active M)}
    (hinv : w.Inv identity mac) (hp : w.parties id = some (.active value .idle))
    (hcause : ∀ claim, cause ≠ .activate claim)
      (h : Active.Writes identity mac value cause effect) :
    w.Turn identity mac id (w.apply id value.store value.runID cause .active effect) := by
  obtain ⟨hclosed, -, hknows⟩ := hinv.ok id _ hp
  have hwrites {record : Record M} (hlock : value.lock = true) (hcertain : value.uncertain = false)
      (hallowed : value.May identity mac cause record) :
      World.Writes identity mac w id (.active value .idle) value.store value.runID cause
        record := by
    refine ⟨hp, ⟨rfl, hlock⟩, fun _ _ => not_uncertain hcertain, rfl, fun success => ?_,
      fun claim h => absurd h (hcause claim)⟩
    rw [hknows hlock hcertain rfl]
    exact hallowed id success
  cases h with
  | refused err => exact .idle
  | repeated => exact .idle
  | uncertain err record installed hlock hopen hcertain hallowed =>
    exact .attempt installed (hwrites hlock hcertain hallowed) rfl
      (fun _ _ => uncertain_iff rfl) trivial trivial (fun _ h => h.1)
      fun _ _ => ⟨hclosed, rfl, fun _ => nofun⟩
  | wrote runGeneration suspended record hlock hopen hcertain hallowed hcurrent =>
    refine .install (hwrites hlock hcertain hallowed) rfl
      (fun _ _ => not_uncertain hcertain) trivial (fun _ h => h.1)
      ⟨hclosed, trivial, fun _ _ _ => ?_⟩
    rw [hcurrent]
    exact update_self ..
  | ended record hlock hopen hcertain hallowed =>
    exact .install (hwrites hlock hcertain hallowed) rfl
      (fun _ _ => not_uncertain hcertain) trivial (fun _ h => h.1)
      ⟨hclosed, hlock, fun _ _ => nofun⟩

theorem signCause_ne_activate (input : SnapshotInput) (claim : M) :
    signCause input ≠ .activate claim := by
  unfold signCause
  split_ifs <;> exact nofun

variable [DecidableEq M] in
theorem World.Inv.activeMethod_turn {value : Active M} {method : Method} (hinv : w.Inv identity mac)
    (hp : w.parties id = some (.active value .idle))
    (hstep : w.activeMethod identity mac id value choice method = some w') :
    w.Turn identity mac id w' := by
  cases method with
  | signSnapshot input =>
    cases hstep
    exact hinv.applyActive_turn hp (signCause_ne_activate input)
      (value.signSnapshot_writes input _ _)
  | resume =>
    cases hstep
    exact hinv.applyActive_turn hp (fun _ => nofun) (value.resume_writes _ _)
  | terminal phase =>
    cases hstep
    exact hinv.applyActive_turn hp (fun _ => nofun) (value.terminal_writes phase _)
  | close =>
    cases hstep
    split_ifs with hopen
    · exact .idle
    · obtain ⟨hclosed, -, -⟩ := hinv.ok id _ hp
      have hlock : value.lock = true := by simpa [hopen] using hclosed
      exact .pass w.stores hp (.refl _) (.still nofun rfl (fun _ _ => .rfl) trivial .rfl)
        (fun _ h => h) ⟨hclosed, hlock, fun _ _ => nofun⟩
  | consume => cases hstep
  | activate lease => cases hstep

section Import

variable {value : Import M} (hinv : w.Inv identity mac)
  (hp : w.parties id = some (.importing value .idle))
include hinv hp

theorem World.Inv.consume_turn (ctxDone : Bool) (outcome : WriteOutcome) :
    w.Turn identity mac id
      (w.apply id value.store value.runID (.consume value.expectedMAC) .importing
      (value.consume identity ctxDone outcome)) := by
  obtain ⟨hclosed, -, hknows⟩ := hinv.ok id _ hp
  rcases value.consume_cases ctxDone outcome with
    ⟨err, heffect⟩ | ⟨hopen, hcertain, hfresh, heffect⟩
  · rw [heffect]
    exact .idle
  have hlock : value.lock = true := by simpa [hopen] using hclosed
  have hwrites : World.Writes identity mac w id (.importing value .idle) value.store value.runID
      (.consume value.expectedMAC) (value.importing identity) := by
    refine ⟨hp, ⟨rfl, hlock⟩, fun _ _ => not_uncertain hcertain, rfl, fun success => ?_,
      nofun⟩
    have hsource := hknows hlock hcertain rfl
    rw [Import.Knows, hfresh] at hsource
    obtain ⟨snapshot, hmac, hdisk⟩ := hsource
    rw [hdisk, ← hmac]
    exact .consume id success _ snapshot
  rcases heffect with ⟨installed, heffect⟩ | heffect
  · rw [heffect]
    exact .attempt installed hwrites rfl (fun _ _ => uncertain_iff rfl) trivial
      trivial (fun _ h => h.1) fun _ _ => ⟨hclosed, rfl, fun _ => nofun⟩
  · rw [heffect]
    refine .install hwrites rfl (fun _ _ => not_uncertain hcertain) trivial (fun _ h => h.1)
      ⟨hclosed, trivial, fun _ _ _ => ⟨update_self .., value.importing identity, ?_⟩⟩
    show (update w.log value.runID _ value.runID).getLast? = _
    rw [update_self, List.getLast?_concat]

theorem World.Inv.activate_turn {lease : ℕ}
    (hstep : w.importMethod identity id value choice (.activate lease) = some w') :
    w.Turn identity mac id w' := by
  obtain ⟨hclosed, -, hknows⟩ := hinv.ok id _ hp
  unfold importMethod at hstep
  dsimp only at hstep
  split_ifs at hstep with hused
  rw [not_isSome_iff_eq_none] at hused
  rcases value.activate_cases choice.outcome with
    ⟨err, heffect⟩ | ⟨hopen, hcertain, hconsumed, heffect⟩
  · rw [heffect] at hstep
    cases hstep
    exact .idle
  have hlock : value.lock = true := by simpa [hopen] using hclosed
  have hsource := hknows hlock hcertain rfl
  rw [Import.Knows, hconsumed] at hsource
  obtain ⟨hdisk, record, hlast⟩ := hsource
  have hwrites : World.Writes identity mac w id (.importing value .idle) value.store value.runID
      (.activate value.expectedMAC) (value.activated identity) := by
    refine ⟨hp, ⟨rfl, hlock⟩, fun _ _ => not_uncertain hcertain, rfl, fun success => ?_,
      fun claim h => ?_⟩
    · rw [hdisk]
      exact .activate id success _ _
    · cases h
      exact ⟨record, hlast⟩
  rcases heffect with ⟨installed, heffect⟩ | heffect
  · rw [heffect] at hstep
    cases hstep
    exact .attempt installed hwrites rfl (fun _ _ => uncertain_iff rfl) trivial
      trivial (fun _ h => h.1) fun _ _ => ⟨hclosed, rfl, fun _ => nofun⟩
  · rw [heffect] at hstep
    cases hstep
    have hne : lease ≠ id := by
      rintro rfl
      cases hused.symm.trans hp
    -- first the import writes and closes, then the lease takes the lock that nobody uses
    refine .lease (.install hwrites rfl (fun _ _ => not_uncertain hcertain) trivial
      (fun _ h => h.1) ⟨rfl, trivial, nofun⟩) hused ((update_of_ne hne ..).trans hused) ?_
      (fun _ hs => ⟨_, update_self .., hs⟩) (fun _ _ h => nomatch h.2.2) (fun _ h => h.1.symm)
      ⟨rfl, trivial, fun _ _ _ => update_self ..⟩
    intro id' p _ hp' hr
    change update w.parties id _ id' = some p at hp'
    rcases eq_or_ne id' id with rfl | hne'
    · rw [update_self] at hp'
      cases hp'
      cases hr.2
    · rw [update_of_ne hne'] at hp'
      exact hinv.free_of_holds hp ⟨rfl, hlock⟩ id' p hne' hp' hr

theorem World.Inv.importMethod_turn {method : Method}
    (hstep : w.importMethod identity id value choice method = some w') :
    w.Turn identity mac id w' := by
  cases method with
  | consume =>
    cases hstep
    exact hinv.consume_turn hp _ _
  | activate lease => exact hinv.activate_turn hp hstep
  | close =>
    cases hstep
    split_ifs with hopen
    · exact .idle
    · obtain ⟨hclosed, -, -⟩ := hinv.ok id _ hp
      have hlock : value.lock = true := by simpa [hopen] using hclosed
      exact .pass w.stores hp (.refl _) (.still nofun rfl (fun _ _ => .rfl) trivial .rfl)
        (fun _ h => h) ⟨hclosed, hlock, fun _ _ => nofun⟩
  | signSnapshot input => cases hstep
  | resume => cases hstep
  | terminal phase => cases hstep

end Import

def Label.Moves (id : ℕ) : Label M → Prop
  | .go i _ | .method i _ _ => i = id
  | .openStore _ | .closeStore _ | .start .. | .prepareImport .. | .crash _ => False

variable [DecidableEq M] in
/-- A step moves one party, changes the stores only, or ends a store. -/
theorem World.Inv.step_turn {l : Label M} (hinv : w.Inv identity mac)
    (hstep : w.step identity mac validEnvelope l = some w') :
    (∃ id, (w.parties id = none ∨ l.Moves id) ∧ w.Turn identity mac id w') ∨
    (∃ stores, w' = { w with stores } ∧ (∀ s, (w.stores s).isSome → (stores s).isSome) ∧
      ∀ s r, { w with stores }.isUncertain s r = w.isUncertain s r) ∨
    ∃ store, w' = w.crash store := by
  cases l with
  | openStore s =>
    unfold step at hstep
    dsimp only at hstep
    split_ifs at hstep with hnone
    cases hstep
    rw [not_isSome_iff_eq_none] at hnone
    refine .inr (.inl ⟨_, rfl, fun s' hs => ?_, fun s' r => ?_⟩)
    · rcases eq_or_ne s' s with rfl | hne
      · rw [update_self]
        rfl
      · rw [update_of_ne hne]
        exact hs
    · show (update w.stores s _ s').any _ = (w.stores s').any _
      rcases eq_or_ne s' s with rfl | hne
      · rw [update_self, hnone]
        rfl
      · rw [update_of_ne hne]
  | closeStore s =>
    obtain ⟨value, hvalue, hstep⟩ := bind_eq_some_iff.mp hstep
    split_ifs at hstep
    cases hstep
    have hsame : SameMarks w.stores (w.setStore s value.close).stores := by
      refine .update ?_
      rw [hvalue, map_some, map_some]
      unfold Store.close
      split_ifs <;> rfl
    exact .inr (.inl ⟨_, rfl, fun s' hs => (hsame.isSome s').trans hs, hsame.isUncertain⟩)
  | start id store r ctxDone =>
    obtain ⟨hnew, hturn⟩ := enter_turn (by unfold startRefusal; split_ifs <;> exact nofun) hstep
    exact .inl ⟨id, .inl hnew, hturn⟩
  | prepareImport id store snapshot ctxDone =>
    obtain ⟨hnew, hturn⟩ :=
      enter_turn (by unfold prepareImportRefusal; split_ifs <;> exact nofun) hstep
    exact .inl ⟨id, .inl hnew, hturn⟩
  | go id choice =>
    refine .inl ⟨id, .inr rfl, ?_⟩
    exact hinv.goStep_turn hstep
  | method id method choice =>
    refine .inl ⟨id, .inr rfl, ?_⟩
    unfold step methodStep at hstep
    dsimp only at hstep
    split at hstep
    case h_1 hp => exact hinv.activeMethod_turn hp hstep
    case h_2 hp => exact hinv.importMethod_turn hp hstep
    case h_3 => cases hstep
  | crash store => exact .inr (.inr ⟨store, (some.inj hstep).symm⟩)

/-! ## Every step keeps the invariant -/

theorem World.Inv.init : (init : World M).Inv identity mac := by
  refine ⟨fun id p r hp => ?_, fun id p hp => ?_, fun r => ⟨.nil, rfl, ?_⟩⟩
  · cases hp
  · cases hp
  · intro i claim id success record h
    cases h

theorem World.Turn.inv (h : w.Turn identity mac id w') (hinv : w.Inv identity mac) :
    w'.Inv identity mac := by
  induction h with
  | idle => exact hinv
  | begin stores _ _ _ _ hholds hok =>
    exact hinv.setParty stores (fun r hr => absurd hr (hholds r)) (hok _ _)
  | pass stores hp _ _ hholds hok =>
    exact hinv.setParty stores (fun r hr => hinv.owns id _ r hp (hholds r hr)) hok
  | lock _ hfree _ hholds hok => exact hinv.acquire (hinv.free_of_unlocked hfree) hholds hok
  | unlock s released hp hr _ hholds hok => exact hinv.closeLock hp hr s released hholds hok
  | mark hp _ _ _ _ _ _ _ _ hholds hok =>
    exact hinv.setParty _ (fun r hr => hinv.owns id _ r hp (hholds r hr)) hok
  | attempt installed h _ _ _ _ hholds hok =>
    exact hinv.attempt h.present h.holds (h.allowed false) h.activate
      (fun r hr => (hholds r hr).symm) hok _ installed
  | install h _ _ _ hholds hok =>
    exact hinv.install h.present h.holds (h.allowed true) h.activate
      (fun r hr => (hholds r hr).symm) hok
  | lease _ _ _ hfree _ _ hholds hok ih => exact ih.acquire hfree hholds hok

theorem World.crash_parties (h : (w.crash store).parties id = some p) :
    p = .crashed ∨ w.parties id = some p ∧ p.store ≠ some store := by
  obtain ⟨q, hq, heq⟩ := map_eq_some_iff.mp h
  split_ifs at heq with hstore
  · exact .inl heq.symm
  · rw [← heq]
    exact .inr ⟨hq, hstore⟩

theorem World.Inv.crash (hinv : w.Inv identity mac) (store : ℕ) :
    (w.crash store).Inv identity mac := by
  refine ⟨?_, ?_, hinv.history⟩
  · intro id p r hp hr
    rcases crash_parties hp with rfl | ⟨hp, hstore⟩
    · cases hr
    · have hlock := hinv.owns id p r hp hr
      have howned : w.ownedBy store (.party id) = false := by
        simp [ownedBy, hp, hstore]
      unfold World.crash
      dsimp only
      rw [hlock]
      dsimp only
      rw [howned, if_neg Bool.false_ne_true]
  · intro id p hp
    rcases crash_parties hp with rfl | ⟨hp, -⟩
    · exact trivial
    · exact hinv.ok id p hp

variable [DecidableEq M] in
theorem World.Inv.of_reachable (h : (system identity mac validEnvelope).Reachable w) :
    w.Inv identity mac := by
  refine h.invariant (I := World.Inv identity mac) .init fun _ hinv hstep => ?_
  rcases hinv.step_turn hstep with ⟨id, -, hturn⟩ | ⟨stores, rfl, -⟩ | ⟨store, rfl⟩
  · exact hturn.inv hinv
  · exact ⟨hinv.owns, hinv.ok, hinv.history⟩
  · exact hinv.crash store

end Steps

end SpiceAgent.RunAuthority
