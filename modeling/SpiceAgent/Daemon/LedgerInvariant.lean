import SpiceAgent.Daemon.Ledger

/-!
# Every run of the ledger

Each call is judged by where it stands (`CallOk`) and each entry by its owner (`EntryOk`). A step
changes one call, and at most the entry of that call; entries only grow (`Extends`) and a closed one
never changes, so what holds of the other calls is kept by one frame lemma.
-/

namespace SpiceAgent.Daemon

open SpiceAgent.Lib Function Finmap Option List

/-! ## The maps -/

namespace Ledger

variable {ledger : Ledger} {key : OperationKey}

/-- The counts are those of the recorded entries, within the bounds. -/
structure Inv (ledger : Ledger) : Prop where
  counts : Tallies OperationKey.clientID ledger.entries.keys ledger.clientCounts
  clients : ledger.clientCounts.keys.card ≤ ledger.maximumClients
  perClient : ∀ c, tally ledger.clientCounts c ≤ ledger.maximumPerClient

theorem Inv.accept (h : ledger.Inv) (hfree : ledger.entries.lookup key = none)
    (hcapacity : ledger.full key.clientID = false) (entry : ℕ) : (ledger.accept key entry).Inv := by
  simp only [full, Bool.or_eq_false_iff, Bool.and_eq_false_imp, decide_eq_true_eq,
    decide_eq_false_iff_not, not_le] at hcapacity
  obtain ⟨hclients, hper⟩ := hcapacity
  refine ⟨?_, ?_, fun c => ?_⟩
  · have hkey : key ∉ ledger.entries.keys := fun hin =>
      lookup_eq_none.mp hfree (mem_keys.mp hin)
    have htally := h.counts.insert hkey
    simpa only [Ledger.accept, keys_insert] using htally
  · simp only [Ledger.accept, keys_insert]
    by_cases hin : key.clientID ∈ ledger.clientCounts.keys
    · rw [Finset.insert_eq_of_mem hin]
      exact h.clients
    · rw [Finset.card_insert_of_notMem hin]
      exact hclients fun hmem => hin (mem_keys.mpr hmem)
  · simp only [Ledger.accept]
    rcases eq_or_ne c key.clientID with rfl | hne
    · rw [tally_insert_self]
      exact hper
    · rw [tally_insert_ne _ hne]
      exact h.perClient c

section

variable {entry : ℕ} (hkey : ledger.entries.lookup key = some entry)
include hkey

theorem Inv.abandon (h : ledger.Inv) : (ledger.abandon key entry).Inv := by
  have hin : key ∈ ledger.entries.keys := mem_keys.mpr (mem_of_lookup_eq_some hkey)
  have htally := h.counts.erase hin
  rw [← keys_erase] at htally
  unfold Ledger.abandon
  rw [if_pos hkey]
  refine ⟨htally, ?_, fun c => ?_⟩
  · refine (Finset.card_le_card fun c hc => ?_).trans h.clients
    obtain ⟨k, hk, hck⟩ := (htally.mem_iff c).mp (mem_keys.mp hc)
    rw [keys_erase] at hk
    exact mem_keys.mpr ((h.counts.mem_iff c).mpr ⟨k, Finset.mem_of_mem_erase hk, hck⟩)
  · refine le_trans ?_ (h.perClient c)
    rw [htally.tally_eq, h.counts.tally_eq]
    refine Finset.card_le_card (Finset.filter_subset_filter _ ?_)
    rw [keys_erase]
    exact Finset.erase_subset ..

theorem abandon_lookup_self : (ledger.abandon key entry).entries.lookup key = none := by
  unfold Ledger.abandon
  rw [if_pos hkey]
  exact lookup_erase ..

theorem abandon_lookup_ne {key' : OperationKey} (hne : key' ≠ key) :
    (ledger.abandon key entry).entries.lookup key' = ledger.entries.lookup key' := by
  unfold Ledger.abandon
  rw [if_pos hkey]
  exact lookup_erase_ne hne

end

end Ledger

/-! ## Calls and entries -/

namespace LedgerWorld

variable {w w' : LedgerWorld} {id : ℕ} {call : DoCall}

variable (w)

def recorded (key : OperationKey) : Option ℕ := w.ledger.entries.lookup key

def Matches (call : DoCall) (existing : ℕ) : Prop :=
  ∃ entry owner, w.entries existing = some entry ∧ w.calls existing = some owner ∧
    owner.key = call.key ∧ entry.kind = call.kind ∧ entry.digest = call.digest

/-- The call owns the open entry recorded for its key. -/
def Owns (id : ℕ) (call : DoCall) : Prop :=
  w.recorded call.key = some id ∧ ∃ entry, w.entries id = some entry ∧ entry.kind = call.kind ∧
    entry.digest = call.digest ∧ entry.done = false ∧ entry.abandoned = false

/-- The call was answered from the closed entry recorded for its key. -/
def Answered (call : DoCall) (existing : ℕ) (outcome : Outcome) (err : Option DoError) : Prop :=
  w.recorded call.key = some existing ∧ w.Matches call existing ∧
    ∃ entry, w.entries existing = some entry ∧ entry.done = true ∧ entry.abandoned = false ∧
      entry.outcome = outcome ∧ entry.err = err

def CallOk (id : ℕ) (call : DoCall) : Prop :=
  match call.phase with
  | .entry | .lookup => w.entries id = none
  | .poll existing | .blocked existing | .cancelled existing =>
    w.entries id = none ∧ w.Matches call existing
  | .completed existing =>
    w.entries id = none ∧ w.Matches call existing ∧ w.isDone existing = true
  | .executing => w.Owns id call
  | .finished result => w.Owns id call ∧ w.results id = some result
  | .returned (.answer existing outcome _ err) => w.Answered call existing outcome err
  | .returned (.failed _ _) => True

/-- What holds of an entry. -/
structure EntryOk (id : ℕ) (entry : OperationEntry) : Prop where
  owner : ∃ owner, w.calls id = some owner ∧ entry.kind = owner.kind ∧ entry.digest = owner.digest ∧
    (entry.abandoned = false → w.recorded owner.key = some id)
  closed : entry.abandoned = true → entry.done = true
  produced : entry.done = true → entry.abandoned = false → ∃ result, w.results id = some result ∧
    result.abandonment = none ∧ result.stored = (entry.outcome, entry.err)

variable {w}

/-- Entries grow, a closed one is fixed, and calls keep their input. -/
structure Extends (w w' : LedgerWorld) : Prop where
  entries : ∀ i entry, w.entries i = some entry → ∃ entry', w'.entries i = some entry' ∧
    entry'.kind = entry.kind ∧ entry'.digest = entry.digest ∧ (entry.done = true → entry' = entry)
  calls : ∀ i call, w.calls i = some call → ∃ call', w'.calls i = some call' ∧
    call'.key = call.key ∧ call'.kind = call.kind ∧ call'.digest = call.digest

/-- The call has the input of another. -/
def SameInput (call' call : DoCall) : Prop :=
  call'.key = call.key ∧ call'.kind = call.kind ∧ call'.digest = call.digest

theorem SameInput.goto (call : DoCall) (phase : DoPhase) : SameInput { call with phase } call :=
  ⟨rfl, rfl, rfl⟩

variable {existing : ℕ}

theorem Extends.matches (h : w.Extends w') (hm : w.Matches call existing) :
    w'.Matches call existing := by
  obtain ⟨entry, owner, hentry, howner, hkey, hkind, hdigest⟩ := hm
  obtain ⟨entry', hentry', hkind', hdigest', -⟩ := h.entries existing entry hentry
  obtain ⟨owner', howner', hkey', -, -⟩ := h.calls existing owner howner
  exact ⟨entry', owner', hentry', howner', hkey'.trans hkey, hkind'.trans hkind,
    hdigest'.trans hdigest⟩

theorem isDone_iff :
    w.isDone existing = true ↔ ∃ entry, w.entries existing = some entry ∧ entry.done = true := by
  unfold isDone
  cases w.entries existing <;> simp

theorem Extends.isDone (h : w.Extends w') (hd : w.isDone existing = true) :
    w'.isDone existing = true := by
  obtain ⟨entry, hentry, hdone⟩ := isDone_iff.mp hd
  obtain ⟨entry', hentry', -, -, hsame⟩ := h.entries existing entry hentry
  exact isDone_iff.mpr ⟨entry', hentry', hsame hdone ▸ hdone⟩

/-- A step of call `id`: everything that belongs to other calls stays, and so does what is recorded,
unless it is the open entry of `id` itself. -/
structure StepOf (w w' : LedgerWorld) (id : ℕ) : Prop extends w.Extends w' where
  others : ∀ i, i ≠ id → w'.entries i = w.entries i ∧ w'.results i = w.results i ∧
    w'.calls i = w.calls i
  keeps : ∀ key i, w.recorded key = some i → (i = id → w.isDone id = true) →
    w'.recorded key = some i

variable {i : ℕ}

/-- What holds of a call depends on its own entry and result, and on what is recorded for open
entries of its own and for closed ones. -/
theorem CallOk.mono (hext : w.Extends w') (hentry : w'.entries i = w.entries i)
    (hresult : w'.results i = w.results i)
    (hkeeps : ∀ key j, w.recorded key = some j → j = i ∨ w.isDone j = true →
      w'.recorded key = some j) (hok : w.CallOk i call) : w'.CallOk i call := by
  have howns : w.Owns i call → w'.Owns i call := by
    rintro ⟨hrec, entry, he⟩
    exact ⟨hkeeps _ _ hrec (.inl rfl), entry, hentry.trans he.1, he.2⟩
  unfold CallOk at hok ⊢
  split at hok
  · exact hentry.trans hok
  · exact hentry.trans hok
  · exact ⟨hentry.trans hok.1, hext.matches hok.2⟩
  · exact ⟨hentry.trans hok.1, hext.matches hok.2⟩
  · exact ⟨hentry.trans hok.1, hext.matches hok.2⟩
  · exact ⟨hentry.trans hok.1, hext.matches hok.2.1, hext.isDone hok.2.2⟩
  · exact howns hok
  · exact ⟨howns hok.1, hresult.trans hok.2⟩
  · obtain ⟨hrec, hmatch, entry, he, hdone, hrest⟩ := hok
    obtain ⟨entry', he', -, -, hsame⟩ := hext.entries _ entry he
    refine ⟨hkeeps _ _ hrec (.inr (isDone_iff.mpr ⟨entry, he, hdone⟩)), hext.matches hmatch, entry',
      he', ?_⟩
    rw [hsame hdone]
    exact ⟨hdone, hrest⟩
  · trivial

theorem StepOf.callOk (h : w.StepOf w' id) (hne : i ≠ id) (hok : w.CallOk i call) :
    w'.CallOk i call := by
  obtain ⟨hentry, hresult, -⟩ := h.others i hne
  refine hok.mono h.toExtends hentry hresult fun key j hrec hj => h.keeps key j hrec ?_
  rintro rfl
  exact hj.resolve_left hne.symm

/-! ## The invariant -/

variable (w)

def keyHistory (key : OperationKey) : List KeyEvent :=
  w.history.filterMap fun e => if e.1 = key then some e.2 else none

/-- The key as a slot: free, held by an executor, or filled with a stored outcome. -/
def slot (key : OperationKey) : Slot ℕ (Outcome × Option DoError) :=
  match w.recorded key with
  | none => .free
  | some i =>
    match w.entries i with
    | none => .free
    | some entry => if entry.done then .filled i (entry.outcome, entry.err) else .held i

def admissions : List (OperationKey × ℕ) :=
  w.history.filterMap fun
    | (key, .claim i) => some (key, i)
    | _ => none

/-- The call at `i` admitted an entry for `key`. -/
def Admitted (key : OperationKey) (i : ℕ) : Prop :=
  (w.entries i).isSome ∧ ∃ owner, w.calls i = some owner ∧ owner.key = key

/-- The invariant of the ledger: calls and entries agree, every key refines a slot, and the maps are
in order. -/
structure Inv : Prop where
  calls : ∀ id call, w.calls id = some call → w.CallOk id call
  entries : ∀ id entry, w.entries id = some entry → w.EntryOk id entry
  recorded : ∀ key i, w.recorded key = some i → w.Admitted key i ∧
    ∀ entry, w.entries i = some entry → entry.abandoned = false
  slots : ∀ key, Slot.run .free (w.keyHistory key) = some (w.slot key)
  admitted : ∀ key i, (key, i) ∈ w.admissions ↔ w.Admitted key i
  nodup : w.admissions.Nodup
  ledger : w.ledger.Inv

variable {w}

theorem slot_congr {key : OperationKey} (hrec : w'.recorded key = w.recorded key)
    (hentry : ∀ i, w.recorded key = some i → w'.entries i = w.entries i) :
    w'.slot key = w.slot key := by
  unfold slot
  rw [hrec]
  cases h : w.recorded key with
  | none => rfl
  | some i => simp only [hentry i h]

theorem keyHistory_self (key : OperationKey) (event : KeyEvent)
    (h : w'.history = w.history ++ [(key, event)]) :
    w'.keyHistory key = w.keyHistory key ++ [event] := by
  simp [keyHistory, h, filterMap_append]

variable {event : KeyEvent}

theorem keyHistory_ne {key key' : OperationKey} (hne : key ≠ key')
    (h : w'.history = w.history ++ [(key, event)]) : w'.keyHistory key' = w.keyHistory key' := by
  simp [keyHistory, h, filterMap_append, hne]

theorem Inv.slots_record (h : w.Inv) {key : OperationKey}
    (hhistory : w'.history = w.history ++ [(key, event)])
    (hstep : (w.slot key).step event = some (w'.slot key))
    (hother : ∀ key', key ≠ key' → w'.slot key' = w.slot key') (key' : OperationKey) :
    Slot.run .free (w'.keyHistory key') = some (w'.slot key') := by
  rcases eq_or_ne key key' with rfl | hne
  · rw [keyHistory_self key event hhistory, Slot.run_append, h.slots key, bind_some,
      Slot.run_cons, hstep]
    rfl
  · rw [keyHistory_ne hne hhistory, hother key' hne]
    exact h.slots key'

/-! ## What one step can do -/

/-- The steps of the ledger, by what they do to entries. -/
inductive Move (w : LedgerWorld) : LedgerWorld → Prop
  | call {id : ℕ} {call : DoCall} (hnew : w.calls id = none) (hphase : call.phase = .entry) :
      Move w (w.setCall id call)
  | pass {id : ℕ} {call next : DoCall} (hcall : w.calls id = some call)
      (hkey : next.key = call.key) (hkind : next.kind = call.kind)
      (hdigest : next.digest = call.digest) (hok : w.CallOk id next) : Move w (w.setCall id next)
  | finish {id : ℕ} {call : DoCall} {result : ExecutorResult} (hcall : w.calls id = some call)
      (hphase : call.phase = .executing) :
      Move w ({ w with results := update w.results id (some result) }.goto id call
        (.finished result))
  | accept {id : ℕ} {call : DoCall} (hcall : w.calls id = some call) (hphase : call.phase = .lookup)
      (hfree : w.recorded call.key = none) (hcapacity : w.ledger.full call.key.clientID = false) :
      Move w (w.accept id call)
  | abandon {id : ℕ} {call : DoCall} {entry : OperationEntry} {result : ExecutorResult}
      {cause : String} (hcall : w.calls id = some call) (hphase : call.phase = .finished result)
      (hentry : w.entries id = some entry) (hcause : result.abandonment = some cause) :
      Move w (w.abandon id call entry cause)
  | store {id : ℕ} {call : DoCall} {entry : OperationEntry} {result : ExecutorResult}
      (hcall : w.calls id = some call) (hphase : call.phase = .finished result)
      (hentry : w.entries id = some entry) (hcause : result.abandonment = none) :
      Move w (w.store id call entry result.stored)

section

variable (hcall : w.calls id = some call)

include hcall

theorem move_goto {phase : DoPhase} (hok : w.CallOk id { call with phase }) :
    w.Move (w.goto id call phase) :=
  .pass hcall rfl rfl rfl hok

theorem move_fail (duplicate : Bool) (err : DoError) : w.Move (w.fail id call duplicate err) :=
  move_goto hcall trivial

variable (h : w.Inv)

include h

theorem stepEntry_move (hphase : call.phase = .entry) : w.Move (w.stepEntry id call) := by
  have hok : w.entries id = none := by simpa [CallOk, hphase] using h.calls id call hcall
  unfold stepEntry
  split
  · exact move_fail hcall _ _
  · split
    · exact move_fail hcall _ _
    · split
      · exact move_fail hcall _ _
      · exact move_goto hcall hok

theorem stepLookup_move (hphase : call.phase = .lookup) : w.Move (w.stepLookup id call) := by
  have hok : w.entries id = none := by simpa [CallOk, hphase] using h.calls id call hcall
  unfold stepLookup
  split
  · next existing hexisting =>
    obtain ⟨⟨hsome, owner, howner, hkey⟩, -⟩ := h.recorded call.key existing hexisting
    obtain ⟨entry, hentry⟩ := isSome_iff_exists.mp hsome
    rw [hentry]
    dsimp only
    split_ifs with hconflict
    · exact move_fail hcall _ _
    · push Not at hconflict
      exact move_goto hcall ⟨hok, entry, owner, hentry, howner, hkey, hconflict.1, hconflict.2⟩
  · next hfree =>
    split_ifs with hctx hfull
    · exact move_fail hcall _ _
    · exact move_fail hcall _ _
    · exact .accept hcall hphase hfree (by simpa using hfull)

theorem stepCompleted_move (hphase : call.phase = .completed existing) :
    w.Move (w.stepCompleted id call existing) := by
  obtain ⟨hnone, hmatch, hdone⟩ :
      w.entries id = none ∧ w.Matches call existing ∧ w.isDone existing = true := by
    simpa [CallOk, hphase] using h.calls id call hcall
  have ⟨entry, owner, hentry, howner, hkey, _⟩ := hmatch
  obtain ⟨entry', hentry', hdone⟩ := isDone_iff.mp hdone
  cases hentry.symm.trans hentry'
  unfold stepCompleted
  rw [hentry]
  dsimp only
  split_ifs with habandoned
  · exact move_fail hcall _ _
  · exact move_goto hcall hnone
  · have habandoned : entry.abandoned = false := by simpa using habandoned
    obtain ⟨owner', howner', -, -, hrec⟩ := (h.entries existing entry hentry).owner
    cases howner.symm.trans howner'
    exact move_goto hcall
      ⟨hkey ▸ hrec habandoned, hmatch, entry, hentry, hdone, habandoned, rfl, rfl⟩

section

variable {result : ExecutorResult} (hphase : call.phase = .finished result)
include hphase

theorem Inv.finished : w.Owns id call ∧ w.results id = some result := by
  simpa [CallOk, hphase] using h.calls id call hcall

theorem stepFinished_move : w.Move (w.stepFinished id call result) := by
  obtain ⟨⟨-, entry, hentry, -⟩, -⟩ := h.finished hcall hphase
  unfold stepFinished
  rw [hentry]
  dsimp only
  split
  · next hcause => exact .abandon hcall hphase hentry hcause
  · next hcause => exact .store hcall hphase hentry hcause

end

theorem stepCall_move {ctx : Bool} (hstep : w.stepCall id call ctx = some w') : w.Move w' := by
  have hok := h.calls id call hcall
  unfold stepCall at hstep
  unfold CallOk at hok
  cases hphase : call.phase with
  | entry =>
    simp only [hphase, some.injEq] at hstep
    exact hstep ▸ stepEntry_move hcall h hphase
  | lookup =>
    simp only [hphase, some.injEq] at hstep
    exact hstep ▸ stepLookup_move hcall h hphase
  | poll existing =>
    simp only [hphase, some.injEq] at hstep hok
    subst hstep
    split_ifs with hdone
    · exact move_goto hcall ⟨hok.1, hok.2, hdone⟩
    · exact move_goto hcall hok
  | blocked existing =>
    simp only [hphase] at hstep hok
    split_ifs at hstep with hctx hcancel hdone
    · exact some.inj hstep ▸ move_goto hcall hok
    · exact some.inj hstep ▸ move_goto hcall ⟨hok.1, hok.2, hdone⟩
  | cancelled existing =>
    simp only [hphase] at hstep hok
    split_ifs at hstep with hdone
    · exact some.inj hstep ▸ move_goto hcall ⟨hok.1, hok.2, hdone⟩
    · exact some.inj hstep ▸ move_fail hcall _ _
  | completed existing =>
    simp only [hphase, some.injEq] at hstep
    exact hstep ▸ stepCompleted_move hcall h hphase
  | executing => simp [hphase] at hstep
  | finished result =>
    simp only [hphase, some.injEq] at hstep
    exact hstep ▸ stepFinished_move hcall h hphase
  | returned result => simp [hphase] at hstep

end

theorem step_move (h : w.Inv) {label : Label} (hstep : w.step label = some w') : w.Move w' := by
  cases label with
  | call id key kind digest ctxDone =>
    cases hcall : w.calls id with
    | some _ => simp [step, hcall] at hstep
    | none =>
      simp only [step, hcall, some.injEq] at hstep
      exact hstep ▸ .call hcall rfl
  | run id ctx =>
    obtain ⟨call, hcall, hrun⟩ := bind_eq_some_iff.mp hstep
    exact stepCall_move hcall h hrun
  | finish id result =>
    obtain ⟨call, hcall, hrun⟩ := bind_eq_some_iff.mp hstep
    simp only [ite_none_right_eq_some, some.injEq] at hrun
    exact hrun.2 ▸ .finish hcall hrun.1
  | cancel id =>
    obtain ⟨call, hcall, rfl⟩ := map_eq_some_iff.mp hstep
    exact .pass hcall rfl rfl rfl (h.calls id call hcall)

/-! ## Preservation -/

theorem setCall_self (w : LedgerWorld) (id : ℕ) (call : DoCall) :
    (w.setCall id call).calls id = some call :=
  update_self ..

theorem setCall_ne (w : LedgerWorld) {id : ℕ} (hne : i ≠ id) (call : DoCall) :
    (w.setCall id call).calls i = w.calls i :=
  update_of_ne hne ..

variable {next : DoCall}

theorem setCall_calls (hsame : ∀ old, w.calls id = some old → SameInput next old) (i : ℕ)
    (old : DoCall) (hold : w.calls i = some old) :
    ∃ call', (w.setCall id next).calls i = some call' ∧ SameInput call' old := by
  rcases eq_or_ne i id with rfl | hne
  · exact ⟨next, w.setCall_self i next, hsame old hold⟩
  · exact ⟨old, (w.setCall_ne hne next).trans hold, rfl, rfl, rfl⟩

theorem setEntry_self (w : LedgerWorld) (id : ℕ) (entry : OperationEntry) :
    (w.setEntry id entry).entries id = some entry :=
  update_self ..

theorem setEntry_ne (w : LedgerWorld) {id : ℕ} (hne : i ≠ id) (entry : OperationEntry) :
    (w.setEntry id entry).entries i = w.entries i :=
  update_of_ne hne ..

variable {entry : OperationEntry}

theorem StepOf.of_setEntry (hcall : w.calls id = some call) (hsame : SameInput next call)
    (hentry : ∀ old, w.entries id = some old → old.done = false ∧ entry.kind = old.kind ∧
      entry.digest = old.digest) (hcalls : w'.calls = (w.setCall id next).calls)
    (hentries : w'.entries = (w.setEntry id entry).entries) (hresults : w'.results = w.results)
    (hkeeps : ∀ key i, w.recorded key = some i → i ≠ id → w'.recorded key = some i) :
    w.StepOf w' id where
  entries i old hold := by
    rw [hentries]
    rcases eq_or_ne i id with rfl | hne
    · obtain ⟨hdone, hk, hd⟩ := hentry old hold
      exact ⟨entry, w.setEntry_self i entry, hk, hd, fun h => absurd (hdone.symm.trans h) nofun⟩
    · exact ⟨old, (w.setEntry_ne hne entry).trans hold, rfl, rfl, fun _ => rfl⟩
  calls i old hold := by
    rw [hcalls]
    refine setCall_calls (fun c hc => ?_) i old hold
    cases hcall.symm.trans hc
    exact hsame
  others i hne := by
    rw [hentries, hcalls, hresults]
    exact ⟨w.setEntry_ne hne entry, rfl, w.setCall_ne hne next⟩
  keeps key i hrec hdone := by
    refine hkeeps key i hrec ?_
    rintro rfl
    obtain ⟨old, hold, hd⟩ := isDone_iff.mp (hdone rfl)
    exact absurd ((hentry old hold).1.symm.trans hd) nofun

theorem StepOf.of_setCall (hsame : ∀ old, w.calls id = some old → SameInput next old)
    (hcalls : w'.calls = (w.setCall id next).calls) (hentries : w'.entries = w.entries)
    (hresults : ∀ i, i ≠ id → w'.results i = w.results i) (hledger : w'.ledger = w.ledger) :
    w.StepOf w' id where
  entries i old hold := ⟨old, hentries ▸ hold, rfl, rfl, fun _ => rfl⟩
  calls i old hold := hcalls ▸ setCall_calls hsame i old hold
  others i hne := ⟨by rw [hentries], hresults i hne, by rw [hcalls, w.setCall_ne hne]⟩
  keeps key i hrec _ := by
    unfold LedgerWorld.recorded
    rw [hledger]
    exact hrec

theorem StepOf.entryOk (h : w.StepOf w' id) (hne : i ≠ id) (hok : w.EntryOk i entry) :
    w'.EntryOk i entry := by
  obtain ⟨-, hresult, hcall⟩ := h.others i hne
  obtain ⟨owner, howner, hkind, hdigest, hrec⟩ := hok.owner
  refine ⟨⟨owner, hcall.trans howner, hkind, hdigest, fun ha => ?_⟩, hok.closed, fun hd ha => ?_⟩
  · exact h.keeps _ _ (hrec ha) fun heq => absurd heq hne
  · rw [hresult]
    exact hok.produced hd ha

theorem StepOf.admitted_iff (h : w.StepOf w' id) (hne : i ≠ id) (key : OperationKey) :
    w'.Admitted key i ↔ w.Admitted key i := by
  obtain ⟨hentry, -, hcall⟩ := h.others i hne
  unfold Admitted
  rw [hentry, hcall]

theorem admissions_other {key : OperationKey} (h : w'.history = w.history ++ [(key, event)])
    (hevent : ∀ i, event ≠ .claim i) : w'.admissions = w.admissions := by
  unfold admissions
  rw [h, filterMap_append]
  cases event with
  | claim i => exact absurd rfl (hevent i)
  | giveBack i => exact append_nil _
  | fill i r => exact append_nil _

theorem admissions_claim {key : OperationKey} (h : w'.history = w.history ++ [(key, .claim i)]) :
    w'.admissions = w.admissions ++ [(key, i)] := by
  unfold admissions
  rw [h, filterMap_append]
  rfl

namespace Inv

/-- What a step of one call has to show, since it keeps what holds of the others. -/
theorem of_step (h : w.Inv) (hs : w.StepOf w' id)
    (hcall : ∀ call, w'.calls id = some call → w'.CallOk id call)
    (hentry : ∀ entry, w'.entries id = some entry → w'.EntryOk id entry) :
    (∀ i call, w'.calls i = some call → w'.CallOk i call) ∧
      ∀ i entry, w'.entries i = some entry → w'.EntryOk i entry := by
  refine ⟨fun i c hc => ?_, fun i e he => ?_⟩
  · rcases eq_or_ne i id with rfl | hne
    · exact hcall c hc
    · exact hs.callOk hne (h.calls i c ((hs.others i hne).2.2 ▸ hc))
  · rcases eq_or_ne i id with rfl | hne
    · exact hentry e he
    · exact hs.entryOk hne (h.entries i e ((hs.others i hne).1 ▸ he))

theorem of_call (h : w.Inv) (hs : w.StepOf w' id) (hentries : w'.entries = w.entries)
    (hledger : w'.ledger = w.ledger) (hhistory : w'.history = w.history)
    (hcall : ∀ call, w'.calls id = some call → w'.CallOk id call)
    (hentry : ∀ entry, w.entries id = some entry → w'.EntryOk id entry)
    (hadmitted : ∀ key, w'.Admitted key id ↔ w.Admitted key id) : w'.Inv := by
  have hrec : ∀ key, w'.recorded key = w.recorded key := fun key => by
    unfold LedgerWorld.recorded
    rw [hledger]
  have hadm : ∀ key i, w'.Admitted key i ↔ w.Admitted key i := fun key i => by
    rcases eq_or_ne i id with rfl | hne
    · exact hadmitted key
    · exact hs.admitted_iff hne key
  have hadmissions : w'.admissions = w.admissions := by
    unfold admissions
    rw [hhistory]
  obtain ⟨hcalls', hentries'⟩ := h.of_step hs hcall fun e he => hentry e (hentries ▸ he)
  refine ⟨hcalls', hentries', fun key i hi => ?_, fun key => ?_, fun key i => ?_,
    hadmissions ▸ h.nodup, hledger ▸ h.ledger⟩
  · rw [hrec] at hi
    rw [hadm, hentries]
    exact h.recorded key i hi
  · have hslot : w'.slot key = w.slot key := slot_congr (hrec key) fun i _ => by rw [hentries]
    have hkey : w'.keyHistory key = w.keyHistory key := by
      unfold keyHistory
      rw [hhistory]
    rw [hslot, hkey]
    exact h.slots key
  · rw [hadmissions, hadm]
    exact h.admitted key i

theorem admitted_setCall (next : DoCall) (hcall : w.calls id = some call)
    (hkey : next.key = call.key) (key : OperationKey)
    (hcalls : w'.calls = (w.setCall id next).calls)
    (hentries : w'.entries = w.entries) : w'.Admitted key id ↔ w.Admitted key id := by
  unfold Admitted
  rw [hentries, hcalls, w.setCall_self, hcall]
  simp [hkey]

variable (h : w.Inv)
include h

theorem newCall (hnew : w.calls id = none) (hphase : call.phase = .entry) :
    (w.setCall id call).Inv := by
  have hnone : w.entries id = none := by
    cases he : w.entries id with
    | none => rfl
    | some entry =>
      obtain ⟨owner, howner, -⟩ := (h.entries id entry he).owner
      cases hnew.symm.trans howner
  have hs : w.StepOf (w.setCall id call) id :=
    .of_setCall (fun old hold => by cases hnew.symm.trans hold) rfl rfl (fun _ _ => rfl) rfl
  refine h.of_call hs rfl rfl rfl (fun c hc => ?_) (fun e he => by cases hnone.symm.trans he)
    fun key => ?_
  · cases (w.setCall_self id call).symm.trans hc
    unfold CallOk
    rw [hphase]
    exact hnone
  · have hno : ¬ (w.entries id).isSome := by simp [hnone]
    exact ⟨fun ha => absurd ha.1 hno, fun ha => absurd ha.1 hno⟩

section

variable (hcall : w.calls id = some call)
include hcall

/-- What holds of a call before it moves holds after it: only its own phase changes. -/
theorem pass (hkey : next.key = call.key) (hkind : next.kind = call.kind)
    (hdigest : next.digest = call.digest) (hok : w.CallOk id next) : (w.setCall id next).Inv := by
  have hsame : ∀ old, w.calls id = some old → SameInput next old := by
    intro old hold
    cases hcall.symm.trans hold
    exact ⟨hkey, hkind, hdigest⟩
  have hs : w.StepOf (w.setCall id next) id := .of_setCall hsame rfl rfl (fun _ _ => rfl) rfl
  refine h.of_call hs rfl rfl rfl (fun c hc => ?_) (fun e he => ?_)
    fun key => admitted_setCall next hcall hkey key rfl rfl
  · cases (w.setCall_self id next).symm.trans hc
    exact hok.mono hs.toExtends rfl rfl fun _ _ hrec _ => hrec
  · obtain ⟨owner, howner, hk, hd, hrec⟩ := (h.entries id e he).owner
    obtain ⟨hkey', hkind', hdigest'⟩ := hsame owner howner
    exact ⟨⟨next, w.setCall_self id next, hk.trans hkind'.symm, hd.trans hdigest'.symm,
      fun ha => hkey' ▸ hrec ha⟩, (h.entries id e he).closed, (h.entries id e he).produced⟩

theorem finish (hphase : call.phase = .executing) (result : ExecutorResult) :
    ({ w with results := update w.results id (some result) }.goto id call
      (.finished result)).Inv := by
  obtain ⟨hrec, entry, hentry, hkind, hdigest, hdone, habandoned⟩ : w.Owns id call := by
    simpa [CallOk, hphase] using h.calls id call hcall
  have hs : w.StepOf ({ w with results := update w.results id (some result) }.goto id call
      (.finished result)) id := by
    refine .of_setCall (fun old hold => ?_) rfl rfl (fun i hne => update_of_ne hne ..) rfl
    cases hcall.symm.trans hold
    exact .goto call _
  refine h.of_call hs rfl rfl rfl (fun c hc => ?_) (fun e he => ?_)
    fun key => admitted_setCall { call with phase := .finished result } hcall rfl key rfl rfl
  · cases (w.setCall_self id _).symm.trans hc
    exact ⟨⟨hrec, entry, hentry, hkind, hdigest, hdone, habandoned⟩, update_self ..⟩
  · cases hentry.symm.trans he
    exact ⟨⟨_, w.setCall_self id _, hkind, hdigest, fun _ => hrec⟩,
      fun ha => absurd (habandoned.symm.trans ha) nofun, fun hd =>
      absurd (hdone.symm.trans hd) nofun⟩

theorem accept (hphase : call.phase = .lookup) (hfree : w.recorded call.key = none)
    (hcapacity : w.ledger.full call.key.clientID = false) : (w.accept id call).Inv := by
  have hnone : w.entries id = none := by simpa [CallOk, hphase] using h.calls id call hcall
  have hnot : ∀ key, ¬ w.Admitted key id := fun key ha => by simp [Admitted, hnone] at ha
  have hself : (w.accept id call).recorded call.key = some id := lookup_insert ..
  have hother : ∀ key, key ≠ call.key → (w.accept id call).recorded key = w.recorded key :=
    fun key hne => lookup_insert_of_ne _ hne
  have hs : w.StepOf (w.accept id call) id := by
    refine .of_setEntry hcall (SameInput.goto call .executing)
      (fun old hold => by cases hnone.symm.trans hold) rfl rfl rfl fun key i hi _ => ?_
    rw [hother key fun heq => by rw [heq, hfree] at hi; cases hi]
    exact hi
  have hcalls : (w.accept id call).calls id = some { call with phase := .executing } :=
    w.setCall_self id _
  have hentry := w.setEntry_self id
    { kind := call.kind, digest := call.digest, done := false, outcome := .zero, err := none,
      abandoned := false }
  have hadmitted : ∀ key, (w.accept id call).Admitted key id ↔ key = call.key := by
    intro key
    unfold Admitted
    rw [hcalls]
    exact ⟨fun ⟨_, owner, howner, hkey⟩ => by rw [← hkey, ← some.inj howner],
      fun hkey =>
      ⟨by rw [show (w.accept id call).entries id = _ from hentry]; rfl, _, rfl, hkey.symm⟩⟩
  have hadmissions : (w.accept id call).admissions = w.admissions ++ [(call.key, id)] :=
    admissions_claim rfl
  obtain ⟨hcallsOk, hentriesOk⟩ := h.of_step hs
    (fun c hc => by
      cases hcalls.symm.trans hc
      exact ⟨hself, _, hentry, rfl, rfl, rfl, rfl⟩)
    (fun e he => by
      cases hentry.symm.trans he
      exact ⟨⟨_, hcalls, rfl, rfl, fun _ => hself⟩, nofun, nofun⟩)
  refine ⟨hcallsOk, hentriesOk, fun key i hi => ?_, ?_, fun key i => ?_, ?_,
    h.ledger.accept hfree hcapacity id⟩
  · rcases eq_or_ne key call.key with rfl | hkey
    · cases hself.symm.trans hi
      refine ⟨(hadmitted _).mpr rfl, fun e he => ?_⟩
      cases hentry.symm.trans he
      rfl
    · rw [hother key hkey] at hi
      obtain ⟨hadm, hlive⟩ := h.recorded key i hi
      have hne : i ≠ id := fun heq => hnot key (heq ▸ hadm)
      exact ⟨(hs.admitted_iff hne key).mpr hadm, fun e he => hlive e ((hs.others i hne).1 ▸ he)⟩
  · refine h.slots_record rfl ?_ fun key hne => slot_congr (hother key hne.symm) fun i hi => ?_
    · have hslot : w.slot call.key = .free := by
        unfold slot
        rw [hfree]
      have hslot' : (w.accept id call).slot call.key = .held id := by
        unfold slot
        rw [hself]
        simp only [show (w.accept id call).entries id = _ from hentry]
        rfl
      rw [hslot, hslot']
      rfl
    · exact (hs.others i fun heq => hnot key (heq ▸ (h.recorded key i hi).1)).1
  · rw [hadmissions, List.mem_append, List.mem_singleton, Prod.mk.injEq]
    rcases eq_or_ne i id with rfl | hne
    · rw [hadmitted, h.admitted]
      simp [hnot key]
    · rw [hs.admitted_iff hne, h.admitted]
      simp [hne]
  · rw [hadmissions]
    refine nodup_append.mpr ⟨h.nodup, nodup_singleton _, fun a ha b hb hab => ?_⟩
    rw [hab, mem_singleton.mp hb] at ha
    exact hnot call.key ((h.admitted _ _).mp ha)

theorem close (howns : w.Owns id call) (hsame : SameInput next call) (entry : OperationEntry)
    (hentry : entry.kind = call.kind ∧ entry.digest = call.digest)
    (hcalls : w'.calls = (w.setCall id next).calls)
    (hentries : w'.entries = (w.setEntry id entry).entries) (hresults : w'.results = w.results)
    (hhistory : w'.history = w.history ++ [(call.key, event)])
    (hadmissions : w'.admissions = w.admissions)
    (hother : ∀ key, key ≠ call.key → w'.recorded key = w.recorded key)
    (hself : ∀ i, w'.recorded call.key = some i → i = id ∧ entry.abandoned = false)
    (hslot : (Slot.held id).step event = some (w'.slot call.key)) (hcallOk : w'.CallOk id next)
    (hentryOk : w'.EntryOk id entry) (hledger : w'.ledger.Inv) : w'.Inv := by
  obtain ⟨hrec, old, hold, holdKind, holdDigest, hopen, -⟩ := howns
  have hs : w.StepOf w' id := by
    refine .of_setEntry hcall hsame (fun e he => ?_) hcalls hentries hresults
      fun key i hi hne => ?_
    · cases hold.symm.trans he
      exact ⟨hopen, hentry.1.trans holdKind.symm, hentry.2.trans holdDigest.symm⟩
    · rw [hother key fun heq => hne (some.inj ((heq ▸ hi).symm.trans hrec))]
      exact hi
  have hcall' : w'.calls id = some next := by rw [hcalls, w.setCall_self]
  have hentry' : w'.entries id = some entry := by rw [hentries, w.setEntry_self]
  have hadm : ∀ key i, w'.Admitted key i ↔ w.Admitted key i := by
    intro key i
    rcases eq_or_ne i id with rfl | hne
    · unfold Admitted
      rw [hentry', hcall', hold, hcall]
      simp [hsame.1]
    · exact hs.admitted_iff hne key
  -- only `call.key` was recorded for the owner
  have hkeyOf : ∀ key, w.recorded key = some id → key = call.key := by
    intro key hi
    obtain ⟨⟨-, owner, howner, hok⟩, -⟩ := h.recorded key id hi
    cases hcall.symm.trans howner
    exact hok.symm
  obtain ⟨hcallsOk, hentriesOk⟩ := h.of_step hs
    (fun c hc => by
      cases hcall'.symm.trans hc
      exact hcallOk)
    (fun e he => by
      cases hentry'.symm.trans he
      exact hentryOk)
  refine ⟨hcallsOk, hentriesOk, fun key i hi => ?_, ?_, fun key i => ?_,
    hadmissions ▸ h.nodup, hledger⟩
  · rw [hadm]
    rcases eq_or_ne key call.key with rfl | hne
    · obtain ⟨rfl, hlive⟩ := hself i hi
      refine ⟨(h.recorded _ _ hrec).1, fun e he => ?_⟩
      cases hentry'.symm.trans he
      exact hlive
    · rw [hother key hne] at hi
      have hi' : i ≠ id := fun heq => hne (hkeyOf key (heq ▸ hi))
      exact ⟨(h.recorded key i hi).1, fun e he =>
        (h.recorded key i hi).2 e ((hs.others i hi').1 ▸ he)⟩
  · refine h.slots_record hhistory ?_ fun key hne => slot_congr (hother key hne.symm) fun i hi => ?_
    · have hheld : w.slot call.key = .held id := by
        unfold slot
        rw [hrec]
        simp only [hold, hopen]
        rfl
      rw [hheld]
      exact hslot
    · exact (hs.others i fun heq => hne (hkeyOf key (heq ▸ hi)).symm).1
  · rw [hadmissions, hadm]
    exact h.admitted key i

section

variable (hphase : call.phase = .finished result) (hentry : w.entries id = some entry)
include hphase hentry

theorem abandon (cause : String) : (w.abandon id call entry cause).Inv := by
  obtain ⟨howns, -⟩ := h.finished hcall hphase
  have ⟨hrec, old, hold, hkind, hdigest, _, _⟩ := howns
  obtain rfl := some.inj (hold.symm.trans hentry)
  have hnone : (w.abandon id call old cause).recorded call.key = none :=
    Ledger.abandon_lookup_self hrec
  refine h.close hcall howns (SameInput.goto call (.returned (.failed false (.abandoned cause))))
    { old with abandoned := true, done := true } ⟨hkind, hdigest⟩ rfl rfl rfl rfl
    (admissions_other rfl (by simp)) (fun key hne => Ledger.abandon_lookup_ne hrec hne)
    (fun i hi => by cases hnone.symm.trans hi) ?_ trivial ?_ (h.ledger.abandon hrec)
  · have hslot : (w.abandon id call old cause).slot call.key = .free := by
      unfold slot
      rw [hnone]
    rw [hslot]
    simp [Slot.step]
  · exact ⟨⟨_, w.setCall_self id _, hkind, hdigest, by simp⟩, fun _ => rfl, by simp⟩

theorem store (hcause : result.abandonment = none) : (w.store id call entry result.stored).Inv := by
  obtain ⟨howns, hresult⟩ := h.finished hcall hphase
  have ⟨hrec, old, hold, hkind, hdigest, _, hlive⟩ := howns
  obtain rfl := some.inj (hold.symm.trans hentry)
  have hnew : (w.store id call old result.stored).entries id =
      some { old with outcome := result.stored.1, err := result.stored.2, done := true } :=
    w.setEntry_self id _
  have hself : (w.store id call old result.stored).calls id =
      some { call with phase := .returned (.answer id result.stored.1 false result.stored.2) } :=
    w.setCall_self id _
  refine h.close hcall howns
    (SameInput.goto call (.returned (.answer id result.stored.1 false result.stored.2)))
    { old with outcome := result.stored.1, err := result.stored.2, done := true }
    ⟨hkind, hdigest⟩ rfl rfl rfl rfl (admissions_other rfl nofun) (fun _ _ => rfl)
    (fun i hi => ⟨some.inj (hi.symm.trans hrec), hlive⟩) ?_ ?_ ?_ h.ledger
  · have hslot : (w.store id call old result.stored).slot call.key = .filled id result.stored := by
      unfold slot
      rw [show (w.store id call old result.stored).recorded call.key = _ from hrec]
      simp only [hnew, if_true]
    rw [hslot]
    simp [Slot.step]
  · exact ⟨hrec, ⟨_, _, hnew, hself, rfl, hkind, hdigest⟩, _, hnew, rfl, hlive, rfl, rfl⟩
  · exact ⟨⟨_, hself, hkind, hdigest, fun _ => hrec⟩, fun _ => rfl,
      fun _ _ => ⟨result, hresult, hcause, rfl⟩⟩

end

end

theorem move (hmove : w.Move w') : w'.Inv := by
  cases hmove with
  | call hnew hphase => exact h.newCall hnew hphase
  | pass hcall hkey hkind hdigest hok => exact h.pass hcall hkey hkind hdigest hok
  | finish hcall hphase => exact h.finish hcall hphase _
  | accept hcall hphase hfree hcapacity => exact h.accept hcall hphase hfree hcapacity
  | abandon hcall hphase hentry hcause => exact h.abandon hcall hphase hentry _
  | store hcall hphase hentry hcause => exact h.store hcall hphase hentry hcause

end Inv

theorem Move.maxima (hmove : w.Move w') :
    w'.ledger.maximumClients = w.ledger.maximumClients ∧
      w'.ledger.maximumPerClient = w.ledger.maximumPerClient := by
  cases hmove with
  | abandon hcall hphase hentry hcause =>
    simp only [LedgerWorld.abandon, fail, goto, setCall, record, setEntry, Ledger.abandon]
    split_ifs <;> exact ⟨rfl, rfl⟩
  | call | pass | finish | accept | store => exact ⟨rfl, rfl⟩

section

variable {maximumClients maximumPerClient : ℕ} {ledger : Ledger}
    (hnew : Ledger.new maximumClients maximumPerClient = some ledger)
include hnew

theorem init_inv : (ledgerSystem ledger).init.Inv := by
  unfold Ledger.new at hnew
  split_ifs at hnew
  cases hnew
  exact
    { calls := nofun
      entries := nofun
      recorded := nofun
      slots := fun _ => rfl
      admitted := fun _ _ => ⟨nofun, fun ha => (by cases ha.1)⟩
      nodup := nodup_nil
      ledger := ⟨.empty, Nat.zero_le _, fun _ => Nat.zero_le _⟩ }

theorem reachable_inv (hw : (ledgerSystem ledger).Reachable w) :
    w.Inv ∧ w.ledger.maximumClients = ledger.maximumClients ∧ w.ledger.maximumPerClient =
      ledger.maximumPerClient := by
  refine hw.invariant (I := fun w => w.Inv ∧ w.ledger.maximumClients = ledger.maximumClients ∧
    w.ledger.maximumPerClient = ledger.maximumPerClient) ⟨init_inv hnew, rfl, rfl⟩ ?_
  rintro s t label - ⟨hinv, hc, hp⟩ hstep
  have hmove := step_move hinv hstep
  exact ⟨hinv.move hmove, hmove.maxima.1.trans hc, hmove.maxima.2.trans hp⟩

end

end LedgerWorld

end SpiceAgent.Daemon
