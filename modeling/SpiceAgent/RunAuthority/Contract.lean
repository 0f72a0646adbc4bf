import SpiceAgent.RunAuthority.Turns

/-!
# At most one right to execute a run

What holds in every state that any number of stores over one directory can reach: one lease for each
run, one successful import for each signed snapshot, and the order of the durable records.
-/

namespace SpiceAgent.RunAuthority

open SpiceAgent.Lib List

variable {M : Type*} {identity : Identity} {mac : String → ℕ → SnapshotInput → M}
  {runID : String} {record : Option (Record M)} {log : List (Write M)} {claim : M} {i j k : ℕ}
  {e : Write M}

/-! ## The order of the records -/

/-- The phase and the generation of a written record. -/
def Write.state (write : Write M) : Phase × ℕ := (write.record.phase, write.record.runGeneration)

/-- The transitions of a run that is started, suspended, resumed, imported and ended while
active. -/
inductive Listed : Option (Phase × ℕ) → Phase × ℕ → Prop
  | start : Listed none (.active, 1)
  | suspend (g : ℕ) : Listed (some (.active, g)) (.suspended, g)
  | terminal (g : ℕ) (phase : Phase) : phase.terminal → Listed (some (.active, g)) (phase, g)
  | resume (g : ℕ) : Listed (some (.suspended, g)) (.active, g + 1)
  | consume (g : ℕ) : Listed (some (.suspended, g)) (.importing, g + 1)

/-- The transitions of a run: a suspended run can also end, and an import is activated. -/
inductive Follows : Option (Phase × ℕ) → Phase × ℕ → Prop
  | listed {p : Option (Phase × ℕ)} {q : Phase × ℕ} : Listed p q → Follows p q
  | endSuspended (g : ℕ) (phase : Phase) : phase.terminal →
      Follows (some (.suspended, g)) (phase, g)
  | activate (g : ℕ) : Follows (some (.importing, g)) (.active, g)

def Record.state (record : Record M) : Phase × ℕ := (record.phase, record.runGeneration)

theorem Allowed.follows (h : Allowed identity mac runID record e) :
    Follows (record.map Record.state) e.state := by
  cases h with
  | start => exact .listed .start
  | suspend _ _ g => exact .listed (.suspend g)
  | endActive _ _ g phase hp => exact .listed (.terminal g phase hp)
  | endSuspended _ _ g _ phase hp => exact .endSuspended g phase hp
  | resume _ _ g => exact .listed (.resume g)
  | consume _ _ g => exact .listed (.consume g)
  | activate _ _ g => exact .activate g

theorem replaced_state (log : List (Write M)) (i : ℕ) :
    replaced Write.state log i = (replaced Write.record log i).map Record.state := by
  cases i with
  | zero => rfl
  | succ i =>
    rw [replaced, replaced, Option.map_map]
    rfl

theorem History.follows (h : History identity mac runID record log) :
    Linked Write.state (fun p e => Follows p e.state) log := by
  intro i e he
  rw [replaced_state]
  exact (h.linked i e he).follows

/-! ## Claims -/

/-- The write replaces the suspended record with the claim. -/
def Spends (identity : Identity) (runID : String) (claim : M) (log : List (Write M)) (i : ℕ) :
    Prop :=
  ∃ g snapshot, snapshot.authorityMAC = claim ∧
    replaced Write.record log i = some (identity.suspendedRecord runID g snapshot)

/-- No two suspensions of the run were signed with the same MAC. -/
def MACsDiffer (log : List (Write M)) : Prop :=
  ∀ e ∈ log, ∀ e' ∈ log, e.record.phase = .suspended → e'.record.phase = .suspended →
    e.record.snapshot.map (·.authorityMAC) = e'.record.snapshot.map (·.authorityMAC) →
    e.record.runGeneration = e'.record.runGeneration

section

variable (h : History identity mac runID record log)
include h

theorem History.spends_unique (hmac : MACsDiffer log) (hi : Spends identity runID claim log i)
    (hj : Spends identity runID claim log j) : i = j := by
  obtain ⟨g, snapshot, hclaim, hbefore⟩ := hi
  obtain ⟨g', snapshot', hclaim', hbefore'⟩ := hj
  have hmem {k : ℕ} {record : Record M} (hk : replaced Write.record log k = some record) :
      ∃ e ∈ log, e.record = record := by
    cases k with
    | zero => cases hk
    | succ k =>
      obtain ⟨e, he, hrecord⟩ := Option.map_eq_some_iff.mp hk
      exact ⟨e, mem_of_getElem? he, hrecord⟩
  obtain ⟨e, he, hrecord⟩ := hmem hbefore
  obtain ⟨e', he', hrecord'⟩ := hmem hbefore'
  have hg : g = g' := by
    have hdiffer := hmac e he e' he'
    rw [hrecord, hrecord'] at hdiffer
    exact hdiffer rfl rfl (congrArg some (hclaim.trans hclaim'.symm))
  subst hg
  exact h.linked.replaced_eq (fun _ _ => Allowed.rank_lt) hbefore hbefore' rfl

theorem History.consume_spends (hi : log[i]? = some e) (hcause : e.cause = .consume claim) :
    Spends identity runID claim log i := by
  have hallowed := h.linked i e hi
  generalize hbefore : replaced Write.record log i = before at hallowed
  cases hallowed <;> cases hcause
  exact ⟨_, _, rfl, hbefore⟩

theorem History.terminal_last (hi : log[i]? = some e) (hcause : e.cause = .terminal) :
    i + 1 = log.length := by
  have hlt := (List.getElem?_eq_some_iff.mp hi).1
  have hterminal : e.record.phase.terminal = true := by
    have hallowed := h.linked i e hi
    generalize replaced Write.record log i = before at hallowed
    cases hallowed with
    | endActive _ _ _ _ hp => exact hp
    | endSuspended _ _ _ _ _ hp => exact hp
    | start | suspend | resume | consume | activate => cases hcause
  by_contra hne
  have hnext : i + 1 < log.length := by omega
  have hallowed := h.linked (i + 1) _ (getElem?_eq_getElem hnext)
  rw [replaced, hi, Option.map_some] at hallowed
  generalize e.record = before at hterminal hallowed
  generalize log[i + 1] = next at hallowed
  cases hallowed <;> cases hterminal

end

/-- What a run's history says about one claim. -/
structure SpentOnce (identity : Identity) (runID : String) (claim : M) (log : List (Write M)) :
    Prop where
  /-- At most one `Consume` is durable. -/
  consume : ∀ (i j : ℕ) (e e' : Write M), log[i]? = some e → log[j]? = some e' →
    e.cause = .consume claim → e'.cause = .consume claim → i = j
  /-- At most one `Activate` is durable. -/
  activate : ∀ (i j : ℕ) (e e' : Write M), log[i]? = some e → log[j]? = some e' →
    e.cause = .activate claim → e'.cause = .activate claim → i = j
  /-- An `Activate` directly follows the successful `Consume` of the same import. -/
  follows : ∀ (j : ℕ) (e' : Write M), log[j]? = some e' → e'.cause = .activate claim →
    ∃ (i : ℕ) (e : Write M), j = i + 1 ∧ log[i]? = some e ∧ e.cause = .consume claim ∧
      e.success = true ∧ e.party = e'.party
  /-- After a `Resume` or a terminal record in place of the claim's record there is neither. -/
  spent : ∀ (k : ℕ) (e : Write M), Spends identity runID claim log k → log[k]? = some e →
    e.cause = .resume ∨ e.cause = .terminal →
    ∀ (i : ℕ) (e' : Write M), log[i]? = some e' → e'.cause ≠ .consume claim ∧ e'.cause ≠
      .activate claim
  /-- Nothing follows a terminal record of the run. -/
  terminal : ∀ (k : ℕ) (e : Write M), log[k]? = some e → e.cause = .terminal → k + 1 = log.length

theorem History.spentOnce (h : History identity mac runID record log) (hmac : MACsDiffer log)
    (claim : M) : SpentOnce identity runID claim log := by
  have hconsume : ∀ (i j : ℕ) (e e' : Write M), log[i]? = some e → log[j]? = some e' →
      e.cause = .consume claim → e'.cause = .consume claim → i = j := by
    intro i j e e' hi hj hc hc'
    exact h.spends_unique hmac (h.consume_spends hi hc) (h.consume_spends hj hc')
  have hfollows : ∀ (j : ℕ) (e' : Write M), log[j]? = some e' → e'.cause = .activate claim →
      ∃ (i : ℕ) (e : Write M), j = i + 1 ∧ log[i]? = some e ∧ e.cause = .consume claim ∧
        e.success = true ∧ e.party = e'.party := by
    rintro j ⟨cause, id, success, record⟩ hj rfl
    obtain ⟨i, record, rfl, hi⟩ := h.activated j claim id success record hj
    exact ⟨i, _, rfl, hi, rfl, rfl, rfl⟩
  refine ⟨hconsume, ?_, hfollows, ?_, fun k e => h.terminal_last⟩
  · intro i j e e' hi hj hc hc'
    obtain ⟨i', f, rfl, hi', hf, -⟩ := hfollows i e hi hc
    obtain ⟨j', f', rfl, hj', hf', -⟩ := hfollows j e' hj hc'
    rw [hconsume i' j' f f' hi' hj' hf hf']
  · intro k e hk hke hcause
    have hnone (i : ℕ) (e' : Write M) (hi : log[i]? = some e') : e'.cause ≠ .consume claim := by
      intro hc
      obtain rfl := h.spends_unique hmac hk (h.consume_spends hi hc)
      cases hke.symm.trans hi
      rw [hc] at hcause
      rcases hcause with hcause | hcause <;> cases hcause
    intro i e' hi
    refine ⟨hnone i e' hi, fun hc => ?_⟩
    obtain ⟨i', f, -, hi', hf, -⟩ := hfollows i e' hi hc
    exact hnone i' f hi' hf

/-! ## Leases -/

/-- An un-closed `Active` or `Import` of the run. -/
def Party.Leases (runID : String) : Party M → Prop
  | .active value _ => value.runID = runID ∧ value.closed = false
  | .importing value _ => value.runID = runID ∧ value.closed = false
  | .call .. | .failed .. | .crashed => False

theorem World.Inv.leases_holds {w : World M} {id : ℕ} {p : Party M} (hinv : w.Inv identity mac)
    (hp : w.parties id = some p) (h : p.Leases runID) : p.Holds runID := by
  cases p with
  | active value after =>
    obtain ⟨hclosed, -⟩ := hinv.ok id _ hp
    exact ⟨h.1, by simpa [h.2] using hclosed⟩
  | importing value after =>
    obtain ⟨hclosed, -⟩ := hinv.ok id _ hp
    exact ⟨h.1, by simpa [h.2] using hclosed⟩
  | call => exact h.elim
  | failed => exact h.elim
  | crashed => exact h.elim

/-! ## Main result -/

variable [DecidableEq M] {validEnvelope : Envelope M → Bool} {w : World M}

/-- In every reachable state a run has at most one un-closed lease, its durable records follow each
other, and each claim on one of its snapshots has been spent at most once, if the MACs signed so far
tell its suspensions apart. -/
theorem execution_right (hw : (World.system identity mac validEnvelope).Reachable w)
    (runID : String) :
    (∀ id id' p p', w.parties id = some p → w.parties id' = some p' →
      p.Leases runID → p'.Leases runID → id = id') ∧
    (MACsDiffer (w.log runID) → ∀ claim, SpentOnce identity runID claim (w.log runID)) ∧
    Linked Write.state (fun before write => Follows before write.state) (w.log runID) ∧
    present Write.record (w.log runID) = w.disk runID := by
  have hinv := World.Inv.of_reachable hw
  have hhistory := hinv.history runID
  refine ⟨?_, hhistory.spentOnce, hhistory.follows, hhistory.present⟩
  intro id id' p p' hp hp' hopen hopen'
  by_contra hne
  exact hinv.free_of_holds hp (hinv.leases_holds hp hopen) id' p' (fun h => hne h.symm) hp'
    (hinv.leases_holds hp' hopen')

/-- Whatever failed or crashed, a lease that is open, certain and between two methods has the lock
of its run and its belief is on disk: the active or suspended record of its generation, or for
an import the suspended record with the claimed MAC and then its own reservation. -/
theorem lease_mirrors_record (hw : (World.system identity mac validEnvelope).Reachable w) (id : ℕ) :
    (∀ value, w.parties id = some (.active value .idle) → value.closed = false →
      value.uncertain = false → w.locks value.runID = some (.party id) ∧
        w.disk value.runID = some (value.current identity)) ∧
    ∀ value, w.parties id = some (.importing value .idle) → value.closed = false →
      value.uncertain = false → w.locks value.runID = some (.party id) ∧
        value.Knows identity id (w.disk value.runID) (w.log value.runID) := by
  have hinv := World.Inv.of_reachable hw
  constructor
  all_goals
    intro value hp hopen hcertain
    obtain ⟨hclosed, -, hmirrors⟩ := hinv.ok id _ hp
    have hlock : value.lock = true := by simpa [hopen] using hclosed
    exact ⟨hinv.owns id _ _ hp ⟨rfl, hlock⟩, hmirrors hlock hcertain rfl⟩

/-! ## Two runs -/

/-- An authority with MACs of one byte: the generations of the runs, modulo 256. -/
def sampleSystem : System (World ℕ) (Label ℕ) :=
  World.system { authorityGeneration := 1, scopeID := replicate 32 7 } (fun _ g _ => g % 256)
    fun _ => true

/-- Everything is available and every write succeeds. -/
def smooth : Choice := { fault := false, ctxDone := false, released := true, outcome := .done }

/-- What the kernel exports when the run is suspended. -/
def sampleInput : SnapshotInput :=
  { format := snapshotFormat, runID := "r", lastSequence := 5, lifecycle := .suspended,
    payloadSHA256 := replicate 32 9 }

def sampleSnapshot : Envelope ℕ :=
  { format := snapshotFormat, runID := "r", lastSequence := 5, lifecycle := .suspended,
    sha256 := replicate 32 9,
    authority := { scopeID := replicate 32 7, generation := 1, hmacSHA256 := 1 } }

def suspendedRun : List (Label ℕ) :=
  [.openStore 0, .start 1 0 "r" false, .go 1 smooth, .go 1 smooth, .go 1 smooth, .go 1 smooth,
    .method 1 (.signSnapshot sampleInput) smooth]

def cancelledRun : List (Label ℕ) :=
  suspendedRun ++ [.method 1 (.terminal .cancelled) smooth]

/-- The lease of the suspended run is closed, and another store imports the snapshot. -/
def importedRun : List (Label ℕ) :=
  suspendedRun ++ [.method 1 .close smooth, .go 1 smooth, .go 1 smooth, .openStore 1,
    .prepareImport 2 1 sampleSnapshot false, .go 2 smooth, .go 2 smooth, .go 2 smooth,
    .method 2 .consume smooth, .method 2 (.activate 3) smooth]

/-- After the import only its lease is open, and the claim is spent. -/
theorem execution_right_imported :
    ∃ w, sampleSystem.after importedRun = some w ∧
      (w.log "r").map Write.state =
        [(.active, 1), (.suspended, 1), (.importing, 2), (.active, 2)] ∧
      (∀ id p, w.parties id = some p → p.Leases "r" → id = 3) ∧
      SpentOnce { authorityGeneration := 1, scopeID := replicate 32 7 } "r" 1 (w.log "r") := by
  have hrun : sampleSystem.after importedRun = some _ := rfl
  have h := execution_right (System.reachable_of_run hrun) "r"
  refine ⟨_, hrun, by decide, fun id p hp hopen => h.1 id 3 p _ hp rfl hopen ⟨rfl, rfl⟩,
    h.2.1 ?_ 1⟩
  unfold MACsDiffer
  decide

/-- The lease of the imported run. -/
theorem lease_mirrors_record_imported :
    ∃ w, sampleSystem.after importedRun = some w ∧
      (w.disk "r").map Record.state = some (.active, 2) := by
  have hrun : sampleSystem.after importedRun = some _ := rfl
  have h := (lease_mirrors_record (System.reachable_of_run hrun) 3).1 _ rfl rfl rfl
  exact ⟨_, hrun, congrArg (Option.map Record.state) h.2⟩

/-- A suspended run ends, and an import is activated: neither transition is among the listed
ones. -/
theorem records_leave_list :
    (∃ w, sampleSystem.Reachable w ∧
      (w.log "r").map Write.state = [(.active, 1), (.suspended, 1), (.cancelled, 1)] ∧
      ¬Linked Write.state (fun before write => Listed before write.state) (w.log "r")) ∧
    ∃ w, sampleSystem.Reachable w ∧
      (w.log "r").map Write.state =
        [(.active, 1), (.suspended, 1), (.importing, 2), (.active, 2)] ∧
      ¬Linked Write.state (fun before write => Listed before write.state) (w.log "r") := by
  constructor
  · have hrun : sampleSystem.after cancelledRun = some _ := rfl
    refine ⟨_, System.reachable_of_run hrun, by decide, fun hlinked => ?_⟩
    have hlisted : Listed (some (.suspended, 1)) (.cancelled, 1) := hlinked 2 _ rfl
    cases hlisted
  · have hrun : sampleSystem.after importedRun = some _ := rfl
    refine ⟨_, System.reachable_of_run hrun, by decide, fun hlinked => ?_⟩
    have hlisted : Listed (some (.importing, 2)) (.active, 2) := hlinked 3 _ rfl
    cases hlisted

end SpiceAgent.RunAuthority
