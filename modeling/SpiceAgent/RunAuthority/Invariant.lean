import SpiceAgent.RunAuthority.Transitions
import SpiceAgent.Lib.WriteHistory

/-!
# What the lock of a run protects

A party that has the lock of its run knows the record of the run: nobody else writes it. So every
write is one of the transitions of `Allowed`, and the writes to one record file form a `Linked`
history.
-/

namespace SpiceAgent.RunAuthority

open SpiceAgent.Lib List
open Function (update update_of_ne update_self)

variable {M : Type*}

/-! ## What a party knows -/

def Party.Holds (runID : String) : Party M → Prop
  | .call _ r _ phase => r = runID ∧
    match phase with
    | .locked | .absent | .dropping _ => True
    | .entered | .checked | .marking | .releasing _ => False
  | .active value _ => value.runID = runID ∧ value.lock = true
  | .importing value _ => value.runID = runID ∧ value.lock = true
  | .failed .. | .crashed => False

section Knowledge

variable (identity : Identity) (mac : String → ℕ → SnapshotInput → M)

/-- What an `Import` knows about the record and the history of its run. -/
def Import.Knows (id : ℕ) (transaction : Import M) (record : Option (Record M))
    (log : List (Write M)) : Prop :=
  if transaction.consumed then
    record = some
      (identity.baseRecord transaction.runID (transaction.sourceRunGeneration + 1) .importing) ∧
    ∃ record, log.getLast? = some ⟨.consume transaction.expectedMAC, id, true, record⟩
  else
    ∃ snapshot : SnapshotRecord M, snapshot.authorityMAC = transaction.expectedMAC ∧
      record = some
        (identity.suspendedRecord transaction.runID transaction.sourceRunGeneration snapshot)

/-- A running method still has a reason for what it has to do. -/
def After.Fits (lock uncertain : Bool) : After → Prop
  | .idle => True
  | .marking => uncertain = true
  | .finishing => lock = true
  | .ending => lock = false

/-- What a party knows about the records and the histories. -/
def Party.Ok (disk : String → Option (Record M)) (log : String → List (Write M)) (id : ℕ) :
    Party M → Prop
  | .call _ runID .start .absent => disk runID = none
  | .active value after => value.closed = !value.lock ∧ after.Fits value.lock value.uncertain ∧
    (value.lock = true → value.uncertain = false → after = .idle →
      disk value.runID = some (value.current identity))
  | .importing value after => value.closed = !value.lock ∧ after.Fits value.lock value.uncertain ∧
    (value.lock = true → value.uncertain = false → after = .idle →
      value.Knows identity id (disk value.runID) (log value.runID))
  | .call .. | .failed .. | .crashed => True

theorem Party.Ok.congr {disk disk' : String → Option (Record M)}
    {log log' : String → List (Write M)} {id : ℕ} {p : Party M} (h : p.Ok identity disk log id)
    (heq : ∀ r, p.Holds r → disk' r = disk r ∧ log' r = log r) : p.Ok identity disk' log' id := by
  cases p with
  | call store r request phase =>
    cases request with
    | prepareImport snapshot => exact trivial
    | start =>
      cases phase with
      | absent =>
        show disk' r = none
        rw [(heq r ⟨rfl, trivial⟩).1]
        exact h
      | _ => exact trivial
  | active value after =>
    refine ⟨h.1, h.2.1, fun hlock hcertain hidle => ?_⟩
    rw [(heq value.runID ⟨rfl, hlock⟩).1]
    exact h.2.2 hlock hcertain hidle
  | importing value after =>
    refine ⟨h.1, h.2.1, fun hlock hcertain hidle => ?_⟩
    rw [(heq value.runID ⟨rfl, hlock⟩).1, (heq value.runID ⟨rfl, hlock⟩).2]
    exact h.2.2 hlock hcertain hidle
  | failed => exact trivial
  | crashed => exact trivial

/-- The writes to a record file are allowed and lead to its record. -/
structure History (runID : String) (record : Option (Record M)) (log : List (Write M)) : Prop where
  linked : Linked Write.record (Allowed identity mac runID) log
  present : present Write.record log = record
  /-- An `Activate` directly follows the `Consume` of the same import. -/
  activated : ∀ i claim id success record, log[i]? = some ⟨.activate claim, id, success, record⟩ →
    ∃ j record, i = j + 1 ∧ log[j]? = some ⟨.consume claim, id, true, record⟩

/-- The invariant of the run authority. -/
structure World.Inv (w : World M) : Prop where
  owns : ∀ id p r, w.parties id = some p → p.Holds r → w.locks r = some (.party id)
  ok : ∀ id p, w.parties id = some p → p.Ok identity w.disk w.log id
  history : ∀ r, History identity mac r (w.disk r) (w.log r)

end Knowledge

/-! ## One party moves -/

section Moves

variable {identity : Identity} {mac : String → ℕ → SnapshotInput → M} {w w' : World M} {id : ℕ}
  {p p' : Party M} {r : String} {e : Write M}

theorem History.install {record : Option (Record M)} {log : List (Write M)}
    (h : History identity mac r record log) (he : Allowed identity mac r record e)
    (hactivate : ∀ claim, e.cause = .activate claim →
      ∃ record, log.getLast? = some ⟨.consume claim, e.party, true, record⟩) :
    History identity mac r (some e.record) (log ++ [e]) := by
  refine ⟨h.linked.concat ?_, present_concat, ?_⟩
  · rw [h.present]
    exact he
  · intro i claim id success record hi
    rcases Nat.lt_or_ge i log.length with hlt | hge
    · rw [getElem?_append_left hlt] at hi
      obtain ⟨j, record, rfl, hj⟩ := h.activated i claim id success record hi
      refine ⟨j, record, rfl, ?_⟩
      rw [getElem?_append_left (by omega)]
      exact hj
    · have hlt := (List.getElem?_eq_some_iff.mp hi).1
      rw [length_append, length_singleton] at hlt
      obtain rfl : i = log.length := by omega
      obtain rfl : e = _ := by simpa using hi
      obtain ⟨record, hlast⟩ := hactivate claim rfl
      rw [getLast?_eq_getElem?] at hlast
      have hpos := (List.getElem?_eq_some_iff.mp hlast).1
      refine ⟨log.length - 1, record, by omega, ?_⟩
      rw [getElem?_append_left hpos]
      exact hlast

/-- Nobody but the party has the lock of the run. -/
def World.FreeFor (w : World M) (id : ℕ) (r : String) : Prop :=
  ∀ id' p, id' ≠ id → w.parties id' = some p → ¬p.Holds r

variable (hinv : w.Inv identity mac)
include hinv

theorem World.Inv.free_of_holds (hp : w.parties id = some p) (hr : p.Holds r) : w.FreeFor id r := by
  intro id' p' hne hp' hr'
  have h := (hinv.owns id p r hp hr).symm.trans (hinv.owns id' p' r hp' hr')
  cases h
  exact hne rfl

theorem World.Inv.free_of_unlocked (hr : w.locks r = none) : w.FreeFor id r := by
  intro id' p' _ hp' hr'
  have h := hr.symm.trans (hinv.owns id' p' r hp' hr')
  cases h

theorem World.Inv.move (hparties : w'.parties = update w.parties id (some p'))
    (hframe : ∀ r, (w'.disk r = w.disk r ∧ w'.log r = w.log r ∧ w'.locks r = w.locks r) ∨
      w.FreeFor id r) (howns : ∀ r, p'.Holds r → w'.locks r = some (.party id))
    (hok : p'.Ok identity w'.disk w'.log id)
    (hhistory : ∀ r, History identity mac r (w'.disk r) (w'.log r)) : w'.Inv identity mac := by
  refine ⟨?_, ?_, hhistory⟩
  · intro id' q r hq hr
    rw [hparties] at hq
    rcases eq_or_ne id' id with rfl | hne
    · rw [update_self] at hq
      cases hq
      exact howns r hr
    · rw [update_of_ne hne] at hq
      rcases hframe r with ⟨-, -, hlocks⟩ | hfree
      · rw [hlocks]
        exact hinv.owns id' q r hq hr
      · exact absurd hr (hfree id' q hne hq)
  · intro id' q hq
    rw [hparties] at hq
    rcases eq_or_ne id' id with rfl | hne
    · rw [update_self] at hq
      cases hq
      exact hok
    · rw [update_of_ne hne] at hq
      refine (hinv.ok id' q hq).congr identity fun r hr => ?_
      rcases hframe r with ⟨hdisk, hlog, -⟩ | hfree
      · exact ⟨hdisk, hlog⟩
      · exact absurd hr (hfree id' q hne hq)

theorem World.Inv.setParty (stores : ℕ → Option Store)
    (howns : ∀ r, p'.Holds r → w.locks r = some (.party id))
    (hok : p'.Ok identity w.disk w.log id) :
    ({ w with stores }.setParty id p').Inv identity mac :=
  hinv.move rfl (fun _ => .inl ⟨rfl, rfl, rfl⟩) howns hok hinv.history

section

variable (hp : w.parties id = some p) (hr : p.Holds r)
include hp hr

theorem World.Inv.closeLock (store : ℕ) (released : Bool)
    (hholds : ∀ r', ¬p'.Holds r') (hok : p'.Ok identity w.disk w.log id) :
    ((w.closeLock r store released).setParty id p').Inv identity mac := by
  refine hinv.move rfl ?_ (fun r' hr' => absurd hr' (hholds r')) hok hinv.history
  intro r'
  rcases eq_or_ne r' r with rfl | hne
  · exact .inr (hinv.free_of_holds hp hr)
  · exact .inl ⟨rfl, rfl, update_of_ne hne ..⟩

variable (he : Allowed identity mac r (w.disk r) e)
  (hactivate : ∀ claim, e.cause = .activate claim →
    ∃ record, (w.log r).getLast? = some ⟨.consume claim, e.party, true, record⟩)
  (hholds : ∀ r', p'.Holds r' → r' = r)
include he hactivate hholds

theorem World.Inv.install (hok : p'.Ok identity (w.install r e).disk (w.install r e).log id) :
    ((w.install r e).setParty id p').Inv identity mac := by
  refine hinv.move rfl ?_ ?_ hok ?_
  · intro r'
    rcases eq_or_ne r' r with rfl | hne
    · exact .inr (hinv.free_of_holds hp hr)
    · exact .inl ⟨update_of_ne hne .., update_of_ne hne .., rfl⟩
  · intro r' hr'
    rw [hholds r' hr']
    exact hinv.owns id p r hp hr
  · intro r'
    show History identity mac r' (update w.disk r _ r') (update w.log r _ r')
    rcases eq_or_ne r' r with rfl | hne
    · rw [update_self, update_self]
      exact (hinv.history r').install he hactivate
    · rw [update_of_ne hne, update_of_ne hne]
      exact hinv.history r'

/-- A party that has the lock of a run has attempted a write and knows nothing from then on. -/
theorem World.Inv.attempt (hok : ∀ disk log, p'.Ok identity disk log id) (store : ℕ)
    (installed : Bool) : ((w.attempt store r e installed).setParty id p').Inv identity mac := by
  cases installed with
  | true =>
    have h := hinv.install hp hr he hactivate hholds (hok _ _)
    exact ⟨h.owns, h.ok, h.history⟩
  | false =>
    have h : (w.setParty id p').Inv identity mac := by
      refine hinv.setParty w.stores (fun r' hr' => ?_) (hok _ _)
      rw [hholds r' hr']
      exact hinv.owns id p r hp hr
    exact ⟨h.owns, h.ok, h.history⟩

end

theorem World.Inv.acquire (hfree : w.FreeFor id r) (hholds : ∀ r', p'.Holds r' → r' = r)
    (hok : p'.Ok identity w.disk w.log id) :
    ({ w with locks := update w.locks r (some (.party id)) }.setParty id p').Inv
      identity mac := by
  refine hinv.move rfl ?_ ?_ hok hinv.history
  · intro r'
    rcases eq_or_ne r' r with rfl | hne
    · exact .inr hfree
    · exact .inl ⟨rfl, rfl, update_of_ne hne ..⟩
  · intro r' hr'
    rw [hholds r' hr']
    exact update_self ..

end Moves

end SpiceAgent.RunAuthority
