import SpiceAgent.Lib.MapTotal
import SpiceAgent.Lib.Transition

/-!
# The run identity ledger

`agent/run_identity.go`: the ledger of run IDs of an engine, with its counters as machine integers.
An engine serves calls one after another under its mutex; a `RunIdentityRetirement` is a capability
that any holder may use at any time. The engine makes two transitions, of a reserved record to an
active one and of an active record to a tombstone; `transition` itself also makes any other to one
of these states.
-/

namespace SpiceAgent.Agent.RunIdentity

open SpiceAgent.Lib Finmap List

/-- A Go string is no longer than the largest `int`. -/
abbrev RunID := { s : String // s.utf8ByteSize < 2 ^ 63 }

def maximumRunIdentityEntries : UInt32 := 1048576

def maximumRunIdentityBytes : UInt64 := 268435456

def runIdentityEntryBytes : UInt64 := 128

/-- `RunIdentityLimits` that pass `Validate`. -/
structure Limits where
  entries : UInt32
  bytes : UInt64
  entries_valid : 1 ≤ entries ∧ entries ≤ maximumRunIdentityEntries
  bytes_valid : runIdentityEntryBytes + 1 ≤ bytes ∧ bytes ≤ maximumRunIdentityBytes

inductive State
  | reserved | active | tombstone
  deriving DecidableEq

structure Record where
  token : UInt64
  charge : UInt64
  state : State

structure Ledger where
  limits : Limits
  records : Finmap fun _ : RunID => Record
  nextToken : UInt64
  bytes : UInt64
  reserved : UInt32
  active : UInt32
  tombstones : UInt32

/-- `RunIdentityStats`. -/
structure Stats where
  limits : Limits
  reserved : UInt32
  active : UInt32
  tombstones : UInt32
  bytes : UInt64

def Stats.entries (stats : Stats) : UInt32 := stats.reserved + stats.active + stats.tombstones

inductive Kind
  | start | resume

/-- `duplicate` is `preparedDuplicateError`, `capacity` a `RunIdentityCapacityError` and `state` is
`errRunIdentityState`. -/
inductive Failure
  | duplicate (kind : Kind) (runID : RunID)
  | capacity (resource : String) (limit observed : UInt64) (stats : Stats)
  | state
  | text (message : String)

namespace Ledger

def new (limits : Limits) : Ledger := ⟨limits, ∅, 0, 0, 0, 0, 0⟩

variable (l : Ledger) (runID : RunID)

def stats : Stats := ⟨l.limits, l.reserved, l.active, l.tombstones, l.bytes⟩

def charge (runID : RunID) : UInt64 := runIdentityEntryBytes + .ofNat runID.1.utf8ByteSize

/-- The ledger with a reserved record under the next token. -/
def added : Ledger :=
  { l with
    nextToken := l.nextToken + 1
    records := l.records.insert runID ⟨l.nextToken + 1, charge runID, .reserved⟩
    bytes := l.bytes + charge runID
    reserved := l.reserved + 1 }

def reserve (kind : Kind) : Ledger × Except Failure UInt64 :=
  if runID ∈ l.records then (l, .error (.duplicate kind runID))
  else if l.limits.entries < l.stats.entries + 1 then
    (l, .error
      (.capacity "entries" l.limits.entries.toUInt64 (l.stats.entries.toUInt64 + 1) l.stats))
  else if l.limits.bytes < l.bytes + charge runID then
    (l, .error (.capacity "bytes" l.limits.bytes (l.bytes + charge runID) l.stats))
  else if l.nextToken = ~~~0 then
    (l, .error (.text "agent run identity token space is exhausted"))
  else (l.added runID, .ok (l.nextToken + 1))

/-- The counter of the state is replaced. -/
def adjust (f : UInt32 → UInt32) : State → Ledger
  | .reserved => { l with reserved := f l.reserved }
  | .active => { l with active := f l.active }
  | .tombstone => { l with tombstones := f l.tombstones }

def moved (record : Record) (target : State) : Ledger :=
  { (l.adjust (· - 1) record.state).adjust (· + 1) target with
    records := l.records.insert runID { record with state := target } }

variable (token : UInt64)

def transition (source target : State) : Ledger × Except Failure Unit :=
  match l.records.lookup runID with
  | none => (l, .error .state)
  | some record =>
    if record.token ≠ token ∨ record.state ≠ source then (l, .error .state)
    else if target ≠ .active ∧ target ≠ .tombstone then (l, .error .state)
    else (l.moved runID record target, .ok ())

def removed (record : Record) : Ledger :=
  { l.adjust (· - 1) record.state with
    records := l.records.erase runID
    bytes := l.bytes - record.charge }

/-- The record of the token is deleted if it is in the state. -/
def remove (state : State) : Ledger × Except Failure Unit :=
  match l.records.lookup runID with
  | none => (l, .error .state)
  | some record =>
    if record.token ≠ token ∨ record.state ≠ state then (l, .error .state)
    else (l.removed runID record, .ok ())

def abort : Ledger × Except Failure Unit :=
  l.remove runID token .reserved

def retire : Ledger × Except Failure Unit :=
  l.remove runID token .tombstone

end Ledger

/-- `RunIdentityRetirement`. -/
structure Retirement where
  runID : RunID
  token : UInt64
  retired : Bool := false

/-- An engine, the capabilities that were made for it, and the tokens that `reserve` returned. -/
structure World where
  identities : Ledger
  closed : Bool := false
  retirements : List Retirement := []
  issued : List (RunID × UInt64) := []

inductive Call
  | reserve (runID : RunID) (kind : Kind)
  | transition (runID : RunID) (token : UInt64) (source target : State)
  | abort (runID : RunID) (token : UInt64)
  | retire (runID : RunID) (token : UInt64)
  /-- A new capability, whatever its run ID and token. -/
  | grant (runID : RunID) (token : UInt64)
  /-- `Retire` of a capability. -/
  | retireOnce (k : ℕ)
  | close

namespace World

variable (w : World)

/-- The world with the ledger and the result of a call of it. -/
def after (outcome : Ledger × Except Failure Unit) : World × Except Failure Unit :=
  ({ w with identities := outcome.1 }, outcome.2)

def reserveRunIdentity (runID : RunID) (kind : Kind) : World × Except Failure Unit :=
  if w.closed then (w, .error (.text "agent engine is closed"))
  else match w.identities.reserve runID kind with
    | (l, .error failure) => ({ w with identities := l }, .error failure)
    | (l, .ok token) => ({ w with identities := l, issued := w.issued ++ [(runID, token)] }, .ok ())

def retireOnce (k : ℕ) : World × Except Failure Unit :=
  match w.retirements[k]? with
  | none => (w, .error (.text "agent run identity retirement is nil"))
  | some retirement =>
    if retirement.retired then (w, .ok ())
    else
      let (l, result) := w.identities.retire retirement.runID retirement.token
      let retirement := { retirement with retired := result.isOk }
      ({ w with identities := l, retirements := w.retirements.set k retirement }, result)

def call : Call → World × Except Failure Unit
  | .reserve runID kind => w.reserveRunIdentity runID kind
  | .transition runID token source target =>
    w.after (w.identities.transition runID token source target)
  | .abort runID token => w.after (w.identities.abort runID token)
  | .retire runID token => w.after (w.identities.retire runID token)
  | .grant runID token =>
    ({ w with retirements := w.retirements ++ [⟨runID, token, false⟩] }, .ok ())
  | .retireOnce k => w.retireOnce k
  | .close => ({ w with closed := true }, .ok ())

/-- The world after calls, whatever their results. -/
def calls (cs : List Call) : World := cs.foldl (fun w c => (w.call c).1) w

end World

/-! ## The counters -/

namespace Ledger

variable {l : Ledger} {runID : RunID} {record : Record} {a b : State} {f : UInt32 → UInt32}

def counter (l : Ledger) : State → UInt32
  | .reserved => l.reserved
  | .active => l.active
  | .tombstone => l.tombstones

@[simp] theorem adjust_counter (state : State) : (l.adjust f a).counter state =
    if a = state then f (l.counter state) else l.counter state := by
  cases a <;> cases state <;> rfl

@[simp] theorem adjust_limits : (l.adjust f a).limits = l.limits := by cases a <;> rfl

@[simp] theorem adjust_bytes : (l.adjust f a).bytes = l.bytes := by cases a <;> rfl

@[simp] theorem adjust_nextToken : (l.adjust f a).nextToken = l.nextToken := by cases a <;> rfl

def inState (state : State) (record : Record) : ℤ := if record.state = state then 1 else 0

def weight (record : Record) : ℤ := record.charge.toNat

/-- The counters are the numbers of records, and the bytes the sum of their charges, within the
limits. -/
structure Exact (l : Ledger) : Prop where
  counter : ∀ state, ((l.counter state).toNat : ℤ) = total (inState state) l.records
  bytes : (l.bytes.toNat : ℤ) = total weight l.records
  entries_le : total (fun _ => 1) l.records ≤ l.limits.entries.toNat
  bytes_le : l.bytes.toNat ≤ l.limits.bytes.toNat

variable (h : l.Exact)
include h

theorem Exact.sum : ((l.reserved.toNat + l.active.toNat + l.tombstones.toNat : ℕ) : ℤ) =
    total (fun _ => 1) l.records := by
  have hsum : total (fun _ => 1) l.records = total (inState .reserved) l.records +
      total (inState .active) l.records + total (inState .tombstone) l.records := by
    unfold total
    rw [← Multiset.sum_map_add, ← Multiset.sum_map_add]
    refine congrArg Multiset.sum (Multiset.map_congr rfl fun e _ => ?_)
    unfold inState
    cases e.2.state <;> rfl
  rw [hsum, ← h.counter, ← h.counter, ← h.counter]
  push_cast [Ledger.counter]
  rfl

theorem Exact.counters_le :
    l.reserved.toNat + l.active.toNat + l.tombstones.toNat ≤ l.limits.entries.toNat ∧
      l.limits.entries.toNat ≤ 1048576 :=
  ⟨by have := h.sum; have := h.entries_le; omega, l.limits.entries_valid.2⟩

theorem Exact.added (hnew : runID ∉ l.records) (hentries : l.stats.entries + 1 ≤ l.limits.entries)
    (hbytes : l.bytes + charge runID ≤ l.limits.bytes) : (l.added runID).Exact := by
  have hcounters := h.counters_le
  have hmax : l.limits.bytes.toNat ≤ 268435456 := l.limits.bytes_valid.2
  have hsum := h.sum
  have hlength := runID.2
  have hle := h.bytes_le
  refine ⟨fun state => ?_, ?_, ?_, UInt64.le_iff_toNat_le.mp hbytes⟩
  · have hreserved : (l.reserved + 1).toNat = l.reserved.toNat + 1 := by
      simp only [UInt32.toNat_add, UInt32.reduceToNat]
      omega
    rw [Ledger.added, total_insert _ hnew, ← h.counter]
    cases state <;> simp [Ledger.counter, inState, hreserved]
  · rw [Ledger.added, total_insert _ hnew, ← h.bytes]
    simp only [charge, weight, runIdentityEntryBytes, UInt64.toNat_add, UInt64.toNat_ofNat',
      UInt64.reduceToNat]
    omega
  · rw [UInt32.le_iff_toNat_le] at hentries
    simp only [stats, Stats.entries, UInt32.toNat_add, UInt32.reduceToNat] at hentries
    simp only [Ledger.added, total_insert _ hnew, ← hsum]
    omega

variable (hrecord : l.records.lookup runID = some record)
include hrecord

/-- The counter of the record's state and the bytes are large enough to be decremented. -/
theorem Exact.decrement :
    ((l.counter record.state - 1).toNat : ℤ) = (l.counter record.state).toNat - 1 ∧
      ((l.bytes - record.charge).toNat : ℤ) = l.bytes.toNat - record.charge.toNat := by
  have hcount := weight_le_total (w := inState record.state) hrecord
    fun r => by unfold inState; split_ifs <;> decide
  have hcharge := weight_le_total (w := weight) hrecord fun _ => Int.natCast_nonneg _
  rw [← h.counter, inState, if_pos rfl] at hcount
  rw [← h.bytes, weight] at hcharge
  have hone : (1 : UInt32) ≤ l.counter record.state :=
    UInt32.le_iff_toNat_le.mpr (by exact_mod_cast hcount)
  have hbytes : record.charge ≤ l.bytes := UInt64.le_iff_toNat_le.mpr (by exact_mod_cast hcharge)
  rw [UInt32.toNat_sub_of_le _ _ hone, UInt64.toNat_sub_of_le _ _ hbytes]
  exact ⟨Nat.cast_sub (by exact_mod_cast hcount), Nat.cast_sub (by exact_mod_cast hcharge)⟩

theorem Exact.removed : (l.removed runID record).Exact := by
  obtain ⟨hcount, hcharge⟩ := h.decrement hrecord
  have hle := h.bytes_le
  have hentries := h.entries_le
  refine ⟨fun state => ?_, ?_, ?_, ?_⟩
  · have htotal := total_erase (inState state) hrecord
    have hcounter : (l.removed runID record).counter state =
        (l.adjust (· - 1) record.state).counter state := by cases state <;> rfl
    rw [← h.counter, inState] at htotal
    rw [hcounter, adjust_counter]
    simp only [Ledger.removed]
    split_ifs at htotal ⊢ with hstate
    · rw [← hstate, hcount, hstate]
      omega
    · omega
  · rw [Ledger.removed, hcharge, h.bytes, ← total_erase weight hrecord]
    exact add_sub_cancel_right _ _
  · have htotal := total_erase (fun _ => 1) hrecord
    simp only [Ledger.removed, adjust_limits]
    omega
  · simp only [Ledger.removed, adjust_limits]
    omega

theorem Exact.moved (b : State) : (l.moved runID record b).Exact := by
  obtain ⟨hcount, -⟩ := h.decrement hrecord
  have hcounters := h.counters_le
  have hentries := h.entries_le
  refine ⟨fun state => ?_, ?_, ?_, ?_⟩
  · have htotal := total_replace (inState state) hrecord { record with state := b }
    have hcounter : (l.moved runID record b).counter state =
        ((l.adjust (· - 1) record.state).adjust (· + 1) b).counter state := by cases state <;> rfl
    rw [← h.counter] at htotal
    simp only [inState] at htotal
    rw [hcounter, adjust_counter, adjust_counter]
    have hsucc : (l.counter state + 1).toNat = (l.counter state).toNat + 1 := by
      cases state <;> simp only [Ledger.counter, UInt32.toNat_add, UInt32.reduceToNat] <;> omega
    simp only [Ledger.moved]
    split_ifs at htotal ⊢ with hb hsource hsource
    · rw [UInt32.sub_add_cancel]
      omega
    · omega
    · rw [← hsource, hcount, hsource]
      omega
    · omega
  · have htotal := total_replace weight hrecord { record with state := b }
    rw [← h.bytes] at htotal
    simp only [Ledger.moved, adjust_bytes]
    exact (add_right_cancel htotal).symm
  · have htotal := total_replace (fun _ => 1) hrecord { record with state := b }
    simp only [Ledger.moved, adjust_limits]
    omega
  · simp only [Ledger.moved, adjust_limits, adjust_bytes]
    exact h.bytes_le

end Ledger

/-! ## Calls -/

variable {w : World} {c : Call} {runID : RunID} {token : UInt64} {limits : Limits}

def World.entry (w : World) (runID : RunID) : Option Record := w.identities.records.lookup runID

/-- The call acts on the run ID with the token. -/
def Call.Uses (w : World) (runID : RunID) (token : UInt64) : Call → Prop
  | .transition id t _ _ | .abort id t | .retire id t => id = runID ∧ t = token
  | .retireOnce k => (w.retirements[k]?).map (fun r => (r.runID, r.token)) = some (runID, token)
  | _ => False

/-- The call is a transition from the one state to the other. -/
def Call.Makes (source target : State) : Call → Prop
  | .transition _ _ a b => a = source ∧ b = target
  | _ => False

/-- The call is one of the engine's. -/
def Call.OfEngine : Call → Prop
  | .transition _ _ source target =>
    source = .reserved ∧ target = .active ∨ source = .active ∧ target = .tombstone
  | _ => True

/-- What a call does to the ledger and the issued tokens. -/
inductive Served (w : World) (c : Call) : World × Except Failure Unit → Prop
  | same {w' : World} {result : Except Failure Unit} (hledger : w'.identities = w.identities)
      (hissued : w'.issued = w.issued) : Served w c (w', result)
  | reserve {w' : World} {runID : RunID} (hc : ∀ id token, ¬c.Uses w id token)
      (hnew : runID ∉ w.identities.records)
      (hentries : w.identities.stats.entries + 1 ≤ w.identities.limits.entries)
      (hbytes : w.identities.bytes + Ledger.charge runID ≤ w.identities.limits.bytes)
      (htoken : w.identities.nextToken ≠ ~~~0) (hledger : w'.identities = w.identities.added runID)
      (hissued : w'.issued = w.issued ++ [(runID, w.identities.nextToken + 1)]) :
      Served w c (w', .ok ())
  | move {w' : World} {runID : RunID} {record : Record} {target : State}
      (hc : c.Uses w runID record.token) (hrecord : w.entry runID = some record)
      (hmakes : c.Makes record.state target)
        (hledger : w'.identities = w.identities.moved runID record target)
      (hissued : w'.issued = w.issued) : Served w c (w', .ok ())
  | remove {w' : World} {runID : RunID} {record : Record} (hc : c.Uses w runID record.token)
      (hrecord : w.entry runID = some record) (hstate : record.state ≠ .active)
      (hledger : w'.identities = w.identities.removed runID record)
      (hissued : w'.issued = w.issued) : Served w c (w', .ok ())

theorem served_transition {a b : State} (hmakes : c.Makes a b) (hc : c.Uses w runID token) :
    Served w c (w.after (w.identities.transition runID token a b)) := by
  unfold World.after Ledger.transition
  split
  · exact .same rfl rfl
  · rename_i record hrecord
    split_ifs with hother
    · exact .same rfl rfl
    · exact .same rfl rfl
    · rw [not_or, not_not, not_not] at hother
      obtain ⟨rfl, rfl⟩ := hother
      exact .move hc hrecord hmakes rfl rfl

theorem served_remove {a : State} {w' : World} (ha : a ≠ .active) (hc : c.Uses w runID token)
    (hledger : w'.identities = (w.identities.remove runID token a).1)
    (hissued : w'.issued = w.issued) : Served w c (w', (w.identities.remove runID token a).2) := by
  unfold Ledger.remove at *
  split at hledger
  · exact .same hledger hissued
  · rename_i record hrecord
    split_ifs at hledger ⊢ with hother
    · exact .same hledger hissued
    · rw [not_or, not_not, not_not] at hother
      obtain ⟨rfl, rfl⟩ := hother
      exact .remove hc hrecord ha hledger hissued

theorem World.call_served (w : World) (c : Call) : Served w c (w.call c) := by
  cases c with
  | reserve runID kind =>
    rw [World.call, World.reserveRunIdentity, Ledger.reserve]
    split_ifs with _ hold hentries hbytes htoken
    · exact .same rfl rfl
    · exact .same rfl rfl
    · exact .same rfl rfl
    · exact .same rfl rfl
    · exact .same rfl rfl
    · exact .reserve (fun _ _ => id) hold (UInt32.not_lt.mp hentries) (UInt64.not_lt.mp hbytes)
        htoken rfl rfl
  | transition => exact served_transition ⟨rfl, rfl⟩ ⟨rfl, rfl⟩
  | abort => exact served_remove nofun ⟨rfl, rfl⟩ rfl rfl
  | retire => exact served_remove nofun ⟨rfl, rfl⟩ rfl rfl
  | grant | close => exact .same rfl rfl
  | retireOnce k =>
    rw [World.call, World.retireOnce]
    split
    · exact .same rfl rfl
    · rename_i retirement hk
      split_ifs
      · exact .same rfl rfl
      · exact served_remove nofun (by simp [Call.Uses, hk]) rfl rfl

theorem Call.Uses.unique {runID' : RunID} {token' : UInt64} (h : c.Uses w runID token)
    (h' : c.Uses w runID' token') : runID = runID' ∧ token = token' := by
  cases c with
  | reserve | grant | close => exact h.elim
  | transition | abort | retire => exact ⟨h.1.symm.trans h'.1, h.2.symm.trans h'.2⟩
  | retireOnce k => exact Prod.ext_iff.mp (Option.some_inj.mp (h.symm.trans h'))

theorem unchanged_of_failed {failure : Failure} (h : (w.call c).2 = .error failure) :
    (w.call c).1.identities = w.identities := by
  generalize hout : w.call c = out at h
  cases hout ▸ w.call_served c with
  | same hledger => exact hledger
  | reserve | move | remove => cases h

theorem unchanged_of_stale (hc : c.Uses w runID token)
    (hstale : (w.entry runID).map Record.token ≠ some token) :
    (w.call c).1.identities = w.identities := by
  have hcurrent : ∀ {id record}, c.Uses w id record.token → w.entry id ≠ some record := by
    intro id record hused hrecord
    obtain ⟨rfl, rfl⟩ := hc.unique hused
    exact hstale (by rw [hrecord]; rfl)
  generalize hout : w.call c = out
  cases hout ▸ w.call_served c with
  | same hledger => exact hledger
  | reserve hno => exact absurd hc (hno _ _)
  | move hused hrecord => exact absurd hrecord (hcurrent hused)
  | remove hused hrecord => exact absurd hrecord (hcurrent hused)

/-- How a call may change the record of a run ID; `last` is the last token issued. -/
inductive Moves (c : Call) (last : UInt64) : Option Record → Option Record → Prop
  | same (o : Option Record) : Moves c last o o
  | reserve {token : UInt64} (charge : UInt64) (h : token.toNat = last.toNat + 1) :
      Moves c last none (some ⟨token, charge, .reserved⟩)
  | transition (token charge : UInt64) {source target : State} (h : c.Makes source target) :
      Moves c last (some ⟨token, charge, source⟩) (some ⟨token, charge, target⟩)
  | abort (token charge : UInt64) : Moves c last (some ⟨token, charge, .reserved⟩) none
  | retire (token charge : UInt64) : Moves c last (some ⟨token, charge, .tombstone⟩) none

/-- The states of a run ID after one, where `none` is that it has no record. -/
def next : Option State → List (Option State)
  | none => [none, some .reserved]
  | some .reserved => [some .reserved, some .active, none]
  | some .active => [some .active, some .tombstone]
  | some .tombstone => [some .tombstone, none]

theorem Moves.state {last : UInt64} {before after : Option Record} (h : Moves c last before after)
    (hc : c.OfEngine) : after.map Record.state ∈ next (before.map Record.state) := by
  cases h with
  | same =>
    rcases before with _ | ⟨token, charge, state⟩
    · exact mem_cons_self
    · cases state <;> exact mem_cons_self
  | reserve => exact mem_cons_of_mem _ mem_cons_self
  | transition _ _ hmakes =>
    cases c with
    | transition =>
      obtain ⟨rfl, rfl⟩ := hmakes
      obtain ⟨rfl, rfl⟩ | ⟨rfl, rfl⟩ := hc
      · exact mem_cons_of_mem _ mem_cons_self
      · exact mem_cons_of_mem _ mem_cons_self
    | reserve | abort | retire | grant | retireOnce | close => exact hmakes.elim
  | abort => simp [next]
  | retire => simp [next]

theorem succ_toNat {n : UInt64} (h : n ≠ ~~~0) : (n + 1).toNat = n.toNat + 1 := by
  have hne : n.toNat ≠ 2 ^ 64 - 1 := fun heq => h (UInt64.toNat_inj.mp (heq.trans (by decide)))
  have := n.toNat_lt
  simp only [UInt64.toNat_add, UInt64.reduceToNat]
  omega

theorem call_moves (w : World) (c : Call) (runID : RunID) :
    Moves c w.identities.nextToken (w.entry runID) ((w.call c).1.entry runID) := by
  unfold World.entry
  generalize hout : w.call c = out
  cases hout ▸ w.call_served c with
  | same hledger => rw [hledger]; exact .same _
  | @reserve w' id _ hnew _ _ htoken hledger =>
    rw [hledger, Ledger.added]
    rcases eq_or_ne runID id with rfl | hne
    · rw [lookup_insert, lookup_eq_none.mpr hnew]
      exact .reserve _ (succ_toNat htoken)
    · rw [lookup_insert_of_ne _ hne]
      exact .same _
  | @move w' id record target _ hrecord hmakes hledger =>
    rw [hledger, Ledger.moved]
    rcases eq_or_ne runID id with rfl | hne
    · obtain ⟨token, charge, state⟩ := record
      rw [lookup_insert, ← World.entry, hrecord]
      exact .transition _ _ hmakes
    · rw [lookup_insert_of_ne _ hne]
      exact .same _
  | @remove w' id record _ hrecord hstate hledger =>
    rw [hledger, Ledger.removed]
    rcases eq_or_ne runID id with rfl | hne
    · obtain ⟨token, charge, state⟩ := record
      rw [lookup_erase, ← World.entry, hrecord]
      cases state with
      | reserved => exact .abort _ _
      | active => exact absurd rfl hstate
      | tombstone => exact .retire _ _
    · rw [lookup_erase_ne hne]
      exact .same _

structure Inv (limits : Limits) (w : World) : Prop where
  limits : w.identities.limits = limits
  exact : w.identities.Exact
  issued : w.issued.map (·.2.toNat) = range' 1 w.identities.nextToken.toNat

theorem Inv.call (h : Inv limits w) (c : Call) : Inv limits (w.call c).1 ∧
    w.identities.nextToken.toNat ≤ (w.call c).1.identities.nextToken.toNat := by
  obtain ⟨rfl, hexact, hissued⟩ := h
  generalize hout : w.call c = out
  cases hout ▸ w.call_served c with
  | same hledger hsame =>
    rw [hledger]
    exact ⟨⟨by rw [hledger], hledger ▸ hexact, by rw [hsame, hledger, hissued]⟩, le_rfl⟩
  | reserve _ hnew hentries hbytes htoken hledger happend =>
    have hsucc : w.identities.nextToken.toNat + 1 = _ := (succ_toNat htoken).symm
    refine ⟨⟨by rw [hledger]; rfl, hledger ▸ hexact.added hnew hentries hbytes, ?_⟩, ?_⟩
    · rw [happend, hledger, Ledger.added, map_append, hissued, ← hsucc, range'_1_concat,
        add_comm 1, hsucc]
      rfl
    · rw [hledger, Ledger.added, ← hsucc]
      exact Nat.le_succ _
  | move _ hrecord _ hledger hsame =>
    refine ⟨⟨by simp [hledger, Ledger.moved], hledger ▸ hexact.moved hrecord _, ?_⟩, ?_⟩
    · simp [hsame, hissued, hledger, Ledger.moved]
    · simp [hledger, Ledger.moved]
  | remove _ hrecord _ hledger hsame =>
    refine ⟨⟨by simp [hledger, Ledger.removed], hledger ▸ hexact.removed hrecord, ?_⟩, ?_⟩
    · simp [hsame, hissued, hledger, Ledger.removed]
    · simp [hledger, Ledger.removed]

theorem calls_invariant {I : World → Prop} (hstep : ∀ w c, I w → I (w.call c).1) (h : I w)
    (cs : List Call) : I (w.calls cs) := by
  induction cs generalizing w with
  | nil => exact h
  | cons c cs ih => exact ih (hstep w c h)

theorem inv_new (limits : Limits) : Inv limits { identities := .new limits } where
  limits := rfl
  exact := ⟨fun state => by cases state <;> rfl, rfl, Int.natCast_nonneg _, Nat.zero_le _⟩
  issued := rfl

/-- A token that was issued and is not the one of the run ID's record never is again. -/
theorem token_gone (h : Inv limits w) (htoken : token.toNat ≤ w.identities.nextToken.toNat)
    (hgone : (w.entry runID).map Record.token ≠ some token) (cs : List Call) :
    ((w.calls cs).entry runID).map Record.token ≠ some token := by
  refine (calls_invariant (I := fun w => Inv limits w ∧ token.toNat ≤ w.identities.nextToken.toNat ∧
    (w.entry runID).map Record.token ≠ some token) ?_ ⟨h, htoken, hgone⟩ cs).2.2
  rintro w c ⟨h, hle, hne⟩
  refine ⟨(h.call c).1, hle.trans (h.call c).2, ?_⟩
  have hmoves := call_moves w c runID
  generalize w.entry runID = before at hmoves hne
  generalize (w.call c).1.entry runID = after at hmoves
  cases hmoves with
  | same => exact hne
  | @reserve t charge hlast =>
    intro heq
    have : t = token := Option.some.inj heq
    subst this
    omega
  | transition => exact hne
  | abort | retire => nofun

/-- After any calls the counters are exact, no token was issued twice, and for a further call: if it
fails, or if its token is not the one of the record, the ledger stays as it is; a record takes the
state that a transition from its state asks for, and by the engine's calls it moves from reserved to
active to tombstone to removed, or from reserved to removed; and a token that was issued for a run
ID and is not the one of its record is not the one of any later record. -/
theorem ledger_exact (limits : Limits) (cs : List Call) (w : World)
    (hw : w = World.calls { identities := .new limits } cs) :
    (w.identities.limits = limits ∧ w.identities.Exact) ∧
    (w.issued.map Prod.snd).Nodup ∧
    (∀ c failure, (w.call c).2 = .error failure → (w.call c).1.identities = w.identities) ∧
    (∀ c runID token, c.Uses w runID token → (w.entry runID).map Record.token ≠ some token →
      (w.call c).1.identities = w.identities) ∧
    (∀ c runID, Moves c w.identities.nextToken (w.entry runID) ((w.call c).1.entry runID) ∧
      (c.OfEngine → ((w.call c).1.entry runID).map Record.state ∈
        next ((w.entry runID).map Record.state))) ∧
    ∀ runID token later, (runID, token) ∈ w.issued →
      (w.entry runID).map Record.token ≠ some token →
      ((w.calls later).entry runID).map Record.token ≠ some token := by
  have hinv : Inv limits w := by
    rw [hw]
    exact calls_invariant (fun w c h => (h.call c).1) (inv_new limits) cs
  refine ⟨⟨hinv.limits, hinv.exact⟩, ?_, fun c failure => unchanged_of_failed,
    fun c runID token => unchanged_of_stale,
    fun c runID => ⟨call_moves w c runID, (call_moves w c runID).state⟩, ?_⟩
  · have hnodup := hinv.issued ▸ nodup_range' (s := 1) (n := w.identities.nextToken.toNat)
    rw [← Function.comp_def, ← map_map] at hnodup
    exact hnodup.of_map
  · intro runID token later hissued hne
    have hmem := mem_map_of_mem (f := fun e : RunID × UInt64 => e.2.toNat) hissued
    rw [hinv.issued, mem_range'_1, add_comm 1, Nat.lt_succ_iff] at hmem
    exact token_gone hinv hmem.2 hne later

section Example

def exampleID : RunID := ⟨"a", by decide⟩

/-- The second generation of a run ID is a tombstone while the capability of the first one is still
held. -/
def exampleWorld : World :=
  World.calls { identities := .new ⟨4, 4096, by decide, by decide⟩ }
    [.reserve exampleID .start, .grant exampleID 1, .transition exampleID 1 .reserved .active,
      .transition exampleID 1 .active .tombstone, .retire exampleID 1, .reserve exampleID .resume,
      .transition exampleID 2 .reserved .active, .transition exampleID 2 .active .tombstone]

theorem ledger_exact_second :
    (exampleWorld.entry exampleID).map Record.token = some 2 ∧
      (exampleWorld.call (.retireOnce 0)).1.identities = exampleWorld.identities := by
  have htoken : (exampleWorld.entry exampleID).map Record.token = some 2 := by decide +kernel
  obtain ⟨-, -, -, hstale, -⟩ := ledger_exact _ _ exampleWorld rfl
  refine ⟨htoken, hstale (.retireOnce 0) exampleID 1 rfl ?_⟩
  rw [htoken]
  decide

/-- A tombstone can be made active again. -/
theorem ledger_revives :
    (exampleWorld.entry exampleID).map Record.state = some .tombstone ∧
      (exampleWorld.call (.transition exampleID 2 .tombstone .active)).2.isOk = true ∧
      ((exampleWorld.call (.transition exampleID 2 .tombstone .active)).1.entry exampleID).map
        Record.state = some .active := by
  decide +kernel

end Example

end SpiceAgent.Agent.RunIdentity
