import SpiceAgent.Lib.Holdings
import SpiceAgent.Lib.KeyCount
import SpiceAgent.PluginHost.HostSystem

/-!
# Who owns a candidate

`Estate` is what ownership of candidates and generations depends on: no health, no recovery, no
revisions. Its moves say everything that a host can do to it, and each invariant is proved of the
moves, here for the ledger of generations (`Ledger.Ok`) and the reference counts
(`Estate.RefsOk`).
-/

namespace SpiceAgent.Pluginhost

open Lib
open Function (update update_apply update_of_ne update_self)

/-- What ownership depends on in a generation. -/
structure Entry where
  id : String
  candidates : List ℕ
  refs : ℕ
  current : Bool
  cleaning : Bool
  cleaned : Bool
  cleanupErr : Bool

namespace Entry

def fresh (id : String) (candidates : List ℕ) : Entry :=
  ⟨id, candidates, 0, false, false, false, false⟩

/-- The generation's cleanup has started at some time. -/
def retired (entry : Entry) : Bool := entry.cleaning || entry.cleaned || entry.cleanupErr

end Entry

/-- The generations of a host and their cleanups. `live` is the current generation until `Close`
begins. -/
structure Ledger where
  entry : ℕ → Entry
  generations : ℕ
  live : Option ℕ
  available : String → Option ℕ
  owned : Finset ℕ
  cleanups : ℕ → Option Cleanup
  spawned : ℕ

namespace Ledger

variable (e : Ledger) (g : ℕ)

def setEntry (x : Entry) : Ledger :=
  { e with entry := update e.entry g x }

def setRefs (g refs : ℕ) : Ledger := e.setEntry g { e.entry g with refs := refs }

def shut : Ledger :=
  { e.setEntry g { e.entry g with current := false } with live := none }

def adopt (x : Entry) : Ledger :=
  { e.setEntry e.generations x with
    generations := e.generations + 1
    owned := insert e.generations e.owned }

def promote : Ledger :=
  { e.setEntry g { e.entry g with current := true } with
    live := some g
    available := update e.available (e.entry g).id (some g) }

def publish (id : String) (candidates : List ℕ) : Ledger :=
  ((e.shut g).adopt (Entry.fresh id candidates)).promote e.generations

def retain (candidates : List ℕ) : Ledger :=
  e.adopt { Entry.fresh "" candidates with cleanupErr := true }

def queue : Ledger :=
  { e.setEntry g { e.entry g with cleaning := true, cleanupErr := false } with
    available :=
      if (e.entry g).id = "" then e.available
      else update e.available (e.entry g).id none
    cleanups := update e.cleanups e.spawned
      (some ⟨g, Closer.start (e.entry g).candidates⟩)
    spawned := e.spawned + 1 }

def turn (k g : ℕ) (closer : Closer) : Ledger :=
  { e with cleanups := update e.cleanups k (some ⟨g, closer⟩) }

def finish (k g : ℕ) (failed : Bool) : Ledger :=
  { e.setEntry g
      { e.entry g with
        cleaning := false
        cleanupErr := failed
        cleaned := (e.entry g).cleaned || !failed } with
    owned := if failed then e.owned else e.owned.erase g
    cleanups := update e.cleanups k none }

/-- A generation that `lease` accepts. -/
def Leasable : Prop :=
  (e.entry g).cleaned = false ∧ (e.entry g).cleaning = false ∧
    ((e.entry g).current = true ∨ (e.entry g).refs ≠ 0)

def Idle : Prop :=
  (e.entry g).refs = 0 ∧ (e.entry g).current = false ∧ (e.entry g).cleaning = false ∧
    (e.entry g).cleaned = false

end Ledger

/-- The generations of a host, the candidates that its staging calls hold and close, the
unreleased leases, and the candidates that have been started and closed. -/
structure Estate extends Ledger where
  held : Party → List ℕ
  aborts : Party → Option Closer
  leases : ℕ → Option ℕ
  started : ℕ
  closed : ℕ → Bool

/-- One turn of `closeCandidates`, with what it does to the set of closed candidates. -/
inductive Closer.Turn : Closer → (ℕ → Bool) → Closer → (ℕ → Bool) → Prop
  | closes (closer : Closer) (closed : ℕ → Bool) (c : ℕ) (rest : List ℕ)
      (htodo : closer.todo = c :: rest) :
      Turn closer closed (closer.attempt true) (update closed c true)
  | fails (closer : Closer) (closed : ℕ → Bool) : Turn closer closed (closer.attempt false) closed
  | expires (closer : Closer) (closed : ℕ → Bool) : Turn closer closed closer.expire closed

namespace Estate

def yield (e : Estate) (p : Party) (ledger : Ledger) : Estate :=
  { e with
    toLedger := ledger
    held := update e.held p []
    aborts := update e.aborts p none }

/-- Everything that happens to an estate. -/
inductive Move : Estate → Estate → Prop
  /-- A staging call starts a candidate. -/
  | start (e : Estate) (p : Party) (hidle : e.aborts p = none) :
      Move e { e with
        held := update e.held p (e.held p ++ [e.started])
        started := e.started + 1 }
  /-- A staging call begins to close its candidates. -/
  | abort (e : Estate) (p : Party) (hidle : e.aborts p = none) :
      Move e { e with aborts := update e.aborts p (some (Closer.start (e.held p))) }
  | turnAbort (e : Estate) (p : Party) {closer closer' : Closer} {closed : ℕ → Bool}
      (hp : e.aborts p = some closer) (hturn : closer.Turn e.closed closer' closed) :
      Move e { e with aborts := update e.aborts p (some closer'), closed := closed }
  /-- A staging call has closed all its candidates. -/
  | drop (e : Estate) (p : Party) {closer : Closer} (hp : e.aborts p = some closer)
      (htodo : closer.todo = []) (hok : closer.failed = false) : Move e (e.yield p e.toLedger)
  | retain (e : Estate) (p : Party) {closer : Closer} (hp : e.aborts p = some closer)
      (htodo : closer.todo = []) (hfailed : closer.failed = true) :
      Move e (e.yield p (e.toLedger.retain (e.held p)))
  | publish (e : Estate) (p : Party) (g : ℕ) (id : String) (hid : id ≠ "") (hlive : e.live = some g)
      (hidle : e.aborts p = none) : Move e (e.yield p (e.toLedger.publish g id (e.held p)))
  | queue (e : Estate) (g : ℕ) (hlt : g < e.generations) (hidle : e.Idle g) :
      Move e { e with toLedger := e.toLedger.queue g }
  | turnCleanup (e : Estate) (k : ℕ) {c : Cleanup} {closer' : Closer} {closed : ℕ → Bool}
      (hk : e.cleanups k = some c) (hturn : c.closer.Turn e.closed closer' closed) :
      Move e { e with toLedger := e.toLedger.turn k c.generation closer', closed := closed }
  | finish (e : Estate) (k : ℕ) {c : Cleanup} (hk : e.cleanups k = some c)
      (htodo : c.closer.todo = []) :
      Move e { e with toLedger := e.toLedger.finish k c.generation c.closer.failed }
  | acquire (e : Estate) (l g : ℕ) (hl : e.leases l = none) (hlt : g < e.generations)
      (hg : e.Leasable g) :
      Move e { e with
        toLedger := e.toLedger.setRefs g ((e.entry g).refs + 1)
        leases := update e.leases l (some g) }
  | release (e : Estate) (l g : ℕ) (hl : e.leases l = some g) :
      Move e { e with
        toLedger := e.toLedger.setRefs g ((e.entry g).refs - 1)
        leases := update e.leases l none }
  /-- `Close` begins. -/
  | shut (e : Estate) (g : ℕ) (hlive : e.live = some g) :
      Move e { e with toLedger := e.toLedger.shut g }

abbrev Moves : Estate → Estate → Prop := Relation.ReflTransGen Move

end Estate

/-! ## The ledger of generations -/

/-- The fields of a generation agree with each other, with its place among the owned generations
and with whether it is the current one. -/
@[mk_iff] structure Entry.Fits (x : Entry) (owned live : Prop) : Prop where
  flag : x.current = true ↔ live
  owned : owned ↔ x.cleaned = false
  retired : x.retired = true → x.refs = 0 ∧ x.current = false
  cleaning : x.cleaning = true → x.cleaned = false

namespace Ledger

/-- The invariants of the generations and their cleanups. -/
@[mk_iff] structure Ok (e : Ledger) : Prop where
  fits : ∀ g, g < e.generations → (e.entry g).Fits (g ∈ e.owned) (e.live = some g)
  live_lt : ∀ g, e.live = some g → g < e.generations
  owned_lt : ∀ g, g ∈ e.owned → g < e.generations
  available : ∀ id g, e.available id = some g →
    id ≠ "" ∧ g < e.generations ∧ (e.entry g).id = id ∧ (e.entry g).retired = false
  cleanups : ∀ k c, e.cleanups k = some c →
    k < e.spawned ∧ c.generation < e.generations ∧ (e.entry c.generation).cleaning = true
  cleanup_unique : ∀ k k' c c', e.cleanups k = some c → e.cleanups k' = some c' →
    c.generation = c'.generation → k = k'
  cleaned_up : ∀ g, g < e.generations → (e.entry g).cleaning = true →
    ∃ k c, e.cleanups k = some c ∧ c.generation = g

namespace Ok

variable {e : Ledger} {g : ℕ} {x : Entry}

variable (h : e.Ok)
include h

theorem not_retired (hlt : g < e.generations)
    (hg : (e.entry g).current = true ∨ (e.entry g).refs ≠ 0) : (e.entry g).retired = false := by
  have hfits := h.fits g hlt
  rw [Entry.fits_iff] at hfits
  grind

theorem setEntry {live : Option ℕ} (hlt : g < e.generations)
    (hfits : x.Fits (g ∈ e.owned) (live = some g))
    (hlive : ∀ g', g' ≠ g → (live = some g' ↔ e.live = some g')) (hid : x.id = (e.entry g).id)
    (hretired : x.retired = (e.entry g).retired) (hcleaning : x.cleaning = (e.entry g).cleaning) :
    Ok { e.setEntry g x with live := live } := by
  simp only [ok_iff, Entry.fits_iff, Ledger.setEntry, update_apply] at *
  and_intros
  all_goals grind

theorem setRefs (refs : ℕ) (hlt : g < e.generations) (hg : (e.entry g).retired = false) :
    (e.setRefs g refs).Ok := by
  have hfits := h.fits g hlt
  refine h.setEntry hlt ⟨hfits.flag, hfits.owned, ?_, hfits.cleaning⟩
    (fun _ _ => Iff.rfl) rfl rfl rfl
  intro hr
  have hr : (e.entry g).retired = true := hr
  rw [hg] at hr
  cases hr

theorem shut (hlive : e.live = some g) : (e.shut g).Ok := by
  have hlt := h.live_lt g hlive
  have hfits := h.fits g hlt
  refine h.setEntry hlt ⟨?_, hfits.owned, fun hr => ⟨(hfits.retired hr).1, rfl⟩, hfits.cleaning⟩ ?_
    rfl rfl rfl
  · simp
  · intro g' hne
    rw [hlive, Option.some_inj]
    exact ⟨fun h => absurd h nofun, fun h => absurd h.symm hne⟩

theorem adopt (hx : x.current = false ∧ x.cleaned = false ∧ x.cleaning = false)
    (hrefs : x.refs = 0) : (e.adopt x).Ok := by
  obtain ⟨hcurrent, hcleaned, hcleaning⟩ := hx
  simp only [ok_iff, Entry.fits_iff, Ledger.adopt, Ledger.setEntry, update_apply] at *
  and_intros
  all_goals grind

theorem promote (hlive : e.live = none) (hlt : g < e.generations) (hid : (e.entry g).id ≠ "")
    (hg : (e.entry g).retired = false) : (e.promote g).Ok := by
  simp only [ok_iff, Entry.fits_iff, Entry.retired, Ledger.promote, Ledger.setEntry,
    update_apply] at *
  and_intros
  all_goals grind

theorem publish {id : String} {candidates : List ℕ} (hlive : e.live = some g) (hid : id ≠ "") :
    (e.publish g id candidates).Ok := by
  have hadopt := (h.shut hlive).adopt (x := Entry.fresh id candidates) ⟨rfl, rfl, rfl⟩ rfl
  have hentry : ((e.shut g).adopt (Entry.fresh id candidates)).entry e.generations =
      Entry.fresh id candidates := update_self ..
  refine hadopt.promote rfl (Nat.lt_succ_self _) ?_ ?_
  · rw [hentry]
    exact hid
  · rw [hentry]
    rfl

theorem retain (candidates : List ℕ) : (e.retain candidates).Ok :=
  h.adopt ⟨rfl, rfl, rfl⟩ rfl

theorem queue (hlt : g < e.generations) (hidle : e.Idle g) : (e.queue g).Ok := by
  obtain ⟨hrefs, hcurrent, hcleaning, hcleaned⟩ := hidle
  -- a cleanup that ran before is of another generation, because this one was not cleaning
  have hother : ∀ k c, e.cleanups k = some c → c.generation ≠ g := by
    intro k c hk heq
    have hc := (h.cleanups k c hk).2.2
    rw [heq, hcleaning] at hc
    exact Bool.false_ne_true hc
  simp only [ok_iff, Entry.fits_iff, Entry.retired, Ledger.queue, Ledger.setEntry,
    update_apply] at *
  refine ⟨?_, ?_, ?_, ?_, ?_, ?_, fun g' hlt' hc => ?_⟩
  case refine_7 =>
    by_cases hg' : g' = g
    · exact ⟨e.spawned, ⟨g, Closer.start (e.entry g).candidates⟩, by simp, hg'.symm⟩
    · grind
  all_goals grind

theorem turn {k : ℕ} {c : Cleanup} (hk : e.cleanups k = some c) (closer : Closer) :
    (e.turn k c.generation closer).Ok := by
  simp only [ok_iff, Ledger.turn, update_apply] at *
  refine ⟨?_, ?_, ?_, ?_, ?_, ?_, fun g hlt hc => ?_⟩
  case refine_7 =>
    obtain ⟨k', c', hk', hcg⟩ := h.2.2.2.2.2.2 g hlt hc
    by_cases hkk : k' = k
    · exact ⟨k, ⟨c.generation, closer⟩, by simp, by grind⟩
    · exact ⟨k', c', by grind⟩
  all_goals grind

theorem finish {k : ℕ} {c : Cleanup} (hk : e.cleanups k = some c) (failed : Bool) :
    (e.finish k c.generation failed).Ok := by
  have hunique := fun k' c' => h.cleanup_unique k' k c' c
  simp only [ok_iff, Entry.fits_iff, Entry.retired, Ledger.finish, Ledger.setEntry,
    update_apply] at *
  and_intros
  all_goals grind

end Ok

end Ledger

/-! ## Reference counts -/

namespace Estate

/-- The reference count of a generation is the number of its unreleased leases. -/
structure RefsOk (e : Estate) : Prop where
  refs : ∀ g, g < e.generations → {l | e.leases l = some g}.encard = (e.entry g).refs
  lt : ∀ l g, e.leases l = some g → g < e.generations

namespace RefsOk

variable {e : Estate} {g : ℕ}

variable (h : e.RefsOk)
include h

theorem refs_ne_zero {l : ℕ} (hl : e.leases l = some g) : (e.entry g).refs ≠ 0 := by
  intro hzero
  have hcard := h.refs g (h.lt l g hl)
  rw [hzero, Nat.cast_zero, Set.encard_eq_zero] at hcard
  exact Set.eq_empty_iff_forall_notMem.mp hcard l hl

theorem congr {e' : Estate} (hleases : e'.leases = e.leases) (hle : e.generations ≤ e'.generations)
    (hold : ∀ g, g < e.generations → (e'.entry g).refs = (e.entry g).refs)
    (hnew : ∀ g, e.generations ≤ g → g < e'.generations → (e'.entry g).refs = 0) : e'.RefsOk := by
  constructor
  · intro g hlt
    rw [hleases]
    by_cases hg : g < e.generations
    · rw [hold g hg]
      exact h.refs g hg
    · rw [hnew g (by omega) hlt, Nat.cast_zero, Set.encard_eq_zero]
      refine Set.eq_empty_iff_forall_notMem.mpr fun l hl => ?_
      exact hg (h.lt l g hl)
  · intro l g hl
    rw [hleases] at hl
    exact lt_of_lt_of_le (h.lt l g hl) hle

theorem congr_setEntry {e' : Estate} {x : Entry} (hleases : e'.leases = e.leases)
    (hgenerations : e'.generations = e.generations) (hentry : e'.entry = update e.entry g x)
    (hx : x.refs = (e.entry g).refs) : e'.RefsOk := by
  refine h.congr hleases hgenerations.ge (fun g' _ => ?_) (fun g' hge hlt => by omega)
  rw [hentry, update_apply]
  grind

theorem acquire {l : ℕ} (hl : e.leases l = none) (hlt : g < e.generations) :
    RefsOk { e with
      toLedger := e.toLedger.setRefs g ((e.entry g).refs + 1)
      leases := update e.leases l (some g) } := by
  constructor
  · intro g' hlt'
    by_cases hg : g' = g
    · subst hg
      rw [encard_keys_set hl, h.refs g' hlt]
      simp [Ledger.setRefs, Ledger.setEntry]
    · rw [keys_update_of_ne (by simp [hl]) (by simpa using Ne.symm hg), h.refs g' hlt']
      simp [Ledger.setRefs, Ledger.setEntry, update_of_ne hg]
  · intro l' g' hl'
    rcases update_eq_some.mp hl' with ⟨_, hv⟩ | ⟨_, hl'⟩
    · cases hv
      exact hlt
    · exact h.lt l' g' hl'

theorem release {l : ℕ} (hl : e.leases l = some g) :
    RefsOk { e with
      toLedger := e.toLedger.setRefs g ((e.entry g).refs - 1)
      leases := update e.leases l none } := by
  have hlt := h.lt l g hl
  have hpos := h.refs_ne_zero hl
  constructor
  · intro g' hlt'
    by_cases hg : g' = g
    · subst hg
      have hcard := encard_keys_clear hl
      rw [h.refs g' hlt] at hcard
      have hrefs : (((e.entry g').refs - 1 : ℕ) : ℕ∞) + 1 = (e.entry g').refs := by
        exact_mod_cast Nat.sub_add_cancel (Nat.one_le_iff_ne_zero.mpr hpos)
      rw [← hrefs] at hcard
      simpa [Ledger.setRefs, Ledger.setEntry] using (ENat.add_left_injective_of_ne_top
        (by simp : (1 : ℕ∞) ≠ ⊤)) hcard
    · rw [keys_update_of_ne (by simpa [hl] using Ne.symm hg) (by simp), h.refs g' hlt']
      simp [Ledger.setRefs, Ledger.setEntry, update_of_ne hg]
  · intro l' g' hl'
    rcases update_eq_some.mp hl' with ⟨_, hv⟩ | ⟨_, hl'⟩
    · cases hv
    · exact h.lt l' g' hl'

end RefsOk

theorem Move.ledger {e e' : Estate} (hmove : Move e e') (h : e.toLedger.Ok) (hrefs : e.RefsOk) :
    e'.toLedger.Ok := by
  cases hmove with
  | start | abort | turnAbort | drop => exact h
  | retain p => exact h.retain (e.held p)
  | publish p g id hid hlive => exact h.publish hlive hid
  | queue g hlt hidle => exact h.queue hlt hidle
  | turnCleanup k hk => exact h.turn hk _
  | finish k hk => exact h.finish hk _
  | acquire l g _ hlt hg => exact h.setRefs _ hlt (h.not_retired hlt hg.2.2)
  | release l g hl =>
    have hlt := hrefs.lt l g hl
    exact h.setRefs _ hlt (h.not_retired hlt (.inr (hrefs.refs_ne_zero hl)))
  | shut g hlive => exact h.shut hlive

theorem Move.refs {e e' : Estate} (hmove : Move e e') (hrefs : e.RefsOk) : e'.RefsOk := by
  cases hmove with
  | start | abort | turnAbort | drop => exact ⟨hrefs.refs, hrefs.lt⟩
  | retain p =>
    refine hrefs.congr rfl (Nat.le_succ _) ?_ ?_
    · intro g hlt
      simp [yield, Ledger.retain, Ledger.adopt, Ledger.setEntry, hlt.ne]
    · intro g hge hlt
      obtain rfl : g = e.generations := by
        have : g < e.generations + 1 := hlt
        omega
      simp [yield, Ledger.retain, Ledger.adopt, Ledger.setEntry, Entry.fresh]
  | publish p c id =>
    refine hrefs.congr rfl (Nat.le_succ _) ?_ ?_
    · intro g hlt
      by_cases hg : g = c
      · subst hg
        simp [yield, Ledger.publish, Ledger.promote, Ledger.shut, Ledger.adopt, Ledger.setEntry,
          hlt.ne]
      · simp [yield, Ledger.publish, Ledger.promote, Ledger.shut, Ledger.adopt, Ledger.setEntry,
          hlt.ne, hg]
    · intro g hge hlt
      obtain rfl : g = e.generations := by
        have : g < e.generations + 1 := hlt
        omega
      simp [yield, Ledger.publish, Ledger.promote, Ledger.shut, Ledger.adopt, Ledger.setEntry,
        Entry.fresh]
  | queue g => exact hrefs.congr_setEntry rfl rfl rfl rfl
  | turnCleanup => exact ⟨hrefs.refs, hrefs.lt⟩
  | finish k hk => exact hrefs.congr_setEntry rfl rfl rfl rfl
  | acquire l g hl hlt => exact hrefs.acquire hl hlt
  | release l g hl => exact hrefs.release hl
  | shut g => exact hrefs.congr_setEntry rfl rfl rfl rfl

end Estate

end SpiceAgent.Pluginhost
