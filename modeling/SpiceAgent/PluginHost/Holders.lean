import SpiceAgent.PluginHost.Estate

/-!
# The holder of each candidate

A candidate that has been started is held by the staging call that started it or by one owned
generation, until it has been closed without error. No candidate has two holders, and each closer
covers the candidates of the holder it works for.
-/

namespace SpiceAgent.Pluginhost

open Lib
open Function (update update_apply update_of_ne update_self)

/-- A closer of the candidates of one holder: unless it failed, it has closed all but those that
remain. -/
@[mk_iff] structure Closer.Covers (closer : Closer) (candidates : List ℕ) (closed : ℕ → Bool) :
    Prop where
  todo : ∀ c ∈ closer.todo, c ∈ candidates
  done : closer.failed = false → ∀ c ∈ candidates, c ∈ closer.todo ∨ closed c = true

namespace Closer

variable {closer closer' : Closer} {candidates : List ℕ} {closed closed' : ℕ → Bool}

theorem Covers.start (candidates : List ℕ) (closed : ℕ → Bool) :
    (Closer.start candidates).Covers candidates closed := by
  rw [covers_iff]
  grind [Closer.start]

theorem Covers.mono (h : closer.Covers candidates closed)
    (hle : ∀ c, closed c = true → closed' c = true) : closer.Covers candidates closed' := by
  refine ⟨h.todo, fun hok c hc => ?_⟩
  exact (h.done hok c hc).imp_right (hle c)

theorem Turn.closed_mono (h : closer.Turn closed closer' closed') :
    ∀ c, closed c = true → closed' c = true := by
  cases h <;> grind [update_apply]

theorem Turn.covers (h : closer.Turn closed closer' closed')
    (hcovers : closer.Covers candidates closed) : closer'.Covers candidates closed' := by
  simp only [covers_iff] at hcovers ⊢
  have htail := fun c => List.mem_of_mem_tail (a := c) (l := closer.todo)
  cases h with
  | closes c rest htodo => simp only [attempt, update_apply] at *; grind
  | fails => simp only [attempt] at *; grind
  | expires => simp only [expire] at *; grind

end Closer

theorem candidates_setEntry (e : Ledger) {g : ℕ} {x : Entry}
    (hx : x.candidates = (e.entry g).candidates) (g' : ℕ) :
    (update e.entry g x g').candidates = (e.entry g').candidates := by
  grind [update_apply]

namespace Estate

/-- The candidates of each holder: a staging call or an owned generation. -/
def home (e : Estate) : Party ⊕ ℕ → List ℕ
  | .inl p => e.held p
  | .inr g => if g ∈ e.owned then (e.entry g).candidates else []

/-- Every candidate is accounted for. -/
@[mk_iff] structure HomesOk (e : Estate) : Prop where
  exclusive : Exclusive e.home
  bound : ∀ x c, c ∈ e.home x → c < e.started
  accounted : ∀ c, c < e.started → e.closed c = true ∨ ∃ x, c ∈ e.home x
  aborts : ∀ p closer, e.aborts p = some closer → closer.Covers (e.held p) e.closed
  cleanups : ∀ k c, e.cleanups k = some c →
    c.closer.Covers (e.entry c.generation).candidates e.closed

namespace HomesOk

variable {e e' : Estate} {p : Party} {g : ℕ}

section

variable (h : e.HomesOk) (hstarted : e'.started = e.started)
  (haborts : ∀ p closer, e'.aborts p = some closer → closer.Covers (e'.held p) e'.closed)
  (hcleanups : ∀ k c, e'.cleanups k = some c →
    c.closer.Covers (e'.entry c.generation).candidates e'.closed)
include h hstarted haborts hcleanups

theorem congr (hhome : e'.home = e.home) (hclosed : ∀ c, e.closed c = true → e'.closed c = true) :
    e'.HomesOk := by
  rw [homesOk_iff, hhome, hstarted]
  exact ⟨h.exclusive, h.bound, fun c hc => (h.accounted c hc).imp_left (hclosed c),
    haborts, hcleanups⟩

theorem forget (x : Party ⊕ ℕ) (hhome : e'.home = update e.home x [])
    (hclosed : ∀ c ∈ e.home x, e.closed c = true) (hsame : e'.closed = e.closed) : e'.HomesOk := by
  refine ⟨hhome ▸ h.exclusive.drop x, fun y c hc => ?_, fun c hc => ?_, haborts, hcleanups⟩
  · have := h.bound y c
    simp only [hhome, hstarted, update_apply] at *
    grind
  · rw [hhome, hsame]
    rcases h.accounted c (hstarted ▸ hc) with hcl | ⟨y, hy⟩
    · exact .inl hcl
    · by_cases hyx : y = x
      · exact .inl (hclosed c (hyx ▸ hy))
      · exact .inr ⟨y, by rwa [update_of_ne hyx]⟩

end

theorem congr_ledger (h : e.HomesOk) (ledger : Ledger) (howned : ledger.owned = e.owned)
    (hentry : ∀ g, (ledger.entry g).candidates = (e.entry g).candidates)
    (hcleanups : ∀ k c, ledger.cleanups k = some c → e.cleanups k = some c ∨
      c.closer = Closer.start (e.entry c.generation).candidates)
    (leases : ℕ → Option ℕ) : HomesOk { e with toLedger := ledger, leases := leases } := by
  refine h.congr rfl h.aborts ?_ ?_ fun _ hc => hc
  · intro k c hk
    show c.closer.Covers (ledger.entry c.generation).candidates e.closed
    rw [hentry]
    rcases hcleanups k c hk with hk | hstart
    · exact h.cleanups k c hk
    · rw [hstart]
      exact Closer.Covers.start _ _
  · funext x
    cases x with
    | inl p => rfl
    | inr g => simp only [home, howned, hentry]

theorem home_start (e : Estate) (p : Party) :
    home { e with
      held := update e.held p (e.held p ++ [e.started])
      started := e.started + 1 } =
      update e.home (.inl p) (e.home (.inl p) ++ [e.started]) := by
  funext x
  cases x <;> grind [home, update_apply]

theorem start (h : e.HomesOk) (hidle : e.aborts p = none) :
    HomesOk { e with
      held := update e.held p (e.held p ++ [e.started])
      started := e.started + 1 } := by
  have hfresh : ∀ x, e.started ∉ e.home x := fun x hx => absurd (h.bound x _ hx) (by omega)
  rw [homesOk_iff, home_start]
  refine ⟨h.exclusive.take _ hfresh, fun x c hc => ?_, fun c hc => ?_, ?_, h.cleanups⟩
  · have := h.bound x c
    grind [update_apply]
  · by_cases heq : c = e.started
    · exact .inr ⟨.inl p, by simp [heq]⟩
    · rcases h.accounted c (by grind) with hclosed | ⟨x, hx⟩
      · exact .inl hclosed
      · exact .inr ⟨x, by grind [update_apply]⟩
  · have := h.aborts
    grind [update_apply]

section

variable (hok : e.toLedger.Ok) {ledger : Ledger}
  (howned : ledger.owned = insert e.generations e.owned)
  (hold : ∀ g, g < e.generations → (ledger.entry g).candidates = (e.entry g).candidates)
  (hnew : (ledger.entry e.generations).candidates = e.held p)
include hok howned hold hnew

theorem home_adopt : (e.yield p ledger).home =
      update (update e.home (.inl p) []) (.inr e.generations)
        (e.home (.inl p)) := by
  funext x
  cases x with
  | inl q => simp only [home, yield, update_apply]; grind
  | inr g =>
    have := hok.owned_lt g
    simp only [home, yield, update_apply]
    grind

theorem adopt (h : e.HomesOk) (hcleanups : ledger.cleanups = e.cleanups) :
    HomesOk (e.yield p ledger) := by
  have hempty : e.home (.inr e.generations) = [] := by
    have hnot : e.generations ∉ e.owned := fun hmem => absurd (hok.owned_lt _ hmem) (by omega)
    simp [home, hnot]
  rw [homesOk_iff, home_adopt hok howned hold hnew]
  refine ⟨h.exclusive.move _ _, fun x c hc => ?_, fun c hc => ?_, fun q closer hq => ?_,
    fun k c hk => ?_⟩
  · rw [update_apply, update_apply] at hc
    split_ifs at hc
    · exact h.bound _ c hc
    · cases hc
    · exact h.bound x c hc
  · rcases h.accounted c hc with hclosed | ⟨x, hx⟩
    · exact .inl hclosed
    · by_cases hx' : x = .inl p
      · exact .inr ⟨.inr e.generations, by grind⟩
      · exact .inr ⟨x, by grind [update_apply]⟩
  · have := h.aborts q closer
    simp only [yield, update_apply] at hq ⊢
    grind
  · have hk : e.cleanups k = some c := hcleanups ▸ hk
    have := h.cleanups k c hk
    rwa [← hold _ (hok.cleanups k c hk).2.1] at this

end

theorem drop (h : e.HomesOk) {closer : Closer} (hp : e.aborts p = some closer)
    (htodo : closer.todo = []) (hok : closer.failed = false) : HomesOk (e.yield p e.toLedger) := by
  refine h.forget rfl (fun q closer hq => ?_) h.cleanups (.inl p) ?_ ?_ rfl
  · have := h.aborts q closer
    simp only [yield, update_apply] at *
    grind
  · funext x
    cases x with
    | inl q => simp [home, yield, update_apply]
    | inr g => simp [yield, home.eq_2]
  · have := (h.aborts p closer hp).done hok
    grind [home]

theorem finish (h : e.HomesOk) {k : ℕ} {c : Cleanup} (hk : e.cleanups k = some c)
    (htodo : c.closer.todo = []) :
    HomesOk { e with toLedger := e.toLedger.finish k c.generation c.closer.failed } := by
  have hentry : ∀ g, ((e.toLedger.finish k c.generation c.closer.failed).entry g).candidates =
      (e.entry g).candidates := candidates_setEntry _ rfl
  have hcleanups : ∀ k' c', (e.toLedger.finish k c.generation c.closer.failed).cleanups k' =
      some c' → c'.closer.Covers ((e.toLedger.finish k c.generation c.closer.failed).entry
        c'.generation).candidates e.closed := by
    intro k' c' hk'
    rw [hentry]
    rcases update_eq_some.mp hk' with ⟨_, hv⟩ | ⟨_, hk'⟩
    · cases hv
    · exact h.cleanups k' c' hk'
  cases hfailed : c.closer.failed with
  | true =>
    refine h.congr rfl h.aborts (hfailed ▸ hcleanups) ?_ fun _ hc => hc
    funext x
    cases x <;> grind [home, Ledger.finish]
  | false =>
    rw [hfailed] at hentry
    refine h.forget rfl h.aborts (hfailed ▸ hcleanups) (.inr c.generation) ?_ ?_ rfl
    · funext x
      cases x with
      | inl p => simp [home]
      | inr g =>
        simp only [home, hentry, update_apply, Sum.inr.injEq]
        simp only [Ledger.finish]
        grind
    · have := (h.cleanups k c hk).done hfailed
      grind [home]

end HomesOk

theorem Move.homes {e e' : Estate} (hmove : Move e e') (hok : e.toLedger.Ok) (h : e.HomesOk) :
    e'.HomesOk := by
  cases hmove with
  | start p hidle => exact h.start hidle
  | abort p hidle =>
    refine h.congr rfl (fun q closer hq => ?_) h.cleanups rfl fun _ hc => hc
    have := h.aborts q closer
    have := Closer.Covers.start (e.held p) e.closed
    grind [update_apply]
  | turnAbort p hp hturn =>
    refine h.congr rfl (fun q closer hq => ?_)
      (fun k c hk => (h.cleanups k c hk).mono hturn.closed_mono) rfl hturn.closed_mono
    rcases update_eq_some.mp hq with ⟨rfl, hv⟩ | ⟨_, hq⟩
    · cases hv
      exact hturn.covers (h.aborts q _ hp)
    · exact (h.aborts q closer hq).mono hturn.closed_mono
  | drop p hp htodo hfailed => exact h.drop hp htodo hfailed
  | retain p =>
    refine h.adopt hok rfl ?_ ?_ rfl
    all_goals simp only [Ledger.retain, Ledger.adopt, Ledger.setEntry, Entry.fresh, update_apply]
    all_goals grind
  | publish p c id =>
    refine h.adopt hok rfl ?_ ?_ rfl
    all_goals
      simp only [Ledger.publish, Ledger.promote, Ledger.shut, Ledger.adopt, Ledger.setEntry,
        Entry.fresh, update_apply]
      grind
  | queue g =>
    refine h.congr_ledger (e.toLedger.queue g) rfl (candidates_setEntry _ rfl) ?_ e.leases
    simp only [Ledger.queue, update_apply]
    grind
  | turnCleanup k hk hturn =>
    refine h.congr rfl (fun q closer hq => (h.aborts q closer hq).mono hturn.closed_mono)
      (fun k' c' hk' => ?_) rfl hturn.closed_mono
    rcases update_eq_some.mp hk' with ⟨rfl, hv⟩ | ⟨_, hk'⟩
    · cases hv
      exact hturn.covers (h.cleanups _ _ hk)
    · exact (h.cleanups k' c' hk').mono hturn.closed_mono
  | finish k hk htodo => exact h.finish hk htodo
  | acquire l g =>
    exact h.congr_ledger (e.toLedger.setRefs g ((e.entry g).refs + 1)) rfl
      (candidates_setEntry _ rfl) (fun _ _ hk => .inl hk) _
  | release l g =>
    exact h.congr_ledger (e.toLedger.setRefs g ((e.entry g).refs - 1)) rfl
      (candidates_setEntry _ rfl) (fun _ _ hk => .inl hk) _
  | shut g =>
    exact h.congr_ledger (e.toLedger.shut g) rfl
      (candidates_setEntry _ rfl) (fun _ _ hk => .inl hk) e.leases

/-- The invariants of an estate. -/
structure Ok (e : Estate) : Prop where
  ledger : e.toLedger.Ok
  refs : e.RefsOk
  homes : e.HomesOk

theorem Move.ok {e e' : Estate} (hmove : Move e e') (h : e.Ok) : e'.Ok :=
  ⟨hmove.ledger h.ledger h.refs, hmove.refs h.refs, hmove.homes h.ledger h.homes⟩

theorem Moves.ok {e e' : Estate} (hmoves : Moves e e') (h : e.Ok) : e'.Ok := by
  induction hmoves with
  | refl => exact h
  | tail _ hmove ih => exact hmove.ok ih

end Estate

end SpiceAgent.Pluginhost
