import SpiceAgent.RunAuthority.Issue
import SpiceAgent.RunAuthority.Contract

/-!
# Ambiguous writes are sticky

A writer that was invoked and failed may have installed its record. From then on the value or the
call is uncertain for good, and its store refuses the run.
-/

namespace SpiceAgent.RunAuthority

open SpiceAgent.Lib Option
open Function (update update_of_ne update_self)

variable {M : Type*} {w w' : World M} {id id' store s : ℕ} {r runID : String} {p p' : Party M}
  {e : Write M}

/-! ## What the parties know -/

/-- What the parties know about the attempts to write. -/
structure World.Marks (w : World M) : Prop where
  /-- The store of a party exists. -/
  opened : ∀ id p s, w.parties id = some p → p.store = some s → (w.stores s).isSome
  /-- Whoever has made an ambiguous write knows it. -/
  sticky : ∀ id s r, (id, s, r) ∈ w.ambiguous → ∃ p, w.parties id = some p ∧ p.Uncertain s r
  /-- Whoever knows of one has told the store, unless the write is its own. -/
  told : ∀ id p s r, w.parties id = some p → p.Uncertain s r →
    w.isUncertain s r = true ∧ ¬p.Owes ∨ p.Owes ∧ (p = .crashed ∨ (id, s, r) ∈ w.ambiguous)
  /-- A run is marked for an ambiguous write only. -/
  reason : ∀ s r, w.isUncertain s r = true → ∃ id, (id, s, r) ∈ w.ambiguous
  /-- A call that fails for another reason has written nothing. -/
  wrote : ∀ r, ∀ e ∈ w.log r, ∃ p, w.parties e.party = some p ∧ p.Wrote

/-- What a step of the party `id` does to all others. -/
structure World.Keeps (w : World M) (id : ℕ) (w' : World M) : Prop where
  marks : w'.Marks
  ambiguous : ∀ x ∈ w.ambiguous, x ∈ w'.ambiguous
  uncertain : ∀ s r, w.isUncertain s r = true → w'.isUncertain s r = true
  others : ∀ i p, i ≠ id → w.parties i = some p →
    w'.parties i = some p ∨ w'.parties i = some .crashed

theorem World.Marks.keeps (h : w.Marks) (id : ℕ) : w.Keeps id w :=
  ⟨h, fun _ h => h, fun _ _ h => h, fun _ _ _ h => .inl h⟩

theorem World.Keeps.trans {w'' : World M} (h : w.Keeps id w') (hnew : w.parties id' = none)
    (h' : w'.Keeps id' w'') : w.Keeps id w'' := by
  refine ⟨h'.marks, fun x hx => h'.ambiguous x (h.ambiguous x hx),
    fun s r hs => h'.uncertain s r (h.uncertain s r hs), fun i p hne hp => ?_⟩
  have hne' : i ≠ id' := by
    rintro rfl
    rw [hnew] at hp
    cases hp
  rcases h.others i p hne hp with hp | hcrashed
  · exact h'.others i p hne' hp
  · exact .inr ((h'.others i _ hne' hcrashed).elim (fun h => h) fun h => h)

theorem World.Marks.move (h : w.Marks) (hparties : w'.parties = update w.parties id (some p'))
    (hstores : ∀ s, (w.stores s).isSome → (w'.stores s).isSome)
    (hstore : ∀ s, p'.store = some s → (w'.stores s).isSome)
    (hkept : ∀ x ∈ w.ambiguous, x ∈ w'.ambiguous)
    (hambiguous : ∀ i s r, (i, s, r) ∈ w'.ambiguous → (i, s, r) ∈ w.ambiguous ∨ i = id)
    (hself : ∀ s r, (id, s, r) ∈ w'.ambiguous → p'.Uncertain s r)
    (hmarks : ∀ s r, w.isUncertain s r = true → w'.isUncertain s r = true)
    (hreason : ∀ s r, w'.isUncertain s r = true →
      w.isUncertain s r = true ∨ ∃ i, (i, s, r) ∈ w'.ambiguous)
    (htold : ∀ s r, p'.Uncertain s r →
      w'.isUncertain s r = true ∧ ¬p'.Owes ∨ p'.Owes ∧ (id, s, r) ∈ w'.ambiguous)
    (hlog : ∀ r, ∀ e ∈ w'.log r, e ∈ w.log r ∨ e.party = id)
    (hwrote : ∀ r, ∀ e ∈ w'.log r, e.party = id → p'.Wrote) : w.Keeps id w' := by
  have hmoved : w'.parties id = some p' := by rw [hparties, update_self]
  have hother {i : ℕ} (hne : i ≠ id) : w'.parties i = w.parties i := by
    rw [hparties, update_of_ne hne]
  refine ⟨⟨?_, ?_, ?_, ?_, ?_⟩, hkept, hmarks, fun i p hne hp => .inl ((hother hne).trans hp)⟩
  · intro i q s hq hs
    by_cases hid : i = id
    · subst hid
      cases hmoved.symm.trans hq
      exact hstore s hs
    · rw [hother hid] at hq
      exact hstores s (h.opened i q s hq hs)
  · intro i s r hi
    by_cases hid : i = id
    · subst hid
      exact ⟨p', hmoved, hself s r hi⟩
    · obtain ⟨p, hp, huncertain⟩ := h.sticky i s r ((hambiguous i s r hi).resolve_right hid)
      exact ⟨p, (hother hid).trans hp, huncertain⟩
  · intro i q s r hq huncertain
    by_cases hid : i = id
    · subst hid
      cases hmoved.symm.trans hq
      exact (htold s r huncertain).imp_right fun h => ⟨h.1, .inr h.2⟩
    · rw [hother hid] at hq
      rcases h.told i q s r hq huncertain with ⟨hmarked, hdone⟩ | ⟨howes, hwhy⟩
      · exact .inl ⟨hmarks s r hmarked, hdone⟩
      · exact .inr ⟨howes, hwhy.imp_right (hkept _)⟩
  · intro s r hmarked
    rcases hreason s r hmarked with hold | hnew
    · obtain ⟨i, hi⟩ := h.reason s r hold
      exact ⟨i, hkept _ hi⟩
    · exact hnew
  · intro r e he
    by_cases hid : e.party = id
    · exact ⟨p', by rw [hid, hmoved], hwrote r e he hid⟩
    · obtain ⟨p, hp, hwrote⟩ := h.wrote r e ((hlog r e he).resolve_right hid)
      exact ⟨p, (hother hid).trans hp, hwrote⟩

theorem mem_install_log {e' : Write M} (he : e' ∈ (w.install runID e).log r) :
    e' ∈ w.log r ∨ e' = e := by
  change e' ∈ update w.log runID _ r at he
  by_cases hr : r = runID
  · subst hr
    rw [update_self] at he
    exact (List.mem_append.mp he).imp_right List.mem_singleton.mp
  · rw [update_of_ne hr] at he
    exact .inl he

section

variable (h : w.Marks) (hp : w.parties id = some p)
include h hp

theorem World.Marks.none_of (hold : ∀ s r, ¬p.Uncertain s r) : (id, s, r) ∉ w.ambiguous := by
  intro hi
  obtain ⟨q, hq, hu⟩ := h.sticky id s r hi
  cases hp.symm.trans hq
  exact hold s r hu

theorem World.Marks.install (hid : e.party = id)
    (hstore : ∀ s, p'.store = some s → p.store = some s) (hold : ∀ s r, ¬p.Uncertain s r)
    (hnew : ∀ s r, ¬p'.Uncertain s r) (hwrote : p'.Wrote) :
    w.Keeps id ((w.install runID e).setParty id p') := by
  refine h.move rfl (fun _ h => h) (fun s hs => h.opened id p s hp (hstore s hs)) (fun _ h => h)
    (fun _ _ _ h => .inl h) (fun s r hi => absurd hi (h.none_of hp hold)) (fun _ _ h => h)
    (fun _ _ h => .inl h) (fun s r hu => absurd hu (hnew s r)) (fun r e' he => ?_)
    fun _ _ _ _ => hwrote
  rcases mem_install_log he with he | rfl
  · exact .inl he
  · exact .inr hid

theorem World.Marks.attempt (hid : e.party = id)
    (hstore : ∀ s, p'.store = some s → p.store = some s) (hold : ∀ s r, ¬p.Uncertain s r)
    (hnew : ∀ s r, p'.Uncertain s r ↔ store = s ∧ runID = r) (howes : p'.Owes) (hwrote : p'.Wrote)
    (installed : Bool) : w.Keeps id ((w.attempt store runID e installed).setParty id p') := by
  have hmarks : SameMarks w.stores ((w.attempt store runID e installed).setParty id p').stores := by
    cases installed <;> exact .refl _
  have hself : (id, store, runID) ∈ (w.attempt store runID e installed).ambiguous := by
    rw [← hid]
    exact List.mem_cons_self
  refine h.move (by cases installed <;> rfl) (fun s hs => (hmarks.isSome s).trans hs)
    (fun s hs => ?_) (fun x hx => List.mem_cons_of_mem _ hx) (fun i s r hi => ?_) (fun s r hi => ?_)
    (fun s r hs => (hmarks.isUncertain s r).trans hs)
    (fun s r hs => .inl ((hmarks.isUncertain s r).symm.trans hs)) (fun s r hu => ?_)
    (fun r e' he => ?_) fun _ _ _ _ => hwrote
  · rw [hmarks.isSome]
    exact h.opened id p s hp (hstore s hs)
  · rcases List.mem_cons.mp hi with heq | hi
    · exact .inr ((Prod.mk.inj heq).1.trans hid)
    · exact .inl hi
  · rcases List.mem_cons.mp hi with heq | hi
    · cases heq
      exact (hnew _ _).mpr ⟨rfl, rfl⟩
    · exact absurd hi (h.none_of hp hold)
  · obtain ⟨rfl, rfl⟩ := (hnew s r).mp hu
    exact .inr ⟨howes, hself⟩
  · cases installed with
    | false => exact .inl he
    | true =>
      rcases mem_install_log he with he | rfl
      · exact .inl he
      · exact .inr hid

theorem World.Marks.mark (howes : p.Owes) (hlive : p ≠ .crashed)
    (hold : ∀ s r, p.Uncertain s r ↔ store = s ∧ runID = r)
    (hnew : ∀ s r, p'.Uncertain s r ↔ store = s ∧ runID = r) (hstore : p.store = some store)
    (hstore' : p'.store = some store) (hdone : ¬p'.Owes) (hwrote : p'.Wrote) :
    w.Keeps id ((w.modifyStore store (·.markUncertain runID)).setParty id p') := by
  have hmine : (id, store, runID) ∈ w.ambiguous := by
    rcases h.told id p store runID hp ((hold _ _).mpr ⟨rfl, rfl⟩) with ⟨-, hdone⟩ | ⟨-, hwhy⟩
    · exact absurd howes hdone
    · exact hwhy.resolve_left hlive
  have hthere := h.opened id p store hp hstore
  obtain ⟨value, hvalue⟩ := isSome_iff_exists.mp hthere
  have hsome (s : ℕ) :
      (update w.stores store ((w.stores store).map (·.markUncertain runID)) s).isSome =
      (w.stores s).isSome := by
    rcases eq_or_ne s store with rfl | hne
    · rw [update_self, isSome_map]
    · rw [update_of_ne hne]
  have hmarked (s : ℕ) (r : String) :
      ((w.modifyStore store (·.markUncertain runID)).setParty id p').isUncertain s r = true ↔
        w.isUncertain s r = true ∨ store = s ∧ runID = r := by
    show (update w.stores store _ s).any _ = true ↔ (w.stores s).any _ = true ∨ _
    rcases eq_or_ne s store with rfl | hne
    · simp only [update_self, hvalue, map_some, any_some, decide_eq_true_eq, true_and,
        Store.markUncertain, Finset.mem_insert]
      exact Or.comm.trans (or_congr_right eq_comm)
    · simp only [update_of_ne hne, hne.symm, false_and, or_false]
  refine h.move rfl (fun s hs => (hsome s).trans hs) (fun s hs => ?_) (fun _ h => h)
    (fun _ _ _ h => .inl h) (fun s r hi => ?_) (fun s r hs => (hmarked s r).mpr (.inl hs))
    (fun s r hs => ?_) (fun s r hu => .inl ⟨(hmarked s r).mpr (.inr ((hnew s r).mp hu)), hdone⟩)
    (fun _ _ h => .inl h) fun _ _ _ _ => hwrote
  · obtain rfl : store = s := some.inj (hstore'.symm.trans hs)
    exact (hsome store).trans hthere
  · obtain ⟨q, hq, hu⟩ := h.sticky id s r hi
    cases hp.symm.trans hq
    exact (hnew s r).mpr ((hold s r).mp hu)
  · rcases (hmarked s r).mp hs with hs | ⟨rfl, rfl⟩
    · exact .inl hs
    · exact .inr ⟨id, hmine⟩

end

/-! ## Every step keeps the marks -/

section Steps

variable {identity : Identity} {mac : String → ℕ → SnapshotInput → M}
  {validEnvelope : Envelope M → Bool}

theorem World.Marks.init : (World.init : World M).Marks := by
  refine ⟨fun id p s hp => ?_, fun id s r h => ?_, fun id p s r hp => ?_, fun s r h => ?_,
    fun r e he => ?_⟩
  · cases hp
  · cases h
  · cases hp
  · cases h
  · cases he

theorem World.Marks.stores (h : w.Marks) {stores : ℕ → Option Store}
    (hstores : ∀ s, (w.stores s).isSome → (stores s).isSome)
    (hmarks : ∀ s r, { w with stores }.isUncertain s r = w.isUncertain s r) :
    w.Keeps id { w with stores } := by
  refine ⟨⟨fun id p s hp hs => hstores s (h.opened id p s hp hs), h.sticky,
    fun id p s r hp hu => ?_, fun s r hs => ?_, h.wrote⟩, fun _ h => h,
    fun s r hs => (hmarks s r).trans hs, fun _ _ _ hp => .inl hp⟩
  · rw [hmarks]
    exact h.told id p s r hp hu
  · rw [hmarks] at hs
    exact h.reason s r hs

theorem World.Marks.crash (h : w.Marks) (store : ℕ) : w.Keeps id (w.crash store) := by
  have hsame : SameMarks w.stores (w.crash store).stores := by
    refine .update ?_
    rw [map_map]
    rfl
  have hparty (id : ℕ) (p : Party M) (hp : w.parties id = some p) :
      (w.crash store).parties id = some .crashed ∨ (w.crash store).parties id = some p := by
    show (w.parties id).map _ = _ ∨ (w.parties id).map _ = _
    rw [hp, map_some]
    split_ifs
    · exact .inl rfl
    · exact .inr rfl
  refine ⟨⟨fun id p s hp hs => ?_, fun id s r hi => ?_, fun id p s r hp hu => ?_, fun s r hs => ?_,
    fun r e he => ?_⟩, fun _ h => h, fun s r hs => (hsame.isUncertain s r).trans hs,
    fun i p _ hp => (hparty i p hp).symm⟩
  · rw [hsame.isSome]
    rcases crash_parties hp with rfl | ⟨hp, -⟩
    · cases hs
    · exact h.opened id p s hp hs
  · obtain ⟨p, hp, hu⟩ := h.sticky id s r hi
    rcases hparty id p hp with hcrashed | hp
    · exact ⟨_, hcrashed, trivial⟩
    · exact ⟨p, hp, hu⟩
  · rw [hsame.isUncertain]
    rcases crash_parties hp with rfl | ⟨hp, -⟩
    · exact .inr ⟨trivial, .inl rfl⟩
    · exact h.told id p s r hp hu
  · rw [hsame.isUncertain] at hs
    exact h.reason s r hs
  · obtain ⟨p, hp, hwrote⟩ := h.wrote r e he
    rcases hparty _ p hp with hcrashed | hp
    · exact ⟨_, hcrashed, trivial⟩
    · exact ⟨p, hp, hwrote⟩

/-- What a labelled step does to everything but the party that it moves. -/
structure World.Later (w : World M) (l : Label M) (w' : World M) : Prop where
  marks : w'.Marks
  ambiguous : ∀ x ∈ w.ambiguous, x ∈ w'.ambiguous
  uncertain : ∀ s r, w.isUncertain s r = true → w'.isUncertain s r = true
  others : ∀ i p, ¬l.Moves i → w.parties i = some p →
    w'.parties i = some p ∨ w'.parties i = some .crashed

theorem World.Keeps.later {l : Label M} (h : w.Keeps id w')
    (hid : w.parties id = none ∨ l.Moves id) : w.Later l w' := by
  refine ⟨h.marks, h.ambiguous, h.uncertain, fun i p hmoves hp => h.others i p ?_ hp⟩
  rintro rfl
  rcases hid with hnone | hmoved
  · rw [hnone] at hp
    cases hp
  · exact hmoves hmoved

theorem World.Keeps.later_of_all (l : Label M) (h : ∀ id, w.Keeps id w') : w.Later l w' :=
  ⟨(h 0).marks, (h 0).ambiguous, (h 0).uncertain,
    fun i p _ hp => (h (i + 1)).others i p (by omega) hp⟩

section

variable (h : w.Marks) (hparties : w'.parties = update w.parties id (some p'))
  (hstores : SameMarks w.stores w'.stores) (hambiguous : w'.ambiguous = w.ambiguous)
  (hlog : w'.log = w.log)
include h hparties hstores hambiguous hlog

theorem World.Marks.pass (hstore : ∀ s, p'.store = some s → (w.stores s).isSome)
    (hold : ∀ p, w.parties id = some p →
      (∀ s r, p.Uncertain s r → p'.Uncertain s r) ∧ (p.Wrote → p'.Wrote))
    (hnew : ∀ s r, p'.Uncertain s r → w.isUncertain s r = true ∧ ¬p'.Owes ∨
      ∃ p, w.parties id = some p ∧ p ≠ .crashed ∧ p.Uncertain s r ∧ (p'.Owes ↔ p.Owes)) :
    w.Keeps id w' := by
  refine h.move hparties (fun s hs => ?_) (fun s hs => ?_) (fun x hx => ?_) (fun i s r hi => ?_) ?_
    (fun s r hs => ?_) (fun s r hs => ?_) ?_ (fun r e he => ?_) ?_
  · rw [hstores.isSome]
    exact hs
  · rw [hstores.isSome]
    exact hstore s hs
  · rw [hambiguous]
    exact hx
  · rw [hambiguous] at hi
    exact .inl hi
  · intro s r hi
    rw [hambiguous] at hi
    obtain ⟨p, hp, huncertain⟩ := h.sticky id s r hi
    exact (hold p hp).1 s r huncertain
  · rw [hstores.isUncertain]
    exact hs
  · rw [hstores.isUncertain] at hs
    exact .inl hs
  · intro s r huncertain
    rw [hstores.isUncertain, hambiguous]
    rcases hnew s r huncertain with hmarked | ⟨p, hp, hlive, hbefore, howes⟩
    · exact .inl hmarked
    · rw [howes]
      exact (h.told id p s r hp hbefore).imp_right fun h => ⟨h.1, h.2.resolve_left hlive⟩
  · rw [hlog] at he
    exact .inl he
  · intro r e he hid
    rw [hlog] at he
    obtain ⟨p, hp, hwrote⟩ := h.wrote r e he
    rw [hid] at hp
    exact (hold p hp).2 hwrote

theorem World.Marks.begin (hnew : w.parties id = none)
    (hstore : ∀ s, p'.store = some s → (w.stores s).isSome) (hcalm : ∀ s r, ¬p'.Uncertain s r) :
    w.Keeps id w' :=
  h.pass hparties hstores hambiguous hlog hstore (fun _ hp => nomatch hnew.symm.trans hp)
    fun s r hu => absurd hu (hcalm s r)

theorem World.Marks.advance (hp : w.parties id = some p) (hadvances : w.Advances p p') :
    w.Keeps id w' := by
  refine h.pass hparties hstores hambiguous hlog
    (fun s hs => h.opened id p s hp (hadvances.store s hs))
    (fun q hq => ?_) fun s r hu => (hadvances.learnt s r hu).imp_right fun hold =>
      ⟨p, hp, hadvances.live, hold⟩
  cases hp.symm.trans hq
  exact ⟨hadvances.kept, hadvances.wrote⟩

end

theorem World.Turn.keeps (hturn : w.Turn identity mac id w') (h : w.Marks) : w.Keeps id w' := by
  induction hturn with
  | idle => exact h.keeps id
  | begin stores hnew hstores hstore hcalm => exact h.begin rfl hstores rfl rfl hnew hstore hcalm
  | pass stores hp hstores hadvances => exact h.advance rfl hstores rfl rfl hp hadvances
  | lock hp _ hadvances => exact h.advance rfl (.refl _) rfl rfl hp hadvances
  | unlock s released hp _ hadvances => exact h.advance rfl (.refl _) rfl rfl hp hadvances
  | mark hp hlive howes hold hnew hstore hstore' hdone hwrote =>
    exact h.mark hp howes hlive hold hnew hstore hstore' hdone hwrote
  | attempt installed hw hstore hnew howes hwrote =>
    exact h.attempt hw.present rfl (fun s hs => hw.store.trans (hstore.symm.trans hs))
      hw.certain hnew howes hwrote installed
  | install hw hstore hcalm hwrote =>
    exact h.install hw.present rfl (fun s hs => hw.store.trans (hstore.symm.trans hs))
      hw.certain hcalm hwrote
  | lease _ hold hnew _ hstore hcalm _ _ ih =>
    refine ih.trans hold (ih.marks.begin rfl (.refl _) rfl rfl hnew (fun s hs => ?_) hcalm)
    obtain ⟨p, hp, hs⟩ := hstore s hs
    exact ih.marks.opened id p s hp hs

variable [DecidableEq M] in
theorem World.Marks.step {l : Label M} (h : w.Marks) (hinv : w.Inv identity mac)
    (hstep : w.step identity mac validEnvelope l = some w') : w.Later l w' := by
  rcases hinv.step_turn hstep with ⟨id, hid, hturn⟩ | ⟨stores, rfl, hsome, hmarks⟩ | ⟨store, rfl⟩
  · exact (hturn.keeps h).later hid
  · exact World.Keeps.later_of_all _ fun id => h.stores hsome hmarks
  · exact World.Keeps.later_of_all _ fun id => h.crash store

variable [DecidableEq M] in
theorem World.Marks.of_reachable (h : (World.system identity mac validEnvelope).Reachable w) :
    w.Marks :=
  h.invariant (I := World.Marks) .init fun hr hmarks hstep =>
    (hmarks.step (World.Inv.of_reachable hr) hstep).marks

end Steps

end SpiceAgent.RunAuthority
