import SpiceAgent.PluginHost.Background

/-!
# Close calls that wait

While closes succeed, a `Close` call is never told that a cleanup has failed, and one that waits has
something to wait for: it watches the recovery controller, or the host is busy, or the `changed`
channel it waits for is closed (`World.Watched`).
-/

namespace SpiceAgent.Pluginhost

open Lib Function

variable {K : CandidateKind}

namespace Host

variable {host : Host} {attempt g : ℕ}

theorem queueCleanup_keeps (host : Host) (g₀ attempt : ℕ) :
    (host.queueCleanup g₀ attempt).owned = host.owned ∧
      (∀ g, ((host.queueCleanup g₀ attempt).generation g).refs = (host.generation g).refs) ∧
      ∀ g, g ≠ g₀ → (host.queueCleanup g₀ attempt).generation g = host.generation g := by
  unfold queueCleanup
  dsimp only
  split
  · exact ⟨rfl, fun _ => rfl, fun _ _ => rfl⟩
  · refine ⟨rfl, fun g => ?_, fun g hg => update_of_ne hg ..⟩
    by_cases hg : g = g₀
    · subst hg
      simp [setGeneration]
    · simp [setGeneration, hg]

theorem foldl_cleaning (gs : List ℕ) (host : Host)
    (h : (host.generation g).cleaning = true ∨ g ∈ gs ∧ host.cleanable attempt g = true) :
    ((gs.foldl (fun h g => if h.cleanable attempt g then h.queueCleanup g attempt else h)
      host).generation g).cleaning = true := by
  induction gs generalizing host with
  | nil =>
    rcases h with h | ⟨hmem, _⟩
    · exact h
    · cases hmem
  | cons g₀ gs ih =>
    rw [List.foldl_cons]
    apply ih
    by_cases hg : g = g₀
    · subst hg
      left
      rcases h with hcleaning | ⟨_, hcleanable⟩
      · rw [if_neg (by simp [cleanable, hcleaning])]
        exact hcleaning
      · rw [if_pos hcleanable]
        simp only [cleanable, Bool.and_eq_true, Bool.not_eq_true', decide_eq_true_eq] at hcleanable
        obtain ⟨⟨⟨hrefs, hcleaning⟩, hcleaned⟩, _⟩ := hcleanable
        simp [queueCleanup, hrefs, hcleaning, hcleaned, setGeneration]
    · have hsame :
          (if host.cleanable attempt g₀ then host.queueCleanup g₀ attempt else host).generation
          g = host.generation g := by
        split_ifs
        · exact (host.queueCleanup_keeps g₀ attempt).2.2 g hg
        · rfl
      rcases h with hcleaning | ⟨hmem, hcleanable⟩
      · left
        rw [hsame]
        exact hcleaning
      · right
        refine ⟨(List.mem_cons.mp hmem).resolve_left hg, ?_⟩
        generalize (if host.cleanable attempt g₀ then host.queueCleanup g₀ attempt else host) = h₁
          at hsame
        unfold cleanable at hcleanable ⊢
        rw [hsame]
        exact hcleanable

theorem queueCleanups_owned (host : Host) (attempt : ℕ) :
    (host.queueCleanups attempt).owned = host.owned ∧
      ∀ g, ((host.queueCleanups attempt).generation g).refs = (host.generation g).refs := by
  unfold queueCleanups
  generalize host.owned.sort (· ≤ ·) = gs
  induction gs generalizing host with
  | nil => exact ⟨rfl, fun _ => rfl⟩
  | cons g₀ gs ih =>
    rw [List.foldl_cons]
    split_ifs
    · obtain ⟨howned, hrefs⟩ := ih (host.queueCleanup g₀ attempt)
      obtain ⟨howned', hrefs', -⟩ := host.queueCleanup_keeps g₀ attempt
      exact ⟨howned.trans howned', fun g => (hrefs g).trans (hrefs' g)⟩
    · exact ih host

theorem closeProgress_owned (host : Host) (attempt : ℕ) (controllerDone : Bool) :
    (host.closeProgress attempt controllerDone).1.owned = host.owned := by
  have hqueue := (host.queueCleanups_owned attempt).1
  rcases World.ledger_closeProgress host attempt controllerDone with hledger | hledger
  · exact congrArg Ledger.owned hledger
  · exact (congrArg Ledger.owned hledger).trans hqueue

section

variable (hf : host.Faultless) (hcleaned : ∀ g ∈ host.owned, (host.generation g).cleaned = false)
    (hattempt : attempt ≠ 0)
include hf hcleaned hattempt

/-- In a closing host without failed cleanups, every owned generation that is not leased is cleaned
up. -/
theorem queueCleanups_cleaning (hg : g ∈ host.owned) (hrefs : (host.generation g).refs = 0) :
    ((host.queueCleanups attempt).generation g).cleaning = true := by
  refine foldl_cleaning _ host ?_
  cases hcleaning : (host.generation g).cleaning with
  | true => exact .inl rfl
  | false =>
    right
    refine ⟨(Finset.mem_sort _).mpr hg, ?_⟩
    have hretired : (host.generation g).retired = false := by
      simp [Generation.retired, hcleaning, hcleaned g hg, hf.errs g]
    have htry := hf.tries g hretired
    simp only [cleanable, hrefs, hcleaning, hcleaned g hg, htry, Bool.not_false, Bool.and_true,
      decide_true, Bool.true_and, decide_eq_true_eq]
    omega

theorem closeProgress_faultless (controllerDone : Bool) :
    ((host.closeProgress attempt controllerDone).2 = .wait ∧
      (controllerDone = false ∨ (host.closeProgress attempt controllerDone).1.Busy)) ∨
      (host.closeProgress attempt controllerDone).2 = .done := by
  unfold closeProgress
  dsimp only
  by_cases hidle : (host.activations = 0 && host.explicitActivations = 0 && controllerDone : Bool) =
    true
  · obtain ⟨howned, hrefs⟩ := host.queueCleanups_owned attempt
    simp only [hidle, if_true, Bool.not_true, Bool.false_or]
    by_cases hempty : host.owned = ∅
    · right
      simp [howned, hempty]
    · -- an owned generation is leased or is cleaned up
      left
      obtain ⟨g, hg⟩ := Finset.nonempty_iff_ne_empty.mpr hempty
      have hbusy : ((host.queueCleanups attempt).generation g).refs ≠ 0 ∨
          ((host.queueCleanups attempt).generation g).cleaning = true := by
        by_cases hzero : (host.generation g).refs = 0
        · exact .inr (queueCleanups_cleaning hf hcleaned hattempt hg hzero)
        · exact .inl (by rw [hrefs]; exact hzero)
      rw [if_pos]
      · exact ⟨rfl, .inr (.inr (.inr ⟨g, howned ▸ hg, hbusy⟩))⟩
      · simp only [Bool.not_eq_true', decide_eq_false_iff_not]
        intro hall
        obtain ⟨hzero, hcleaning⟩ := hall g (howned ▸ hg)
        rcases hbusy with hbusy | hbusy
        · exact hbusy hzero
        · rw [hcleaning] at hbusy
          cases hbusy
  · left
    simp only [hidle, Bool.not_false, Bool.true_or, if_true, Bool.false_eq_true, if_false]
    refine ⟨trivial, ?_⟩
    simp only [Bool.and_eq_true, decide_eq_true_eq, not_and_or] at hidle
    rcases hidle with (hactivations | hexplicit) | hdone
    · exact .inr (.inl hactivations)
    · exact .inr (.inr (.inl hexplicit))
    · exact .inl (by simpa using hdone)

end

end Host

namespace World

variable {w w' : World K} {t : ℕ}

/-- The `Close` call has begun to close the host and has not returned. -/
def InLoop (w : World K) (t attempt : ℕ) : Prop :=
  w.closes t = some (.looping attempt) ∨ ∃ n watching, w.closes t =
    some (.waiting attempt n watching)

/-- What a waiting call waits for. -/
structure Waits (host : Host) (n : ℕ) (watching : Bool) : Prop where
  le : n ≤ host.changed
  wakes : n = host.changed → watching = true ∨ host.Busy

/-- The `Close` calls of a host whose closes succeed. -/
structure Watched (w : World K) : Prop where
  attempts : ∀ t attempt, w.InLoop t attempt → attempt ≠ 0
  waits : ∀ t attempt n watching, w.closes t = some (.waiting attempt n watching) →
    Waits w.host n watching
  succeeds : ∀ t, w.closes t ≠ some (.returned .cleanupFailed)

theorem Waits.announces {host host' : Host} {n : ℕ} {watching : Bool} (hw : Waits host n watching)
    (h : host.Announces host') : Waits host' n watching := by
  rcases h with hlt | ⟨heq, hbusy⟩
  · refine ⟨hw.le.trans hlt.le, fun hn => ?_⟩
    have hle := hw.le
    omega
  · refine ⟨heq ▸ hw.le, fun hn => ?_⟩
    exact (hw.wakes (hn.trans heq)).imp_right hbusy

namespace Watched

theorem frame (hw : w.Watched) (hcloses : w'.closes = w.closes)
    (hannounces : w.host.Announces w'.host) : w'.Watched := by
  refine ⟨?_, ?_, ?_⟩
  · intro t attempt ht
    apply hw.attempts t attempt
    unfold InLoop at ht ⊢
    rwa [← hcloses]
  · intro t attempt n watching ht
    rw [hcloses] at ht
    exact (hw.waits t attempt n watching ht).announces hannounces
  · rw [hcloses]
    exact hw.succeeds

theorem move (hw : w.Watched) {phase : ClosePhase}
    (hcloses : w'.closes = update w.closes t (some phase)) (hannounces : w.host.Announces w'.host)
    (hloop : ∀ attempt, phase = .looping attempt → attempt ≠ 0)
    (hwaits : ∀ attempt n watching, phase = .waiting attempt n watching →
      attempt ≠ 0 ∧ Waits w'.host n watching)
    (hfailed : phase ≠ .returned .cleanupFailed) : w'.Watched := by
  have hself : w'.closes t = some phase := by rw [hcloses, update_self]
  have hother : ∀ t', t' ≠ t → w'.closes t' = w.closes t' := fun t' ht' => by
    rw [hcloses, update_of_ne ht']
  refine ⟨?_, ?_, ?_⟩
  · intro t' attempt ht'
    by_cases heq : t' = t
    · subst heq
      rcases ht' with hl | ⟨n, watching, hl⟩
      · exact hloop attempt (Option.some_inj.mp (hself.symm.trans hl))
      · exact (hwaits attempt n watching (Option.some_inj.mp (hself.symm.trans hl))).1
    · apply hw.attempts t' attempt
      unfold InLoop at ht' ⊢
      rwa [hother t' heq] at ht'
  · intro t' attempt n watching ht'
    by_cases heq : t' = t
    · subst heq
      exact (hwaits attempt n watching (Option.some_inj.mp (hself.symm.trans ht'))).2
    · rw [hother t' heq] at ht'
      exact (hw.waits t' attempt n watching ht').announces hannounces
  · intro t' ht'
    by_cases heq : t' = t
    · subst heq
      exact hfailed (Option.some_inj.mp (hself.symm.trans ht'))
    · rw [hother t' heq] at ht'
      exact hw.succeeds t' ht'

section

variable (hw : w.Watched) (ho : w.Orderly) (hok : w.Ok) {label : HostLabel K.Input}
include hw ho hok

theorem call {phase : ClosePhase} {host : Host} {gate : Bool}
    (h : Called w t label phase host gate) :
    Watched { w.setClose t phase with host := host, closeGate := gate } := by
  have hannounces : w.host.Announces host := h.calm.announces
  have hprogress : ∀ {attempt : ℕ}, w.closes t = some (.looping attempt) → attempt ≠ 0 ∧
      (((w.progress attempt).2 = .wait ∧
          (w.controllerDone = false ∨ (w.progress attempt).1.Busy)) ∨
        (w.progress attempt).2 = .done) := by
    intro attempt ht
    have hattempt := hw.attempts t attempt (.inl ht)
    have hcleaned : ∀ g ∈ w.host.owned, (w.host.generation g).cleaned = false := fun g hg =>
      (hok.estate.ledger.fits g (hok.estate.ledger.owned_lt g hg)).owned.mp hg
    exact ⟨hattempt, Host.closeProgress_faultless ho.faultless hcleaned hattempt w.controllerDone⟩
  cases h with
  | enter =>
    refine hw.move rfl hannounces ?_ nofun nofun
    intro attempt heq
    obtain rfl := ClosePhase.looping.inj heq
    exact Nat.succ_ne_zero _
  | wait ht hwait =>
    obtain ⟨hattempt, ⟨_, hbusy⟩ | hdone⟩ := hprogress ht
    · refine hw.move rfl hannounces nofun ?_ nofun
      intro attempt' n watching heq
      obtain ⟨rfl, rfl, rfl⟩ := ClosePhase.waiting.inj heq
      refine ⟨hattempt, ⟨le_refl _, fun _ => ?_⟩⟩
      exact hbusy.imp_left fun hnot => by simp [hnot]
    · cases hwait.symm.trans hdone
  | failed ht hfailed =>
    obtain ⟨_, ⟨hwait, _⟩ | hdone⟩ := hprogress ht
    · cases hfailed.symm.trans hwait
    · cases hfailed.symm.trans hdone
  | changed ht =>
    refine hw.move rfl hannounces ?_ nofun nofun
    intro attempt' heq
    obtain rfl := ClosePhase.looping.inj heq
    exact hw.attempts t _ (.inr ⟨_, _, ht⟩)
  | close | late | done | giveUp => exact hw.move rfl hannounces nofun nofun nofun

theorem step (hclose : w.ClosesSucceed label) (h : w.step label = some w') : w'.Watched := by
  have hannounces := (ho.step hclose h).2
  cases step_inv h with
  | call hcall => exact hw.call ho hok hcall
  | attempt hattempt => exact hw.frame hattempt.frame.2.1 hannounces
  | activate | finish | steer | lease | observe | unobserve | change | cleanup | cleaned =>
    exact hw.frame rfl hannounces

end

theorem init (K : CandidateKind) (restart : RestartPolicy) (digest : String) :
    (World.init K restart digest).Watched := by
  refine ⟨?_, ?_, ?_⟩
  · rintro t attempt (ht | ⟨n, watching, ht⟩)
    · exact absurd ht nofun
    · exact absurd ht nofun
  · intro t attempt n watching ht
    exact absurd ht nofun
  · intro t ht
    exact absurd ht nofun

end Watched

end World

end SpiceAgent.Pluginhost
