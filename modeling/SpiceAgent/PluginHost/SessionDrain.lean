import SpiceAgent.Lib.KeyCount
import SpiceAgent.Lib.Threads

/-!
# Draining a plugin session

`remoteSession` of `plugin/host/remote_tool.go`: a thread is a call of `acquire` with the `release`
by its holder, or a call of `beginDrain`. A context that is found done is a choice of the
environment.
-/

namespace SpiceAgent.Pluginhost.RemoteSession

open Lib
open Function (update)

/-- What changes of a `remoteSession`. A channel is named by its place among those made for `zero`,
and `closes` counts the calls of `close` on it. -/
structure Session where
  admission : ℕ
  draining : Bool
  active : ℕ
  zero : ℕ
  closes : ℕ → ℕ
  panicked : Bool

/-- Where a call stands. -/
inductive Phase
  | fresh | admitted | counted | held | leaving | waiting (c : ℕ) | drained | over

inductive Choice
  | proceed | cancel | drain

def newRemoteSession : Session := ⟨0, false, 0, 0, fun c => if c = 0 then 1 else 0, false⟩

/-- `acquire` under the lock, with its token in `admission`. -/
def enter (s : Session) : Session × Phase :=
  if s.draining then (s, .leaving)
  else ({ s with active := s.active + 1, zero := if s.active = 0 then s.zero + 1 else s.zero },
    .counted)

/-- `release` under the lock. -/
def release (s : Session) : Session × Phase :=
  if s.active = 0 then ({ s with panicked := true }, .over)
  else if s.active - 1 = 0 then
    ({ s with active := 0, closes := update s.closes s.zero (s.closes s.zero + 1) }, .leaving)
  else ({ s with active := s.active - 1 }, .leaving)

/-- The next step of a call, where it is not blocked. -/
def act (limit : ℕ) (s : Session) (_ : ℕ) : Phase → Choice → Option (Session × Phase)
  | .fresh, .proceed =>
    if s.admission < limit then some ({ s with admission := s.admission + 1 }, .admitted) else none
  | .fresh, .cancel => some (s, .over)
  | .fresh, .drain => some ({ s with draining := true }, .waiting s.zero)
  | .admitted, .proceed => some (enter s)
  | .counted, .proceed => some (s, .held)
  | .counted, .cancel => some (release s)
  | .held, .proceed => some (release s)
  | .leaving, .proceed =>
    if s.admission = 0 then none else some ({ s with admission := s.admission - 1 }, .over)
  | .waiting c, .proceed => if s.closes c = 0 then none else some (s, .drained)
  | .waiting _, .cancel => some (s, .over)
  | _, _ => none

/-- The calls on a new session with the negotiated limit. -/
def calls (limit : ℕ) : Threads Session Phase Choice := ⟨newRemoteSession, .fresh, act limit⟩

namespace Phase

/-- An acquisition that is not released. -/
def acquired : Phase → Bool
  | .counted | .held => true
  | _ => false

/-- The token of the call is in `admission`. -/
def admits : Phase → Bool
  | .admitted | .counted | .held | .leaving => true
  | _ => false

def Ok (s : Session) : Phase → Prop
  | .waiting c => s.draining = true ∧ c = s.zero
  | .drained => s.draining = true ∧ s.active = 0
  | _ => True

end Phase

structure Kept (limit : ℕ) (w : Pool Session Phase) : Prop where
  active : {i | (w.threads i).acquired = true}.encard = w.shared.active
  admission : {i | (w.threads i).admits = true}.encard = w.shared.admission
  limit : w.shared.admission ≤ limit
  closes : ∀ c, w.shared.closes c =
    if c < w.shared.zero ∨ c = w.shared.zero ∧ w.shared.active = 0 then 1 else 0
  panicked : w.shared.panicked = false
  ok : ∀ i, (w.threads i).Ok w.shared

variable {limit : ℕ} {w w' : Pool Session Phase} {i : ℕ} {p q : Phase} {s s' : Session}

theorem Phase.Ok.mono (hp : p.Ok s) (hstay : s.draining = true →
    s'.draining = true ∧ s'.zero = s.zero ∧ (s.active = 0 → s'.active = 0)) : p.Ok s' := by
  cases p with
  | waiting c =>
    obtain ⟨hdraining, hzero, -⟩ := hstay hp.1
    exact ⟨hdraining, hp.2.trans hzero.symm⟩
  | drained =>
    obtain ⟨hdraining, -, hactive⟩ := hstay hp.1
    exact ⟨hdraining, hactive hp.2⟩
  | _ => trivial

namespace Kept

theorem init (limit : ℕ) : Kept limit (calls limit).system.init := by
  refine ⟨?_, ?_, Nat.zero_le _, fun c => ?_, rfl, fun i => trivial⟩
  all_goals simp [Threads.system, calls, Phase.acquired, Phase.admits, newRemoteSession]

variable (h : Kept limit w)
include h

theorem active_le : w.shared.active ≤ limit := by
  have hsub : {i | (w.threads i).acquired = true} ⊆ {i | (w.threads i).admits = true} := by
    intro i hi
    show (w.threads i).admits = true
    change (w.threads i).acquired = true at hi
    revert hi
    cases w.threads i <;> simp [Phase.acquired, Phase.admits]
  have hle := Set.encard_le_encard hsub
  rw [h.active, h.admission, Nat.cast_le] at hle
  exact hle.trans h.limit

variable (hp : w.threads i = p)
include hp

theorem active_ne_zero (hacquired : p.acquired = true) : w.shared.active ≠ 0 := by
  intro hzero
  have hempty := h.active
  rw [hzero, Nat.cast_zero, Set.encard_eq_zero] at hempty
  exact Set.eq_empty_iff_forall_notMem.mp hempty i (by simpa [hp] using hacquired)

/-- What a step has to say about the session and its own call. -/
theorem next (hactive : s.active + (if p.acquired = true then 1 else 0) =
      w.shared.active + if q.acquired = true then 1 else 0)
    (hadmission : s.admission + (if p.admits = true then 1 else 0) =
      w.shared.admission + if q.admits = true then 1 else 0) (hlimit : s.admission ≤ limit)
    (hcloses : ∀ c, s.closes c = if c < s.zero ∨ c = s.zero ∧ s.active = 0 then 1 else 0)
    (hpanicked : s.panicked = false)
    (hstay : w.shared.draining = true → s.draining = true ∧ s.zero = w.shared.zero ∧
      (w.shared.active = 0 → s.active = 0))
    (hok : q.Ok s) : Kept limit ⟨s, update w.threads i q⟩ := by
  subst hp
  exact ⟨encard_update_eq (P := (Phase.acquired · = true)) h.active hactive,
    encard_update_eq (P := (Phase.admits · = true)) h.admission hadmission, hlimit,
    hcloses, hpanicked,
    forall_value_update hok fun j _ => (h.ok j).mono hstay⟩

/-- A step that changes nothing but where its call stands. -/
theorem move (hacquired : q.acquired = p.acquired) (hadmits : q.admits = p.admits)
    (hok : q.Ok w.shared) : Kept limit ⟨w.shared, update w.threads i q⟩ :=
  h.next hp (by rw [hacquired]) (by rw [hadmits]) h.limit h.closes h.panicked
    (fun hdraining => ⟨hdraining, rfl, id⟩) hok

theorem enter (hadmitted : p = .admitted) (hs : enter w.shared = (s, q)) :
    Kept limit ⟨s, update w.threads i q⟩ := by
  subst hadmitted
  unfold RemoteSession.enter at hs
  split at hs
  · cases hs
    exact h.move hp rfl rfl trivial
  · rename_i hdraining
    cases hs
    refine h.next hp rfl rfl h.limit (fun c => ?_) h.panicked
      (fun ht => absurd ht hdraining) trivial
    -- the channel made on a rise from zero is open, and the one before it was closed
    have hc := h.closes c
    grind

theorem release (hacquired : p.acquired = true) (hadmits : p.admits = true)
    (hs : release w.shared = (s, q)) : Kept limit ⟨s, update w.threads i q⟩ := by
  have hpos := h.active_ne_zero hp hacquired
  have hc := h.closes
  unfold RemoteSession.release at hs
  rw [if_neg hpos] at hs
  split at hs
  all_goals
    cases hs
    refine h.next hp ?_ (by rw [hadmits]; rfl) h.limit (fun c => ?_) h.panicked
      (fun hdraining => ⟨hdraining, rfl, fun hzero => absurd hzero hpos⟩) trivial
  · rw [hacquired]
    show 0 + 1 = w.shared.active + 0
    omega
  · dsimp only
    grind
  · rw [hacquired]
    show w.shared.active - 1 + 1 = w.shared.active + 0
    omega
  · dsimp only
    grind

end Kept

theorem Kept.step {l : ℕ × Choice} (h : Kept limit w)
    (hstep : (calls limit).system.step w l = some w') : Kept limit w' := by
  obtain ⟨⟨s, q⟩, hact, rfl⟩ := Option.map_eq_some_iff.mp hstep
  obtain ⟨i, a⟩ := l
  generalize hp : w.threads i = p at hact
  simp only [calls, act] at hact
  split at hact
  · split_ifs at hact with hfree
    cases hact
    exact h.next hp rfl rfl hfree h.closes h.panicked (fun hd => ⟨hd, rfl, id⟩) trivial
  · cases hact
    exact h.move hp rfl rfl trivial
  · cases hact
    exact h.next hp rfl rfl h.limit h.closes h.panicked (fun _ => ⟨rfl, rfl, id⟩) ⟨rfl, rfl⟩
  · exact h.enter hp rfl (Option.some.inj hact)
  · cases hact
    exact h.move hp rfl rfl trivial
  · exact h.release hp rfl rfl (Option.some.inj hact)
  · exact h.release hp rfl rfl (Option.some.inj hact)
  · split_ifs at hact with hzero
    cases hact
    refine h.next hp rfl ?_ ((Nat.sub_le _ _).trans h.limit) h.closes h.panicked
      (fun hd => ⟨hd, rfl, id⟩) trivial
    exact Nat.sub_add_cancel (Nat.pos_of_ne_zero hzero)
  · rename_i c
    split_ifs at hact with hclosed
    cases hact
    obtain ⟨hdraining, rfl⟩ : Phase.Ok w.shared (.waiting c) := hp ▸ h.ok i
    refine h.move hp rfl rfl ⟨hdraining, ?_⟩
    simpa [h.closes] using hclosed
  · cases hact
    exact h.move hp rfl rfl trivial
  · cases hact

theorem drained_stays {ls : List (ℕ × Choice)} (hi : w.threads i = .drained)
    (hrun : (calls limit).system.run w ls = some w') : w'.threads i = .drained := by
  refine System.run_invariant (I := fun w => w.threads i = .drained) ?_ hrun hi
  intro u l v hu hstep
  obtain ⟨hact, hothers⟩ := Threads.step_eq_some hstep
  rcases eq_or_ne i l.1 with rfl | hne
  · simp [hu, calls, act] at hact
  · rw [hothers i hne, hu]

/-- **Draining is exact**: the active count is the number of acquisitions that are not released and
within the limit, `zero` is closed exactly while it is zero, no channel is closed twice and
`release` does not panic. After a `beginDrain` that has returned nil no call is active and none is
acquired. -/
theorem plugin_drain_exact (hw : (calls limit).system.Reachable w) :
    {i | (w.threads i).acquired = true}.encard = w.shared.active ∧ w.shared.active ≤ limit ∧
    (w.shared.closes w.shared.zero ≠ 0 ↔ w.shared.active = 0) ∧ (∀ c, w.shared.closes c ≤ 1) ∧
    w.shared.panicked = false ∧
    ∀ i, w.threads i = .drained → ∀ ls w', (calls limit).system.run w ls = some w' →
      w'.shared.active = 0 ∧ ∀ j, (w'.threads j).acquired = false := by
  have h : Kept limit w := hw.invariant (.init limit) fun _ hw hstep => hw.step hstep
  refine ⟨h.active, h.active_le, ?_, fun c => ?_, h.panicked, fun i hi ls w' hrun => ?_⟩
  · simp [h.closes]
  · rw [h.closes]
    split <;> decide
  · have h' := System.run_invariant (I := Kept limit) Kept.step hrun h
    have hok : Phase.Ok w'.shared .drained := drained_stays hi hrun ▸ h'.ok i
    refine ⟨hok.2, fun j => ?_⟩
    by_contra hj
    exact h'.active_ne_zero rfl (by simpa using hj) hok.2

/-- A drain waits for the one holder, and a call that was admitted before is refused. -/
theorem plugin_drain_exact_refused :
    ∃ w, (calls 2).system.Reachable w ∧ w.threads 2 = .drained ∧ w.shared.active = 0 ∧
      (w.threads 1).acquired = false := by
  have hrun :
      (calls 2).system.run (calls 2).system.init [(0, .proceed), (0, .proceed), (1, .proceed),
      (2, .drain), (1, .proceed), (0, .proceed), (0, .proceed), (2, .proceed)] = some _ := rfl
  have hreach := System.reachable_of_run hrun
  obtain ⟨hactive, hnone⟩ := (plugin_drain_exact hreach).2.2.2.2.2 2 rfl [] _ rfl
  exact ⟨_, hreach, rfl, hactive, hnone 1⟩

end SpiceAgent.Pluginhost.RemoteSession
