import SpiceAgent.PluginHost.CloseCalls
import SpiceAgent.PluginHost.Production

/-!
# Graceful runs

The runs of a host on production candidates in which every candidate that is closed is in order: it
is healthy, drains, shuts down, exits and is contained. In such a run no candidate is ever closed
with an error (`World.ClosesGracefully.close`), and so the order of `World.Orderly` and
`World.Watched` is kept (`World.reachable_graceful`).
-/

namespace SpiceAgent.Pluginhost

open Lib Function

variable {K : CandidateKind}

def HostLabel.changes {I : Type} : HostLabel I → Bool
  | .change _ _ => true
  | _ => false

namespace World

section States

variable {w w' : World K} {P : K.State → Prop}

/-- The candidates that have been started have states in `P`. -/
def States (w : World K) (P : K.State → Prop) : Prop :=
  ∀ c, c < w.started → ∃ s, w.candidate c = some s ∧ P s

/-- A turn of `closeCandidates` whose close gives a state in `P`. -/
def ClosesInto (w : World K) (P : K.State → Prop) (closer : Closer) (input : Option K.Input) :
    Prop :=
  ∀ i c rest s, input = some i → closer.todo = c :: rest → w.candidate c = some s →
    P (K.close s i).1

theorem States.closeNext (hw : w.States P) {closer closer' : Closer} {input : Option K.Input}
    (hclose : w.ClosesInto P closer input) (h : w.closeNext closer input = some (w', closer')) :
    ∀ c, c < w.started → ∃ s, w'.candidate c = some s ∧ P s := by
  unfold World.closeNext at h
  split at h
  case h_1 => cases h
  case h_2 =>
    obtain ⟨rfl, _⟩ := Prod.mk.inj (Option.some_inj.mp h)
    exact hw
  case h_3 c rest i htodo =>
    obtain ⟨rfl, _⟩ := Prod.mk.inj (Option.some_inj.mp h)
    cases hc : w.candidate c with
    | none => exact hw
    | some s =>
      intro c' hc'
      by_cases heq : c' = c
      · subst heq
        exact ⟨(K.close s i).1, update_self .., hclose i c' rest s rfl htodo hc⟩
      · obtain ⟨s', hs', hP⟩ := hw c' hc'
        exact ⟨s', (update_of_ne heq ..).trans hs', hP⟩

section

variable (hw : w.States P) (hstart : ∀ x i s, (K.start x i).1 = some s → P s)
include hw hstart

theorem States.attempt {p : Party} {event : AttemptEvent K.Input}
    (hclose : w.AtClose (.attempt p event) (w.ClosesInto P)) (h : Attempted w p event w') :
    w'.States P := by
  have hnew : ∀ {s : K.State}, P s → ∀ c, c < w.started + 1 →
      ∃ s', update w.candidate w.started (some s) c = some s' ∧ P s' := by
    intro s hs c hc
    by_cases heq : c = w.started
    · exact ⟨s, by rw [heq, update_self], hs⟩
    · rw [update_of_ne heq]
      exact hw c (by omega)
  cases h with
  | start hp hs => exact hnew (hstart _ _ _ hs)
  | startFails hp hs => exact hnew (hstart _ _ _ hs)
  | close hp hnext =>
    have hstates := hw.closeNext (hclose.1 _ _ _ _ _ rfl hp) hnext
    exact hstates
  | refuse | begin | skip | fail | compose | abort | leave | stage | withdraw | publish => exact hw

theorem States.step {label : HostLabel K.Input}
    (hchange : label.changes = true → ∀ s i, P s → P (K.change s i))
    (hclose : w.AtClose label (w.ClosesInto P)) (h : w.step label = some w') : w'.States P := by
  cases step_inv h with
  | attempt hattempt => exact hw.attempt hstart hclose hattempt
  | @change c i =>
    intro c' hc'
    obtain ⟨s, hs, hP⟩ := hw c' hc'
    by_cases heq : c' = c
    · subst heq
      refine ⟨K.change s i, ?_, hchange rfl s i hP⟩
      show update w.candidate c' ((w.candidate c').map (K.change · i)) c' = _
      rw [update_self, hs]
      rfl
    · exact ⟨s, (update_of_ne heq ..).trans hs, hP⟩
  | cleanup hk hnext =>
    have hstates := hw.closeNext (hclose.2 _ _ _ rfl hk) hnext
    exact hstates
  | activate | finish | steer | lease | observe | unobserve | cleaned | call => exact hw

end

end States

theorem Ok.toClose_lt {w : World K} (hok : w.Ok) {x : Party ⊕ ℕ} {c : ℕ} (h : w.ToClose x c) :
    c < w.started := by
  rcases hok.toClose_home h with ⟨p, _, hmem⟩ | ⟨k, cleanup, _, _, _, _, hmem⟩
  · exact hok.estate.homes.bound _ c hmem
  · exact hok.estate.homes.bound _ c hmem

theorem AtClose.of_toClose {w w' : World K} {label : HostLabel K.Input}
    {P Q : Closer → Option K.Input → Prop} (hP : w.AtClose label P) (h : w.step label = some w')
    (hQ : ∀ closer input c rest, closer.todo = c :: rest → (∃ x, w.ToClose x c) → P closer input →
      Q closer input) : w.AtClose label Q := by
  constructor
  · rintro p input staging cs closer rfl hp
    cases htodo : closer.todo with
    | nil =>
      have hnone : w.attemptStep p (.close input) = none := by
        simp [attemptStep, hp, closeNext, htodo]
      cases hnone.symm.trans h
    | cons c rest =>
      refine hQ closer input c rest htodo ⟨.inl p, staging, cs, closer, hp, ?_⟩ ?_
      · rw [htodo]
        exact List.mem_cons_self
      · exact hP.1 p input staging cs closer rfl hp
  · rintro k input ⟨g, closer⟩ rfl hk
    cases htodo : closer.todo with
    | nil =>
      have hnone : w.cleanupStep k input = none := by simp [cleanupStep, hk, closeNext, htodo]
      cases hnone.symm.trans h
    | cons c rest =>
      refine hQ closer input c rest htodo ⟨.inr k, ⟨g, closer⟩, hk, ?_⟩ ?_
      · rw [htodo]
        exact List.mem_cons_self
      · exact hP.2 k input _ rfl hk

/-! ## Graceful runs -/

section Graceful

variable {w w' : World productionKind} {restart : RestartPolicy} {digest : String} {t : ℕ}

variable (w)

/-- A turn of `closeCandidates` that finds its candidate in order and has time to close it. -/
def ClosesWell (closer : Closer) (input : Option (Launch × CloseInput)) : Prop :=
  ∃ i, input = some i ∧ ∀ c rest s, closer.todo = c :: rest → w.candidate c = some s →
    Production.closesWell s i.2 = true

/-- Every candidate that is closed is in order: it is healthy, drains, shuts down, exits and is
contained. -/
def ClosesGracefully (label : HostLabel (Launch × CloseInput)) : Prop :=
  w.AtClose label w.ClosesWell

/-- Every containment step of `candidate.cleanup` succeeds. -/
def ContainmentSucceeds (label : HostLabel (Launch × CloseInput)) : Prop :=
  w.AtClose label fun _ input => ∀ i, input = some i → i.2.containment.succeeds = true

/-- The health of every candidate that is not contained is good. -/
def Sane : Prop := w.States Production.Sane

variable {w}

theorem ClosesGracefully.close {label : HostLabel (Launch × CloseInput)}
    (hC : w.ClosesGracefully label) (hok : w.Ok) (hclean : w.States Production.Clean)
    (h : w.step label = some w') :
    w.ClosesSucceed label ∧ w.AtClose label (w.ClosesInto Production.Clean) ∧
      w.AtClose label (w.ClosesInto Production.Sane) := by
  have hstate : ∀ {c : ℕ}, (∃ x, w.ToClose x c) →
      ∃ s, w.candidate c = some s ∧ Production.Clean s := by
    rintro c ⟨x, hx⟩
    exact hclean c (hok.toClose_lt hx)
  have hinto {P : productionKind.State → Prop} (hP : ∀ s i, Production.Clean s →
      Production.closesWell s i.2 = true → P (productionKind.close s i).1) :
      w.AtClose label (w.ClosesInto P) := by
    refine hC.of_toClose h ?_
    rintro closer input c rest htodo hx ⟨i, rfl, hwell⟩ i' c' rest' s' hi htodo' hs'
    cases hi
    obtain ⟨rfl, rfl⟩ := List.cons.inj (htodo.symm.trans htodo')
    obtain ⟨s, hs, hclean⟩ := hstate hx
    obtain rfl := Option.some_inj.mp (hs.symm.trans hs')
    exact hP s i hclean (hwell c rest s htodo hs)
  refine ⟨hC.of_toClose h ?_, hinto fun _ _ hs hwell => (hs.close hwell).2.1,
    hinto fun _ _ hs hwell => (hs.close hwell).2.2⟩
  rintro closer input c rest htodo hx ⟨i, rfl, hwell⟩
  obtain ⟨s, hs, hclean⟩ := hstate hx
  exact ⟨i, c, rest, s, rfl, htodo, hs, (hclean.close (hwell c rest s htodo hs)).1⟩

/-- What holds in every graceful run. -/
structure Graceful (w : World productionKind) : Prop where
  ok : w.Ok
  orderly : w.Orderly
  watched : w.Watched
  clean : w.States Production.Clean

theorem Graceful.step (hg : w.Graceful) {label : HostLabel (Launch × CloseInput)}
    (hC : w.ClosesGracefully label) (h : w.step label = some w') : w'.Graceful := by
  obtain ⟨hsucceed, hinto, _⟩ := hC.close hg.ok hg.clean h
  refine ⟨hg.ok.step h, (hg.orderly.step hsucceed h).1,
    hg.watched.step hg.orderly hg.ok hsucceed h, ?_⟩
  exact hg.clean.step (fun x i s hs => (Production.clean_start hs).1)
    (fun _ s i hs => hs.change i) hinto h

theorem Graceful.init (restart : RestartPolicy) (digest : String) :
    (World.init productionKind restart digest).Graceful := by
  refine ⟨ok_init productionKind restart digest, .init _ restart digest, .init _ restart digest, ?_⟩
  intro c hc
  exact absurd hc (Nat.not_lt_zero c)

theorem reachable_graceful
    (h : (hostSystem productionKind restart digest).ReachableIf World.ClosesGracefully w) :
    w.Graceful :=
  h.invariant (I := World.Graceful) (Graceful.init restart digest) fun _ hg hC hst => hg.step hC hst

end Graceful

end World

end SpiceAgent.Pluginhost
