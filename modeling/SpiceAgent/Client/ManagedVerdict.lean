import SpiceAgent.Client.ManagedShutdown

/-!
# A terminal join of the managed connector

A `Wait` that fails for good leaves a verdict, and `Shutdown` returns it instead of cleaning up
again. `Initialize` does not look at it: a call that adopts the owned candidate and finds it exited
cleans it up once more. Where no call does so, and where no `Shutdown` loses the verdict to the
context of its caller, nothing is called on the candidate again.
-/

namespace SpiceAgent.Managed

open SpiceAgent.Lib List

/-! ## The search on error graphs -/

/-- Error values that may share causes and contain themselves. A value unwraps to a list, in which
`none` is nil, or panics. -/
structure ErrorGraph (N : Type) where
  classification : N → Classification
  unwrap : N → Option (List (Option N))

namespace ErrorGraph

variable {N : Type} (G : ErrorGraph N)

/-- `containsNonRetryable` on any error value, with its depth. -/
def containsNonRetryable (err : Option N) (depth : ℕ) : Bool :=
  match err with
  | none => false
  | some n =>
    if 128 ≤ depth then true
    else (G.classification n).isTerminal ||
      match G.unwrap n with
      | none => true
      | some causes => causes.any fun cause => containsNonRetryable cause (depth + 1)
termination_by 128 - depth

/-- The second error is reached from the first by this many unwrapping steps. -/
inductive Reaches : ℕ → N → N → Prop
  | refl (n : N) : Reaches 0 n n
  | cause {k : ℕ} {n m l : N} {causes : List (Option N)} (hunwrap : G.unwrap n = some causes)
      (hm : some m ∈ causes) (h : Reaches k m l) : Reaches (k + 1) n l

/-- The error reports that it cannot be retried, or panics in `Retryable` or `Unwrap`. -/
def Terminal (n : N) : Prop := (G.classification n).isTerminal = true ∨ G.unwrap n = none

variable {G} {n : N} {depth : ℕ}

/-- What the search has seen when it finds nothing. The induction is on the levels that are left. -/
theorem containsNonRetryable_eq_false :
    G.containsNonRetryable (some n) depth = false ↔
      ∀ k m, G.Reaches k n m → depth + k < 128 ∧ ¬ G.Terminal m := by
  induction hleft : 128 - depth generalizing n depth with
  | zero =>
    rw [containsNonRetryable, if_pos (by omega)]
    refine ⟨nofun, fun h => ?_⟩
    have := (h 0 n (.refl n)).1
    omega
  | succ left ih =>
    rw [containsNonRetryable, if_neg (by omega), Bool.or_eq_false_iff]
    constructor
    · rintro ⟨hclass, hcauses⟩ k m hm
      cases hunwrap : G.unwrap n with
      | none => simp [hunwrap] at hcauses
      | some causes =>
        simp only [hunwrap, any_eq_false] at hcauses
        cases hm with
        | refl => exact ⟨by omega, by simp [Terminal, hclass, hunwrap]⟩
        | cause hunwrap' hmem h =>
          obtain rfl := Option.some.inj (hunwrap.symm.trans hunwrap')
          have hchild := (ih (by omega)).mp (Bool.eq_false_iff.mpr (hcauses _ hmem)) _ _ h
          exact ⟨by omega, hchild.2⟩
    · intro h
      obtain ⟨hclass, hunwrap⟩ := not_or.mp (h 0 n (.refl n)).2
      obtain ⟨causes, hcauses⟩ := Option.ne_none_iff_exists'.mp hunwrap
      refine ⟨Bool.eq_false_iff.mpr hclass, ?_⟩
      simp only [hcauses, any_eq_false]
      intro cause hmem
      cases cause with
      | none => simp [containsNonRetryable]
      | some m =>
        refine Bool.eq_false_iff.mp ((ih (by omega)).mpr fun k l hl => ?_)
        have hlonger := h (k + 1) l (.cause hcauses hmem hl)
        exact ⟨by omega, hlonger.2⟩

/-- A terminal error at a level below 128, counted in unwrapping steps, is found. Nothing is found
exactly if all errors are at such levels and none of them is terminal. -/
theorem nonRetryable_search (G : ErrorGraph N) (err : N) :
    (∀ k n, k < 128 → G.Reaches k err n → G.Terminal n →
      G.containsNonRetryable (some err) 0 = true) ∧
    (G.containsNonRetryable (some err) 0 = false ↔
      ∀ k n, G.Reaches k err n → k < 128 ∧ ¬ G.Terminal n) := by
  have hfalse : G.containsNonRetryable (some err) 0 = false ↔
      ∀ k n, G.Reaches k err n → k < 128 ∧ ¬ G.Terminal n := by
    rw [containsNonRetryable_eq_false]
    simp only [Nat.zero_add]
  refine ⟨fun k n _ hreach hterminal => ?_, hfalse⟩
  by_contra hfound
  exact (hfalse.mp (Bool.eq_false_iff.mpr hfound) k n hreach).2 hterminal

end ErrorGraph

/-- The graph of the finite errors. -/
def Failure.graph : ErrorGraph Failure where
  classification | .node k _ => k
  unwrap | .node _ causes => causes.map (map some)

/-- On a finite error the search runs through its graph. -/
theorem containsNonRetryable_graph (f : Failure) (left : ℕ) (hleft : left ≤ 128) :
    Failure.graph.containsNonRetryable (some f) (128 - left) = containsNonRetryable left f := by
  induction left generalizing f with
  | zero => simp [ErrorGraph.containsNonRetryable, containsNonRetryable]
  | succ left ih =>
    have hdepth : 128 - (left + 1) + 1 = 128 - left := by omega
    rw [ErrorGraph.containsNonRetryable, if_neg (by omega), hdepth]
    match f with
    | .node k none => rfl
    | .node k (some causes) =>
      have hany : ((causes.map some).any fun cause =>
          Failure.graph.containsNonRetryable cause (128 - left)) =
          causes.any (containsNonRetryable left) := by
        rw [any_map]
        exact congrArg causes.any (funext fun g => ih g (by omega))
      rw [containsNonRetryable, ← hany]
      rfl

/-! ## Definitive failures -/

theorem Failure.ReportsNonRetryable.contained {f : Failure} (h : f.ReportsNonRetryable) (n : ℕ) :
    containsNonRetryable n f = true := by
  induction h generalizing n with
  | here causes => cases n <;> cases causes <;> rfl
  | @cause f causes k hf _ ih =>
    cases n with
    | zero => rfl
    | succ n =>
      unfold containsNonRetryable
      rw [Bool.or_eq_true]
      exact .inr (any_eq_true.mpr ⟨f, hf, ih n⟩)

/-- `Wait` failed with an error that reports, of itself or of a cause, that it cannot be retried,
and the shutdown time-out had not expired. -/
def Waited.Definitive (r : Waited) : Prop :=
  (∃ f, r.error = some f ∧ f.ReportsNonRetryable) ∧ r.cause ≠ .shutdownTimeout

/-- No call cleans up an adopted candidate while a verdict stands, and no `Shutdown` whose caller's
context has ended meets a definitive failure. -/
def Heeded (s : Shared) (_ : ℕ) (op : Op) (a : Action) : Prop :=
  (∀ c launched, op.phase = .awaiting c launched → a = .await .exited → s.terminalJoin = false) ∧
    ∀ r, a = .wait r → r.Definitive → r.cause ≠ .caller false

variable {s s' : Shared} {i j : ℕ} {op op' other : Op} {a : Action} {c : ℕ} {job : Job} {r : Waited}

theorem Waited.Definitive.joined (h : r.Definitive) : r.joined = false := by
  obtain ⟨⟨f, hf, -⟩, -⟩ := h
  simp [Waited.joined, hf]

theorem Waited.Definitive.terminal (h : r.Definitive) (hcaller : r.cause ≠ .caller false) :
    r.terminal = true := by
  obtain ⟨⟨f, hf, hnon⟩, htimeout⟩ := id h
  have hjoin : r.isJoin = true := by
    unfold Waited.isJoin
    generalize r.cause = cause at *
    match cause with
    | .live | .caller true => rfl
    | .shutdownTimeout => exact absurd rfl htimeout
    | .caller false => exact absurd rfl hcaller
  have hfound : explicitlyNonRetryable f = true := hnon.contained 128
  simp [Waited.terminal, h.joined, hjoin, hf, hfound]

def VerdictsKept (s : Shared) : Prop :=
  ∀ c r, .wait c true r ∈ s.calls → r.Definitive → s.owned = some c ∧ s.terminalJoin = true

/-- A call that is about to use a candidate has found no verdict. -/
def Phase.Unjudged (s : Shared) : Phase → Prop
  | .awaiting _ launched => launched = true → s.terminalJoin = false
  | .releasing _ (some _) => s.terminalJoin = false
  | .cleaning _ job _ => if job.ofOwned then s.terminalJoin = false else s.owned = none
  | _ => True

theorem Phase.Unjudged.of_not_holds : ∀ {p : Phase}, p.holds = false → p.Unjudged s
  | .idle, _ | .waiting, _ | .closing, _ | .cancelling _, _ | .queued, _ | .returning _, _
  | .returned _, _ => trivial

theorem Phase.Unjudged.congr {p : Phase} (h : p.Unjudged s) (howned : s'.owned = s.owned)
    (hverdict : s'.terminalJoin = s.terminalJoin) : p.Unjudged s' := by
  unfold Phase.Unjudged at h ⊢
  rw [howned, hverdict]
  exact h

/-! ## Steps -/

theorem Move.unjudged {p q : Phase} (h : Move s p q) (hp : p.Unjudged s) : q.Unjudged s := by
  cases h with
  | ready c => exact hp rfl
  | adopt c => exact fun h => absurd h Bool.false_ne_true
  | join c hverdict => exact hverdict
  | _ => trivial

theorem Drop.unjudged {p q : Phase} (h : Drop p q) (hp : p.Unjudged s) : q.Unjudged s := by
  cases h with
  | failed session c => exact hp
  | _ => trivial

theorem launch_unjudged (howned : s.owned = none) (r : Started) :
    (launch s op r).2.phase.Unjudged (launch s op r).1 := by
  have hfree : s.owned.isSome = false := by rw [howned]; rfl
  unfold launch
  dsimp only
  rw [hfree, Bool.or_false]
  split
  · exact howned
  · dsimp only
    split
    · rfl
    · exact fun _ => rfl

theorem finishCleaning_unjudged : (job.after r).Unjudged s := by
  cases job <;> trivial

theorem Effect.unjudged (h : Assertion s i op) (hu : op.phase.Unjudged s) (hh : Heeded s i op a)
    (he : Effect s i op a s' op') : op'.phase.Unjudged s' := by
  have howns := h.owns
  cases he with
  | move hm => exact hm.unjudged hu
  | drop hd => exact hd.unjudged hu
  | @giveUp _ c launched hp hlaunched =>
    rw [hp] at hu
    rcases hlaunched with rfl | rfl
    · exact hu rfl
    · exact hh.1 c launched hp rfl
  | launch r hp =>
    rw [hp] at howns
    exact launch_unjudged howns r
  | beginShutdown hp =>
    rw [hp] at hu
    exact hu
  | wait r hp => exact finishCleaning_unjudged
  | lease _ hq => rcases hq with rfl | rfl <;> trivial
  | take _ hq => rcases hq with ⟨-, rfl⟩ | ⟨-, rfl⟩ <;> trivial
  | _ => trivial

theorem VerdictsKept.calls_eq (hv : VerdictsKept s) (hcall : .wait c true r ∈ s.calls)
    (hr : r.Definitive) (h : Assertion s i op) (hu : op.phase.Unjudged s)
    (he : Effect s i op a s' op') : s'.calls = s.calls ∧ s'.owned = s.owned ∧
      s'.terminalJoin = s.terminalJoin := by
  obtain ⟨howned, hverdict⟩ := hv c r hcall hr
  have howns := h.owns
  cases he with
  | launch r hp =>
    rw [hp] at howns
    cases howned.symm.trans howns
  | @beginShutdown _ c job hp =>
    rw [hp] at hu
    cases hjob : job.ofOwned <;> simp [Phase.Unjudged, hjob, howned, hverdict] at hu
  | @wait c job r hp =>
    rw [hp] at hu
    cases hjob : job.ofOwned <;> simp [Phase.Unjudged, hjob, howned, hverdict] at hu
  | _ => exact ⟨rfl, rfl, rfl⟩

theorem Effect.verdictsKept (hv : VerdictsKept s) (h : Assertion s i op)
    (hu : op.phase.Unjudged s) (hh : Heeded s i op a) (he : Effect s i op a s' op') :
    VerdictsKept s' := by
  intro c r hcall hr
  by_cases hold : .wait c true r ∈ s.calls
  · obtain ⟨-, howned, hverdict⟩ := hv.calls_eq hold hr h hu he
    rw [howned, hverdict]
    exact hv c r hold hr
  · have howns := h.owns
    cases he with
    | launch x hp =>
      refine absurd ?_ hold
      unfold Managed.launch at hcall
      dsimp only at hcall
      split at hcall <;> simpa using hcall
    | beginShutdown hp => exact absurd (by simpa using hcall) hold
    | @wait b job x hp =>
      rw [hp] at howns
      have hcalls := (finishCleaning_shared s op b job x).2.2.2.1
      rw [hcalls, mem_append] at hcall
      obtain ⟨rfl, hjob, rfl⟩ := by simpa [hold] using hcall
      have hterminal := hr.terminal (hh.2 r rfl hr)
      have howned := howns.2 hjob
      unfold finishCleaning Shared.record
      dsimp only
      rw [hjob, hr.joined, hterminal]
      exact ⟨howned, rfl⟩
    | _ => exact absurd hcall hold

theorem heededOutline : connector.Outline Heeded (fun s => Kept s ∧ VerdictsKept s)
    (fun s i op => Assertion s i op ∧ op.phase.Unjudged s) where
  init_shared := ⟨outline.init_shared, by simp [VerdictsKept, connector]⟩
  init_thread i := ⟨outline.init_thread i, trivial⟩
  own hk h hh hact := by
    have he := act_effect hact
    exact ⟨⟨he.kept hk.1 h.1, he.verdictsKept hk.2 h.1 h.2 hh⟩,
      he.assertion hk.1 h.1, he.unjudged h.1 h.2 hh⟩
  others hk h hj hne hh hact := by
    refine ⟨outline.others hk.1 h.1 hj.1 hne trivial hact, ?_⟩
    rcases (act_effect hact).interferes h.1 with hw | hw
    · exact .of_not_holds (hj.1.idle_of_working hne hw)
    · exact hj.2.congr hw.owned hw.terminalJoin

theorem verdict_step {w w' : Pool Shared Op} {l : ℕ × Action}
    (h : connector.system.ReachableIf (Threads.Meets Heeded) w)
    (hcall : .wait c true r ∈ w.shared.calls) (hr : r.Definitive)
    (hstep : connector.system.step w l = some w') : w'.shared.calls = w.shared.calls := by
  obtain ⟨⟨-, hv⟩, ha⟩ := heededOutline.holds h
  obtain ⟨hact, -⟩ := Threads.step_eq_some hstep
  exact (hv.calls_eq hcall hr (ha l.1).1 (ha l.1).2 (act_effect hact)).1

/-- Once a `Wait` on the owned candidate has failed for good before the time-out, the candidate
stays owned and neither the starter nor a candidate is called again, where every verdict is heeded.
-/
theorem terminal_cleanup_not_repeated {w w' : Pool Shared Op} {c : ℕ} {r : Waited}
    (h : connector.system.ReachableIf (Threads.Meets Heeded) w)
    (hcall : .wait c true r ∈ w.shared.calls) (hr : r.Definitive)
    (hlater : connector.system.Leads (Threads.Meets Heeded) w w') :
    w'.shared.calls = w.shared.calls ∧ w'.shared.owned = some c := by
  have hlast : connector.system.ReachableIf (Threads.Meets Heeded) w' ∧
      w'.shared.calls = w.shared.calls := by
    induction hlater with
    | refl => exact ⟨h, rfl⟩
    | tail _ hstep ih =>
      obtain ⟨l, hheeded, hl⟩ := hstep
      refine ⟨ih.1.step hheeded hl, ?_⟩
      rw [verdict_step ih.1 (ih.2 ▸ hcall) hr hl]
      exact ih.2
  refine ⟨hlast.2, ?_⟩
  obtain ⟨⟨-, hv⟩, -⟩ := heededOutline.holds hlast.1
  exact (hv c r (hlast.2 ▸ hcall) hr).1

/-- A `Wait` that fails for good, on a candidate that has exited. -/
def failedJoin : Waited := ⟨some (.node .nonRetryable (some [])), .live, true, true⟩

theorem failedJoin_definitive : failedJoin.Definitive :=
  ⟨⟨_, rfl, .here (some [])⟩, by decide⟩

/-- The call `i` cleans up the candidate that exited, and returns. -/
def cleanUp (i : ℕ) : List (ℕ × Action) :=
  [(i, .await .exited), (i, .go), (i, .wait failedJoin), (i, .release true), (i, .finish false),
    (i, .go), (i, .go)]

/-- A daemon that exits before it is ready and cannot be joined. -/
def failedStart : List (ℕ × Action) :=
  findNone 0 ++ [(0, .start (some ⟨true, false⟩))] ++ cleanUp 0

def failedStartCalls : List Call := [.start 0 true, .beginShutdown 0, .wait 0 true failedJoin]

/-- The check that decides `Heeded` on the actions of these runs. -/
def heeds (w : Pool Shared Op) (l : ℕ × Action) : Bool :=
  match (w.threads l.1).phase, l.2 with
  | .awaiting _ _, .await .exited => !w.shared.terminalJoin
  | _, .wait r => decide (r.cause ≠ .caller false)
  | _, _ => true

theorem heeded_of_heeds (w : Pool Shared Op) (l : ℕ × Action) (h : heeds w l = true) :
    Threads.Meets Heeded w l := by
  refine ⟨fun c launched hp ha => ?_, fun r hr _ => ?_⟩
  · unfold heeds at h
    rw [hp, ha] at h
    simpa using h
  · unfold heeds at h
    rw [hr] at h
    simpa using h

/-- A `Shutdown` that finds the candidate whose join has failed. -/
def refusedShutdown : List (ℕ × Action) :=
  [(1, .callShutdown), (1, .go), (1, .go), (1, .take), (1, .go), (1, .go), (1, .go)]

theorem terminal_cleanup_not_repeated_failedStart :
    ∃ w w', connector.system.ReachableIf (Threads.Meets Heeded) w ∧
      w.shared.calls = failedStartCalls ∧
      connector.system.run w refusedShutdown = some w' ∧
      (w'.threads 1).phase = .returned .failed ∧
      w'.shared.calls = failedStartCalls ∧ w'.shared.owned = some 0 := by
  have hrun : connector.system.checkedRun heeds connector.system.init failedStart = some _ := rfl
  have hw := System.ReachableIf.init.checkedRun heeded_of_heeds hrun
  refine ⟨_, _, hw, rfl, rfl, rfl, terminal_cleanup_not_repeated hw ?_ failedJoin_definitive ?_⟩
  · exact mem_cons_of_mem _ (mem_cons_of_mem _ (mem_singleton_self _))
  · exact System.Leads.checkedRun heeded_of_heeds
      (show connector.system.checkedRun heeds _ refusedShutdown = _ from rfl)

/-- A second `Initialize` that finds no daemon shuts the candidate down again. -/
theorem terminal_cleanup_repeated :
    failedJoin.Definitive ∧
    ∃ w w', connector.system.Reachable w ∧ .wait 0 true failedJoin ∈ w.shared.calls ∧
      connector.system.run w (findNone 1 ++ cleanUp 1) = some w' ∧
      w'.shared.calls = w.shared.calls ++ [.beginShutdown 0, .wait 0 true failedJoin] := by
  have hrun : connector.system.after failedStart = some _ := rfl
  refine ⟨failedJoin_definitive, _, _, System.reachable_of_run hrun, ?_, rfl, rfl⟩
  exact mem_cons_of_mem _ (mem_cons_of_mem _ (mem_singleton_self _))

end SpiceAgent.Managed
