import SpiceAgent.Stage.GuardChain

/-!
# At most one dispatch behind the guards

Whatever its guards do short of ending their goroutine, a guarded dispatch calls its delegate at
most once, behind all its guards, and not any more once it has returned; with a guard its outcome is
one that `validateGuardOutcome` let through. A dispatcher without guards hands on the delegate's
outcome as it is. A guard that ends its goroutine skips `closeContinuation`, and its continuation
outlives the call.
-/

namespace SpiceAgent.Stage

open SpiceAgent.Lib SpiceAgent.Agent SpiceAgent.Tool

variable {E R : Type} {isJson : List UInt8 → Bool} {q : Request R} {D : Outcome E → Prop}

theorem chain_of_reachable {s : Surroundings E} {w : World E R}
    (h : (dispatchSystem isJson q s).ReachableIf (fun _ l => l.Allowed D) w) :
    Chain isJson q D w ∧ Logged q w := by
  refine System.ReachableIf.invariant (I := fun w => Chain isJson q D w ∧ Logged q w)
    ⟨Chain.start s, .inl rfl⟩ ?_ h
  rintro w l t - ⟨hchain, hlogged⟩ hl hst
  exact ⟨hchain.step hl hst, hlogged.step hchain hl hst⟩

theorem Settled.run {s : Surroundings E} {w w' : World E R} (h : Settled w) {ls : List (Label E)}
    (hrun : (dispatchSystem isJson q s).run w ls = some w') : w'.Idle ∧ w'.log = w.log := by
  have hend : Settled w' ∧ w'.log = w.log := by
    refine System.run_invariant (I := fun u => Settled u ∧ u.log = w.log) ?_ hrun ⟨h, rfl⟩
    rintro u l t ⟨hu, hlog⟩ hst
    obtain ⟨ht, hlog'⟩ := hu.step hst
    exact ⟨ht, hlog'.trans hlog⟩
  exact ⟨hend.1.idle, hend.2⟩

/-- In every run in which no guard ends its goroutine, with a delegate whose outcomes are in `D`,
the events are those of the script in its order. Once `Dispatch` has returned no call of the
delegate is running and none begins, and what it returned is a zero result with an error or a valid
result of the active call; without guards it may also be what the delegate returned. -/
theorem single_base_dispatch (s : Surroundings E) (w : World E R)
    (h : (dispatchSystem isJson q s).ReachableIf (fun _ l => l.Allowed D) w) :
    w.log <+: script q ∧
      ∀ o, w.Returned o →
        w.Idle ∧ (o.Sound isJson q.call ∨ q.guards = 0 ∧ D o) ∧
          ∀ ls w', (dispatchSystem isJson q s).run w ls = some w' → w'.Idle ∧ w'.log = w.log := by
  obtain ⟨hchain, hlogged⟩ := chain_of_reachable h
  refine ⟨hlogged.prefix_script hchain, ?_⟩
  rintro o ⟨f, hf, hphase⟩
  have hsettled : Settled w := hchain.settled hf (by simp [Frame.finished, hphase])
  have hsound : o.Sound isJson q.call ∨ f.index = q.guards ∧ D o := by
    have hcoherent := hchain.coherent hf
    unfold Frame.Coherent at hcoherent
    rw [hphase] at hcoherent
    exact hcoherent.2
  rw [(hchain.index hf).1] at hsound
  refine ⟨hsettled.idle, ?_, fun ls w' hrun => hsettled.run hrun⟩
  exact hsound.imp_right (And.imp_left Eq.symm)

/-! ## Fixed calls -/

def exampleScope : ToolDispatchScope where
  runID := "run"
  turn := 1
  toolPlanID := "plan"
  planFingerprint := "sha256:" ++ String.ofList (List.replicate 64 'a')
  workspaceFingerprint := ""
  interactionAuthority := "run"
  interactionRequester := some 0

/-- A call of the tool `read` behind some guards. -/
def exampleRequest (guards : ℕ) : Request Unit where
  guards := guards
  scope := exampleScope
  call := ⟨"call", "read", [0x7b, 0x7d]⟩
  reporter := ()

def exampleSurroundings : Surroundings Unit where
  bound := some exampleScope
  error := none
  definitions := [⟨"read", "Reads a file.", [0x7b, 0x7d], .readOnly, .safe, []⟩]
  reentered := false

abbrev exampleSystem (guards : ℕ) : System (World Unit Unit) (Label Unit) :=
  dispatchSystem (fun _ => true) (exampleRequest guards) exampleSurroundings

def exampleResult : Result := ⟨"call", [0x7b, 0x7d], ""⟩

/-- The first guard calls its continuation from another goroutine and panics while the second, which
calls its own twice, is still waiting for the delegate. -/
def racingGuards : List (Label Unit) :=
  [.move 0 (.check none), .next 0, .move 0 .guardPanics, .move 0 .close, .move 0 .load,
    .move 1 (.check none), .next 1, .next 1, .move 2 (.check none),
    .move 2 (.delegateReturns ⟨exampleResult, none⟩), .store 2, .closeDone 2,
    .move 1 (.guardReturns ⟨exampleResult, none⟩), .move 1 .close, .move 1 .load, .store 1,
    .closeDone 1, .move 0 .await]

theorem single_base_dispatch_racing :
    ∃ w, (exampleSystem 2).ReachableIf (fun _ l => l.Allowed fun _ => True) w ∧
      w.Returned (.fail (.text "tool dispatch guard panicked")) ∧
      w.log = script (exampleRequest 2) ∧
      w.log <+: script (exampleRequest 2) ∧ w.Idle := by
  have hrun : (exampleSystem 2).after racingGuards = some _ := rfl
  have hallowed : ∀ l ∈ racingGuards, ∀ _ : World Unit Unit, l.Allowed fun _ => True := by
    intro l hl _
    simp only [racingGuards, List.mem_cons, List.not_mem_nil, or_false] at hl
    rcases hl with rfl | rfl | rfl | rfl | rfl | rfl | rfl | rfl | rfl | rfl | rfl | rfl | rfl |
      rfl | rfl | rfl | rfl | rfl <;> trivial
  have hreach := System.ReachableIf.init.run hallowed hrun
  obtain ⟨hscript, hend⟩ := single_base_dispatch exampleSurroundings _ hreach
  exact ⟨_, hreach, ⟨_, rfl, rfl⟩, rfl, hscript, (hend _ ⟨_, rfl, rfl⟩).1⟩

/-- The first guard calls its continuation on a goroutine that the second one ends, keeping its own
continuation; the first guard then returns. -/
def exitingGuard : List (Label Unit) :=
  [.move 0 (.check none), .next 0, .move 1 (.check none), .move 1 .guardExits, .store 1,
    .closeDone 1, .move 0 (.guardReturns ⟨exampleResult, none⟩), .move 0 .close, .move 0 .load]

/-- Without guards the delegate's outcome is returned as it is, here no result and no error. A
continuation kept by a guard that ended its goroutine calls the delegate after the dispatch has
returned. -/
theorem base_dispatch_not_single :
    (∃ w o, (exampleSystem 0).Reachable w ∧ w.Returned o ∧
      ¬ o.Sound (fun _ => true) (exampleRequest 0).call) ∧
    ∃ w o ls w', (exampleSystem 2).Reachable w ∧ w.Returned o ∧
      (exampleSystem 2).run w ls = some w' ∧ ¬ w'.Idle := by
  constructor
  · have hrun : (exampleSystem 0).after
        [.move 0 (.check none), .move 0 (.delegateReturns ⟨.zero, none⟩)] = some _ := rfl
    exact ⟨_, ⟨.zero, none⟩, System.reachable_of_run hrun, ⟨_, rfl, rfl⟩, by decide +kernel⟩
  · have hrun : (exampleSystem 2).after exitingGuard = some _ := rfl
    refine ⟨_, _, [.next 1, .move 2 (.check none)], _, System.reachable_of_run hrun, ⟨_, rfl, rfl⟩,
      rfl, fun hidle => ?_⟩
    cases hidle 2 _ rfl

end SpiceAgent.Stage
