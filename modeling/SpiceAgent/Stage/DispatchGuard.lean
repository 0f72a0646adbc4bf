import SpiceAgent.Lib.Transition
import SpiceAgent.Tool

/-!
# Guarded dispatch

`stage/dispatch_guard.go`: one call of `guardedToolDispatcher.Dispatch` as a transition system. Each
activation of the recursive closure `invoke` is a frame with its own program counter, and a frame
that runs a guard owns the continuation that `newGuardContinuation` made for it: an atomic word and
a channel. The guard is not known. It may call its continuation at any time, from any goroutine,
also after it has returned, and it may return anything, panic or end its goroutine; so may the
delegate.

The errors of guards, delegates and contexts are values of a type `E`, reporters of a type `R`.
-/

namespace SpiceAgent.Stage

open SpiceAgent.Lib SpiceAgent.Agent SpiceAgent.Tool Function

/-! ## The scope of a dispatch -/

/-- `ToolDispatchScope`: the interaction authority is the run ID in it, the requester the identity
of its capability. -/
structure ToolDispatchScope where
  runID : String
  turn : ℕ
  toolPlanID : String
  planFingerprint : String
  workspaceFingerprint : String
  interactionAuthority : String
  interactionRequester : Option ℕ
  deriving DecidableEq

/-- `PlanID.Validate`; `none` is the nil error. -/
def validatePlanID (value : String) : Option String :=
  if !trimmedToken value then
    some "tool plan ID must be non-empty without surrounding whitespace"
  else if 256 < value.utf8ByteSize then some "tool plan ID exceeds 256 bytes"
  else if value.toList.any fun c => isControl c || isSpace c then
    some "tool plan ID must not contain whitespace or control characters"
  else none

def validateDispatchFingerprint (what value : String) (allowEmpty : Bool) : Option String :=
  let mark := "sha256:".toList
  let digest := value.toList.drop mark.length
  if value = "" && allowEmpty then none
  else if !mark.isPrefixOf value.toList then
    some ("tool dispatch " ++ what ++ " fingerprint must use sha256")
  else if (String.ofList digest).utf8ByteSize ≠ 64 then
    some ("tool dispatch " ++ what ++ " fingerprint has an invalid SHA-256 length")
  else if !digest.all fun c => ('0' ≤ c && c ≤ '9') || ('a' ≤ c && c ≤ 'f') then
    some ("tool dispatch " ++ what ++ " fingerprint must be lowercase hexadecimal SHA-256")
  else none

/-- `interaction.Scope.Validate`. -/
def validateInteractionScope (runID : String) : Option String :=
  if !trimmedToken runID then
    some "interaction run ID must be non-empty without surrounding whitespace"
  else if 128 < runID.utf8ByteSize then some "interaction run ID exceeds 128 bytes"
  else none

def ToolDispatchScope.validate (s : ToolDispatchScope) : Option String :=
  if !trimmedToken s.runID || 96 < s.runID.utf8ByteSize then
    some "tool dispatch run ID is invalid"
  else if s.turn = 0 then some "tool dispatch turn must be positive"
  else ((validatePlanID s.toolPlanID).map ("tool dispatch plan ID: " ++ ·)).or <|
    (validateDispatchFingerprint "plan" s.planFingerprint false).or <|
    (validateDispatchFingerprint "workspace" s.workspaceFingerprint true).or <|
    ((validateInteractionScope s.interactionAuthority).map
      ("tool dispatch interaction authority: " ++ ·)).or <|
    if s.interactionAuthority ≠ s.runID then
      some "tool dispatch interaction authority does not own the run"
    else if s.interactionRequester.isNone then
      some "tool dispatch interaction requester is required"
    else none

/-! ## Outcomes -/

/-- An error: a text of this package, or the error of a guard, a delegate or a context. -/
inductive Failure (E : Type)
  | text (message : String)
  | given (error : E)

/-- A result and an error, of which `none` is nil. -/
structure Outcome (E : Type) where
  result : Result
  error : Option (Failure E)

section Outcomes

variable {E : Type} (isJson : List UInt8 → Bool)

def Outcome.fail (e : Failure E) : Outcome E := ⟨.zero, some e⟩

variable (call : Call) (o : Outcome E)

def validateGuardOutcome : Outcome E :=
  match o.error with
  | some e =>
    if !o.result.isZero then
      .fail (.text "tool dispatch guard returned both a result and an error")
    else .fail e
  | none =>
    match o.result.validate isJson with
    | some e => .fail (.text ("validate tool dispatch guard result: " ++ e))
    | none =>
      if o.result.callID ≠ call.id then
        .fail (.text "tool dispatch guard result does not match the active call")
      else o

/-- A zero result with an error, or a valid result of the active call. -/
def Outcome.Sound : Prop :=
  (o.result = .zero ∧ o.error ≠ none) ∨
    (o.error = none ∧ o.result.validate isJson = none ∧ o.result.callID = call.id)

instance (call : Call) (o : Outcome E) : Decidable (o.Sound isJson call) :=
  have : Decidable (o.error = none) := decidable_of_iff _ Option.isNone_iff_eq_none
  inferInstanceAs (Decidable ((_ ∧ ¬ _) ∨ (_ ∧ _ ∧ _)))

theorem Outcome.fail_sound (e : Failure E) : (Outcome.fail e).Sound isJson call :=
  .inl ⟨rfl, by simp [Outcome.fail]⟩

theorem validateGuardOutcome_sound : (validateGuardOutcome isJson call o).Sound isJson call := by
  unfold validateGuardOutcome
  split
  · split
    · exact Outcome.fail_sound isJson call _
    · exact Outcome.fail_sound isJson call _
  · rename_i herror
    split
    · exact Outcome.fail_sound isJson call _
    · rename_i hvalid
      split
      · exact Outcome.fail_sound isJson call _
      · rename_i hid
        exact .inr ⟨herror, hvalid, not_not.mp hid⟩

end Outcomes

/-! ## Frames -/

/-- Where an activation of `invoke` is. -/
inductive Phase (E : Type)
  /-- Before the check of the context. -/
  | entered
  /-- In `delegate.Dispatch`. -/
  | delegating
  /-- In `safeGuard`. -/
  | guarding
  /-- The guard has returned; before the compare-and-swap of `closeContinuation`. -/
  | closing (o : Outcome E)
  /-- The compare-and-swap failed; before the load. -/
  | loading (o : Outcome E)
  /-- The load found a running continuation; at the receive from `done`. -/
  | waiting (o : Outcome E)
  | returned (o : Outcome E)
  /-- Left without returning, by a panic or by `runtime.Goexit`. -/
  | unwound

/-- The atomic word of a continuation; `absent` before there is one. -/
inductive Cell
  | absent | fresh | running | closed
  deriving DecidableEq

/-- The deferred function of the continuation that called a frame: not run, run up to the store, or
run to its end. -/
inductive Deferred
  | pending | stored | ran
  deriving DecidableEq

/-- One activation of `invoke`. -/
structure Frame (E : Type) where
  /-- Its argument. -/
  index : ℕ
  /-- The frame whose continuation called it. -/
  caller : Option ℕ
  phase : Phase E
  cell : Cell
  /-- The channel `done` is closed. -/
  done : Bool
  deferred : Deferred

namespace Frame

variable {E : Type}

def enter (index : ℕ) (caller : Option ℕ) (phase : Phase E) : Frame E :=
  ⟨index, caller, phase, .absent, false, .pending⟩

def finished (f : Frame E) : Bool :=
  match f.phase with
  | .returned _ | .unwound => true
  | _ => false

def delegating (f : Frame E) : Bool :=
  match f.phase with
  | .delegating => true
  | _ => false

end Frame

/-- A move of the goroutine that runs a frame. -/
inductive Move (E : Type)
  /-- `guardContext.Err()` and what follows it. -/
  | check (error : Option E)
  | delegateReturns (o : Outcome E)
  /-- The delegate panics or ends its goroutine. -/
  | delegateUnwinds
  | guardReturns (o : Outcome E)
  | guardPanics
  /-- The guard ends its goroutine with `runtime.Goexit`, which `recover` does not see. -/
  | guardExits
  | close
  | load
  | await

/-- One call of `Dispatch`: the dispatcher has `guards` many guards. -/
structure Request (R : Type) where
  guards : ℕ
  scope : ToolDispatchScope
  call : Call
  reporter : R

section Machine

variable {E R : Type} (isJson : List UInt8 → Bool) (q : Request R)

def Frame.move (f : Frame E) (m : Move E) : Option (Frame E) :=
  match f.phase, m with
  | .entered, .check (some e) => some { f with phase := .returned (.fail (.given e)) }
  | .entered, .check none =>
    if f.index = q.guards then some { f with phase := .delegating }
    else some { f with phase := .guarding, cell := .fresh }
  | .delegating, .delegateReturns o => some { f with phase := .returned o }
  | .delegating, .delegateUnwinds => some { f with phase := .unwound }
  | .guarding, .guardReturns o => some { f with phase := .closing o }
  | .guarding, .guardPanics =>
    some { f with phase := .closing (.fail (.text "tool dispatch guard panicked")) }
  | .guarding, .guardExits => some { f with phase := .unwound }
  | .closing o, .close =>
    if f.cell = .fresh then
      some { f with phase := .returned (validateGuardOutcome isJson q.call o), cell := .closed }
    else some { f with phase := .loading o }
  | .loading o, .load =>
    if f.cell = .running then some { f with phase := .waiting o }
    else some { f with phase := .returned (validateGuardOutcome isJson q.call o) }
  | .waiting o, .await =>
    if f.done then some { f with phase := .returned (validateGuardOutcome isJson q.call o) }
    else none
  | _, _ => none

/-- What is observed of a call: a guard's continuation that begins to run, and the call of the
delegate. -/
inductive Event (R : Type)
  | next (index : ℕ)
  | delegate (scope : ToolDispatchScope) (call : Call) (reporter : R)

/-- The frames of one call in the order in which they began, and its events. -/
structure World (E R : Type) where
  frames : ℕ → Option (Frame E)
  count : ℕ
  log : List (Event R)

inductive Label (E : Type)
  /-- The goroutine of the frame moves. -/
  | move (k : ℕ) (m : Move E)
  /-- The continuation of the frame is called. -/
  | next (k : ℕ)
  /-- The continuation that called the frame stores 2. -/
  | store (k : ℕ)
  /-- The continuation that called the frame closes `done`. -/
  | closeDone (k : ℕ)

namespace World

variable (w : World E R)

/-- The world with another frame `k`. -/
def put (k : ℕ) (f : Frame E) : World E R :=
  { w with frames := update w.frames k (some f) }

def observed (f g : Frame E) : List (Event R) :=
  if g.delegating && !f.delegating then [.delegate q.scope q.call q.reporter] else []

/-- The world after the continuation of frame `k` began to run. -/
def spawn (k : ℕ) (f : Frame E) : World E R where
  frames := update (update w.frames k (some { f with cell := .running })) w.count
    (some (.enter (f.index + 1) (some k) .entered))
  count := w.count + 1
  log := w.log ++ [.next f.index]

def step : Label E → Option (World E R)
  | .move k m =>
    match w.frames k with
    | some f =>
      match f.move isJson q m with
      | some g => some { w.put k g with log := w.log ++ observed q f g }
      | none => none
    | none => none
  | .next k =>
    match w.frames k with
    | some f =>
      match f.cell with
      | .absent => none
      | .fresh => some (w.spawn k f)
      -- "tool dispatch continuation is closed or was already invoked"
      | .running | .closed => some w
    | none => none
  | .store k =>
    match w.frames k with
    | some f =>
      if f.finished && f.deferred = .pending then
        match f.caller with
        | some j =>
          (w.frames j).map fun g =>
            (w.put k { f with deferred := .stored }).put j { g with cell := .closed }
        | none => none
      else none
    | none => none
  | .closeDone k =>
    match w.frames k with
    | some f =>
      if f.deferred = .stored then
        match f.caller with
        | some j =>
          (w.frames j).map fun g =>
            (w.put k { f with deferred := .ran }).put j { g with done := true }
        | none => none
      else none
    | none => none

/-- What a step does, by its label. -/
inductive Effect (w : World E R) : Label E → World E R → Prop
  | move {k : ℕ} {m : Move E} {f g : Frame E} (hf : w.frames k = some f)
      (hg : f.move isJson q m = some g) :
      Effect w (.move k m) { w.put k g with log := w.log ++ observed q f g }
  | spawn {k : ℕ} {f : Frame E} (hf : w.frames k = some f) (hcell : f.cell = .fresh) :
      Effect w (.next k) (w.spawn k f)
  | refuse {k : ℕ} : Effect w (.next k) w
  | store {k j : ℕ} {f g : Frame E} (hf : w.frames k = some f) (hg : w.frames j = some g)
      (hfinished : f.finished = true) (hpending : f.deferred = .pending)
      (hcaller : f.caller = some j) : Effect w (.store k)
        ((w.put k { f with deferred := .stored }).put j { g with cell := .closed })
  | closeDone {k j : ℕ} {f g : Frame E} (hf : w.frames k = some f) (hg : w.frames j = some g)
      (hstored : f.deferred = .stored) (hcaller : f.caller = some j) : Effect w (.closeDone k)
        ((w.put k { f with deferred := .ran }).put j { g with done := true })

theorem effect_of_step {w t : World E R} {l : Label E} (h : w.step isJson q l = some t) :
    w.Effect isJson q l t := by
  unfold step at h
  cases l with
  | move k m =>
    dsimp only at h
    split at h
    · rename_i f hf
      split at h
      · rename_i g hg
        cases h
        exact .move hf hg
      · cases h
    · cases h
  | next k =>
    dsimp only at h
    split at h
    · rename_i f hf
      split at h
      · cases h
      · rename_i hcell
        cases h
        exact .spawn hf hcell
      · cases h
        exact .refuse
      · cases h
        exact .refuse
    · cases h
  | store k =>
    dsimp only at h
    split at h
    · rename_i f hf
      split at h
      · rename_i hpending
        simp only [Bool.and_eq_true, decide_eq_true_eq] at hpending
        split at h
        · rename_i j hcaller
          obtain ⟨g, hg, rfl⟩ := Option.map_eq_some_iff.mp h
          exact .store hf hg hpending.1 hpending.2 hcaller
        · cases h
      · cases h
    · cases h
  | closeDone k =>
    dsimp only at h
    split at h
    · rename_i f hf
      split at h
      · rename_i hstored
        split at h
        · rename_i j hcaller
          obtain ⟨g, hg, rfl⟩ := Option.map_eq_some_iff.mp h
          exact .closeDone hf hg hstored hcaller
        · cases h
      · cases h
    · cases h

/-- `Dispatch` has returned the outcome. -/
def Returned (o : Outcome E) : Prop :=
  ∃ f, w.frames 0 = some f ∧ f.phase = .returned o

def Idle : Prop := ∀ k f, w.frames k = some f → f.delegating = false

end World

/-! ## The checks before the first frame -/

/-- What `Dispatch` reads of its context and of the plan. -/
structure Surroundings (E : Type) where
  /-- The scope that the kernel bound to the context. -/
  bound : Option ToolDispatchScope
  /-- `ctx.Err()`. -/
  error : Option E
  definitions : List Definition
  /-- The context is one that this dispatcher gave to a guard. -/
  reentered : Bool

variable (s : Surroundings E)

/-- The checks of `Dispatch`; `none` lets the call through. -/
def refusal : Option (Failure E) :=
  match q.scope.validate with
  | some e => some (.text e)
  | none =>
    if s.bound ≠ some q.scope then
      some (.text "tool dispatch scope was substituted after authority binding")
    else match q.call.validate isJson with
      | some e => some (.text e)
      | none =>
        match s.error with
        | some e => some (.given e)
        | none =>
          if !s.definitions.any fun d => d.name = q.call.name then
            some (.text ("tool " ++ quoted q.call.name ++ " is not declared by the guarded plan"))
          else if s.reentered then some (.text "tool dispatch guard re-entry is forbidden")
          else none

/-- The frame of `invoke(ctx, 0)`, or the error returned in its place. -/
def start : World E R where
  frames := update (fun _ => none) 0 <| some <| .enter 0 none <|
    match refusal isJson q s with
    | some e => .returned (.fail e)
    | none => .entered
  count := 1
  log := []

/-- One call of `guardedToolDispatcher.Dispatch`. -/
def dispatchSystem : System (World E R) (Label E) where
  init := start isJson q s
  step := World.step isJson q

end Machine

end SpiceAgent.Stage
