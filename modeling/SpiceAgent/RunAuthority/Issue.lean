import SpiceAgent.RunAuthority.Lease

/-!
# Issuing a snapshot

`issueSnapshotEnvelope` of `daemon/run_authority.go` asks the lease before and after it signs: each
`SnapshotIssuePreflight`, `SignSnapshot` and `SnapshotIssueError` takes the mutex of the lease anew,
so that the four looks may see four different states of it.
-/

namespace SpiceAgent.RunAuthority

variable {M : Type*} [DecidableEq M]

/-- The errors of `daemon.RunAuthority`. -/
inductive PublicError
  | unavailable
  | busy
  | state
  | verification
  | uncertain
  | context

namespace Active

def snapshotIssueError (active : Active M) : AuthorityError :=
  if active.uncertain then .uncertain else active.snapshotIssueErr.getD .state

def snapshotIssuePreflight (active : Active M) (runID : String) : Option AuthorityError :=
  if active.uncertain then some .uncertain
  else if active.snapshotIssueErr.isSome then active.snapshotIssueErr
  else if active.closed || !active.lock || runID != active.runID then some .state
  else none

end Active

/-- A snapshot of the kernel, as far as the authority looks at it. -/
structure KernelSnapshot where
  runID : String
  lastSequence : ℕ
  /-- `snapshotLifecycle` of its status. -/
  lifecycle : Option Lifecycle
  /-- `Validate` accepts it. -/
  valid : Bool
  /-- `MarshalBinary` succeeds. -/
  encodes : Bool
  /-- `validateSnapshotEnvelopeContent` accepts the encoding. -/
  contentValid : Bool
  sha256 : List UInt8

/-- The input that `NewSnapshotEnvelope` has signed. -/
def KernelSnapshot.input (snapshot : KernelSnapshot) (lifecycle : Lifecycle) : SnapshotInput :=
  { format := snapshotFormat, runID := snapshot.runID, lastSequence := snapshot.lastSequence,
    lifecycle, payloadSHA256 := snapshot.sha256 }

/-- The error that `SignSnapshot` returns; `finishErr` is that of `finish`. -/
def Effect.signError {α : Type*} (finishErr : Bool) : Effect M α → Option AuthorityError
  | .refused err => some err
  | .repeated | .wrote _ _ => none
  | .uncertain .. => some .signing
  | .ended _ _ => if finishErr then some .signing else none

def issueClass : AuthorityError → PublicError
  | .uncertain => .uncertain
  | .unavailable => .unavailable
  | _ => .state

variable (identity : Identity) (mac : String → ℕ → SnapshotInput → M)

/-- What `NewSnapshotEnvelope` does: its error, and the effect of `SignSnapshot` if it comes to it.
The context may end between the two checks. -/
def newSnapshotEnvelope (snapshot : KernelSnapshot) (lifecycle : Lifecycle) (active : Active M)
    (ctxDone signDone finishErr : Bool) (outcome : WriteOutcome) :
    Option AuthorityError × Option (Effect M (Active M)) :=
  if ctxDone then (some .context, none)
  else if !snapshot.contentValid then (some .state, none)
  else
    let effect := active.signSnapshot identity mac (snapshot.input lifecycle) signDone outcome
    (effect.signError finishErr, some effect)

def issueFailure (after later : Active M) (runID : String) (err : AuthorityError) : PublicError :=
  match issueClass after.snapshotIssueError with
  | .uncertain => .uncertain
  | .unavailable => .unavailable
  | _ =>
    match later.snapshotIssuePreflight runID with
    | some err => issueClass err
    | none => if err = .context then .context else .state

/-- `issueSnapshotEnvelope`: its error, and the effect of `SignSnapshot` if it comes to it.
`before`, `signing`, `after` and `later` are the lease when it looks at it. -/
def issueSnapshotEnvelope (snapshot : KernelSnapshot) (before signing after later : Active M)
    (ctxDone signDone finishErr : Bool) (outcome : WriteOutcome) :
    Option PublicError × Option (Effect M (Active M)) :=
  if !snapshot.valid then (some .state, none)
  else match before.snapshotIssuePreflight snapshot.runID with
    | some err => (some (issueClass err), none)
    | none =>
      match snapshot.lifecycle with
      | none => (some .state, none)
      | some lifecycle =>
        if !snapshot.encodes then (some .state, none)
        else
          let (err, effect) :=
            newSnapshotEnvelope identity mac snapshot lifecycle signing ctxDone signDone
            finishErr outcome
          (err.map (issueFailure after later snapshot.runID), effect)

variable {identity mac} {snapshot : KernelSnapshot} {before signing after later : Active M}
  {ctxDone signDone finishErr : Bool} {outcome : WriteOutcome} {effect : Effect M (Active M)}

theorem issueSnapshotEnvelope_signs
    (h : (issueSnapshotEnvelope identity mac snapshot before signing after later ctxDone signDone
      finishErr outcome).2 = some effect) :
    ∃ lifecycle, snapshot.lifecycle = some lifecycle ∧
      effect = signing.signSnapshot identity mac (snapshot.input lifecycle) signDone outcome ∧
      (issueSnapshotEnvelope identity mac snapshot before signing after later ctxDone signDone
        finishErr outcome).1 =
        (effect.signError finishErr).map (issueFailure after later snapshot.runID) := by
  unfold issueSnapshotEnvelope at h ⊢
  by_cases hvalid : (!snapshot.valid) = true
  · rw [if_pos hvalid] at h
    cases h
  rw [if_neg hvalid] at h ⊢
  cases hpreflight : before.snapshotIssuePreflight snapshot.runID with
  | some err =>
    rw [hpreflight] at h
    cases h
  | none =>
    rw [hpreflight] at h
    cases hlifecycle : snapshot.lifecycle with
    | none =>
      rw [hlifecycle] at h
      cases h
    | some lifecycle =>
      rw [hlifecycle] at h
      dsimp only at h ⊢
      by_cases hencodes : (!snapshot.encodes) = true
      · rw [if_pos hencodes] at h
        cases h
      rw [if_neg hencodes] at h ⊢
      refine ⟨lifecycle, rfl, ?_⟩
      unfold newSnapshotEnvelope at h ⊢
      split_ifs at h ⊢
      cases h
      exact ⟨rfl, rfl⟩

/-- After an ambiguous write the issue reports it, since the lease stays uncertain. -/
theorem issueSnapshotEnvelope_uncertain {value : Active M} {record : Record M} {installed : Bool}
    (hafter : after.uncertain = true)
    (h : (issueSnapshotEnvelope identity mac snapshot before signing after later ctxDone signDone
      finishErr outcome).2 = some (.uncertain value record installed)) :
    (issueSnapshotEnvelope identity mac snapshot before signing after later ctxDone signDone
      finishErr outcome).1 = some .uncertain := by
  obtain ⟨lifecycle, -, -, herr⟩ := issueSnapshotEnvelope_signs h
  have hclass : issueClass after.snapshotIssueError = .uncertain := by
    rw [Active.snapshotIssueError, if_pos hafter, issueClass]
  rw [herr, Effect.signError, Option.map_some, issueFailure, hclass]

end SpiceAgent.RunAuthority
