import SpiceAgent.Lib.Text

/-!
# The durable records of the run authority

`daemon/internal/runauthority/store.go` keeps one signed record for each run: its generation, its
phase and, while it is suspended, the snapshot that may be imported. A record file is replaced
atomically and only by `writeRecord`, so that the model has the records themselves in place of their
signed encoding.

The values of HMAC-SHA256 are an arbitrary type `M`. What a snapshot's payload must look like
belongs to the engine protocol and is a parameter.
-/

namespace SpiceAgent.RunAuthority

open SpiceAgent.Lib

/-- The errors of the authority. -/
inductive AuthorityError
  | configuration
  | unavailable
  | busy
  | state
  | verification
  | uncertain
  | closed
  /-- `enginev1.ErrSnapshotAuthoritySigning`. -/
  | signing
  /-- The cause of the caller's context. -/
  | context
  deriving DecidableEq

inductive Phase
  | active
  | suspended
  | importing
  | completed
  | failed
  | cancelled
  deriving DecidableEq

def Phase.terminal : Phase → Bool
  | .completed | .failed | .cancelled => true
  | .active | .suspended | .importing => false

/-- `enginev1.SnapshotLifecycle`. -/
inductive Lifecycle
  | unspecified
  | suspended
  | completed
  | failed
  | cancelled
  deriving DecidableEq

/-- `phaseForLifecycle`: the phase and whether the snapshot can be resumed. -/
def phaseForLifecycle : Lifecycle → Option (Phase × Bool)
  | .suspended => some (.suspended, true)
  | .completed => some (.completed, false)
  | .failed => some (.failed, false)
  | .cancelled => some (.cancelled, false)
  | .unspecified => none

def recordVersion : ℕ := 1

/-- `enginev1.SnapshotFormat`. -/
def snapshotFormat : String := "spice.agent.snapshot/v1alpha3"

def digestBytes : ℕ := 32

/-- The largest `uint64`. -/
def maxUint64 : ℕ := 2 ^ 64 - 1

/-- `validateRunID` accepts the value. -/
def validateRunID (runID : String) : Bool :=
  trimmedToken runID && runID.utf8ByteSize ≤ 128 && !runID.toList.any isControl

/-! ## Snapshots -/

/-- `enginev1.SnapshotAuthorityInput`. -/
structure SnapshotInput where
  format : String
  runID : String
  lastSequence : ℕ
  lifecycle : Lifecycle
  payloadSHA256 : List UInt8
  deriving DecidableEq

/-- The `token` check of the engine protocol. -/
def protocolToken (value : String) (maximum : ℕ) : Bool :=
  trimmedToken value && !value.toList.any (fun c => c ∈ ['\x00', '\r', '\n', '\t']) &&
    value.utf8ByteSize ≤ maximum

/-- `SnapshotAuthorityInput.validate` accepts the input. -/
def SnapshotInput.validate (input : SnapshotInput) : Bool :=
  input.format == snapshotFormat && protocolToken input.runID 128 && input.lastSequence != 0 &&
    input.lastSequence != maxUint64 && (phaseForLifecycle input.lifecycle).isSome &&
    input.payloadSHA256.length == digestBytes

variable {M : Type*} [DecidableEq M]

/-- `enginev1.SnapshotAuthority`: the claim on a snapshot. -/
structure Claim (M : Type*) where
  scopeID : List UInt8
  generation : ℕ
  hmacSHA256 : M
  deriving DecidableEq

/-- `enginev1.SnapshotEnvelope` without its payload. -/
structure Envelope (M : Type*) where
  format : String
  runID : String
  lastSequence : ℕ
  lifecycle : Lifecycle
  sha256 : List UInt8
  authority : Claim M
  deriving DecidableEq

/-- `snapshotAuthorityInput`. -/
def Envelope.input (snapshot : Envelope M) : SnapshotInput :=
  { format := snapshot.format, runID := snapshot.runID, lastSequence := snapshot.lastSequence,
    lifecycle := snapshot.lifecycle, payloadSHA256 := snapshot.sha256 }

/-! ## Records -/

structure SnapshotRecord (M : Type*) where
  format : String
  lastSequence : ℕ
  lifecycle : Lifecycle
  payloadSHA : List UInt8
  authorityMAC : M
  deriving DecidableEq

structure Record (M : Type*) where
  version : ℕ
  scopeID : List UInt8
  authorityGeneration : ℕ
  runID : String
  runGeneration : ℕ
  phase : Phase
  snapshot : Option (SnapshotRecord M)
  deriving DecidableEq

/-- `validSnapshotRecord`. -/
def SnapshotRecord.valid (value : SnapshotRecord M) : Bool :=
  value.format == snapshotFormat && value.lastSequence != 0 && value.lastSequence != maxUint64 &&
    value.lifecycle == .suspended && value.payloadSHA.length == digestBytes

/-- The identity that all stores over one directory have read. -/
structure Identity where
  authorityGeneration : ℕ
  scopeID : List UInt8
  deriving DecidableEq

namespace Identity

variable (identity : Identity)

/-- `validateRecord` accepts the record. -/
def validateRecord (value : Record M) (runID : String) : Bool :=
  value.version == recordVersion && value.scopeID == identity.scopeID &&
    value.authorityGeneration == identity.authorityGeneration && value.runID == runID &&
    value.runGeneration != 0 && validateRunID value.runID &&
    match value.phase with
    | .suspended => value.snapshot.any (·.valid)
    | _ => value.snapshot.isNone

def baseRecord (runID : String) (runGeneration : ℕ) (phase : Phase) : Record M :=
  { version := recordVersion, scopeID := identity.scopeID,
    authorityGeneration := identity.authorityGeneration, runID, runGeneration, phase,
    snapshot := none }

def matchesSuspended (value : Record M) (snapshot : Envelope M) : Bool :=
  value.phase == .suspended && value.scopeID == identity.scopeID &&
    value.authorityGeneration == snapshot.authority.generation &&
    value.snapshot.any fun stored =>
      stored.format == snapshot.format && stored.lastSequence == snapshot.lastSequence &&
        stored.lifecycle == snapshot.lifecycle && stored.payloadSHA == snapshot.sha256 &&
        stored.authorityMAC == snapshot.authority.hmacSHA256

/-- `HMACSnapshotAuthority.VerifySnapshot` of the codec with the MACs `mac` accepts the claim. -/
def verifySnapshot (mac : SnapshotInput → M) (input : SnapshotInput) (claim : Claim M) : Bool :=
  claim.scopeID.length == digestBytes && claim.generation != 0 && input.validate &&
    claim.scopeID == identity.scopeID && claim.generation == identity.authorityGeneration &&
    claim.hmacSHA256 == mac input

end Identity

/-! ## Writing -/

/-- What the environment of one `writeRecord` does. -/
inductive WriteOutcome
  /-- The context ends before the writer is invoked. -/
  | cancelled
  /-- The writer returns an error, with the record installed or not. -/
  | failed (installed : Bool)
  | done

/-- What `writeRecord` returns. -/
inductive WriteResult
  /-- The writer was not invoked. -/
  | refused (err : AuthorityError)
  | failed (installed : Bool)
  | written

def Identity.writeRecord (identity : Identity) (runID : String) (value : Record M) :
    WriteOutcome → WriteResult
  | .cancelled => .refused .context
  | .failed installed =>
    if identity.validateRecord value runID then .failed installed else .refused .state
  | .done => if identity.validateRecord value runID then .written else .refused .state

end SpiceAgent.RunAuthority
