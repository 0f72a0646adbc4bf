import Mathlib.Data.String.Basic
import SpiceAgent.Lib.Check
import SpiceAgent.Lib.ProtoSize
import SpiceAgent.Lib.Text

/-!
# The common wire contract

`common/v1/contract.go` over the messages of `common.proto`: protocol ranges, capabilities, limits,
health and the typed status, with their validators, their negotiation and their encoded sizes. A
message that may be missing is an `Option`. Strings are valid UTF-8, so that the checks of
`utf8.ValidString` have no counterpart.
-/

namespace SpiceAgent.Commonv1

open SpiceAgent.Lib SpiceAgent.Lib.ProtoSize

/-- The largest `uint64`. -/
def maxUint64 : ℕ := 2 ^ 64 - 1

def protocolMajor : ℕ := 1
def protocolMinimumMinor : ℕ := 0
def protocolMinor : ℕ := 3
def protocolPatch : ℕ := 0
def maximumTokenBytes : ℕ := 256
def maximumStatusBytes : ℕ := 2048

/-! ## Messages -/

/-- `ErrorCode`; protobuf enumerations are open, and `unknown n` is the number `17 + n`. -/
inductive ErrorCode
  | unspecified | ok | invalidArgument | unauthenticated | incompatibleVersion | missingCapability
  | notFound | outOfRange | resourceExhausted | unavailable | cancelled | deadlineExceeded
  | conflict | staleClient | uncertainOperation | snapshotVersionMismatch | internal
  | unknown (n : ℕ)
  deriving DecidableEq

def ErrorCode.number : ErrorCode → ℕ
  | unspecified => 0 | ok => 1 | invalidArgument => 2 | unauthenticated => 3
  | incompatibleVersion => 4 | missingCapability => 5 | notFound => 6 | outOfRange => 7
  | resourceExhausted => 8 | unavailable => 9 | cancelled => 10 | deadlineExceeded => 11
  | conflict => 12 | staleClient => 13 | uncertainOperation => 14 | snapshotVersionMismatch => 15
  | internal => 16 | unknown n => 17 + n

/-- The name of a code as `String` prints it. -/
def ErrorCode.name : ErrorCode → String
  | unspecified => "ERROR_CODE_UNSPECIFIED" | ok => "ERROR_CODE_OK"
  | invalidArgument => "ERROR_CODE_INVALID_ARGUMENT"
  | unauthenticated => "ERROR_CODE_UNAUTHENTICATED"
  | incompatibleVersion => "ERROR_CODE_INCOMPATIBLE_VERSION"
  | missingCapability => "ERROR_CODE_MISSING_CAPABILITY" | notFound => "ERROR_CODE_NOT_FOUND"
  | outOfRange => "ERROR_CODE_OUT_OF_RANGE"
  | resourceExhausted => "ERROR_CODE_RESOURCE_EXHAUSTED"
  | unavailable => "ERROR_CODE_UNAVAILABLE" | cancelled => "ERROR_CODE_CANCELLED"
  | deadlineExceeded => "ERROR_CODE_DEADLINE_EXCEEDED" | conflict => "ERROR_CODE_CONFLICT"
  | staleClient => "ERROR_CODE_STALE_CLIENT"
  | uncertainOperation => "ERROR_CODE_UNCERTAIN_OPERATION"
  | snapshotVersionMismatch => "ERROR_CODE_SNAPSHOT_VERSION_MISMATCH"
  | internal => "ERROR_CODE_INTERNAL" | unknown n => toString (17 + n)

def knownErrorCode (code : ErrorCode) : Bool := 1 ≤ code.number && code.number ≤ 16

/-- `HealthState`; `unknown n` is the number `5 + n`. -/
inductive HealthState
  | unspecified | starting | ready | degraded | stopping
  | unknown (n : ℕ)
  deriving DecidableEq

def HealthState.number : HealthState → ℕ
  | unspecified => 0 | starting => 1 | ready => 2 | degraded => 3 | stopping => 4
  | unknown n => 5 + n

structure ProtocolVersion where
  major : ℕ
  minor : ℕ
  patch : ℕ
  deriving DecidableEq

structure ProtocolRange where
  minimum : Option ProtocolVersion
  maximum : Option ProtocolVersion
  deriving DecidableEq

structure BuildIdentity where
  component : String
  version : String
  commit : String
  goVersion : String
  deriving DecidableEq

structure CapabilitySet where
  names : List String
  deriving DecidableEq

structure Limits where
  maxMessageBytes : ℕ
  maxCollectionItems : ℕ
  maxReplayEvents : ℕ
  maxReplayBytes : ℕ
  maxConcurrentStreams : ℕ
  maxActiveRuns : ℕ
  deriving DecidableEq

structure Health where
  state : HealthState
  degradedReasons : List String
  activeRuns : ℕ
  limits : Option Limits
  deriving DecidableEq

structure VersionMismatch where
  client : Option ProtocolRange
  server : Option ProtocolRange
  deriving DecidableEq

structure CapabilityMismatch where
  required : List String
  available : List String
  missing : List String
  deriving DecidableEq

structure ReplayBounds where
  requestedAfterSequence : ℕ
  earliestSequence : ℕ
  latestSequence : ℕ
  recoverySequence : ℕ
  deriving DecidableEq

structure Overload where
  resource : String
  limit : ℕ
  observed : ℕ
  deriving DecidableEq

structure StaleClient where
  expectedEpoch : ℕ
  observedEpoch : ℕ
  deriving DecidableEq

structure SnapshotVersionMismatch where
  expected : String
  observed : String
  deriving DecidableEq

structure UncertainOperation where
  operationID : String
  operationKind : String
  deriving DecidableEq

/-- The `detail` of a status. -/
inductive Detail
  | versionMismatch (value : VersionMismatch)
  | capabilityMismatch (value : CapabilityMismatch)
  | replayBounds (value : ReplayBounds)
  | overload (value : Overload)
  | staleClient (value : StaleClient)
  | snapshotVersionMismatch (value : SnapshotVersionMismatch)
  | uncertainOperation (value : UncertainOperation)
  deriving DecidableEq

structure Status where
  code : ErrorCode
  message : String
  retryable : Bool := false
  operationID : String := ""
  detail : Option Detail := none
  deriving DecidableEq

/-- An error of the contract packages: a text or a `StatusError`. -/
inductive ContractError
  | text (message : String)
  | status (value : Status)
  deriving DecidableEq

def ContractError.message : ContractError → String
  | text message => message
  | status value => value.message

abbrev Check := Except ContractError Unit

/-- `fmt.Errorf` with a label before the wrapped error. -/
def wrap (label : String) (check : Check) : Check :=
  check.mapError fun err => .text (label ++ ": " ++ err.message)

@[simp] theorem wrap_ok {label : String} {check : Check} : wrap label check = .ok () ↔
    check = .ok () :=
  mapError_ok

/-! ## Encoded sizes -/

def ProtocolVersion.size (v : ProtocolVersion) : ℕ :=
  uintField 1 v.major + uintField 2 v.minor + uintField 3 v.patch

def ProtocolRange.size (r : ProtocolRange) : ℕ :=
  messageField 1 (r.minimum.map (·.size)) + messageField 2 (r.maximum.map (·.size))

def BuildIdentity.size (b : BuildIdentity) : ℕ :=
  bytesField 1 b.component.utf8ByteSize + bytesField 2 b.version.utf8ByteSize +
    bytesField 3 b.commit.utf8ByteSize + bytesField 4 b.goVersion.utf8ByteSize

def CapabilitySet.size (c : CapabilitySet) : ℕ := repeatedField 1 (c.names.map (·.utf8ByteSize))

def Limits.size (l : Limits) : ℕ :=
  uintField 1 l.maxMessageBytes + uintField 2 l.maxCollectionItems + uintField 3 l.maxReplayEvents +
    uintField 4 l.maxReplayBytes + uintField 5 l.maxConcurrentStreams + uintField 6 l.maxActiveRuns

def Health.size (h : Health) : ℕ :=
  uintField 1 h.state.number + repeatedField 2 (h.degradedReasons.map (·.utf8ByteSize)) +
    uintField 3 h.activeRuns + messageField 4 (h.limits.map (·.size))

def VersionMismatch.size (v : VersionMismatch) : ℕ :=
  messageField 1 (v.client.map (·.size)) + messageField 2 (v.server.map (·.size))

def CapabilityMismatch.size (c : CapabilityMismatch) : ℕ :=
  repeatedField 1 (c.required.map (·.utf8ByteSize)) +
    repeatedField 2 (c.available.map (·.utf8ByteSize)) +
    repeatedField 3 (c.missing.map (·.utf8ByteSize))

def ReplayBounds.size (r : ReplayBounds) : ℕ :=
  uintField 1 r.requestedAfterSequence + uintField 2 r.earliestSequence +
    uintField 3 r.latestSequence + uintField 4 r.recoverySequence

def Overload.size (o : Overload) : ℕ :=
  bytesField 1 o.resource.utf8ByteSize + uintField 2 o.limit + uintField 3 o.observed

def StaleClient.size (s : StaleClient) : ℕ :=
  uintField 1 s.expectedEpoch + uintField 2 s.observedEpoch

def SnapshotVersionMismatch.size (s : SnapshotVersionMismatch) : ℕ :=
  bytesField 1 s.expected.utf8ByteSize + bytesField 2 s.observed.utf8ByteSize

def UncertainOperation.size (u : UncertainOperation) : ℕ :=
  bytesField 1 u.operationID.utf8ByteSize + bytesField 2 u.operationKind.utf8ByteSize

def Detail.size : Detail → ℕ
  | versionMismatch value => lengthField 10 value.size
  | capabilityMismatch value => lengthField 11 value.size
  | replayBounds value => lengthField 12 value.size
  | overload value => lengthField 13 value.size
  | staleClient value => lengthField 14 value.size
  | snapshotVersionMismatch value => lengthField 15 value.size
  | uncertainOperation value => lengthField 16 value.size

def Status.size (s : Status) : ℕ :=
  uintField 1 s.code.number + bytesField 2 s.message.utf8ByteSize + boolField 3 s.retryable +
    bytesField 4 s.operationID.utf8ByteSize + (s.detail.map (·.size)).getD 0

/-- `ValidateEncodedSize` of a message of the given size. -/
def validateEncodedSize (size maximum : ℕ) : Check := do
  refuseIf (maximum = 0) (.text "message and positive encoded-size bound are required")
  refuseIf (maximum < size)
    (.text ("encoded message size " ++ toString size ++ " exceeds " ++ toString maximum))

@[simp] theorem validateEncodedSize_ok {size maximum : ℕ} :
    validateEncodedSize size maximum = .ok () ↔ maximum ≠ 0 ∧ size ≤ maximum := by
  unfold validateEncodedSize
  rw [check_bind_ok, refuseIf_ok, refuseIf_ok, not_lt]

/-! ## Tokens -/

/-- The characters `\x00`, `\r`, `\n` and `\t`. -/
def breaksToken (c : Char) : Bool := c == '\x00' || c == '\r' || c == '\n' || c == '\t'

/-- `validateToken` of this package and `token` of the engine package, for a text that is UTF-8. -/
def validateToken (label value : String) (maximum : ℕ) : Check := do
  refuseIf (trimmedToken value = false)
    (.text (label ++ " must be non-empty without surrounding whitespace"))
  refuseIf (value.toList.any breaksToken) (.text (label ++ " must not contain control characters"))
  refuseIf (maximum < value.utf8ByteSize)
    (.text (label ++ " exceeds " ++ toString maximum ++ " bytes"))

/-- The value is a token of at most this many bytes. -/
@[mk_iff] structure IsToken (value : String) (maximum : ℕ) : Prop where
  trimmed : trimmedToken value
  clean : ∀ c ∈ value.toList, breaksToken c = false
  size_le : value.utf8ByteSize ≤ maximum

@[simp] theorem validateToken_ok {label value : String} {maximum : ℕ} :
    validateToken label value maximum = .ok () ↔ IsToken value maximum := by
  unfold validateToken
  simp only [check_bind_ok, refuseIf_ok, Bool.not_eq_false, List.any_eq_true, not_exists, not_and,
    Bool.not_eq_true, not_lt, isToken_iff]

/-! ## Protocol versions -/

def supportedProtocolRange : ProtocolRange where
  minimum := some ⟨protocolMajor, protocolMinimumMinor, protocolPatch⟩
  maximum := some ⟨protocolMajor, protocolMinor, protocolPatch⟩

def okStatus : Status := { code := .ok, message := "" }

def invalidArgumentStatus (message : String) : Status := { code := .invalidArgument, message }

def internalStatus (message : String) : Status := { code := .internal, message }

variable (left right : ProtocolVersion)

def compareVersion : Ordering :=
  (compare left.major right.major).then
    ((compare left.minor right.minor).then (compare left.patch right.patch))

def maxVersion : ProtocolVersion :=
  if (compareVersion left right).isGE then left else right

def minVersion : ProtocolVersion :=
  if (compareVersion left right).isLE then left else right

def validateProtocolVersion (value : ProtocolVersion) : Check :=
  refuseIf (value.major = 0) (.text "protocol version requires a positive major")

def validateProtocolRange (value : Option ProtocolRange) : Check :=
  match value with
  | some ⟨some minimum, some maximum⟩ => do
    wrap "minimum protocol version" (validateProtocolVersion minimum)
    wrap "maximum protocol version" (validateProtocolVersion maximum)
    refuseIf (compareVersion minimum maximum = .gt)
      (.text "protocol range minimum exceeds maximum")
    refuseIf (minimum.major ≠ maximum.major)
      (.text "one protocol range cannot cross major versions")
  | _ => .error (.text "protocol range requires minimum and maximum versions")

def ProtocolRange.bounds (value : ProtocolRange) : ProtocolVersion × ProtocolVersion :=
  (value.minimum.getD ⟨0, 0, 0⟩, value.maximum.getD ⟨0, 0, 0⟩)

def overlap (client server : ProtocolRange) : ProtocolVersion × ProtocolVersion :=
  (maxVersion client.bounds.1 server.bounds.1, minVersion client.bounds.2 server.bounds.2)

def disjointRanges (client server : ProtocolRange) : Bool :=
  (overlap client server).1.major ≠ (overlap client server).2.major ||
    compareVersion (overlap client server).1 (overlap client server).2 = .gt

def negotiateProtocol (client server : Option ProtocolRange) : Except Status ProtocolVersion :=
  match validateProtocolRange client, validateProtocolRange server, client, server with
  | .error err, _, _, _ => .error (invalidArgumentStatus err.message)
  | .ok _, .error _, _, _ => .error (internalStatus "server protocol range is invalid")
  | .ok _, .ok _, some client, some server =>
    if disjointRanges client server then
      .error { code := .incompatibleVersion
               message := "client and server protocol ranges do not overlap"
               detail := some (.versionMismatch ⟨some client, some server⟩) }
    else .ok (overlap client server).2
  -- a missing range does not pass its check
  | .ok _, .ok _, none, _ => .error (internalStatus "server protocol range is invalid")
  | .ok _, .ok _, some _, none => .error (internalStatus "server protocol range is invalid")

/-! ## Capabilities -/

/-- The loop of `ValidateCapabilities` and of the reasons of `ValidateHealth`: bounded tokens in
strictly increasing order. -/
def validateNames (label : String) (maximum : ℕ) (unsorted : String) :
    ℕ → Option String → List String → Check
  | _, _, [] => .ok ()
  | index, previous, name :: rest => do
    wrap (label ++ " " ++ toString index) (validateToken label name maximum)
    refuseIf (∃ p ∈ previous, name ≤ p) (.text unsorted)
    validateNames label maximum unsorted (index + 1) (some name) rest

def validateCapabilities (value : Option CapabilitySet) : Check :=
  match value with
  | none => .error (.text "capability set is required")
  | some value => do
    refuseIf (1024 < value.names.length) (.text "capability count exceeds 1024")
    validateNames "capability" maximumTokenBytes "capabilities must be sorted and unique" 0 none
      value.names

/-- The loop over the names accepts tokens in strictly increasing order after the previous one. -/
theorem validateNames_ok {label unsorted : String} {maximum : ℕ} :
    ∀ {names : List String} {index : ℕ} {previous : Option String},
      validateNames label maximum unsorted index previous names = .ok () ↔
        (∀ name ∈ names, IsToken name maximum) ∧ names.Pairwise (· < ·) ∧
          ∀ p ∈ previous, ∀ name ∈ names, p < name
  | [], _, _ => by simp [validateNames]
  | name :: rest, index, previous => by
    simp only [validateNames, check_bind_ok, wrap_ok, validateToken_ok, refuseIf_ok,
      validateNames_ok, List.forall_mem_cons, List.pairwise_cons, Option.mem_def, Option.some.injEq,
      forall_eq',
      not_exists, not_and, not_le]
    constructor
    · rintro ⟨htoken, hprevious, htokens, hsorted, hfirst⟩
      exact ⟨⟨htoken, htokens⟩, ⟨hfirst, hsorted⟩, fun p hp =>
        ⟨hprevious p hp, fun x hx => (hprevious p hp).trans (hfirst x hx)⟩⟩
    · rintro ⟨⟨htoken, htokens⟩, ⟨hfirst, hsorted⟩, hprevious⟩
      exact ⟨htoken, fun p hp => (hprevious p hp).1, htokens, hsorted, hfirst⟩

theorem validateCapabilities_ok {value : Option CapabilitySet} :
    validateCapabilities value = .ok () ↔ ∃ set, value = some set ∧ set.names.length ≤ 1024 ∧
      (∀ name ∈ set.names, IsToken name maximumTokenBytes) ∧ set.names.Pairwise (· < ·) := by
  cases value with
  | none => simp [validateCapabilities]
  | some set =>
    simp [validateCapabilities, validateNames_ok]

/-- `intersection`; `slices.BinarySearch` finds the members of a sorted list. -/
def intersection (left right : List String) : List String := left.filter (· ∈ right)

def difference (left right : List String) : List String := left.filter (· ∉ right)

def isSubset (subset superset : List String) : Bool := (difference subset superset).isEmpty

def negotiateCapabilities (clientSupported clientRequired serverSupported : Option CapabilitySet) :
    Except Status CapabilitySet :=
  match validateCapabilities clientSupported, validateCapabilities clientRequired,
    validateCapabilities serverSupported, clientSupported, clientRequired, serverSupported with
  | .error err, _, _, _, _, _ =>
    .error (invalidArgumentStatus ("client supported capabilities: " ++ err.message))
  | .ok _, .error err, _, _, _, _ =>
    .error (invalidArgumentStatus ("client required capabilities: " ++ err.message))
  | .ok _, .ok _, .error err, _, _, _ =>
    .error (invalidArgumentStatus ("server supported capabilities: " ++ err.message))
  | .ok _, .ok _, .ok _, some supported, some required, some server =>
    if !isSubset required.names supported.names then
      .error (invalidArgumentStatus "required capabilities must be client-supported")
    else if difference required.names server.names ≠ [] then
      .error { code := .missingCapability
               message := "required client capabilities are unavailable"
               detail := some (.capabilityMismatch
                 ⟨required.names, server.names, difference required.names server.names⟩) }
    else .ok ⟨intersection supported.names server.names⟩
  -- a missing set does not pass its check
  | .ok _, .ok _, .ok _, _, _, _ =>
    .error (invalidArgumentStatus "required capabilities must be client-supported")

/-! ## Limits, builds and health -/

def validateLimits (value : Option Limits) : Check :=
  match value with
  | none => .error (.text "protocol limits are required")
  | some value => do
    refuseIf (value.maxMessageBytes = 0 ∨ value.maxCollectionItems = 0 ∨ value.maxReplayEvents = 0 ∨
        value.maxReplayBytes = 0 ∨ value.maxConcurrentStreams = 0 ∨ value.maxActiveRuns = 0)
      (.text "protocol limits must all be positive")
    refuseIf (value.maxReplayBytes < value.maxReplayEvents)
      (.text "replay event count cannot exceed the replay byte bound")

def Limits.min (requested available : Limits) : Limits where
  maxMessageBytes := Min.min requested.maxMessageBytes available.maxMessageBytes
  maxCollectionItems := Min.min requested.maxCollectionItems available.maxCollectionItems
  maxReplayEvents := Min.min requested.maxReplayEvents available.maxReplayEvents
  maxReplayBytes := Min.min requested.maxReplayBytes available.maxReplayBytes
  maxConcurrentStreams := Min.min requested.maxConcurrentStreams available.maxConcurrentStreams
  maxActiveRuns := Min.min requested.maxActiveRuns available.maxActiveRuns

def negotiateLimits (requested available : Option Limits) : Except Status Limits :=
  match validateLimits requested, validateLimits available, requested, available with
  | .error err, _, _, _ => .error (invalidArgumentStatus ("requested limits: " ++ err.message))
  | .ok _, .error _, _, _ => .error (internalStatus "server limits are invalid")
  | .ok _, .ok _, some requested, some available => .ok (requested.min available)
  -- missing limits do not pass their check
  | .ok _, .ok _, _, _ => .error (internalStatus "server limits are invalid")

def validateBuildIdentity (value : Option BuildIdentity) : Check :=
  match value with
  | none => .error (.text "build identity is required")
  | some value => do
    validateToken "component" value.component maximumTokenBytes
    validateToken "version" value.version maximumTokenBytes
    validateToken "commit" value.commit maximumTokenBytes
    validateToken "Go version" value.goVersion maximumTokenBytes

def validateHealth (value : Option Health) : Check :=
  match value with
  | none => .error (.text "health is required")
  | some value => do
    refuseIf (value.state ∉ [HealthState.starting, .ready, .degraded, .stopping])
      (.text ("health state " ++ toString value.state.number ++ " is unsupported"))
    refuseIf (64 < value.degradedReasons.length) (.text "degraded reason count exceeds 64")
    refuseIf (value.state = .degraded ∧ value.degradedReasons = [])
      (.text "degraded health requires at least one reason")
    refuseIf (value.state ≠ .degraded ∧ value.degradedReasons ≠ [])
      (.text "only degraded health may contain degraded reasons")
    validateNames "degraded reason" maximumStatusBytes
      "degraded reasons must be sorted and unique" 0 none value.degradedReasons
    validateLimits value.limits
    refuseIf ((value.limits.map (·.maxActiveRuns)).getD 0 < value.activeRuns)
      (.text "active run count exceeds the configured limit")

/-! ## Status -/

def requiredDetail (value : Status) : Check :=
  .error (.text ("protocol status " ++ value.code.name ++ " requires its typed detail"))

def validateVersionMismatch (value : VersionMismatch) : Check := do
  wrap "version-mismatch client range" (validateProtocolRange value.client)
  wrap "version-mismatch server range" (validateProtocolRange value.server)
  refuseIf (disjointRanges (value.client.getD ⟨none, none⟩)
    (value.server.getD ⟨none, none⟩) = false) (.text "version-mismatch ranges unexpectedly overlap")

def validateCapabilityMismatch (value : CapabilityMismatch) : Check := do
  wrap "capability-mismatch required" (validateCapabilities (some ⟨value.required⟩))
  wrap "capability-mismatch available" (validateCapabilities (some ⟨value.available⟩))
  wrap "capability-mismatch missing" (validateCapabilities (some ⟨value.missing⟩))
  refuseIf (difference value.required value.available = [] ∨
      difference value.required value.available ≠ value.missing)
    (.text "capability-mismatch missing capabilities are inconsistent")

/-- `validateReplayBounds`, with the `uint64` wrap of its sums. -/
def validateReplayBounds (value : ReplayBounds) : Check := do
  refuseIf (value.earliestSequence = 0 ∨ value.latestSequence < value.earliestSequence)
    (.text "replay bounds contain an invalid retained window")
  refuseIf (value.requestedAfterSequence ≠ maxUint64 ∧
      value.earliestSequence ≤ value.requestedAfterSequence + 1 ∧
      value.requestedAfterSequence ≤ value.latestSequence)
    (.text "replay bounds unexpectedly contain the requested cursor")
  if value.requestedAfterSequence < value.earliestSequence then
    refuseIf ((value.recoverySequence + 1) % 2 ^ 64 ≠ value.earliestSequence)
      (.text "replay bounds contain an invalid earliest recovery cursor")
  else
    refuseIf (value.recoverySequence ≠ value.latestSequence)
      (.text "replay bounds contain an invalid latest recovery cursor")

/-- `validateOverloadDetail` of its detail. -/
def validateOverload (value : Overload) : Check := do
  validateToken "overload resource" value.resource maximumTokenBytes
  refuseIf (value.limit = 0 ∨ value.observed ≤ value.limit)
    (.text "overload detail requires a positive exceeded limit")

/-- `validateStaleClientDetail` of its detail. -/
def validateStaleClient (value : StaleClient) : Check :=
  refuseIf (value.expectedEpoch = 0 ∨ value.expectedEpoch = value.observedEpoch)
    (.text "stale-client detail requires distinct observed and positive expected epochs")

/-- `validateSnapshotVersionMismatchDetail` of its detail. -/
def validateSnapshotVersionMismatch (value : SnapshotVersionMismatch) : Check := do
  validateToken "expected snapshot format" value.expected maximumTokenBytes
  validateToken "observed snapshot format" value.observed maximumTokenBytes
  refuseIf (value.expected = value.observed)
    (.text "snapshot-version detail requires distinct formats")

/-- `validateUncertainOperationDetail` of its detail. -/
def validateUncertainOperation (value : UncertainOperation) : Check := do
  validateToken "uncertain operation ID" value.operationID 128
  validateToken "uncertain operation kind" value.operationKind maximumTokenBytes

def validateStatusDetail (value : Status) : Check :=
  match value.code, value.detail with
  | .incompatibleVersion, some (.versionMismatch detail) => validateVersionMismatch detail
  | .incompatibleVersion, _ => requiredDetail value
  | .missingCapability, some (.capabilityMismatch detail) => validateCapabilityMismatch detail
  | .missingCapability, _ => requiredDetail value
  | .outOfRange, some (.replayBounds detail) => validateReplayBounds detail
  | .outOfRange, _ => requiredDetail value
  | .resourceExhausted, some (.overload detail) => validateOverload detail
  | .resourceExhausted, _ => requiredDetail value
  | .staleClient, some (.staleClient detail) => validateStaleClient detail
  | .staleClient, _ => requiredDetail value
  | .snapshotVersionMismatch, some (.snapshotVersionMismatch detail) =>
    validateSnapshotVersionMismatch detail
  | .snapshotVersionMismatch, _ => requiredDetail value
  | .uncertainOperation, some (.uncertainOperation detail) => validateUncertainOperation detail
  | .uncertainOperation, _ => requiredDetail value
  | _, none => .ok ()
  | _, some _ =>
    .error (.text ("protocol status " ++ value.code.name ++ " has an unrelated typed detail"))

def validateStatus (value : Option Status) : Check :=
  match value with
  | none => .error (.text "protocol status is required")
  | some value =>
    if value.code = .ok then
      refuseIf (value.message ≠ "" ∨ value.retryable ∨ value.operationID ≠ "" ∨ value.detail.isSome)
        (.text "successful protocol status contains error metadata")
    else do
      refuseIf (value.code = .unspecified) (.text "protocol status code is unspecified")
      refuseIf (knownErrorCode value.code = false)
        (.text ("protocol status code " ++ toString value.code.number ++ " is unsupported"))
      validateToken "status message" value.message maximumStatusBytes
      if value.operationID ≠ "" then validateToken "operation ID" value.operationID 128 else .ok ()
      validateStatusDetail value

/-- `AsError`; `none` is the nil error. -/
def asError (value : Option Status) : Option ContractError :=
  match validateStatus value, value with
  | .error err, _ => some (.text ("invalid protocol status: " ++ err.message))
  | .ok _, some value => if value.code = .ok then none else some (.status value)
  -- a missing status does not pass its check
  | .ok _, none => none

end SpiceAgent.Commonv1
