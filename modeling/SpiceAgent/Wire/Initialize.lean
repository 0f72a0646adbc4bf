import SpiceAgent.Wire.Common

/-!
# The initialization contract

`engine/v1/initialize_contract.go` and the initialization part of `engine/v1/contract.go`: the
checks of a request, the negotiation of `PreflightInitialize` before a session exists, the response
that `CompleteInitialize` binds to a session, and the checks of the client.
-/

namespace SpiceAgent.Enginev1

open SpiceAgent.Lib SpiceAgent.Lib.ProtoSize SpiceAgent.Commonv1

def initializeBootstrapMaximumBytes : ℕ := 2 ^ 20
def interactionStreamMinimumMinor : ℕ := 2
def initializationAttemptMinimumMinor : ℕ := 3
def initializationAttemptIDBytes : ℕ := 16
def maximumDefinitionTurns : ℕ := 1000
def capabilitySnapshotAuthorityV1 : String := "snapshot-authority-v1"

/-! ## Messages -/

structure Definition where
  id : String
  revision : String
  model : String
  maxTurns : ℕ
  deriving DecidableEq

structure DefinitionSet where
  revision : String
  definitions : List Definition
  deriving DecidableEq

structure ReconnectClaim where
  clientID : String
  expectedOwnershipEpoch : ℕ
  deriving DecidableEq

/-- `InitializeRequest`; `unknownBytes` is the size of the fields that the server does not know,
which a decoded message keeps. -/
structure InitializeRequest where
  protocol : Option ProtocolRange
  client : Option BuildIdentity
  supportedCapabilities : Option CapabilitySet
  requiredCapabilities : Option CapabilitySet
  requestedLimits : Option Limits
  reconnectClaim : Option ReconnectClaim
  initializationAttemptID : List UInt8
  unknownBytes : ℕ := 0
  deriving DecidableEq

structure InitializeResponse where
  status : Option Status
  protocol : Option ProtocolVersion := none
  server : Option BuildIdentity := none
  capabilities : Option CapabilitySet := none
  limits : Option Limits := none
  health : Option Health := none
  clientID : String := ""
  ownershipEpoch : ℕ := 0
  definitions : Option DefinitionSet := none
  initializationAttemptID : List UInt8 := []
  deriving DecidableEq

structure InitializeNegotiation where
  reconnectClaim : Option ReconnectClaim
  attemptID : List UInt8
  protocol : ProtocolVersion
  server : BuildIdentity
  capabilities : CapabilitySet
  limits : Limits
  health : Health
  definitions : DefinitionSet
  deriving DecidableEq

/-- What a server passes to `PreflightInitialize`. -/
structure InitializeServer where
  range : Option ProtocolRange
  build : Option BuildIdentity
  capabilities : Option CapabilitySet
  limits : Option Limits
  health : Option Health
  definitions : Option DefinitionSet

def Definition.size (d : Definition) : ℕ :=
  bytesField 1 d.id.utf8ByteSize + bytesField 2 d.revision.utf8ByteSize +
    bytesField 3 d.model.utf8ByteSize + uintField 4 d.maxTurns

def DefinitionSet.size (d : DefinitionSet) : ℕ :=
  bytesField 1 d.revision.utf8ByteSize + repeatedField 2 (d.definitions.map (·.size))

def ReconnectClaim.size (c : ReconnectClaim) : ℕ :=
  bytesField 1 c.clientID.utf8ByteSize + uintField 2 c.expectedOwnershipEpoch

def InitializeRequest.size (r : InitializeRequest) : ℕ :=
  messageField 1 (r.protocol.map (·.size)) + messageField 2 (r.client.map (·.size)) +
    messageField 3 (r.supportedCapabilities.map (·.size)) +
    messageField 4 (r.requiredCapabilities.map (·.size)) +
    messageField 5 (r.requestedLimits.map (·.size)) +
    messageField 7 (r.reconnectClaim.map (·.size)) +
    bytesField 8 r.initializationAttemptID.length + r.unknownBytes

def InitializeResponse.size (r : InitializeResponse) : ℕ :=
  messageField 1 (r.status.map (·.size)) + messageField 2 (r.protocol.map (·.size)) +
    messageField 3 (r.server.map (·.size)) + messageField 4 (r.capabilities.map (·.size)) +
    messageField 5 (r.limits.map (·.size)) + messageField 6 (r.health.map (·.size)) +
    bytesField 7 r.clientID.utf8ByteSize + uintField 8 r.ownershipEpoch +
    messageField 9 (r.definitions.map (·.size)) + bytesField 10 r.initializationAttemptID.length

/-! ## Parts of the checks -/

/-- `GetNames` of a set that may be missing. -/
def capabilityNames (capabilities : Option CapabilitySet) : List String :=
  (capabilities.map (·.names)).getD []

/-- `containsCapability`; `slices.BinarySearch` finds the members of a sorted list. -/
def containsCapability (capabilities : Option CapabilitySet) (name : String) : Bool :=
  name ∈ capabilityNames capabilities

def getLimits (limits : Option Limits) : Limits := limits.getD ⟨0, 0, 0, 0, 0, 0⟩

/-- The getters of a version that may be missing. -/
def getVersion (version : Option ProtocolVersion) : ProtocolVersion := version.getD ⟨0, 0, 0⟩

def validateNegotiatedProtocol (version : Option ProtocolVersion) : Check := do
  validateProtocolRange (some ⟨version, version⟩)
  refuseIf (negotiateProtocol (some ⟨version, version⟩) (some supportedProtocolRange) ≠
      .ok (getVersion version))
    (.text "protocol version is outside the supported range")

section

variable (version : ProtocolVersion)

def validateInteractionStreamRequestedLimits (requested server : Limits) : Check :=
  if version.minor < interactionStreamMinimumMinor then .ok ()
  else refuseIf (requested.maxMessageBytes < server.maxMessageBytes ∨
      requested.maxCollectionItems < server.maxCollectionItems)
    (.text "protocol minor 2 requires server-sized interaction snapshot limits")

def validateInteractionStreamSelectedLimits (selected server : Limits) : Check :=
  if version.minor < interactionStreamMinimumMinor then .ok ()
  else refuseIf (selected.maxMessageBytes ≠ server.maxMessageBytes ∨
      selected.maxCollectionItems ≠ server.maxCollectionItems)
    (.text "protocol minor 2 requires server-sized interaction snapshot limits")

def protocolSupportsSnapshotAuthority : Bool :=
  version.major = protocolMajor && 1 ≤ version.minor

def snapshotCapabilitiesForProtocol (capabilities : CapabilitySet) : CapabilitySet :=
  if protocolSupportsSnapshotAuthority version then capabilities
  else ⟨capabilities.names.filter fun name =>
    name ≠ capabilitySnapshotAuthorityV1 ∧ name ≠ "snapshots"⟩

def validateInitializeSnapshotCapabilities (capabilities : Option CapabilitySet) : Check :=
  refuseIf (protocolSupportsSnapshotAuthority version = false ∧
      (containsCapability capabilities capabilitySnapshotAuthorityV1 ∨
        containsCapability capabilities "snapshots"))
    (.text "protocol minor 1 is required for snapshot transfer")

def validateInitializationAttemptID (attemptID : List UInt8) : Check := do
  refuseIf (attemptID.length ≠ initializationAttemptIDBytes)
    (.text "initialization attempt identity must contain exactly 16 bytes")
  refuseIf (attemptID.all (· == 0)) (.text "initialization attempt identity must be nonzero")

def validateInitializeRequestAttempt (protocol : ProtocolRange) (attemptID : List UInt8) :
    Check := do
  let (minimum, maximum) := protocol.bounds
  refuseIf (minimum.major = protocolMajor ∧ maximum.major = protocolMajor ∧
      minimum.minor < initializationAttemptMinimumMinor ∧
      initializationAttemptMinimumMinor ≤ maximum.minor)
    (.text "initialize protocol range cannot cross the minor-3 attempt-replay boundary")
  if minimum.major = protocolMajor ∧ initializationAttemptMinimumMinor ≤ minimum.minor then
    validateInitializationAttemptID attemptID
  else
    refuseIf (attemptID ≠ [])
      (.text ("initialization attempt identity requires a protocol range beginning at minor 3 " ++
        "or newer"))

def validateInitializeResponseAttempt (attemptID : List UInt8) : Check :=
  if version.major = protocolMajor ∧ initializationAttemptMinimumMinor ≤ version.minor then
    validateInitializationAttemptID attemptID
  else
    refuseIf (attemptID ≠ []) (.text "legacy initialize response must omit the attempt identity")

end

def validateDefinition (value : Definition) : Check := do
  validateToken "definition ID" value.id maximumTokenBytes
  validateToken "definition revision" value.revision maximumTokenBytes
  validateToken "model" value.model maximumTokenBytes
  refuseIf (value.maxTurns = 0 ∨ maximumDefinitionTurns < value.maxTurns)
    (.text "agent definition max turns must be between 1 and 1000")

/-- The loop of `ValidateDefinitionSet`. -/
def validateDefinitions : ℕ → String → List Definition → Check
  | _, _, [] => .ok ()
  | index, previous, definition :: rest => do
    wrap ("definition " ++ toString index) (validateDefinition definition)
    refuseIf (definition.id ++ "\x00" ++ definition.revision ≤ previous)
      (.text "definitions must be sorted and unique by ID and revision")
    validateDefinitions (index + 1) (definition.id ++ "\x00" ++ definition.revision) rest

def validateDefinitionSet (value : Option DefinitionSet) (limits : Limits) : Check :=
  match value with
  | none => .error (.text "definition set is required")
  | some value => do
    validateToken "definition set revision" value.revision maximumTokenBytes
    validateLimits (some limits)
    refuseIf (value.definitions = [] ∨ limits.maxCollectionItems < value.definitions.length)
      (.text ("definition count must be between 1 and " ++ toString limits.maxCollectionItems))
    validateDefinitions 0 "" value.definitions
    validateEncodedSize value.size limits.maxMessageBytes

def validateReconnectClaim (claim : Option ReconnectClaim) : Check :=
  match claim with
  | none => .ok ()
  | some claim => do
    validateToken "reconnect client ID" claim.clientID 128
    refuseIf (claim.expectedOwnershipEpoch = 0 ∨ claim.expectedOwnershipEpoch = maxUint64)
      (.text "reconnect expected ownership epoch must be incrementable")

def validateReconnectResult (claim : Option ReconnectClaim) (clientID : String)
    (ownershipEpoch : ℕ) : Check := do
  validateToken "client ID" clientID 128
  match claim with
  | none => refuseIf (ownershipEpoch ≠ 1) (.text "new client ownership epoch must be one")
  | some claim => do
    validateReconnectClaim (some claim)
    refuseIf (clientID ≠ claim.clientID ∨
        ownershipEpoch ≠ (claim.expectedOwnershipEpoch + 1) % 2 ^ 64)
      (.text "reconnect result does not satisfy the ownership epoch compare-and-swap")

/-! ## The server -/

def initializeStatusFailure (status : Status) : InitializeResponse :=
  match validateEncodedSize { status := some status : InitializeResponse }.size
      initializeBootstrapMaximumBytes with
  | .ok _ => { status := some status }
  | .error _ => { status := some (internalStatus "initialize negotiation failed") }

def initializeFailure (code : ErrorCode) (message : String) : InitializeResponse :=
  initializeStatusFailure { code, message }

def initializeSuccessResponse (negotiation : InitializeNegotiation) (clientID : String)
    (ownershipEpoch : ℕ) : InitializeResponse where
  status := some okStatus
  protocol := some negotiation.protocol
  server := some negotiation.server
  capabilities := some negotiation.capabilities
  limits := some negotiation.limits
  health := some negotiation.health
  clientID := clientID
  ownershipEpoch := ownershipEpoch
  definitions := some negotiation.definitions
  initializationAttemptID := negotiation.attemptID

def validateInitializeRequest (request : Option InitializeRequest) : Check :=
  match request with
  | none => .error (.text "initialize request is required")
  | some request => do
    validateProtocolRange request.protocol
    validateInitializeRequestAttempt (request.protocol.getD ⟨none, none⟩)
      request.initializationAttemptID
    wrap "client build identity" (validateBuildIdentity request.client)
    wrap "client supported capabilities" (validateCapabilities request.supportedCapabilities)
    wrap "client required capabilities" (validateCapabilities request.requiredCapabilities)
    refuseIf (∃ required ∈ capabilityNames request.requiredCapabilities,
        containsCapability request.supportedCapabilities required = false)
      (.text "required capabilities must be client-supported")
    validateLimits request.requestedLimits
    validateReconnectClaim request.reconnectClaim
    validateEncodedSize request.size initializeBootstrapMaximumBytes

def replaceError (message : String) (check : Check) : Check := check.mapError fun _ => .text message

def validateInitializeServer (server : InitializeServer) : Check := do
  replaceError "server protocol range is invalid" (validateProtocolRange server.range)
  replaceError "server build identity is invalid" (validateBuildIdentity server.build)
  replaceError "server capabilities are invalid" (validateCapabilities server.capabilities)
  replaceError "server limits are invalid" (validateLimits server.limits)
  replaceError "server health is invalid" (validateHealth server.health)
  refuseIf (server.health.bind (·.limits) ≠ server.limits)
    (.text "server health limits do not match server limits")
  replaceError "server definition set is invalid"
    (validateDefinitionSet server.definitions (getLimits server.limits))

def validateInitializeResponse (response : Option InitializeResponse) : Check :=
  match response with
  | none => .error (.text "initialize response is required")
  | some response => do
    validateStatus response.status
    match asError response.status with
    | some statusErr => do
      refuseIf (response.protocol.isSome ∨ response.server.isSome ∨ response.capabilities.isSome ∨
          response.limits.isSome ∨ response.health.isSome ∨ response.clientID ≠ "" ∨
          response.ownershipEpoch ≠ 0 ∨ response.definitions.isSome ∨
          response.initializationAttemptID ≠ [])
        (.text "failed initialize response contains negotiated fields")
      validateEncodedSize response.size initializeBootstrapMaximumBytes
      .error statusErr
    | none => do
      let limits := getLimits response.limits
      validateNegotiatedProtocol response.protocol
      validateInitializeResponseAttempt (getVersion response.protocol)
        response.initializationAttemptID
      validateBuildIdentity response.server
      validateCapabilities response.capabilities
      validateInitializeSnapshotCapabilities (getVersion response.protocol) response.capabilities
      validateLimits response.limits
      refuseIf (limits.maxCollectionItems < (capabilityNames response.capabilities).length)
        (.text "initialize capability count exceeds the negotiated collection limit")
      validateHealth response.health
      validateInteractionStreamSelectedLimits (getVersion response.protocol) limits
        (getLimits (response.health.bind (·.limits)))
      refuseIf (limits.maxCollectionItems <
        ((response.health.map (·.degradedReasons)).getD []).length)
        (.text "initialize health reason count exceeds the negotiated collection limit")
      validateToken "client ID" response.clientID 128
      refuseIf (response.ownershipEpoch = 0) (.text "ownership epoch must be positive")
      validateDefinitionSet response.definitions limits
      validateEncodedSize response.size limits.maxMessageBytes

/-- The client ID of the response whose size `PreflightInitialize` checks. -/
def previewClientID : String := String.ofList (List.replicate 128 'c')

/-- The negotiation of `PreflightInitialize`, after the request and the server are checked. -/
def negotiateInitialize (request : InitializeRequest) (server : InitializeServer) :
    Except InitializeResponse InitializeNegotiation := do
  let invalid (message : String) := initializeFailure .invalidArgument message
  let internal (message : String) := initializeFailure .internal message
  let serverLimits := getLimits server.limits
  let requested := getLimits request.requestedLimits
  let version ← (negotiateProtocol request.protocol server.range).mapError initializeStatusFailure
  (validateNegotiatedProtocol (some version)).mapError fun _ =>
    internal "server negotiated an unsupported protocol"
  (validateInteractionStreamRequestedLimits version requested serverLimits).mapError fun err =>
    invalid err.message
  let limits ← (negotiateLimits request.requestedLimits server.limits).mapError
    initializeStatusFailure
  (validateEncodedSize request.size limits.maxMessageBytes).mapError fun err => invalid err.message
  let capabilities ← (negotiateCapabilities request.supportedCapabilities
    request.requiredCapabilities
    (server.capabilities.map (snapshotCapabilitiesForProtocol version))).mapError
      initializeStatusFailure
  refuseIf (limits.maxCollectionItems < capabilities.names.length)
    (invalid "negotiated capability count exceeds negotiated collection limit")
  refuseIf (limits.maxCollectionItems < ((server.health.map (·.degradedReasons)).getD []).length)
    (invalid "health degraded reason count exceeds negotiated collection limit")
  (validateDefinitionSet server.definitions limits).mapError fun _ =>
    invalid "server definition set exceeds negotiated limits"
  let negotiation : InitializeNegotiation :=
    { reconnectClaim := request.reconnectClaim
      attemptID := request.initializationAttemptID
      protocol := version
      server := server.build.getD ⟨"", "", "", ""⟩
      capabilities, limits
      health := server.health.getD ⟨.unspecified, [], 0, none⟩
      definitions := server.definitions.getD ⟨"", []⟩ }
  let preview := initializeSuccessResponse negotiation previewClientID maxUint64
  (validateEncodedSize preview.size limits.maxMessageBytes).mapError fun _ =>
    invalid "initialize success response exceeds negotiated message limit"
  (validateInitializeResponse (some preview)).mapError fun _ =>
    internal "initialize success response is invalid"
  .ok negotiation

def preflightInitialize (request : Option InitializeRequest) (server : InitializeServer) :
    Except InitializeResponse InitializeNegotiation := do
  (validateInitializeRequest request).mapError fun err =>
    initializeFailure .invalidArgument err.message
  (validateInitializeServer server).mapError fun err => initializeFailure .internal err.message
  match request with
  | some request => negotiateInitialize request server
  -- a missing request does not pass its check
  | none => .error (initializeFailure .invalidArgument "initialize request is required")

def completeInitialize (negotiation : InitializeNegotiation) (clientID : String)
    (ownershipEpoch : ℕ) : InitializeResponse :=
  match validateReconnectResult negotiation.reconnectClaim clientID ownershipEpoch with
  | .error _ => initializeFailure .internal "server client ownership is invalid"
  | .ok _ =>
    let response := initializeSuccessResponse negotiation clientID ownershipEpoch
    match validateEncodedSize response.size negotiation.limits.maxMessageBytes with
    | .error _ => initializeFailure .internal "initialize response exceeds negotiated message limit"
    | .ok _ => response

/-! ## The client -/

section

variable (request : InitializeRequest)

variable (response : InitializeResponse)

def validateInitializeProtocolSelection : Check :=
  refuseIf (negotiateProtocol (some ⟨response.protocol, response.protocol⟩) request.protocol ≠
      .ok (getVersion response.protocol))
    (.text "initialize protocol is outside the requested range")

def validateInitializeCapabilitySelection : Check := do
  refuseIf (∃ selected ∈ capabilityNames response.capabilities,
      containsCapability request.supportedCapabilities selected = false)
    (.text "initialize response selected an unsupported capability")
  refuseIf (∃ required ∈ capabilityNames request.requiredCapabilities,
      containsCapability response.capabilities required = false)
    (.text "initialize response omitted a required capability")

def exceedsLimits (selected bound : Limits) : Bool :=
  bound.maxMessageBytes < selected.maxMessageBytes ||
    bound.maxCollectionItems < selected.maxCollectionItems ||
    bound.maxReplayEvents < selected.maxReplayEvents ||
    bound.maxReplayBytes < selected.maxReplayBytes ||
    bound.maxConcurrentStreams < selected.maxConcurrentStreams ||
    bound.maxActiveRuns < selected.maxActiveRuns

def validateInitializeLimitSelection : Check := do
  let selected := getLimits response.limits
  refuseIf (exceedsLimits selected (getLimits request.requestedLimits))
    (.text "initialize response exceeds requested limits")
  wrap "initialize request exceeds selected message limit"
    (validateEncodedSize request.size selected.maxMessageBytes)
  refuseIf (exceedsLimits selected (getLimits (response.health.bind (·.limits))))
    (.text "initialize response exceeds advertised server capacity")

end

def validateInitializeResponseForRequest (request : Option InitializeRequest)
    (response : Option InitializeResponse) : Check := do
  validateInitializeRequest request
  validateInitializeResponse response
  match request, response with
  | some request, some response => do
    validateInitializeProtocolSelection request response
    validateInitializeCapabilitySelection request response
    validateInitializeLimitSelection request response
    refuseIf (request.initializationAttemptID ≠ response.initializationAttemptID)
      (.text "initialize response attempt identity does not match the request")
    validateReconnectResult request.reconnectClaim response.clientID response.ownershipEpoch
  -- a missing message does not pass its check
  | _, _ => .ok ()

end SpiceAgent.Enginev1
