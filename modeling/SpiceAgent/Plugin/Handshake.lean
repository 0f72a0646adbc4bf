import SpiceAgent.Lib.Base64
import SpiceAgent.Lib.Check
import SpiceAgent.Lib.JsonTree

/-!
# The transcript of the plugin handshake

The messages of the plugin's initialization as `plugin/v1` and `common/v1` declare them, and the
canonical JSON text that authenticates them. Go strings are byte strings here: that they are UTF-8
is checked when the text is written. A message keeps the fields it does not know as wire data, and
`υ` is what that data is read as.
-/

namespace SpiceAgent.Handshake

open SpiceAgent.Lib Option

abbrev Bytes := List UInt8

/-! ## Messages -/

variable (υ : Type)

structure ProtocolVersion where
  major : UInt32
  minor : UInt32
  patch : UInt32
  unknown : υ

structure ProtocolRange where
  minimum : Option (ProtocolVersion υ)
  maximum : Option (ProtocolVersion υ)
  unknown : υ

structure BuildIdentity where
  component : ByteArray
  version : ByteArray
  commit : ByteArray
  runtime : ByteArray
  unknown : υ

structure CapabilitySet where
  names : List ByteArray
  unknown : υ

structure Limits where
  maxMessageBytes : UInt64
  maxTools : UInt32
  maxSchemaBytes : UInt64
  maxCallArgumentBytes : UInt64
  maxResultBytes : UInt64
  maxProgressBytes : UInt64
  maxConcurrentCalls : UInt32
  unknown : υ

/-- The effect and the replay safety are enumerations, which the wire keeps as they are. -/
structure ToolDefinition where
  name : ByteArray
  description : ByteArray
  inputSchemaJson : Bytes
  effect : Int32
  replaySafety : Int32
  capabilities : Option (CapabilitySet υ)
  unknown : υ

structure Manifest where
  name : ByteArray
  version : ByteArray
  tools : List (Option (ToolDefinition υ))
  unknown : υ

structure VersionMismatch where
  client : Option (ProtocolRange υ)
  server : Option (ProtocolRange υ)
  unknown : υ

structure CapabilityMismatch where
  required : List ByteArray
  available : List ByteArray
  missing : List ByteArray
  unknown : υ

structure ReplayBounds where
  requestedAfterSequence : UInt64
  earliestSequence : UInt64
  latestSequence : UInt64
  recoverySequence : UInt64
  unknown : υ

structure Overload where
  resource : ByteArray
  limit : UInt64
  observed : UInt64
  unknown : υ

structure StaleClient where
  expectedEpoch : UInt64
  observedEpoch : UInt64
  unknown : υ

structure SnapshotVersionMismatch where
  expected : ByteArray
  observed : ByteArray
  unknown : υ

structure UncertainOperation where
  operationID : ByteArray
  operationKind : ByteArray
  unknown : υ

/-- The alternatives of a status's detail, each of which may be present without a message. -/
inductive StatusDetail
  | versionMismatch (value : Option (VersionMismatch υ))
  | capabilityMismatch (value : Option (CapabilityMismatch υ))
  | replayBounds (value : Option (ReplayBounds υ))
  | overload (value : Option (Overload υ))
  | staleClient (value : Option (StaleClient υ))
  | snapshotVersionMismatch (value : Option (SnapshotVersionMismatch υ))
  | uncertainOperation (value : Option (UncertainOperation υ))

structure Status where
  code : Int32
  message : ByteArray
  retryable : Bool
  operationID : ByteArray
  detail : Option (StatusDetail υ)
  unknown : υ

structure InitializeRequest where
  protocol : Option (ProtocolRange υ)
  host : Option (BuildIdentity υ)
  supportedCapabilities : Option (CapabilitySet υ)
  requiredCapabilities : Option (CapabilitySet υ)
  requestedLimits : Option (Limits υ)
  launchID : Bytes
  handshakeChallenge : Bytes
  unknown : υ

structure InitializeResponse where
  status : Option (Status υ)
  protocol : Option (ProtocolVersion υ)
  plugin : Option (BuildIdentity υ)
  capabilities : Option (CapabilitySet υ)
  limits : Option (Limits υ)
  manifest : Option (Manifest υ)
  launchID : Bytes
  sessionID : Bytes
  handshakeChallenge : Bytes
  handshakeProof : Bytes
  unknown : υ

/-! ## Unknown fields -/

/-- The value of an unknown field, by its wire type. -/
inductive WireValue
  | varint (value : ℕ)
  | fixed64 (value : ℕ)
  | bytes (value : Bytes)
  | fixed32 (value : ℕ)

structure UnknownWireAtom where
  number : ℕ
  value : WireValue

def WireValue.typeID : WireValue → ℕ
  | .varint _ => 0
  | .fixed64 _ => 1
  | .bytes _ => 2
  | .fixed32 _ => 5

/-- The groups of seven bits from the `i`-th on; the tenth byte holds one bit. -/
def varintFrom (i : ℕ) : Bytes → Option (ℕ × Bytes)
  | [] => none
  | b :: rest =>
    if i = 9 then
      if b.toNat < 2 then some (b.toNat * 2 ^ 63, rest) else none
    else if b.toNat < 0x80 then some (b.toNat * 2 ^ (7 * i), rest)
    else (varintFrom (i + 1) rest).map fun (v, rest) => ((b.toNat - 0x80) * 2 ^ (7 * i) + v, rest)

def consumeVarint (raw : Bytes) : Option (ℕ × Bytes) := varintFrom 0 raw

def consumeTag (raw : Bytes) : Option (ℕ × ℕ × Bytes) :=
  (consumeVarint raw).bind fun (v, rest) =>
    if v / 8 > 2 ^ 31 - 1 ∨ v / 8 < 1 then none else some (v / 8, v % 8, rest)

def littleEndian : Bytes → ℕ
  | [] => 0
  | b :: rest => b.toNat + 256 * littleEndian rest

def consumeFixed (width : ℕ) (raw : Bytes) : Option (ℕ × Bytes) :=
  if raw.length < width then none else some (littleEndian (raw.take width), raw.drop width)

def consumeBytes (raw : Bytes) : Option (Bytes × Bytes) :=
  (consumeVarint raw).bind fun (m, rest) =>
    if rest.length < m then none else some (rest.take m, rest.drop m)

def malformedUnknown : String := "plugin handshake contains malformed unknown wire data"

/-- The value that a consumer found, or the error where it found none. -/
def consumed {β : Type} (value : β → WireValue) :
    Option (β × Bytes) → Except String (WireValue × Bytes)
  | none => .error malformedUnknown
  | some (v, rest) => .ok (value v, rest)

def consumeValue (typeID : ℕ) (raw : Bytes) : Except String (WireValue × Bytes) :=
  match typeID with
  | 0 => consumed .varint (consumeVarint raw)
  | 1 => consumed .fixed64 (consumeFixed 8 raw)
  | 2 => consumed .bytes (consumeBytes raw)
  | 5 => consumed .fixed32 (consumeFixed 4 raw)
  | 3 | 4 => .error "plugin handshake unknown protobuf groups are unsupported"
  | _ => .error "plugin handshake contains an unsupported unknown wire type"

/-- One pass of the loop of `canonicalUnknownFields`: an atom and the data after it. -/
def consumeAtom (raw : Bytes) : Except String (UnknownWireAtom × Bytes) :=
  match consumeTag raw with
  | none => .error malformedUnknown
  | some (number, typeID, rest) => do
    let (value, rest) ← consumeValue typeID rest
    return (⟨number, value⟩, rest)

variable {raw rest : Bytes}

theorem varintFrom_length {i : ℕ} {v : ℕ} (h : varintFrom i raw = some (v, rest)) :
    rest.length < raw.length := by
  induction raw generalizing i v rest with
  | nil => exact absurd h nofun
  | cons b raw ih =>
    rw [varintFrom] at h
    split_ifs at h
    · obtain ⟨-, rfl⟩ := Prod.mk.inj (some_inj.mp h)
      simp
    · obtain ⟨-, rfl⟩ := Prod.mk.inj (some_inj.mp h)
      simp
    · obtain ⟨⟨w, tail⟩, htail, h⟩ := map_eq_some_iff.mp h
      obtain ⟨-, rfl⟩ := Prod.mk.inj h
      exact (ih htail).trans (by simp)

theorem consumeTag_length {number typeID : ℕ} (h : consumeTag raw = some (number, typeID, rest)) :
    rest.length < raw.length := by
  obtain ⟨⟨v, tail⟩, htail, h⟩ := bind_eq_some_iff.mp h
  dsimp only at h
  split_ifs at h
  obtain ⟨-, -, rfl⟩ : _ ∧ _ ∧ tail = rest := by simpa using h
  exact varintFrom_length htail

theorem consumeFixed_length {width : ℕ} {v : ℕ} (h : consumeFixed width raw = some (v, rest)) :
    rest.length ≤ raw.length := by
  rw [consumeFixed] at h
  split_ifs at h
  obtain ⟨-, rfl⟩ := Prod.mk.inj (some_inj.mp h)
  exact (List.drop_sublist width raw).length_le

theorem consumeBytes_length {v : Bytes} (h : consumeBytes raw = some (v, rest)) :
    rest.length ≤ raw.length := by
  obtain ⟨⟨m, tail⟩, htail, h⟩ := bind_eq_some_iff.mp h
  dsimp only at h
  split_ifs at h
  obtain ⟨-, rfl⟩ := Prod.mk.inj (some_inj.mp h)
  exact ((List.drop_sublist m tail).length_le).trans (varintFrom_length htail).le

theorem consumed_length {β : Type} {value : β → WireValue} {found : Option (β × Bytes)}
    {w : WireValue} (hfound : ∀ v rest, found = some (v, rest) → rest.length ≤ raw.length)
    (h : consumed value found = .ok (w, rest)) : rest.length ≤ raw.length := by
  match found, h with
  | some (v, tail), h =>
    obtain ⟨-, rfl⟩ := Prod.mk.inj (Except.ok.inj h)
    exact hfound v tail rfl

theorem consumeValue_length {typeID : ℕ} {w : WireValue}
    (h : consumeValue typeID raw = .ok (w, rest)) : rest.length ≤ raw.length := by
  unfold consumeValue at h
  split at h
  · exact consumed_length (fun _ _ h => (varintFrom_length h).le) h
  · exact consumed_length (fun _ _ => consumeFixed_length) h
  · exact consumed_length (fun _ _ => consumeBytes_length) h
  · exact consumed_length (fun _ _ => consumeFixed_length) h
  all_goals cases h

theorem consumeAtom_length {atom : UnknownWireAtom} (h : consumeAtom raw = .ok (atom, rest)) :
    rest.length < raw.length := by
  unfold consumeAtom at h
  split at h
  case h_1 => cases h
  case h_2 number typeID tail htag =>
    obtain ⟨⟨value, last⟩, hvalue, h⟩ := bind_ok.mp h
    obtain ⟨-, rfl⟩ := Prod.mk.inj (Except.ok.inj h)
    exact (consumeValue_length hvalue).trans_lt (consumeTag_length htag)

/-- The unknown fields of a message in the order they occur. -/
def unknownAtoms (raw : Bytes) : Except String (List UnknownWireAtom) :=
  if raw = [] then .ok []
  else
    match _h : consumeAtom raw with
    | .error err => .error err
    | .ok (atom, rest) => (unknownAtoms rest).map (atom :: ·)
termination_by raw.length
decreasing_by exact consumeAtom_length _h

/-! ## Encoders -/

/-- A value as the source hands it to the JSON encoder. -/
abbrev Node := Json ByteArray

def literal (s : String) : Node := .str s.toUTF8

def canonicalBytes (value : Bytes) : Node := literal (String.ofList (Base64.encode value))

def canonicalStrings (values : List ByteArray) : Node := .arr (values.map .str)

def uint32 (n : UInt32) : Node := .num n.toNat

def uint64 (n : UInt64) : Node := .num n.toNat

def int32 (n : Int32) : Node := .num n.toInt

def WireValue.node : WireValue → Node
  | .varint v | .fixed64 v | .fixed32 v => .num v
  | .bytes v => canonicalBytes v

def UnknownWireAtom.node (atom : UnknownWireAtom) : Node :=
  .arr [.num atom.number, .num atom.value.typeID, atom.value.node]

def canonicalUnknownFields (raw : Bytes) : Except String Node := do
  let atoms ← unknownAtoms raw
  return .arr (atoms.map UnknownWireAtom.node)

/-- A message is an array of its name, its fields and its unknown fields. -/
def canonicalMessage (unknown : Bytes) (name : String) (fields : List Node) :
    Except String (List Node) := do
  let unknown ← canonicalUnknownFields unknown
  return literal name :: fields ++ [unknown]

def nilOr {α : Type} (encode : α → Except String (List Node)) : Option α → Except String Node
  | none => .ok .null
  | some value => (encode value).map .arr

/-- What encodes a message or its absence. -/
abbrev Encoder (message : Type → Type) := Option (message Bytes) → Except String Node

def canonicalProtocolVersion : Encoder ProtocolVersion :=
  nilOr fun value => canonicalMessage value.unknown "ProtocolVersion"
    [uint32 value.major, uint32 value.minor, uint32 value.patch]

def canonicalProtocolRange : Encoder ProtocolRange :=
  nilOr fun value => do
    let minimum ← canonicalProtocolVersion value.minimum
    let maximum ← canonicalProtocolVersion value.maximum
    canonicalMessage value.unknown "ProtocolRange" [minimum, maximum]

def canonicalBuildIdentity : Encoder BuildIdentity :=
  nilOr fun value => canonicalMessage value.unknown "BuildIdentity"
    [.str value.component, .str value.version, .str value.commit, .str value.runtime]

def canonicalCapabilitySet : Encoder CapabilitySet :=
  nilOr fun value => canonicalMessage value.unknown "CapabilitySet" [canonicalStrings value.names]

def canonicalLimits : Encoder Limits :=
  nilOr fun value => canonicalMessage value.unknown "Limits"
    [uint64 value.maxMessageBytes, uint32 value.maxTools, uint64 value.maxSchemaBytes,
      uint64 value.maxCallArgumentBytes, uint64 value.maxResultBytes, uint64 value.maxProgressBytes,
      uint32 value.maxConcurrentCalls]

def canonicalToolDefinition : Encoder ToolDefinition :=
  nilOr fun value => do
    let capabilities ← canonicalCapabilitySet value.capabilities
    canonicalMessage value.unknown "ToolDefinition"
      [.str value.name, .str value.description, canonicalBytes value.inputSchemaJson,
        int32 value.effect, int32 value.replaySafety, capabilities]

def canonicalManifest : Encoder Manifest :=
  nilOr fun value => do
    let tools ← value.tools.mapM canonicalToolDefinition
    canonicalMessage value.unknown "Manifest" [.str value.name, .str value.version, .arr tools]

def canonicalVersionMismatch : Encoder VersionMismatch :=
  nilOr fun value => do
    let client ← canonicalProtocolRange value.client
    let server ← canonicalProtocolRange value.server
    canonicalMessage value.unknown "VersionMismatch" [client, server]

def canonicalCapabilityMismatch : Encoder CapabilityMismatch :=
  nilOr fun value => canonicalMessage value.unknown "CapabilityMismatch"
    [canonicalStrings value.required, canonicalStrings value.available,
      canonicalStrings value.missing]

def canonicalReplayBounds : Encoder ReplayBounds :=
  nilOr fun value => canonicalMessage value.unknown "ReplayBounds"
    [uint64 value.requestedAfterSequence, uint64 value.earliestSequence,
      uint64 value.latestSequence, uint64 value.recoverySequence]

def canonicalOverload : Encoder Overload :=
  nilOr fun value => canonicalMessage value.unknown "Overload"
    [.str value.resource, uint64 value.limit, uint64 value.observed]

def canonicalStaleClient : Encoder StaleClient :=
  nilOr fun value => canonicalMessage value.unknown "StaleClient"
    [uint64 value.expectedEpoch, uint64 value.observedEpoch]

def canonicalSnapshotVersionMismatch : Encoder SnapshotVersionMismatch :=
  nilOr fun value => canonicalMessage value.unknown "SnapshotVersionMismatch"
    [.str value.expected, .str value.observed]

def canonicalUncertainOperation : Encoder UncertainOperation :=
  nilOr fun value => canonicalMessage value.unknown "UncertainOperation"
    [.str value.operationID, .str value.operationKind]

/-- An alternative of the detail with the name of its field. -/
def tagged (tag : String) (encoded : Except String Node) : Except String Node := do
  let encoded ← encoded
  return .arr [literal tag, encoded]

def canonicalStatusDetail : Encoder StatusDetail
  | none => .ok .null
  | some (.versionMismatch value) => tagged "version_mismatch" (canonicalVersionMismatch value)
  | some (.capabilityMismatch value) =>
    tagged "capability_mismatch" (canonicalCapabilityMismatch value)
  | some (.replayBounds value) => tagged "replay_bounds" (canonicalReplayBounds value)
  | some (.overload value) => tagged "overload" (canonicalOverload value)
  | some (.staleClient value) => tagged "stale_client" (canonicalStaleClient value)
  | some (.snapshotVersionMismatch value) =>
    tagged "snapshot_version_mismatch" (canonicalSnapshotVersionMismatch value)
  | some (.uncertainOperation value) =>
    tagged "uncertain_operation" (canonicalUncertainOperation value)

def canonicalStatus : Encoder Status :=
  nilOr fun value => do
    let detail ← canonicalStatusDetail value.detail
    canonicalMessage value.unknown "Status"
      [int32 value.code, .str value.message, .bool value.retryable, .str value.operationID, detail]

def canonicalInitializeRequest (value : InitializeRequest Bytes) : Except String (List Node) := do
  let protocol ← canonicalProtocolRange value.protocol
  let host ← canonicalBuildIdentity value.host
  let supported ← canonicalCapabilitySet value.supportedCapabilities
  let required ← canonicalCapabilitySet value.requiredCapabilities
  let limits ← canonicalLimits value.requestedLimits
  canonicalMessage value.unknown "InitializeRequest"
    [protocol, host, supported, required, limits, canonicalBytes value.launchID,
      canonicalBytes value.handshakeChallenge]

/-- The slot of the proof is always the empty byte string. -/
def canonicalInitializeResponse (value : InitializeResponse Bytes) : Except String (List Node) := do
  let status ← canonicalStatus value.status
  let protocol ← canonicalProtocolVersion value.protocol
  let plugin ← canonicalBuildIdentity value.plugin
  let capabilities ← canonicalCapabilitySet value.capabilities
  let limits ← canonicalLimits value.limits
  let manifest ← canonicalManifest value.manifest
  canonicalMessage value.unknown "InitializeResponse"
    [status, protocol, plugin, capabilities, limits, manifest, canonicalBytes value.launchID,
      canonicalBytes value.sessionID, canonicalBytes value.handshakeChallenge, canonicalBytes []]

/-! ## The transcript -/

def initializeTranscriptDomain : String := "spice-agent/plugin/v1/initialize"

def initializeTranscriptVersion : UInt32 := 1

/-- The newline that the encoder appends is trimmed again. -/
def marshalCanonicalJSON (value : Node) : Except String ByteArray :=
  match value.convert String.fromUTF8? with
  | none => .error "canonical plugin handshake transcript contains invalid UTF-8"
  | some value => .ok (String.ofList value.render).toUTF8

def canonicalInitializeTranscript (request : Option (InitializeRequest Bytes))
    (response : Option (InitializeResponse Bytes)) : Except String ByteArray :=
  match request, response with
  | some request, some response => do
    let requestNode ← (canonicalInitializeRequest request).mapError
      ("canonical plugin initialize request: " ++ ·)
    let responseNode ← (canonicalInitializeResponse response).mapError
      ("canonical plugin initialize response: " ++ ·)
    marshalCanonicalJSON (.arr [literal initializeTranscriptDomain,
      uint32 initializeTranscriptVersion, .arr requestNode, .arr responseNode])
  | _, _ => .error "plugin handshake transcript is required"

/-! ## The proof -/

section Proof

-- HMAC-SHA256 by its key and its message
variable (mac : Bytes → ByteArray → Bytes)

def handshakeSecretBytes : ℕ := 32

section

variable (request : Option (InitializeRequest Bytes))

def initializeProof
    (response : Option (InitializeResponse Bytes)) (secret : Bytes) : Except String Bytes := do
  refuseIf (secret.length ≠ handshakeSecretBytes)
    s!"plugin handshake secret must contain {handshakeSecretBytes} bytes"
  refuseIf (request.isNone ∨ response.isNone) "plugin handshake transcript is required"
  let transcript ← canonicalInitializeTranscript request response
  return mac secret transcript

end

/-- The checks that are made beside the proof: of the request, of the response, and after the proof
of the status and of what the plugin selected. -/
structure Checks where
  request : InitializeRequest Bytes → Except String Unit
  response : InitializeResponse Bytes → Except String Unit
  selection : InitializeRequest Bytes → InitializeResponse Bytes → Except String Unit

def required {α : Type} (value : Option α) (err : String) : Except String α :=
  match value with
  | none => .error err
  | some value => .ok value

/-- The part of `ValidateInitializeResponseForRequest` up to the comparison of the proofs. -/
def authenticateInitializeResponse (checks : Checks)
    (request : Option (InitializeRequest Bytes)) (response : Option (InitializeResponse Bytes))
    (secret : Bytes) : Except String (InitializeRequest Bytes × InitializeResponse Bytes) := do
  let request ← required request "plugin initialize request is required"
  checks.request request
  let response ← required response "plugin initialize response is required"
  checks.response response
  refuseIf (request.launchID ≠ response.launchID)
    "plugin initialize launch identity does not match the request"
  refuseIf (request.handshakeChallenge ≠ response.handshakeChallenge)
    "plugin initialize challenge does not match the request"
  let expected ← initializeProof mac (some request) (some response) secret
  refuseIf (expected ≠ response.handshakeProof) "plugin initialize handshake proof is invalid"
  return (request, response)

def validateInitializeResponseForRequest (checks : Checks)
    (request : Option (InitializeRequest Bytes)) (response : Option (InitializeResponse Bytes))
    (secret : Bytes) : Except String Unit := do
  let (request, response) ← authenticateInitializeResponse mac checks request response secret
  checks.selection request response

end Proof

end SpiceAgent.Handshake
