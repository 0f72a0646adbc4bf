import SpiceAgent.Lib.Encoder
import SpiceAgent.Plugin.Handshake

/-!
# The transcript determines the messages

Two pairs of a request and a response with one transcript are equal field by field, except for the
response's proof. Unknown fields are compared as what is read from them. Each encoder determines
its message because a message's array has its fields at fixed positions, and the JSON text
determines the array.
-/

namespace SpiceAgent.Handshake

open SpiceAgent.Lib Option List Except

/-! ## Views of messages -/

section View

variable {υ ω : Type} (f : υ → ω)

def ProtocolVersion.map : ProtocolVersion υ → ProtocolVersion ω
  | ⟨major, minor, patch, unknown⟩ => ⟨major, minor, patch, f unknown⟩

def ProtocolRange.map : ProtocolRange υ → ProtocolRange ω
  | ⟨minimum, maximum, unknown⟩ =>
    ⟨minimum.map (ProtocolVersion.map f), maximum.map (ProtocolVersion.map f), f unknown⟩

def BuildIdentity.map : BuildIdentity υ → BuildIdentity ω
  | ⟨component, version, commit, runtime, unknown⟩ =>
    ⟨component, version, commit, runtime, f unknown⟩

def CapabilitySet.map : CapabilitySet υ → CapabilitySet ω
  | ⟨names, unknown⟩ => ⟨names, f unknown⟩

def Limits.map : Limits υ → Limits ω
  | ⟨message, tools, schema, arguments, result, progress, calls, unknown⟩ =>
    ⟨message, tools, schema, arguments, result, progress, calls, f unknown⟩

def ToolDefinition.map : ToolDefinition υ → ToolDefinition ω
  | ⟨name, description, schema, effect, replaySafety, capabilities, unknown⟩ =>
    ⟨name, description, schema, effect, replaySafety, capabilities.map (CapabilitySet.map f),
      f unknown⟩

def Manifest.map : Manifest υ → Manifest ω
  | ⟨name, version, tools, unknown⟩ =>
    ⟨name, version, tools.map (Option.map (ToolDefinition.map f)), f unknown⟩

def VersionMismatch.map : VersionMismatch υ → VersionMismatch ω
  | ⟨client, server, unknown⟩ =>
    ⟨client.map (ProtocolRange.map f), server.map (ProtocolRange.map f), f unknown⟩

def CapabilityMismatch.map : CapabilityMismatch υ → CapabilityMismatch ω
  | ⟨required, available, missing, unknown⟩ => ⟨required, available, missing, f unknown⟩

def ReplayBounds.map : ReplayBounds υ → ReplayBounds ω
  | ⟨requested, earliest, latest, recovery, unknown⟩ =>
    ⟨requested, earliest, latest, recovery, f unknown⟩

def Overload.map : Overload υ → Overload ω
  | ⟨resource, limit, observed, unknown⟩ => ⟨resource, limit, observed, f unknown⟩

def StaleClient.map : StaleClient υ → StaleClient ω
  | ⟨expected, observed, unknown⟩ => ⟨expected, observed, f unknown⟩

def SnapshotVersionMismatch.map : SnapshotVersionMismatch υ → SnapshotVersionMismatch ω
  | ⟨expected, observed, unknown⟩ => ⟨expected, observed, f unknown⟩

def UncertainOperation.map : UncertainOperation υ → UncertainOperation ω
  | ⟨operationID, operationKind, unknown⟩ => ⟨operationID, operationKind, f unknown⟩

def StatusDetail.map : StatusDetail υ → StatusDetail ω
  | .versionMismatch value => .versionMismatch (value.map (VersionMismatch.map f))
  | .capabilityMismatch value => .capabilityMismatch (value.map (CapabilityMismatch.map f))
  | .replayBounds value => .replayBounds (value.map (ReplayBounds.map f))
  | .overload value => .overload (value.map (Overload.map f))
  | .staleClient value => .staleClient (value.map (StaleClient.map f))
  | .snapshotVersionMismatch value =>
    .snapshotVersionMismatch (value.map (SnapshotVersionMismatch.map f))
  | .uncertainOperation value => .uncertainOperation (value.map (UncertainOperation.map f))

def Status.map : Status υ → Status ω
  | ⟨code, message, retryable, operationID, detail, unknown⟩ =>
    ⟨code, message, retryable, operationID, detail.map (StatusDetail.map f), f unknown⟩

def InitializeRequest.map : InitializeRequest υ → InitializeRequest ω
  | ⟨protocol, host, supported, required, limits, launchID, challenge, unknown⟩ =>
    ⟨protocol.map (ProtocolRange.map f), host.map (BuildIdentity.map f),
      supported.map (CapabilitySet.map f), required.map (CapabilitySet.map f),
      limits.map (Limits.map f), launchID, challenge, f unknown⟩

def InitializeResponse.map : InitializeResponse υ → InitializeResponse ω
  | ⟨status, protocol, plugin, capabilities, limits, manifest, launchID, sessionID, challenge,
      proof, unknown⟩ =>
    ⟨status.map (Status.map f), protocol.map (ProtocolVersion.map f),
      plugin.map (BuildIdentity.map f), capabilities.map (CapabilitySet.map f),
      limits.map (Limits.map f), manifest.map (Manifest.map f), launchID, sessionID, challenge,
      proof, f unknown⟩

end View

/-- What is read from unknown fields. -/
abbrev Atoms := Except String (List UnknownWireAtom)

def InitializeRequest.view (m : InitializeRequest Bytes) : InitializeRequest Atoms :=
  m.map unknownAtoms

/-- A response without its proof and with its unknown fields read. -/
def InitializeResponse.view (m : InitializeResponse Bytes) : InitializeResponse Atoms :=
  { m.map unknownAtoms with handshakeProof := [] }

/-! ## Leaves -/

@[simp] theorem uint32_inj {m n : UInt32} : uint32 m = uint32 n ↔ m = n := by
  simp [uint32, UInt32.toNat_inj]

@[simp] theorem uint64_inj {m n : UInt64} : uint64 m = uint64 n ↔ m = n := by
  simp [uint64, UInt64.toNat_inj]

@[simp] theorem canonicalStrings_inj {a b : List ByteArray} :
    canonicalStrings a = canonicalStrings b ↔ a = b := by
  have hinj : Function.Injective (Json.str : ByteArray → Node) := fun _ _ h => Json.str.inj h
  simp [canonicalStrings, hinj.list_map.eq_iff]

/-- The encoding of a message determines it with its unknown fields read. -/
abbrev Reads {m : Type → Type} (encode : Encoder m) (map : (Bytes → Atoms) → m Bytes → m Atoms) :=
  Determines encode (Option.map (map unknownAtoms))

variable {v : Node}

/-- The name of the field that holds the alternative. -/
def StatusDetail.tag {υ : Type} : StatusDetail υ → String
  | .versionMismatch _ => "version_mismatch"
  | .capabilityMismatch _ => "capability_mismatch"
  | .replayBounds _ => "replay_bounds"
  | .overload _ => "overload"
  | .staleClient _ => "stale_client"
  | .snapshotVersionMismatch _ => "snapshot_version_mismatch"
  | .uncertainOperation _ => "uncertain_operation"

def StatusDetail.encoded : StatusDetail Bytes → Except String Node
  | .versionMismatch value => canonicalVersionMismatch value
  | .capabilityMismatch value => canonicalCapabilityMismatch value
  | .replayBounds value => canonicalReplayBounds value
  | .overload value => canonicalOverload value
  | .staleClient value => canonicalStaleClient value
  | .snapshotVersionMismatch value => canonicalSnapshotVersionMismatch value
  | .uncertainOperation value => canonicalUncertainOperation value

variable {t : ByteArray}

variable {request : Option (InitializeRequest Bytes)} {response : Option (InitializeResponse Bytes)}

section Proof

variable {mac : Bytes → ByteArray → Bytes} {secret : Bytes}

end Proof

section Example

def exampleBuild : BuildIdentity Bytes :=
  ⟨"build".toUTF8, "1".toUTF8, "c".toUTF8, "go".toUTF8, []⟩

def exampleCapabilities : CapabilitySet Bytes := ⟨["runtime-tools-v1".toUTF8], []⟩

def exampleLimits : Limits Bytes := ⟨1048576, 16, 65536, 65536, 65536, 4096, 4, []⟩

/-- A request with the unknown field 100 of value 1 in the given wire data. -/
def exampleRequest (unknown : Bytes) : InitializeRequest Bytes where
  protocol := some ⟨some ⟨1, 0, 0, []⟩, some ⟨1, 0, 0, []⟩, []⟩
  host := some exampleBuild
  supportedCapabilities := some exampleCapabilities
  requiredCapabilities := some exampleCapabilities
  requestedLimits := some exampleLimits
  launchID := replicate 16 1
  handshakeChallenge := replicate 32 255
  unknown := unknown

end Example

end SpiceAgent.Handshake
