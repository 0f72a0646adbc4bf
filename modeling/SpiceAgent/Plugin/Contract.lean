import SpiceAgent.Tool
import SpiceAgent.Wire.Common

/-!
# The plugin protocol

`plugin/v1/contract.go`: negotiated limits, the manifest with its tool definitions, the request of a
call and the validator of its response stream. Sizes of messages are those of their encodings;
`unknownBytes` is what fields that this version does not know add to one. The check of `json.Valid`
is a parameter, as in the tool package.
-/

namespace SpiceAgent.Pluginv1

open SpiceAgent.Lib SpiceAgent.Lib.ProtoSize SpiceAgent.Commonv1 SpiceAgent.Agent

def initializeBootstrapMaximumBytes : ℕ := 2 ^ 20
def sessionIDBytes : ℕ := 16
def maximumTokenBytes : ℕ := 256
def maximumDescriptionBytes : ℕ := Tool.maximumProgressBytes
def maximumProblemBytes : ℕ := Tool.maximumProgressBytes
def maximumToolCount : ℕ := 4096
def maximumConcurrentCalls : ℕ := 4096

/-! ## Limits -/

structure Limits where
  maxMessageBytes : ℕ
  maxTools : ℕ
  maxSchemaBytes : ℕ
  maxCallArgumentBytes : ℕ
  maxResultBytes : ℕ
  maxProgressBytes : ℕ
  maxConcurrentCalls : ℕ
  deriving DecidableEq

def validateLimits (l : Limits) : Check := do
  refuseIf (l.maxMessageBytes = 0 ∨ l.maxTools = 0 ∨ l.maxSchemaBytes = 0 ∨
      l.maxCallArgumentBytes = 0 ∨ l.maxResultBytes = 0 ∨ l.maxProgressBytes = 0 ∨
      l.maxConcurrentCalls = 0) (.text "plugin limits must all be positive")
  refuseIf (maximumToolCount < l.maxTools) (.text "plugin tool limit exceeds 4096")
  refuseIf (maximumConcurrentCalls < l.maxConcurrentCalls)
    (.text "plugin concurrent-call limit exceeds 4096")
  refuseIf (initializeBootstrapMaximumBytes < l.maxMessageBytes)
    (.text "plugin message limit exceeds 1048576")
  refuseIf (l.maxMessageBytes < l.maxSchemaBytes)
    (.text "plugin schema limit exceeds the message limit")
  refuseIf (l.maxMessageBytes < l.maxCallArgumentBytes)
    (.text "plugin call argument limit exceeds the message limit")
  refuseIf (l.maxMessageBytes < l.maxResultBytes)
    (.text "plugin result limit exceeds the message limit")
  refuseIf (l.maxMessageBytes < l.maxProgressBytes)
    (.text "plugin progress limit exceeds the message limit")
  refuseIf (Tool.maximumPayloadBytes < l.maxSchemaBytes ∨
      Tool.maximumPayloadBytes < l.maxCallArgumentBytes ∨
      Tool.maximumPayloadBytes < l.maxResultBytes) (.text "plugin JSON limit exceeds 1048576")
  refuseIf (Tool.maximumProgressBytes < l.maxProgressBytes)
    (.text "plugin progress limit exceeds 4096")

/-! ## Texts -/

def token (label value : String) (maximum : ℕ) : Check := do
  refuseIf (trimmedToken value = false)
    (.text (label ++ " must be non-empty without surrounding whitespace"))
  refuseIf (value.toList.any breaksToken) (.text (label ++ " contains invalid text"))
  refuseIf (maximum < value.utf8ByteSize)
    (.text (label ++ " exceeds " ++ toString maximum ++ " bytes"))

@[simp] theorem token_ok {label value : String} {maximum : ℕ} :
    token label value maximum = .ok () ↔ IsToken value maximum := by
  unfold token
  simp only [check_bind_ok, refuseIf_ok, Bool.not_eq_false, List.any_eq_true, not_exists, not_and,
    Bool.not_eq_true, not_lt, isToken_iff]

def boundedText (label value : String) (maximum : ℕ) : Check := token label value maximum

variable (isJson : List UInt8 → Bool)

def boundedJSON (label : String) (value : List UInt8) (maximum : ℕ) : Check := do
  refuseIf (value = [] ∨ isJson value = false) (.text (label ++ " must be valid JSON"))
  refuseIf (maximum < value.length) (.text (label ++ " exceeds the negotiated limit"))

/-! ## Tool definitions -/

/-- `ToolEffect`; `unknown n` is the number `3 + n`. -/
inductive ToolEffect
  | unspecified | readOnly | mutating
  | unknown (n : ℕ)
  deriving DecidableEq

def ToolEffect.number : ToolEffect → ℕ
  | unspecified => 0 | readOnly => 1 | mutating => 2
  | unknown n => 3 + n

/-- `ReplaySafety`; `never` is the value `UNSAFE`, `unknown n` the number `4 + n`. -/
inductive WireReplaySafety
  | unspecified | safe | idempotent | never
  | unknown (n : ℕ)
  deriving DecidableEq

def WireReplaySafety.number : WireReplaySafety → ℕ
  | unspecified => 0 | safe => 1 | idempotent => 2 | never => 3
  | unknown n => 4 + n

def encodeEffect : Effect → Except ContractError ToolEffect
  | .readOnly => .ok .readOnly
  | .mutating => .ok .mutating
  | .none => .error (.text "plugin tool effect is unsupported")

def decodeEffect : ToolEffect → Except ContractError Effect
  | .readOnly => .ok .readOnly
  | .mutating => .ok .mutating
  | .unspecified | .unknown _ => .error (.text "plugin tool effect is unsupported")

def encodeReplaySafety : ReplaySafety → Except ContractError WireReplaySafety
  | .safe => .ok .safe
  | .idempotent => .ok .idempotent
  | .never => .ok .never
  | .none => .error (.text "plugin tool replay safety is unsupported")

def decodeReplaySafety : WireReplaySafety → Except ContractError ReplaySafety
  | .safe => .ok .safe
  | .idempotent => .ok .idempotent
  | .never => .ok .never
  | .unspecified | .unknown _ => .error (.text "plugin tool replay safety is unsupported")

def decodeCapability (name : String) : Except ContractError Capability :=
  match ofName Capability.values Capability.name name with
  | some capability => .ok capability
  | none => .error (.text "plugin tool capability is unsupported")

structure ToolDefinition where
  name : String
  description : String
  inputSchemaJSON : List UInt8
  effect : ToolEffect
  replaySafety : WireReplaySafety
  capabilities : Option CapabilitySet
  deriving DecidableEq

def ToolDefinition.size (d : ToolDefinition) : ℕ :=
  bytesField 1 d.name.utf8ByteSize + bytesField 2 d.description.utf8ByteSize +
    bytesField 3 d.inputSchemaJSON.length + uintField 4 d.effect.number +
    uintField 5 d.replaySafety.number + messageField 6 (d.capabilities.map (·.size))

def encodeToolDefinition (value : Tool.Definition) : Except ContractError ToolDefinition :=
  match value.validate isJson with
  | some e => .error (.text ("plugin tool definition: " ++ e))
  | none => do
    let effect ← encodeEffect value.effect
    let replay ← encodeReplaySafety value.replaySafety
    pure ⟨value.name, value.description, value.inputSchema, effect, replay,
      some ⟨value.capabilities.map (·.name)⟩⟩

def decodeToolDefinition (value : ToolDefinition) (limits : Limits) :
    Except ContractError Tool.Definition := do
  token "plugin tool name" value.name 128
  boundedText "plugin tool description" value.description maximumDescriptionBytes
  boundedJSON isJson "plugin tool schema" value.inputSchemaJSON limits.maxSchemaBytes
  let effect ← decodeEffect value.effect
  let replay ← decodeReplaySafety value.replaySafety
  wrap "plugin tool capabilities" (validateCapabilities value.capabilities)
  let capabilities ← ((value.capabilities.map (·.names)).getD []).mapM decodeCapability
  (Tool.NewDefinition isJson value.name value.description value.inputSchemaJSON effect replay
    capabilities).mapError fun _ => .text "plugin tool definition metadata is inconsistent"

/-! ## Manifests -/

structure Manifest where
  name : String
  version : String
  tools : List ToolDefinition
  unknownBytes : ℕ := 0
  deriving DecidableEq

def Manifest.size (m : Manifest) : ℕ :=
  bytesField 1 m.name.utf8ByteSize + bytesField 2 m.version.utf8ByteSize +
    repeatedField 3 (m.tools.map (·.size)) + m.unknownBytes

structure Catalog where
  name : String
  version : String
  definitions : List Tool.Definition

/-- The loop of `DecodeManifest` from an index and the name before it. -/
def decodeTools (limits : Limits) :
    ℕ → String → List ToolDefinition → Except ContractError (List Tool.Definition)
  | _, _, [] => .ok []
  | index, previous, wire :: rest => do
    let definition ← (decodeToolDefinition isJson wire limits).mapError fun err =>
      .text ("plugin tool definition " ++ toString index ++ ": " ++ err.message)
    refuseIf (previous ≠ "" ∧ definition.name ≤ previous)
      (.text "plugin tool definitions must be sorted and unique")
    let definitions ← decodeTools limits (index + 1) definition.name rest
    pure (definition :: definitions)

def decodeManifest (value : Manifest) (limits : Limits) : Except ContractError Catalog := do
  validateLimits limits
  token "plugin manifest name" value.name maximumTokenBytes
  token "plugin manifest version" value.version maximumTokenBytes
  refuseIf (value.tools = [] ∨ limits.maxTools < value.tools.length)
    (.text "plugin manifest tool count is outside negotiated limits")
  let definitions ← decodeTools isJson limits 0 "" value.tools
  validateEncodedSize value.size limits.maxMessageBytes
  pure ⟨value.name, value.version, definitions⟩

/-! ## Calls -/

structure ExecuteRequest where
  sessionID : List UInt8
  callID : String
  toolName : String
  argumentsJSON : List UInt8
  deriving DecidableEq

def ExecuteRequest.size (r : ExecuteRequest) : ℕ :=
  bytesField 1 r.sessionID.length + bytesField 2 r.callID.utf8ByteSize +
    bytesField 3 r.toolName.utf8ByteSize + bytesField 4 r.argumentsJSON.length

def validateSession (observed expected : List UInt8) : Check := do
  refuseIf (expected.length ≠ sessionIDBytes)
    (.text "expected plugin session identity is invalid")
  refuseIf (observed.length ≠ sessionIDBytes ∨ observed ≠ expected)
    (.text "plugin session identity does not match")

def decodeExecuteRequest (value : ExecuteRequest) (expectedSession : List UInt8) (limits : Limits) :
    Except ContractError Tool.Call := do
  validateSession value.sessionID expectedSession
  validateLimits limits
  (token "plugin call identity" value.callID 128).mapError fun _ =>
    .text "plugin execute request contains an invalid call identity"
  (token "plugin tool name" value.toolName 128).mapError fun _ =>
    .text "plugin execute request contains an invalid tool name"
  refuseIf (limits.maxCallArgumentBytes < value.argumentsJSON.length)
    (.text "plugin call arguments exceed the negotiated limit")
  refuseIf ((Tool.Call.mk value.callID value.toolName value.argumentsJSON).validate isJson ≠ none)
    (.text "plugin execute request contains an invalid call")
  validateEncodedSize value.size limits.maxMessageBytes
  pure ⟨value.callID, value.toolName, value.argumentsJSON⟩

/-! ## Response streams -/

/-- `ExecutionState` of the wire; `unknown n` is the number `3 + n`. -/
inductive WireExecutionState
  | unspecified | definitive | uncertain
  | unknown (n : ℕ)
  deriving DecidableEq

def WireExecutionState.number : WireExecutionState → ℕ
  | unspecified => 0 | definitive => 1 | uncertain => 2
  | unknown n => 3 + n

/-- `RetryDisposition` of the wire; `unknown n` is the number `3 + n`. -/
inductive WireRetryDisposition
  | unspecified | never | allowed
  | unknown (n : ℕ)
  deriving DecidableEq

def WireRetryDisposition.number : WireRetryDisposition → ℕ
  | unspecified => 0 | never => 1 | allowed => 2
  | unknown n => 3 + n

def decodeExecutionState : WireExecutionState → Except ContractError ExecutionState
  | .definitive => .ok .definitive
  | .uncertain => .ok .uncertain
  | .unspecified | .unknown _ => .error (.text "plugin execution state is unsupported")

def decodeRetryDisposition : WireRetryDisposition → Except ContractError RetryDisposition
  | .never => .ok .never
  | .allowed => .ok .allowed
  | .unspecified | .unknown _ => .error (.text "plugin retry disposition is unsupported")

/-- `Result` of the wire. -/
structure WireResult where
  contentJSON : List UInt8
  problem : String
  deriving DecidableEq

structure ExecutionFailure where
  state : WireExecutionState
  retry : WireRetryDisposition
  safeMessage : String
  deriving DecidableEq

/-- The `oneof` of a response; a missing value is a set member that holds no message. -/
inductive Payload
  | progress (message : Option String)
  | result (value : Option WireResult)
  | failure (value : Option ExecutionFailure)
  deriving DecidableEq

def WireResult.size (r : WireResult) : ℕ :=
  bytesField 1 r.contentJSON.length + bytesField 2 r.problem.utf8ByteSize

def ExecutionFailure.size (f : ExecutionFailure) : ℕ :=
  uintField 1 f.state.number + uintField 2 f.retry.number + bytesField 3 f.safeMessage.utf8ByteSize

/-- A set member without a message is written as an empty one. -/
def Payload.size : Payload → ℕ
  | progress message => lengthField 3 ((message.map fun m => bytesField 1 m.utf8ByteSize).getD 0)
  | result value => lengthField 4 ((value.map (·.size)).getD 0)
  | failure value => lengthField 5 ((value.map (·.size)).getD 0)

structure ExecuteResponse where
  callID : String
  sequence : ℕ
  frame : Option Payload
  unknownBytes : ℕ := 0
  deriving DecidableEq

def ExecuteResponse.size (r : ExecuteResponse) : ℕ :=
  bytesField 1 r.callID.utf8ByteSize + uintField 2 r.sequence +
    (r.frame.map (·.size)).getD 0 + r.unknownBytes

inductive Frame
  | progress (value : Tool.Progress)
  | result (value : Tool.Result)
  | failure (value : Tool.ExecutionError)

def Frame.terminal : Frame → Bool
  | progress _ => false
  | result _ | failure _ => true

structure StreamValidator where
  callID : String
  limits : Limits
  next : ℕ
  terminal : Bool

def newStreamValidator (request : ExecuteRequest) (expectedSession : List UInt8) (limits : Limits) :
    Except ContractError StreamValidator := do
  let call ← decodeExecuteRequest isJson request expectedSession limits
  pure ⟨call.id, limits, 1, false⟩

def decodeExecutionFailure (callID : String) (value : ExecutionFailure) :
    Except ContractError Tool.ExecutionError := do
  let state ← decodeExecutionState value.state
  let retry ← decodeRetryDisposition value.retry
  boundedText "plugin execution failure message" value.safeMessage Tool.maximumExecutionErrorBytes
  (Tool.NewExecutionError callID state retry (some ⟨value.safeMessage, false⟩)).mapError fun _ =>
    .text "plugin execution failure metadata is inconsistent"

def decodeResult (callID : String) (value : WireResult) : Except ContractError Tool.Result :=
  if value.problem = "" then
    (Tool.NewResult isJson callID value.contentJSON).mapError fun _ =>
      .text "plugin result is invalid"
  else do
    (boundedText "plugin result problem" value.problem maximumProblemBytes).mapError fun _ =>
      .text "plugin result is invalid"
    (Tool.NewErrorResult isJson callID value.contentJSON value.problem).mapError fun _ =>
      .text "plugin result is invalid"

variable (v : StreamValidator)

def StreamValidator.decodeFrame (value : ExecuteResponse) : Except ContractError Frame :=
  match value.frame with
  | some (.progress none) => .error (.text "plugin progress frame is empty")
  | some (.progress (some message)) => do
    refuseIf (v.limits.maxProgressBytes < message.utf8ByteSize)
      (.text "plugin progress exceeds the negotiated limit")
    let progress ← (Tool.NewProgress v.callID message).mapError fun _ =>
      .text "plugin progress is invalid"
    pure (.progress progress)
  | some (.result none) => .error (.text "plugin result frame is empty")
  | some (.result (some result)) => do
    refuseIf (v.limits.maxResultBytes < result.contentJSON.length)
      (.text "plugin result exceeds the negotiated limit")
    let result ← decodeResult isJson v.callID result
    pure (.result result)
  | some (.failure none) => .error (.text "plugin execution failure is empty")
  | some (.failure (some failure)) => do
    let failure ← decodeExecutionFailure v.callID failure
    pure (.failure failure)
  | none => .error (.text "plugin execute frame payload is required")

/-- `Accept`; the counter is a `uint64`. -/
def StreamValidator.accept (value : Option ExecuteResponse) :
    Except ContractError (Frame × StreamValidator) :=
  if v.terminal then .error (.text "plugin execute stream contains a post-terminal frame")
  else match value with
  | none => .error (.text "plugin execute stream frame is required")
  | some value => do
    validateEncodedSize value.size v.limits.maxMessageBytes
    refuseIf (value.callID ≠ v.callID)
      (.text "plugin execute frame call identity does not match the request")
    refuseIf (value.sequence ≠ v.next)
      (.text "plugin execute frame sequence is not contiguous")
    let frame ← v.decodeFrame isJson value
    pure (frame, { v with next := (v.next + 1) % 2 ^ 64, terminal := frame.terminal })

def StreamValidator.finish : Check :=
  refuseIf (v.terminal = false) (.text "plugin execute stream ended without a terminal frame")

end SpiceAgent.Pluginv1
