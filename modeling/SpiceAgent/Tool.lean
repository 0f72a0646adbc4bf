import SpiceAgent.Agent.ToolOccurrence

/-!
# Tools

`tool/tool.go`: definitions, calls, results, progress and execution errors, with the texts of the
errors their constructors return. Whether a text is JSON is a parameter. The fields of these types
are not exported, so that a caller holds either the zero value or one that its constructor accepted;
the empty content of the zero result is its nil content.
-/

namespace SpiceAgent.Tool

open SpiceAgent.Lib SpiceAgent.Agent

def maximumPayloadBytes : ℕ := 2 ^ 20
def maximumProgressBytes : ℕ := 4096
def maximumExecutionErrorBytes : ℕ := 4096
def maxIdentityBytes : ℕ := 128

/-- `validateIdentity`; `none` is the nil error. -/
def validateIdentity (what value : String) : Option String :=
  if !trimmedToken value then some (what ++ " must be non-empty without surrounding whitespace")
  else if value.toList.any fun c => c == '\x00' || c == '\r' || c == '\n' || c == '\t' then
    some (what ++ " contains invalid text")
  else if maxIdentityBytes < value.utf8ByteSize then some (what ++ " exceeds 128 bytes")
  else none

@[simp] theorem validateIdentity_eq_none {what value : String} :
    validateIdentity what value = none ↔ validIdentity value = true := by
  unfold validateIdentity validIdentity maxIdentityBytes
  cases trimmedToken value with
  | false => simp
  | true =>
    cases value.toList.any fun c => c == '\x00' || c == '\r' || c == '\n' || c == '\t' with
    | true => simp
    | false => simp

/-- The check of a message: not empty, trimmed and at most `limit` bytes. -/
def validateMessage (what : String) (limit : ℕ) (value : String) : Option String :=
  if !trimmedToken value then some (what ++ " must be non-empty without surrounding whitespace")
  else if limit < value.utf8ByteSize then some (what ++ " exceeds " ++ toString limit ++ " bytes")
  else none

@[simp] theorem validateMessage_eq_none {what value : String} {limit : ℕ} :
    validateMessage what limit value = none ↔
      trimmedToken value = true ∧ value.utf8ByteSize ≤ limit := by
  unfold validateMessage
  split_ifs <;> simp_all

variable (isJson : List UInt8 → Bool)

def validateJSON (what : String) (value : List UInt8) : Option String :=
  if value.isEmpty || !isJson value then some (what ++ " must be valid JSON")
  else if maximumPayloadBytes < value.length then some (what ++ " exceeds 1048576 bytes")
  else none

/-! ## Definitions and calls -/

structure Definition where
  name : String
  description : String
  inputSchema : List UInt8
  effect : Effect
  replaySafety : ReplaySafety
  capabilities : List Capability
  deriving DecidableEq

/-- The check of the capabilities after those already `seen`. -/
def validateCapabilities (effect : Effect) (seen : List Capability) :
    List Capability → Option String
  | [] => none
  | capability :: rest =>
    if capability ∈ seen then some ("tool capability \"" ++ capability.name ++ "\" is duplicated")
    else if effect = .readOnly && capability.mutationCapable then
      some ("read-only tool cannot declare mutation-capable capability \"" ++
        capability.name ++ "\"")
    else validateCapabilities effect (capability :: seen) rest

def Definition.validate (d : Definition) : Option String :=
  (validateIdentity "tool name" d.name).or <|
  (validateMessage "tool description" maximumProgressBytes d.description).or <|
  (validateJSON isJson "tool input schema" d.inputSchema).or <|
  if d.effect = .none then some "tool effect \"\" is unsupported"
  else if d.replaySafety = .none then some "tool replay safety \"\" is unsupported"
  else if d.effect = .readOnly && d.replaySafety ≠ .safe then
    some "read-only tools must declare safe replay"
  else if d.effect = .mutating && d.replaySafety = .safe then
    some "mutating tools must declare idempotent or unsafe replay"
  else validateCapabilities d.effect [] d.capabilities

/-- `NewDefinition`: the capabilities are kept in the order of their names. -/
def NewDefinition (name description : String) (inputSchema : List UInt8) (effect : Effect)
    (replaySafety : ReplaySafety) (capabilities : List Capability) : Except String Definition :=
  match (Definition.mk name description inputSchema effect replaySafety capabilities).validate
      isJson with
  | some e => .error e
  | none => .ok ⟨name, description, inputSchema, effect, replaySafety,
      capabilities.insertionSort fun a b => a.name ≤ b.name⟩

structure Call where
  id : String
  name : String
  arguments : List UInt8
  deriving DecidableEq

def Call.validate (c : Call) : Option String :=
  (validateIdentity "tool call ID" c.id).or <| (validateIdentity "tool name" c.name).or <|
    validateJSON isJson "tool arguments" c.arguments

theorem Call.validate_id {c : Call} (h : c.validate isJson = none) : validIdentity c.id = true := by
  unfold Call.validate at h
  simp only [Option.or_eq_none_iff, validateIdentity_eq_none] at h
  exact h.1

/-! ## Results and progress -/

structure Result where
  callID : String
  content : List UInt8
  problem : String
  deriving DecidableEq

def Result.zero : Result := ⟨"", [], ""⟩

def Result.isZero (r : Result) : Bool := r.callID = "" && r.content = [] && r.problem = ""

@[simp] theorem Result.isZero_iff {r : Result} : r.isZero = true ↔ r = .zero := by
  cases r
  simp [Result.isZero, Result.zero, and_assoc]

variable (callID : String) (content : List UInt8)

def newResult (problem : String) : Except String Result :=
  match (validateIdentity "tool result call ID" callID).or
      (validateJSON isJson "tool result content" content) with
  | some e => .error e
  | none => .ok ⟨callID, content, problem⟩

def NewResult : Except String Result :=
  newResult isJson callID content ""

def NewErrorResult (problem : String) : Except String Result :=
  match validateMessage "tool result problem" maximumProgressBytes problem with
  | some e => .error e
  | none => newResult isJson callID content problem

def failed {α : Type} : Except String α → Option String
  | .error e => some e
  | .ok _ => none

def Result.validate (r : Result) : Option String :=
  if r.problem = "" then failed (NewResult isJson r.callID r.content)
  else failed (NewErrorResult isJson r.callID r.content r.problem)

structure Progress where
  callID : String
  message : String

def NewProgress (callID message : String) : Except String Progress :=
  match (validateIdentity "tool progress call ID" callID).or
      (validateMessage "tool progress message" maximumProgressBytes message) with
  | some e => .error e
  | none => .ok ⟨callID, message⟩

/-! ## Execution errors -/

/-- What is read of the error that causes a failure: its text, and whether its chain holds an
`ExecutionError`. -/
structure Cause where
  message : String
  nested : Bool
  deriving DecidableEq

structure ExecutionError where
  callID : String
  state : ExecutionState
  retry : RetryDisposition
  cause : Option Cause
  deriving DecidableEq

/-- `ExecutionError.Validate` of an error that is not nil. -/
def ExecutionError.validate (e : ExecutionError) : Option String :=
  (validateIdentity "tool execution call ID" e.callID).or <|
  if e.state = .none then some "tool execution state \"\" is unsupported"
  else if e.retry = .none then some "tool retry disposition \"\" is unsupported"
  else if e.state = .uncertain && e.retry ≠ .never then
    some "uncertain execution outcomes must never permit automatic retry"
  else match e.cause with
    | none => some "tool execution error requires a cause"
    | some cause =>
      (validateMessage "tool execution error cause" maximumExecutionErrorBytes cause.message).or <|
        if cause.nested then some "tool execution errors must not be nested" else none

def NewExecutionError (state : ExecutionState) (retry : RetryDisposition)
    (cause : Option Cause) : Except String ExecutionError :=
  match (ExecutionError.mk callID state retry cause).validate with
  | some e => .error e
  | none => .ok ⟨callID, state, retry, cause⟩

end SpiceAgent.Tool
