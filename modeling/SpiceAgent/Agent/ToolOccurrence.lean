import SpiceAgent.Event.Envelope
import SpiceAgent.Lib.JsonText

/-!
# Tool occurrences

The durable payloads of the tool events (`agent/tool_started.go`, `agent/tool_terminal.go`): their
validation, their canonical encoding and the decoding with its checks. Decoding the JSON object
itself is the work of `encoding/json` and a parameter: the members of a flat object in order, or
`none` for a text that is not one.
-/

namespace SpiceAgent.Agent

open SpiceAgent.Lib SpiceAgent.Lib.JsonText

/-! ## Vocabulary of tools -/

/-- `tool.Effect`; `none` is the empty value. -/
inductive Effect
  | none | readOnly | mutating
  deriving DecidableEq

def Effect.name : Effect → String
  | none => "" | readOnly => "read_only" | mutating => "mutating"

/-- `tool.ReplaySafety`; `none` is the empty value. -/
inductive ReplaySafety
  | none | safe | idempotent | never
  deriving DecidableEq

def ReplaySafety.name : ReplaySafety → String
  | none => "" | safe => "safe" | idempotent => "idempotent" | never => "unsafe"

/-- `tool.Capability`. -/
inductive Capability
  | filesystemRead | filesystemWrite | processExecute | networkAccess | secretsRead
  | environmentRead | environmentWrite
  deriving DecidableEq

def Capability.name : Capability → String
  | filesystemRead => "filesystem.read" | filesystemWrite => "filesystem.write"
  | processExecute => "process.execute" | networkAccess => "network.access"
  | secretsRead => "secrets.read" | environmentRead => "environment.read"
  | environmentWrite => "environment.write"

def Capability.mutationCapable : Capability → Bool
  | filesystemWrite | processExecute | networkAccess | environmentWrite => true
  | _ => false

/-- `tool.ExecutionState`; `none` is the empty value. -/
inductive ExecutionState
  | none | definitive | uncertain
  deriving DecidableEq

def ExecutionState.name : ExecutionState → String
  | none => "" | definitive => "definitive" | uncertain => "uncertain"

/-- `tool.RetryDisposition`; `none` is the empty value. -/
inductive RetryDisposition
  | none | never | allowed
  deriving DecidableEq

def RetryDisposition.name : RetryDisposition → String
  | none => "" | never => "never" | allowed => "allowed"

/-- The value with a name, among the values that have one. -/
def ofName {α : Type} (values : List α) (name : α → String) (text : String) : Option α :=
  values.find? fun a => name a = text

def Effect.values : List Effect := [.none, .readOnly, .mutating]
def ReplaySafety.values : List ReplaySafety := [.none, .safe, .idempotent, .never]
def Capability.values : List Capability :=
  [.filesystemRead, .filesystemWrite, .processExecute, .networkAccess, .secretsRead,
    .environmentRead, .environmentWrite]
def ExecutionState.values : List ExecutionState := [.none, .definitive, .uncertain]
def RetryDisposition.values : List RetryDisposition := [.none, .never, .allowed]

@[simp] theorem Effect.ofName_name (e : Effect) : ofName values name e.name = some e := by
  cases e <;> decide

@[simp] theorem ReplaySafety.ofName_name (r : ReplaySafety) :
    ofName values name r.name = some r := by
  cases r <;> decide

@[simp] theorem Capability.ofName_name (c : Capability) : ofName values name c.name = some c := by
  cases c <;> decide

@[simp] theorem ExecutionState.ofName_name (s : ExecutionState) :
    ofName values name s.name = some s := by
  cases s <;> decide

@[simp] theorem RetryDisposition.ofName_name (r : RetryDisposition) :
    ofName values name r.name = some r := by
  cases r <;> decide

variable (value : String)

/-- `validateIdentity` of the tool package. -/
def validIdentity : Bool :=
  trimmedToken value &&
    !value.toList.any (fun c => c == '\x00' || c == '\r' || c == '\n' || c == '\t') &&
    value.utf8ByteSize ≤ 128

/-- `stage.PlanID.Validate`. -/
def validPlanID : Bool :=
  trimmedToken value && value.utf8ByteSize ≤ 256 &&
    !value.toList.any fun c => isControl c || isSpace c

/-- `validOccurrenceFingerprint`: lower case hexadecimal digits of a SHA-256 hash. -/
def validOccurrenceFingerprint (prefixed : Bool) : Bool :=
  let mark := if prefixed then "sha256:".toList else []
  let digits := value.toList.drop mark.length
  mark.isPrefixOf value.toList && digits.length = 64 &&
    digits.all fun c => ('0' ≤ c && c ≤ '9') || ('a' ≤ c && c ≤ 'f')

/-! ## Started occurrences -/

def toolStartedOccurrenceVersion : String := "spice.agent.tool-started/v1alpha1"
def maximumToolStartedOccurrenceBytes : ℕ := 4096

structure ToolStartedOccurrence where
  callID : String
  name : String
  declared : Bool
  executable : Bool
  definitionFingerprint : String
  effect : Effect
  replaySafety : ReplaySafety
  capabilities : List Capability
  toolPlanID : String
  planFingerprint : String
  workspaceFingerprint : String
  turn : ℕ
  deriving DecidableEq

/-- The metadata that `tool.NewDefinition` accepts. -/
def validDefinitionMetadata (effect : Effect) (replaySafety : ReplaySafety)
    (capabilities : List Capability) : Bool :=
  effect ≠ .none && replaySafety ≠ .none &&
    !(effect = .readOnly && replaySafety ≠ .safe) &&
    !(effect = .mutating && replaySafety = .safe) && capabilities.Nodup &&
    !(effect = .readOnly && capabilities.any Capability.mutationCapable)

section

variable (o : ToolStartedOccurrence)

/-- `validate`; `none` is the nil error. -/
def ToolStartedOccurrence.validate : Option String :=
  if !validIdentity o.callID || !validIdentity o.name then
    some "tool started occurrence call identity is invalid"
  else if o.turn = 0 then some "tool started occurrence turn must be positive"
  else if !validPlanID o.toolPlanID then some "tool started occurrence plan ID is invalid"
  else if !validOccurrenceFingerprint o.planFingerprint true ||
      (o.workspaceFingerprint ≠ "" && !validOccurrenceFingerprint o.workspaceFingerprint true) then
    some "tool started occurrence plan authority is invalid"
  else if o.executable && !o.declared then
    some "tool started occurrence cannot execute an undeclared tool"
  else if !o.declared then
    if o.definitionFingerprint ≠ "" || o.effect ≠ .none || o.replaySafety ≠ .none ||
        o.capabilities ≠ [] then
      some "unknown tool occurrence contains definition metadata"
    else none
  else if !validOccurrenceFingerprint o.definitionFingerprint false then
    some "tool started occurrence definition fingerprint is invalid"
  else if !validDefinitionMetadata o.effect o.replaySafety o.capabilities then
    some "tool started occurrence definition metadata is invalid"
  else none

/-- The members of `toolStartedOccurrenceWire`. -/
def ToolStartedOccurrence.members : List (String × Value) :=
  [("version", .str toolStartedOccurrenceVersion), ("call_id", .str o.callID),
    ("name", .str o.name), ("declared", .bool o.declared), ("executable", .bool o.executable),
    ("definition_fingerprint", .str o.definitionFingerprint), ("effect", .str o.effect.name),
    ("replay_safety", .str o.replaySafety.name),
    ("capabilities", .strs (o.capabilities.map Capability.name)),
    ("tool_plan_id", .str o.toolPlanID), ("plan_fingerprint", .str o.planFingerprint),
    ("workspace_fingerprint", .str o.workspaceFingerprint), ("turn", .nat o.turn)]

def ToolStartedOccurrence.encode : Except String String :=
  match o.validate with
  | some err => .error err
  | none =>
    if maximumToolStartedOccurrenceBytes < (marshalObject o.members).utf8ByteSize then
      .error "encode tool started occurrence failed"
    else .ok (marshalObject o.members)

end

section

variable (members : List (String × Value))

variable (key : String)

def strAt : Option String :=
  match members.lookup key with
  | some (.str s) => some s
  | _ => none

def boolAt : Option Bool :=
  match members.lookup key with
  | some (.bool b) => some b
  | _ => none

def natAt : Option ℕ :=
  match members.lookup key with
  | some (.nat n) => some n
  | _ => none

def strsAt : Option (List String) :=
  match members.lookup key with
  | some (.strs l) => some l
  | _ => none

/-- The fields of a started occurrence, each of which has to be present with its type. -/
def startedOfMembers : Option ToolStartedOccurrence := do
  let callID ← strAt members "call_id"
  let name ← strAt members "name"
  let declared ← boolAt members "declared"
  let executable ← boolAt members "executable"
  let definitionFingerprint ← strAt members "definition_fingerprint"
  let effect ← (strAt members "effect").bind (ofName Effect.values Effect.name)
  let replaySafety ← (strAt members "replay_safety").bind
    (ofName ReplaySafety.values ReplaySafety.name)
  let capabilities ← (strsAt members "capabilities").bind
    fun l => l.mapM (ofName Capability.values Capability.name)
  let toolPlanID ← strAt members "tool_plan_id"
  let planFingerprint ← strAt members "plan_fingerprint"
  let workspaceFingerprint ← strAt members "workspace_fingerprint"
  let turn ← natAt members "turn"
  return { callID, name, declared, executable, definitionFingerprint, effect, replaySafety,
           capabilities, toolPlanID, planFingerprint, workspaceFingerprint, turn }

end

def startedKeys : List String :=
  ["version", "call_id", "name", "declared", "executable", "definition_fingerprint", "effect",
    "replay_safety", "capabilities", "tool_plan_id", "plan_fingerprint", "workspace_fingerprint",
    "turn"]

variable (decodeObject : String → Option (List (String × Value)))

def decodeToolStartedOccurrence (encoded : String) : Except String ToolStartedOccurrence :=
  if encoded = "" ∨ maximumToolStartedOccurrenceBytes < encoded.utf8ByteSize then
    .error "tool started occurrence size is invalid"
  else match decodeObject encoded with
    | none => .error "tool started occurrence JSON is invalid"
    | some members =>
      if ¬(members.map Prod.fst).Nodup then
        .error "tool started occurrence contains a duplicate field"
      else if !(members.map Prod.fst).all (· ∈ startedKeys) then
        .error "tool started occurrence JSON is invalid"
      else if !startedKeys.all (· ∈ members.map Prod.fst) then
        .error "tool started occurrence is missing a required field"
      else if strAt members "version" ≠ some toolStartedOccurrenceVersion then
        .error "tool started occurrence version is unsupported"
      else match startedOfMembers members with
        | none => .error "tool started occurrence fields are invalid"
        | some o =>
          if o.validate.isSome then .error "tool started occurrence fields are invalid" else .ok o

/-! ## Terminal occurrences -/

def toolTerminalOccurrenceVersion : String := "spice.agent.tool-terminal/v1alpha1"
def maximumToolTerminalOccurrenceBytes : ℕ := 1024

structure ToolTerminalOccurrence where
  callID : String
  name : String
  kind : Event.Kind
  outcome : ExecutionState
  retry : RetryDisposition
  deriving DecidableEq

def isToolTerminalKind (kind : Event.Kind) : Bool := kind = .toolCompleted || kind = .toolFailed

section

variable (o : ToolTerminalOccurrence)

/-- `validate`; `none` is the nil error. -/
def ToolTerminalOccurrence.validate : Option String :=
  if !validIdentity o.callID || !validIdentity o.name then
    some "tool terminal occurrence call identity is invalid"
  else if !isToolTerminalKind o.kind then
    some "tool terminal occurrence event kind is unsupported"
  else if o.kind = .toolCompleted then
    if o.outcome ≠ .none || o.retry ≠ .none then
      some "completed tool occurrence contains failure metadata"
    else none
  else if o.outcome = .none && o.retry = .none then none
  else if o.outcome = .none || o.retry = .none then
    some "failed tool occurrence has incomplete execution metadata"
  -- `tool.NewExecutionError` refuses a retry of an uncertain outcome
  else if o.outcome = .uncertain && o.retry ≠ .never then
    some "failed tool occurrence execution metadata is invalid"
  else none

/-- The members of `toolTerminalOccurrenceWire`. -/
def ToolTerminalOccurrence.members : List (String × Value) :=
  [("version", .str toolTerminalOccurrenceVersion), ("call_id", .str o.callID),
    ("name", .str o.name), ("kind", .str o.kind.name), ("outcome", .str o.outcome.name),
    ("retry", .str o.retry.name)]

def ToolTerminalOccurrence.encode : Except String String :=
  match o.validate with
  | some err => .error err
  | none =>
    if maximumToolTerminalOccurrenceBytes < (marshalObject o.members).utf8ByteSize then
      .error "encode tool terminal occurrence failed"
    else .ok (marshalObject o.members)

end

/-- The fields of a terminal occurrence of a kind. -/
def terminalOfMembers (kind : Event.Kind) (members : List (String × Value)) :
    Option ToolTerminalOccurrence := do
  let callID ← strAt members "call_id"
  let name ← strAt members "name"
  let outcome ← (strAt members "outcome").bind (ofName ExecutionState.values ExecutionState.name)
  let retry ← (strAt members "retry").bind (ofName RetryDisposition.values RetryDisposition.name)
  return { callID, name, kind, outcome, retry }

def terminalKeys : List String := ["version", "call_id", "name", "kind", "outcome", "retry"]

def decodeToolTerminalOccurrence (kind : Event.Kind) (encoded : String) :
    Except String ToolTerminalOccurrence :=
  if !isToolTerminalKind kind then .error "tool terminal occurrence event kind is unsupported"
  else if encoded = "" ∨ maximumToolTerminalOccurrenceBytes < encoded.utf8ByteSize then
    .error "tool terminal occurrence size is invalid"
  else match decodeObject encoded with
    | none => .error "tool terminal occurrence JSON is invalid"
    | some members =>
      if ¬(members.map Prod.fst).Nodup then
        .error "tool terminal occurrence contains a duplicate field"
      else if !(members.map Prod.fst).all (· ∈ terminalKeys) then
        .error "tool terminal occurrence JSON is invalid"
      else if !terminalKeys.all (· ∈ members.map Prod.fst) then
        .error "tool terminal occurrence is missing a required field"
      else if strAt members "version" ≠ some toolTerminalOccurrenceVersion then
        .error "tool terminal occurrence version is unsupported"
      else if strAt members "kind" ≠ some kind.name then
        .error "tool terminal occurrence kind does not match its event"
      else match terminalOfMembers kind members with
        | none => .error "tool terminal occurrence fields are invalid"
        | some o =>
          if o.validate.isSome then .error "tool terminal occurrence fields are invalid" else .ok o

/-! ## Round trips -/

variable {decodeObject}

variable {text : String}

theorem encode_started {o : ToolStartedOccurrence} (h : o.encode = .ok text) :
    o.validate = none ∧ text = marshalObject o.members ∧
      text.utf8ByteSize ≤ maximumToolStartedOccurrenceBytes := by
  unfold ToolStartedOccurrence.encode at h
  split at h
  · cases h
  · next hvalid =>
    split_ifs at h with hsize
    obtain rfl := Except.ok.inj h
    exact ⟨hvalid, rfl, not_lt.mp hsize⟩

variable {o : ToolTerminalOccurrence}

theorem encode_terminal (h : o.encode = .ok text) :
    o.validate = none ∧ text = marshalObject o.members ∧
      text.utf8ByteSize ≤ maximumToolTerminalOccurrenceBytes := by
  unfold ToolTerminalOccurrence.encode at h
  split at h
  · cases h
  · next hvalid =>
    split_ifs at h with hsize
    obtain rfl := Except.ok.inj h
    exact ⟨hvalid, rfl, not_lt.mp hsize⟩

theorem terminal_kind (h : o.validate = none) : o.kind = .toolCompleted ∨ o.kind = .toolFailed := by
  unfold ToolTerminalOccurrence.validate at h
  split_ifs at h with _ hkind <;> simpa [isToolTerminalKind, or_iff_not_imp_left] using hkind

theorem marshalObject_ne_empty (members : List (String × Value)) : marshalObject members ≠ "" := by
  intro h
  have hsize := utf8ByteSize_marshalObject members
  rw [h, String.utf8ByteSize_empty] at hsize
  omega

theorem startedOfMembers_members (o : ToolStartedOccurrence) :
    startedOfMembers o.members = some o := by
  have hcaps :
      (o.capabilities.map Capability.name).mapM (ofName Capability.values Capability.name) =
      some o.capabilities := by
    induction o.capabilities with
    | nil => rfl
    | cons c l ih => simp [ih]
  simp [startedOfMembers, ToolStartedOccurrence.members, strAt, boolAt, natAt, strsAt,
    List.lookup_cons, hcaps]

theorem decode_encode_started {o : ToolStartedOccurrence} (h : o.encode = .ok text)
    (hjson : decodeObject text = some o.members) :
    decodeToolStartedOccurrence decodeObject text = .ok o := by
  obtain ⟨hvalid, rfl, hsize⟩ := encode_started h
  have hkeys : o.members.map Prod.fst = startedKeys := rfl
  have hnodup : startedKeys.Nodup := by decide
  have hall : startedKeys.all (· ∈ startedKeys) = true := by decide
  have hversion : strAt o.members "version" = some toolStartedOccurrenceVersion := rfl
  unfold decodeToolStartedOccurrence
  rw [if_neg (by simp [marshalObject_ne_empty, hsize]), hjson]
  simp [hkeys, hnodup, hall, hversion, startedOfMembers_members, hvalid]

theorem decode_encode_terminal (h : o.encode = .ok text)
    (hjson : decodeObject text = some o.members) :
    decodeToolTerminalOccurrence decodeObject o.kind text = .ok o := by
  obtain ⟨hvalid, rfl, hsize⟩ := encode_terminal h
  have hkind : isToolTerminalKind o.kind = true := by
    rcases terminal_kind hvalid with hk | hk <;> rw [hk] <;> rfl
  have hkeys : o.members.map Prod.fst = terminalKeys := rfl
  have hnodup : terminalKeys.Nodup := by decide
  have hall : terminalKeys.all (· ∈ terminalKeys) = true := by decide
  have hversion : strAt o.members "version" = some toolTerminalOccurrenceVersion := rfl
  have hname : strAt o.members "kind" = some o.kind.name := rfl
  have hfields : terminalOfMembers o.kind o.members = some o := by
    simp [terminalOfMembers, ToolTerminalOccurrence.members, strAt, List.lookup_cons]
  unfold decodeToolTerminalOccurrence
  rw [if_neg (by simp [hkind]), if_neg (by simp [marshalObject_ne_empty, hsize]), hjson]
  simp [hkeys, hnodup, hall, hversion, hname, hfields, hvalid]

end SpiceAgent.Agent
