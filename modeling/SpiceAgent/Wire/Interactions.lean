import Mathlib.Data.List.AList
import Mathlib.Data.List.Sort
import Mathlib.Data.List.Lex
import SpiceAgent.Wire.Initialize

/-!
# The interaction stream contract

The messages of `StreamInteractions` in `engine/v1/contract.go`: the checks of a pending
interaction, of a snapshot, a delta and the control, of the initial page of a stream, and the
`InteractionTailValidator` that follows the live deltas. Texts are byte strings, which `token`
checks to be UTF-8. The check of `json.Valid` is a parameter.
-/

namespace SpiceAgent.Enginev1

open SpiceAgent.Lib SpiceAgent.Lib.ProtoSize SpiceAgent.Commonv1

def maximumInteractionBytes : ℕ := 512 * 1024

/-! ## Messages -/

structure PendingInteraction where
  runID : List UInt8
  interactionID : List UInt8
  kind : List UInt8
  prompt : List UInt8
  schemaJSON : List UInt8
  deriving DecidableEq

structure InteractionSnapshot where
  revision : ℕ
  pending : List PendingInteraction
  deriving DecidableEq

/-- `InteractionDeltaKind`; `unknown n` is the number `3 + n`. -/
inductive InteractionDeltaKind
  | unspecified | opened | closed
  | unknown (n : ℕ)
  deriving DecidableEq

def InteractionDeltaKind.number : InteractionDeltaKind → ℕ
  | unspecified => 0 | opened => 1 | closed => 2
  | unknown n => 3 + n

structure InteractionDelta where
  revision : ℕ
  kind : InteractionDeltaKind
  interaction : Option PendingInteraction
  deriving DecidableEq

structure InteractionStreamControl where
  status : Option Status
  latestRevision : ℕ := 0
  pageLastRevision : ℕ := 0
  hasMore : Bool := false
  tailing : Bool := false
  deriving DecidableEq

/-- `StreamInteractionsResponse`: a snapshot, a delta or a control. -/
inductive StreamInteractionsResponse
  | snapshot (value : InteractionSnapshot)
  | delta (value : InteractionDelta)
  | control (value : InteractionStreamControl)
  deriving DecidableEq

def PendingInteraction.size (p : PendingInteraction) : ℕ :=
  bytesField 1 p.runID.length + bytesField 2 p.interactionID.length + bytesField 3 p.kind.length +
    bytesField 4 p.prompt.length + bytesField 5 p.schemaJSON.length

/-- The texts are strings of protobuf. -/
def PendingInteraction.encodable (p : PendingInteraction) : Bool :=
  validUTF8 p.runID && validUTF8 p.interactionID && validUTF8 p.kind && validUTF8 p.prompt

def InteractionSnapshot.size (s : InteractionSnapshot) : ℕ :=
  uintField 1 s.revision + repeatedField 2 (s.pending.map (·.size))

def InteractionDelta.size (d : InteractionDelta) : ℕ :=
  uintField 1 d.revision + uintField 2 d.kind.number + messageField 3 (d.interaction.map (·.size))

def InteractionStreamControl.size (c : InteractionStreamControl) : ℕ :=
  messageField 1 (c.status.map (·.size)) + uintField 2 c.latestRevision +
    uintField 3 c.pageLastRevision + boolField 4 c.hasMore + boolField 5 c.tailing

def StreamInteractionsResponse.size : StreamInteractionsResponse → ℕ
  | .snapshot value => lengthField 1 value.size
  | .delta value => lengthField 2 value.size
  | .control value => lengthField 3 value.size

def StreamInteractionsResponse.getSnapshot : StreamInteractionsResponse → Option InteractionSnapshot
  | .snapshot value => some value
  | _ => none

def StreamInteractionsResponse.getDelta : StreamInteractionsResponse → Option InteractionDelta
  | .delta value => some value
  | _ => none

def StreamInteractionsResponse.getControl :
    StreamInteractionsResponse → Option InteractionStreamControl
  | .control value => some value
  | _ => none

def interactionKey (value : PendingInteraction) : List UInt8 :=
  value.runID ++ 0 :: value.interactionID

/-! ## Checks -/

variable (isJson : List UInt8 → Bool)

def validateBoundedJSON (label : String) (value : List UInt8) (maximum : ℕ) : Check :=
  refuseIf (value.length = 0 ∨ maximum < value.length ∨ isJson value = false)
    (.text (label ++ " must be bounded valid JSON"))

/-- The bytes that no token contains: NUL, tab, newline and carriage return. -/
def breaksBytes (value : List UInt8) : Bool :=
  value.any fun b => b == 0 || b == 9 || b == 10 || b == 13

def token (label : String) (value : List UInt8) (maximum : ℕ) : Check := do
  refuseIf (trimmedBytes value = false)
    (.text (label ++ " must be non-empty without surrounding whitespace"))
  refuseIf (validUTF8 value = false) (.text (label ++ " must be valid UTF-8"))
  refuseIf (breaksBytes value) (.text (label ++ " must not contain control characters"))
  refuseIf (maximum < value.length) (.text (label ++ " exceeds " ++ toString maximum ++ " bytes"))

/-- What `token` accepts. -/
@[mk_iff] structure IsByteToken (value : List UInt8) (maximum : ℕ) : Prop where
  trimmed : trimmedBytes value = true
  utf8 : validUTF8 value = true
  clean : breaksBytes value = false
  length_le : value.length ≤ maximum

@[simp] theorem token_ok {label : String} {value : List UInt8} {maximum : ℕ} :
    token label value maximum = .ok () ↔ IsByteToken value maximum := by
  simp only [token, check_bind_ok, refuseIf_ok, Bool.not_eq_false, Bool.not_eq_true, not_lt,
    isByteToken_iff]

def validatePendingInteraction : Option PendingInteraction → Check
  | none => .error (.text "pending interaction is required")
  | some value => do
    token "run ID" value.runID 128
    token "interaction ID" value.interactionID 128
    token "interaction kind" value.kind 128
    refuseIf (trimmedBytes value.prompt = false ∨ maximumInteractionBytes < value.prompt.length)
      (.text "interaction prompt must be non-empty, trimmed, and bounded")
    validateBoundedJSON isJson "interaction schema" value.schemaJSON maximumInteractionBytes

/-- The loop of `ValidateInteractionSnapshot`; `previous` is the key before. -/
def validatePendings : ℕ → List UInt8 → List PendingInteraction → Check
  | _, _, [] => .ok ()
  | index, previous, pending :: rest => do
    wrap ("pending interaction " ++ toString index)
      (validatePendingInteraction isJson (some pending))
    refuseIf (interactionKey pending ≤ previous)
      (.text "pending interactions must be sorted and unique by run and interaction ID")
    validatePendings (index + 1) (interactionKey pending) rest

def validateInteractionSnapshot (value : Option InteractionSnapshot) (limits : Limits) : Check :=
  match value with
  | none => .error (.text "interaction snapshot is required")
  | some value => do
    validateLimits (some limits)
    refuseIf (limits.maxCollectionItems < value.pending.length)
      (.text ("pending interaction count exceeds " ++ toString limits.maxCollectionItems))
    validatePendings isJson 0 [] value.pending
    validateEncodedSize value.size limits.maxMessageBytes

def validateInteractionDelta : Option InteractionDelta → Check
  | none => .error (.text "interaction delta is required")
  | some value => do
    refuseIf (value.revision = 0) (.text "interaction delta revision must be positive")
    refuseIf (value.kind ≠ .opened ∧ value.kind ≠ .closed)
      (.text ("interaction delta kind " ++ toString value.kind.number ++ " is unsupported"))
    validatePendingInteraction isJson value.interaction

def validateInteractionStreamControl : Option InteractionStreamControl → Check
  | none => .error (.text "interaction stream control is required")
  | some value => do
    validateStatus value.status
    if (value.status.map (·.code)).getD .unspecified ≠ .ok then .ok ()
    else
      refuseIf (value.latestRevision < value.pageLastRevision)
        (.text "interaction page cursor exceeds the captured latest revision")
      refuseIf (value.hasMore ≠ decide (value.pageLastRevision < value.latestRevision))
        (.text "interaction has_more must exactly identify a non-final page")
      refuseIf (value.hasMore ∧ value.tailing)
        (.text "interaction stream cannot tail a non-final page")
      refuseIf (value.tailing ∧ value.pageLastRevision ≠ value.latestRevision)
        (.text "interaction stream may tail only from the captured latest revision")

/-- `ValidateInteractionStreamPage` of its snapshot and control frame. -/
def validatePageFrames (first second : StreamInteractionsResponse) (expectedTail : Bool)
    (limits : Limits) : Check := do
  validateLimits (some limits)
  wrap "interaction frame 0" (validateEncodedSize first.size limits.maxMessageBytes)
  wrap "interaction frame 1" (validateEncodedSize second.size limits.maxMessageBytes)
  let snapshot := first.getSnapshot
  wrap "first interaction frame" (validateInteractionSnapshot isJson snapshot limits)
  let control := second.getControl
  wrap "interaction control frame" (validateInteractionStreamControl control)
  let status := control.bind (·.status)
  refuseIf (asError status ≠ none) (.text "interaction initial page control must be successful")
  let revision := (snapshot.map (·.revision)).getD 0
  refuseIf ((control.map (·.latestRevision)).getD 0 ≠ revision ∨
      (control.map (·.pageLastRevision)).getD 0 ≠ revision ∨ (control.map (·.hasMore)).getD false)
    (.text "interaction control must identify the complete snapshot revision")
  refuseIf ((control.map (·.tailing)).getD false ≠ expectedTail)
    (.text "interaction control tail state does not match the request")

def validateInteractionStreamPage (values : List StreamInteractionsResponse) (expectedTail : Bool)
    (limits : Limits) : Check :=
  match values with
  | [first, second] => validatePageFrames isJson first second expectedTail limits
  | _ => .error (.text "interaction stream initial page requires exactly a snapshot and control")

/-! ## The live tail -/

structure InteractionTailValidator where
  revision : ℕ
  limits : Limits
  pending : AList fun _ : List UInt8 => PendingInteraction

def newInteractionTailValidator (snapshot : InteractionSnapshot)
    (control : InteractionStreamControl)
    (limits : Limits) : Except ContractError InteractionTailValidator := do
  validateInteractionStreamPage isJson [.snapshot snapshot, .control control] true limits
  return { revision := snapshot.revision, limits
           pending := snapshot.pending.foldl
             (fun pending item => pending.insert (interactionKey item) item) ∅ }

/-- The pending interactions in the order of their keys. -/
def sortedItems (pending : AList fun _ : List UInt8 => PendingInteraction) :
    List PendingInteraction :=
  (pending.keys.insertionSort (· ≤ ·)).filterMap pending.lookup

def validateRepresentableInteractionState (revision : ℕ)
    (pending : AList fun _ : List UInt8 => PendingInteraction) (limits : Limits) : Check := do
  let snapshot : InteractionSnapshot := { revision, pending := sortedItems pending }
  wrap "interaction state is not reconnectable"
    (validateInteractionSnapshot isJson (some snapshot) limits)
  wrap "interaction state is not reconnectable"
    (validateEncodedSize (StreamInteractionsResponse.snapshot snapshot).size limits.maxMessageBytes)

/-- The change that a delta makes to what is pending. -/
def InteractionTailValidator.change (validator : InteractionTailValidator)
    (kind : InteractionDeltaKind) (item : PendingInteraction) :
    Except ContractError (AList fun _ : List UInt8 => PendingInteraction) :=
  let key := interactionKey item
  match kind, validator.pending.lookup key with
  | .opened, some _ => .error (.text "interaction delta opens an already-pending interaction")
  | .opened, none =>
    if validator.limits.maxCollectionItems ≤ validator.pending.keys.length then
      .error (.text "interaction delta exceeds the negotiated pending count")
    else .ok (validator.pending.insert key item)
  | .closed, none => .error (.text "interaction delta closes a non-pending interaction")
  | .closed, some existing =>
    if existing ≠ item then
      .error (.text "interaction close does not match the pending interaction")
    else .ok (validator.pending.erase key)
  | _, _ => .error (.text "interaction delta kind is unsupported")

/-- `Accept`: the validator after a frame that it accepts. -/
def InteractionTailValidator.accept (validator : InteractionTailValidator)
    (frame : StreamInteractionsResponse) : Except ContractError InteractionTailValidator := do
  validateEncodedSize frame.size validator.limits.maxMessageBytes
  validateInteractionDelta isJson frame.getDelta
  match frame.getDelta with
  | some { revision, kind, interaction := some item } => do
    refuseIf (validator.revision = maxUint64 ∨ revision ≠ validator.revision + 1)
      (.text "interaction delta is not the next revision")
    let next ← validator.change kind item
    validateRepresentableInteractionState isJson revision next validator.limits
    return { validator with pending := next, revision }
  -- a missing delta or interaction does not pass the check
  | _ => .error (.text "interaction delta is required")

end SpiceAgent.Enginev1
