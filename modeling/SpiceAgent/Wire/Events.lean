import SpiceAgent.Wire.Initialize

/-!
# The event stream contract

The messages of `StreamEvents` in `engine/v1/contract.go`: the checks of a request, of one event, of
a page of events and of the control frame, and the typed recovery bounds of `CheckReplayCursor`. The
check of `json.Valid` is a parameter.
-/

namespace SpiceAgent.Enginev1

open SpiceAgent.Lib SpiceAgent.Lib.ProtoSize SpiceAgent.Commonv1

def maximumJSONBytes : ℕ := 2 ^ 20

/-! ## Messages -/

/-- `EventKind` as a number. -/
abbrev EventKind := ℕ

structure StreamEventsRequest where
  clientID : String
  ownershipEpoch : ℕ
  runID : String
  afterSequence : ℕ
  replayLimit : ℕ
  tail : Bool
  deriving DecidableEq

/-- `RunEvent`; `payloadJSON` is the text of the payload. -/
structure RunEvent where
  runID : String
  sequence : ℕ
  unixNano : ℤ
  kind : EventKind
  payloadJSON : String
  terminal : Bool
  deriving DecidableEq

structure StreamControl where
  status : Option Status
  earliestSequence : ℕ := 0
  latestSequence : ℕ := 0
  lastDeliveredSequence : ℕ := 0
  tailing : Bool := false
  pageLastSequence : Option ℕ := none
  hasMore : Bool := false
  deriving DecidableEq

/-- `StreamEventsResponse`: an event or a control. -/
inductive StreamEventsResponse
  | event (value : RunEvent)
  | control (value : StreamControl)
  deriving DecidableEq

def StreamEventsRequest.size (r : StreamEventsRequest) : ℕ :=
  bytesField 1 r.clientID.utf8ByteSize + uintField 2 r.ownershipEpoch +
    bytesField 3 r.runID.utf8ByteSize + uintField 4 r.afterSequence + uintField 5 r.replayLimit +
    boolField 6 r.tail

/-- An `int64` is encoded as the `uint64` with the same bits. -/
def RunEvent.size (e : RunEvent) : ℕ :=
  bytesField 1 e.runID.utf8ByteSize + uintField 2 e.sequence +
    uintField 3 (e.unixNano % 2 ^ 64).toNat + uintField 4 e.kind +
    bytesField 5 e.payloadJSON.utf8ByteSize + boolField 6 e.terminal

def StreamControl.size (c : StreamControl) : ℕ :=
  messageField 1 (c.status.map (·.size)) + uintField 2 c.earliestSequence +
    uintField 3 c.latestSequence + uintField 4 c.lastDeliveredSequence + boolField 5 c.tailing +
    optionalField 6 c.pageLastSequence + boolField 7 c.hasMore

def StreamEventsResponse.size : StreamEventsResponse → ℕ
  | .event value => lengthField 1 value.size
  | .control value => lengthField 2 value.size

/-! ## Checks -/

def knownEventKind (kind : EventKind) : Bool := 1 ≤ kind && kind ≤ 19

def terminalEventKind (kind : EventKind) : Bool :=
  kind ∈ [2, 3, 4, 6, 7, 10, 11, 14, 15, 17, 18, 19]

def validWindow (earliest latest : ℕ) : Bool := 0 < earliest && earliest ≤ latest

/-- The window `[N+1, N]` of a log that retains nothing. -/
def emptyWindow (earliest latest : ℕ) : Bool :=
  0 < earliest && latest < maxUint64 && earliest = latest + 1

variable (value : StreamControl)

def validateLegacyStreamControl : Check := do
  refuseIf (value.hasMore ∨ value.tailing)
    (.text "stream control page cursor is required for paging or tailing")
  refuseIf (value.lastDeliveredSequence < value.earliestSequence - 1 ∨
      value.latestSequence < value.lastDeliveredSequence)
    (.text "legacy stream control delivery cursor is outside retained bounds")

def validateCurrentStreamControl (pageLast : ℕ) : Check := do
  refuseIf (pageLast < value.earliestSequence - 1 ∨ value.latestSequence < pageLast ∨
      value.lastDeliveredSequence < value.earliestSequence - 1 ∨
      pageLast < value.lastDeliveredSequence)
    (.text "stream control cursors exceed the captured latest sequence")
  refuseIf (value.hasMore ≠ decide (pageLast < value.latestSequence))
    (.text "stream control has_more must exactly identify a non-final page")
  refuseIf (value.hasMore ∧ value.tailing) (.text "stream control cannot tail a non-final page")
  refuseIf (value.tailing ∧ pageLast ≠ value.latestSequence)
    (.text "stream control may tail only from the captured latest sequence")

def validateSuccessfulStreamControl : Check := do
  refuseIf (validWindow value.earliestSequence value.latestSequence = false ∧
      emptyWindow value.earliestSequence value.latestSequence = false)
    (.text "stream control retained bounds are invalid")
  match value.pageLastSequence with
  | none => validateLegacyStreamControl value
  | some pageLast => validateCurrentStreamControl value pageLast

def validateStreamControl : Check := do
  validateStatus value.status
  if (value.status.map (·.code)).getD .unspecified ≠ .ok then .ok ()
  else validateSuccessfulStreamControl value

/-- `CheckReplayCursor`, with the `uint64` wrap of `earliest - 1`; `none` is the nil status. -/
def checkReplayCursor (requestedAfter earliest latest : ℕ) : Option Status :=
  if emptyWindow earliest latest ∧ requestedAfter = latest ∨
      validWindow earliest latest ∧ requestedAfter ≠ maxUint64 ∧ earliest ≤ requestedAfter + 1 ∧
        requestedAfter ≤ latest then none
  else some
    { code := .outOfRange
      message := "requested event cursor is outside the retained replay window"
      detail := some (.replayBounds
        { requestedAfterSequence := requestedAfter, earliestSequence := earliest
          latestSequence := latest
          recoverySequence := if requestedAfter < earliest then (earliest + maxUint64) % 2 ^ 64
                              else latest }) }

variable (isJson : String → Bool)

def validateRunEvent (value : RunEvent) : Check := do
  validateToken "run ID" value.runID 128
  refuseIf (value.sequence = 0 ∨ value.unixNano ≤ 0)
    (.text "run event requires positive sequence and timestamp")
  refuseIf (knownEventKind value.kind = false)
    (.text ("run event kind " ++ toString value.kind ++ " is unsupported"))
  refuseIf (value.terminal ≠ terminalEventKind value.kind)
    (.text "run event terminal flag does not match its kind")
  refuseIf (maximumJSONBytes < value.payloadJSON.utf8ByteSize ∨
      value.payloadJSON ≠ "" ∧ isJson value.payloadJSON = false)
    (.text "run event payload must be empty or bounded valid JSON")

end SpiceAgent.Enginev1
