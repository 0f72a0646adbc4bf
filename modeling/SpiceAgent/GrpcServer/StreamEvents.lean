import SpiceAgent.Agent.ToolOccurrence
import SpiceAgent.Event.Log
import SpiceAgent.Wire.Events

/-!
# The event stream of the server

`daemon/grpcserver/stream_events.go`: how a retained page is converted and checked before it is
sent, and how a failed replay is reported to the client.
-/

namespace SpiceAgent.Grpcserver

open SpiceAgent.Lib SpiceAgent.Commonv1 SpiceAgent.Enginev1

/-- How a part of `StreamEvents` ends. -/
inductive StreamEnd
  /-- It returns nil and sends nothing. -/
  | quiet
  /-- The context of the call has ended, which is a gRPC error. -/
  | transport
  /-- The frame is handed to the stream. -/
  | sent (frame : StreamEventsResponse)
  /-- The frame is refused before it is sent: gRPC `Unavailable`. -/
  | unavailable
  deriving DecidableEq

/-- An error of `RunHost.ReplayEvents`. -/
inductive ReplayError
  /-- A cancelled context or a deadline. -/
  | context
  | outOfRange (failure : Event.OutOfRangeError)
  | resourceExhausted (failure : Event.ResourceExhaustedError)
  /-- Any other error, with the status that `lifecycleFailureStatus` gives it. -/
  | other (status : Status)

def internalLifecycleFailure (message : String) : Status := { code := .internal, message }

def overloadStatus (resource : String) (limit observed : ℕ) : Status where
  code := .resourceExhausted
  message := "protocol resource limit exceeded"
  detail := some (.overload { resource, limit, observed })

def replayCapacityStatus (failure : Event.ResourceExhaustedError) : Status :=
  if failure.resource.name = "" ∨ failure.limit = 0 ∨ failure.observed ≤ failure.limit then
    internalLifecycleFailure "event delivery failed"
  else overloadStatus failure.resource.name failure.limit failure.observed

/-- The `control` of `sendReplayFailure`. -/
def replayFailureControl (after : ℕ) : ReplayError → StreamControl
  | .outOfRange outside =>
    match checkReplayCursor after outside.earliest outside.latest with
    | some status =>
      if outside.requestedAfter = after ∧
          (match status.detail with
            | some (.replayBounds bounds) => bounds.recoverySequence
            | _ => 0) = outside.recoveryAfter then
        { status := some status, earliestSequence := outside.earliest
          latestSequence := outside.latest, lastDeliveredSequence := outside.recoveryAfter }
      else { status := some (internalLifecycleFailure "event replay recovery is invalid") }
    | none => { status := some (internalLifecycleFailure "event replay recovery is invalid") }
  | .resourceExhausted exhausted =>
    { status := some (replayCapacityStatus exhausted)
      lastDeliveredSequence := exhausted.lastDelivered }
  | .other status => { status := some status }
  -- not reached: the caller returns first
  | .context => { status := none }

variable (isJson : String → Bool)

def validateEventResponse (value : StreamEventsResponse) (limits : Limits) : Check := do
  match value with
  | .event value => validateRunEvent isJson value
  | .control value => validateStreamControl value
  validateEncodedSize value.size limits.maxMessageBytes

/-- `sendEventResponse` and, on a refused frame, `eventSendError` of a live context. -/
def sendEventResponse (limits : Limits) (response : StreamEventsResponse) : StreamEnd :=
  match validateEventResponse isJson response limits with
  | .ok _ => .sent response
  | .error _ => .unavailable

def sendEventFailure (limits : Limits) (control : StreamControl) : StreamEnd :=
  let control :=
    if (control.status.map (·.code)).getD .unspecified = .ok ∨
        validateStatus control.status ≠ .ok () then
      { status := some (internalLifecycleFailure "event stream failed") }
    else control
  sendEventResponse isJson limits (.control control)

/-- `sendReplayFailure`; `ended` says that the context of the call has ended. -/
def sendReplayFailure (limits : Limits) (ended : Bool) (after : ℕ) (err : ReplayError) :
    StreamEnd :=
  if ended then .transport
  else match err with
    | .context => .quiet
    | err => sendEventFailure isJson limits (replayFailureControl after err)

/-! ## Pages -/

/-- `eventKindToWire`, which knows all kinds. -/
def eventKindToWire : Event.Kind → EventKind
  | .runStarted => 1 | .runCompleted => 2 | .runFailed => 3 | .runCancelled => 4
  | .turnStarted => 5 | .turnCompleted => 6 | .turnFailed => 7
  | .modelStarted => 8 | .modelDelta => 9 | .modelCompleted => 10 | .modelFailed => 11
  | .toolStarted => 12 | .toolProgress => 13 | .toolCompleted => 14 | .toolFailed => 15
  | .interactionStarted => 16 | .interactionCompleted => 17 | .interactionFailed => 18
  | .interactionCancelled => 19

/-- `UnixNano`: the nanoseconds since 1970 as an `int64`. -/
def unixNano (t : Event.Time) : ℤ := (t.nanos - 62135596800 * 1000000000).bmod (2 ^ 64)

variable (decodeObject : String → Option (List (String × JsonText.Value)))

def toolStartedPayloadToWire (payload : String) : Except String String :=
  match Agent.decodeToolStartedOccurrence decodeObject payload with
  | .error _ => .error "tool started event payload is invalid"
  | .ok o => .ok (JsonText.marshalObject [("call_id", .str o.callID), ("name", .str o.name)])

/-- The members of the legacy terminal payload; empty metadata is left out. -/
def legacyTerminal (o : Agent.ToolTerminalOccurrence) : List (String × JsonText.Value) :=
  [("call_id", .str o.callID), ("name", .str o.name),
    ("error", .str (if o.kind = .toolFailed then "tool execution failed" else ""))] ++
  (if o.outcome = .none then [] else [("outcome", .str o.outcome.name)]) ++
  (if o.retry = .none then [] else [("retry", .str o.retry.name)])

def toolTerminalPayloadToWire (kind : Event.Kind) (payload : String) : Except String String :=
  match Agent.decodeToolTerminalOccurrence decodeObject kind payload with
  | .error _ => .error "tool terminal event payload is invalid"
  | .ok o => .ok (JsonText.marshalObject (legacyTerminal o))

variable (envelope : Event.Envelope)

def eventPayloadToWire : Except String String :=
  match envelope.kind with
  | .toolStarted => toolStartedPayloadToWire decodeObject envelope.data
  | .toolCompleted => toolTerminalPayloadToWire decodeObject .toolCompleted envelope.data
  | .toolFailed => toolTerminalPayloadToWire decodeObject .toolFailed envelope.data
  | _ => .ok envelope.data

/-- The event of an envelope with a converted payload. -/
def wireEvent (payload : String) : RunEvent where
  runID := envelope.runID
  sequence := envelope.sequence
  unixNano := unixNano envelope.at'
  kind := eventKindToWire envelope.kind
  payloadJSON := payload
  terminal := envelope.terminal

def eventToWire : Except String RunEvent := do
  let payload ← eventPayloadToWire decodeObject envelope
  (validateRunEvent isJson (wireEvent envelope payload)).mapError (·.message)
  return wireEvent envelope payload

end SpiceAgent.Grpcserver
