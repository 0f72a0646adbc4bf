import SpiceAgent.Daemon.Pending
import SpiceAgent.Wire.Interactions

/-!
# The interaction stream of the server

`daemon/grpcserver/stream_interactions.go`: the conversion of a pending snapshot and of the deltas
after it, the checks of the initial page, and the validator that every delta has to pass. An error
is the text of the internal failure that ends the stream.
-/

namespace SpiceAgent.Grpcserver

open SpiceAgent.Lib SpiceAgent.Commonv1 SpiceAgent.Enginev1

variable (isJson : List UInt8 → Bool)

def wireInteraction (value : Daemon.Pending) : PendingInteraction where
  runID := utf8 value.runID
  interactionID := value.request.id
  kind := value.request.kind
  prompt := value.request.prompt
  schemaJSON := value.request.schema

def pendingInteractionToWire (value : Daemon.Pending) : Except String PendingInteraction := do
  refuseIf (Interaction.validScope value.runID = false) "interaction scope is invalid"
  refuseIf (value.request.validate isJson = false) "interaction request is invalid"
  (validatePendingInteraction isJson (some (wireInteraction value))).mapError (·.message)
  return wireInteraction value

def interactionSnapshotToWire (value : Daemon.PendingSnapshot) (limits : Limits) :
    Except String InteractionSnapshot := do
  let pending ← value.pending.mapM (pendingInteractionToWire isJson)
  let result : InteractionSnapshot := { revision := value.revision, pending }
  (validateInteractionSnapshot isJson (some result) limits).mapError (·.message)
  return result

def deltaKindToWire : Daemon.DeltaKind → InteractionDeltaKind
  | .opened => .opened
  | .closed => .closed

def interactionDeltaToWire (value : Daemon.Delta) : Except String InteractionDelta := do
  let interaction ← pendingInteractionToWire isJson value.pending
  let result : InteractionDelta :=
    { revision := value.revision, kind := deltaKindToWire value.kind,
      interaction := some interaction }
  (validateInteractionDelta isJson (some result)).mapError (·.message)
  return result

def initialControl (snapshot : InteractionSnapshot) (tail : Bool) : InteractionStreamControl where
  status := some okStatus
  latestRevision := snapshot.revision
  pageLastRevision := snapshot.revision
  tailing := tail

/-- `serveInteractionObservation` up to its first send: the snapshot and control to send. -/
def initialPage (value : Daemon.PendingSnapshot) (tail : Bool) (limits : Limits) :
    Except String (InteractionSnapshot × InteractionStreamControl) := do
  let snapshot ← (interactionSnapshotToWire isJson value limits).mapError
    fun _ => "interaction snapshot is invalid"
  let control := initialControl snapshot tail
  (validateInteractionStreamPage isJson [.snapshot snapshot, .control control] tail limits).mapError
    fun _ => "interaction stream initial page is invalid"
  return (snapshot, control)

def tailValidator (snapshot : InteractionSnapshot) (control : InteractionStreamControl)
    (limits : Limits) : Except String InteractionTailValidator :=
  (newInteractionTailValidator isJson snapshot control limits).mapError
    fun _ => "interaction stream validator is unavailable"

/-- One round of `tailInteractionObservation`: the validator after the delta that is sent. -/
def tailDelta (validator : InteractionTailValidator) (value : Daemon.Delta) :
    Except String InteractionTailValidator := do
  let wire ← (interactionDeltaToWire isJson value).mapError fun _ => "interaction delta is invalid"
  (validator.accept isJson (.delta wire)).mapError
    fun _ => "interaction delta violates the stream contract"

def tailDeltas (validator : InteractionTailValidator) (values : List Daemon.Delta) :
    Except String InteractionTailValidator :=
  values.foldlM (tailDelta isJson) validator

end SpiceAgent.Grpcserver
