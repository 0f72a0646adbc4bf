import SpiceAgent.Lib.JsonSize

/-!
# Event envelopes

The immutable events of one run (`event/event.go`): their kinds, the kinds that terminate a started
operation, and the canonical encoded size that the replay bounds count.
-/

namespace SpiceAgent.Event

open SpiceAgent.Lib

/-- The largest `uint64`. -/
def maxUint64 : ℕ := 2 ^ 64 - 1

/-- `MaximumPayloadBytes` bounds one event payload. -/
def maximumPayloadBytes : ℕ := 1 <<< 20

/-- `Kind` identifies a stable event contract. -/
inductive Kind
  | runStarted | runCompleted | runFailed | runCancelled
  | turnStarted | turnCompleted | turnFailed
  | modelStarted | modelDelta | modelCompleted | modelFailed
  | toolStarted | toolProgress | toolCompleted | toolFailed
  | interactionStarted | interactionCompleted | interactionFailed | interactionCancelled
  deriving DecidableEq

def Kind.name : Kind → String
  | runStarted => "run.started"
  | runCompleted => "run.completed"
  | runFailed => "run.failed"
  | runCancelled => "run.cancelled"
  | turnStarted => "turn.started"
  | turnCompleted => "turn.completed"
  | turnFailed => "turn.failed"
  | modelStarted => "model.started"
  | modelDelta => "model.delta"
  | modelCompleted => "model.completed"
  | modelFailed => "model.failed"
  | toolStarted => "tool.started"
  | toolProgress => "tool.progress"
  | toolCompleted => "tool.completed"
  | toolFailed => "tool.failed"
  | interactionStarted => "interaction.started"
  | interactionCompleted => "interaction.completed"
  | interactionFailed => "interaction.failed"
  | interactionCancelled => "interaction.cancelled"

/-- The kinds that terminally pair a started lifecycle occurrence. -/
def Kind.terminal : Kind → Bool
  | runCompleted | runFailed | runCancelled
  | turnCompleted | turnFailed
  | modelCompleted | modelFailed
  | toolCompleted | toolFailed
  | interactionCompleted | interactionFailed | interactionCancelled => true
  | _ => false

/-- A wall-clock reading: nanoseconds since the start of year 1 in UTC, and the zone offset of its
location in seconds. -/
structure Time where
  nanos : ℤ
  offset : ℤ
  deriving DecidableEq

variable (t : Time)

/-- The civil second in the location of `t`. -/
def Time.localSeconds : ℤ := t.nanos / 1000000000 + t.offset

/-- `MarshalJSON` accepts the years 0 to 9999 and zone offsets below one day. -/
def Time.marshals : Bool :=
  -31622400 ≤ t.localSeconds && t.localSeconds < 315537897600 &&
    -86400 < t.offset && t.offset < 86400

/-- Bytes of the fractional second: a point and the nanosecond digits without trailing zeros. -/
def Time.fractionSize : ℕ :=
  let n := (t.nanos % 1000000000).toNat
  if n = 0 then 0
  else 10 - (((List.range 9).map fun k => if n % 10 ^ (k + 1) = 0 then 1 else 0).sum)

def Time.size : ℕ := 21 + t.fractionSize + (if t.offset = 0 then 1 else 6)

/-- `Envelope` is one immutable event in a run sequence; `data` is its JSON payload text. -/
structure Envelope where
  runID : String
  sequence : ℕ
  at' : Time
  kind : Kind
  data : String
  deriving DecidableEq

variable (e : Envelope)

/-- `Terminal` reports whether the event pairs a started occurrence. -/
def Envelope.terminal : Bool := e.kind.terminal

/-- `EncodedSize` is the canonical JSON size used by the replay bounds: the five wire fields, the
payload omitted when empty, and one more than the payload bound when the encoder fails. -/
def Envelope.encodedSize : ℕ :=
  if e.at'.marshals then
    -- the member names and the punctuation around the values
    10 + JsonSize.quotedSize e.runID + 12 + JsonSize.decimalSize e.sequence + 6 + e.at'.size + 8 +
      JsonSize.quotedSize e.kind.name +
      (if e.data = "" then 0 else 8 + JsonSize.compactSize false false e.data.toList) + 1
  else maximumPayloadBytes + 1

theorem Envelope.encodedSize_pos : 0 < e.encodedSize := by
  unfold Envelope.encodedSize
  split_ifs <;> omega

end SpiceAgent.Event
