import SpiceAgent.Agent.ToolOccurrence

/-!
# The events of the kernel

What `persist` in `agent/agent.go` hands to the log: an envelope that `event.Reconstruct` accepts,
with no payload, with a tool occurrence, or with what `json.Marshal` writes for a map or a
structure. Such a text may hold JSON of a provider with escapes of its own; all that is used of it
is that `encoding/json` has compacted it.
-/

namespace SpiceAgent.Agent

open SpiceAgent.Lib SpiceAgent.Lib.JsonText

variable (isJson : String → Bool) (decodeObject : String → Option (List (String × Value)))

/-- `event.Reconstruct`; every `Kind` of the model is a supported one. -/
def reconstruct (runID : String) (sequence : ℕ) (at' : Event.Time) (kind : Event.Kind)
    (data : String) : Except String Event.Envelope :=
  if trimmedToken runID = false then
    .error "event run ID must be non-empty without surrounding whitespace"
  else if sequence = 0 then .error "event sequence must be positive"
  -- `IsZero` ignores the location
  else if at'.nanos = 0 then .error "event timestamp must not be zero"
  else if Event.maximumPayloadBytes < data.utf8ByteSize then
    .error ("event payload exceeds " ++ toString Event.maximumPayloadBytes ++ " bytes")
  else if data ≠ "" ∧ isJson data = false then .error "event payload must be valid JSON"
  else .ok { runID, sequence, at', kind, data }

/-- The payloads of the kernel by the kind of their event. -/
inductive KernelPayload : Event.Kind → String → Prop
  /-- A started occurrence, which `encoding/json` reads back. -/
  | started {o : ToolStartedOccurrence} {data : String} (encoded : o.encode = .ok data)
      (decoded : decodeObject data = some o.members) : KernelPayload .toolStarted data
  /-- A terminal occurrence, which `encoding/json` reads back. -/
  | terminal {o : ToolTerminalOccurrence} {data : String} (encoded : o.encode = .ok data)
      (decoded : decodeObject data = some o.members) : KernelPayload o.kind data
  | empty {kind : Event.Kind} (started : kind ≠ .toolStarted)
      (terminal : isToolTerminalKind kind = false) : KernelPayload kind ""
  /-- Any text that compaction leaves at its size. -/
  | marshalled {kind : Event.Kind} {data : String} (started : kind ≠ .toolStarted)
      (terminal : isToolTerminalKind kind = false)
      (compact : JsonSize.compactSize false false data.toList = data.utf8ByteSize) :
      KernelPayload kind data

/-- An event that `persist` hands to the log. -/
structure KernelEvent (e : Event.Envelope) : Prop where
  reconstructed : reconstruct isJson e.runID e.sequence e.at' e.kind e.data = .ok e
  payload : KernelPayload decodeObject e.kind e.data

variable {isJson} {decodeObject}

theorem compactSize_ofList_render (tokens : List Token) : JsonSize.compactSize false false
    (String.ofList (render tokens)).toList = (String.ofList (render tokens)).utf8ByteSize := by
  rw [utf8ByteSize_eq, String.toList_ofList, compactSize_render]

theorem KernelPayload.compactSize_eq {kind : Event.Kind} {data : String}
    (h : KernelPayload decodeObject kind data) :
    JsonSize.compactSize false false data.toList = data.utf8ByteSize := by
  cases h with
  | started encoded _ =>
    obtain ⟨-, rfl, -⟩ := encode_started encoded
    exact compactSize_ofList_render _
  | terminal encoded _ =>
    obtain ⟨-, rfl, -⟩ := encode_terminal encoded
    exact compactSize_ofList_render _
  | empty _ _ => rfl
  | marshalled _ _ compact => exact compact

theorem KernelEvent.checked {e : Event.Envelope} (h : KernelEvent isJson decodeObject e) :
    e.sequence ≠ 0 ∧ e.data.utf8ByteSize ≤ Event.maximumPayloadBytes ∧
      (e.data ≠ "" → isJson e.data = true) := by
  have hok := h.reconstructed
  unfold reconstruct at hok
  split_ifs at hok with h1 h2 h3 h4 h5
  refine ⟨h2, not_lt.mp h4, fun hne => ?_⟩
  rw [not_and, Bool.not_eq_false] at h5
  exact h5 hne

end SpiceAgent.Agent
