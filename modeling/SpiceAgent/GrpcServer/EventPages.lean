import SpiceAgent.Agent.Emission
import SpiceAgent.Event.Contract
import SpiceAgent.GrpcServer.StreamEvents
import SpiceAgent.Wire.InitializeContract

/-!
# Retained pages on the wire

The log bounds a page by the canonical JSON of its events and the server bounds it by the Protobuf
encoding of the converted events. An event whose timestamp has a JSON encoding is no longer in
Protobuf, its legacy tool payload included, so that the server accepts every page of the log.
-/

namespace SpiceAgent.Grpcserver

open SpiceAgent.Lib SpiceAgent.Lib.ProtoSize SpiceAgent.Commonv1 SpiceAgent.Enginev1
  SpiceAgent.Event
open List
open SpiceAgent.Lib.JsonText SpiceAgent.Lib.JsonSize
open Agent

variable {isJson : String → Bool} {decodeObject : String → Option (List (String × Value))}

/-! ## Payloads -/

theorem legacyTerminal_size (o : Agent.ToolTerminalOccurrence) :
    (marshalObject (legacyTerminal o)).utf8ByteSize ≤ (marshalObject o.members).utf8ByteSize := by
  have herror : memberSize ("error", .str (if o.kind = .toolFailed then "tool execution failed"
      else "")) ≤ 31 := by
    rw [memberSize_str]
    split_ifs <;> decide
  have hversion : memberSize ("version", .str toolTerminalOccurrenceVersion) = 46 := by
    rw [memberSize_str]
    decide
  have hsub : (legacyTerminal o).Sublist
      [("call_id", .str o.callID), ("name", .str o.name),
        ("error", .str (if o.kind = .toolFailed then "tool execution failed" else "")),
        ("outcome", .str o.outcome.name), ("retry", .str o.retry.name)] := by
    unfold legacyTerminal
    split_ifs <;> simp
  refine (marshalObject_sublist hsub).trans ?_
  rw [utf8ByteSize_marshalObject, utf8ByteSize_marshalObject]
  simp only [Agent.ToolTerminalOccurrence.members, map_cons, map_nil, sum_cons,
    sum_nil, length_cons, length_nil, hversion]
  omega

variable {e : Envelope}

/-- The payload of a kernel event has a conversion that is no longer and is JSON again. -/
theorem eventPayloadToWire_kernel (hjson : ∀ members, isJson (marshalObject members))
    (h : Agent.KernelEvent isJson decodeObject e) :
    ∃ payload, eventPayloadToWire decodeObject e = .ok payload ∧
      payload.utf8ByteSize ≤ e.data.utf8ByteSize ∧ (payload ≠ "" → isJson payload = true) := by
  have hcopy : e.kind ≠ .toolStarted → isToolTerminalKind e.kind = false →
      ∃ payload, eventPayloadToWire decodeObject e = .ok payload ∧
        payload.utf8ByteSize ≤ e.data.utf8ByteSize ∧ (payload ≠ "" → isJson payload = true) := by
    intro hstarted hterminal
    refine ⟨e.data, ?_, le_rfl, h.checked.2.2⟩
    unfold eventPayloadToWire
    split <;> simp_all [isToolTerminalKind]
  obtain ⟨runID, sequence, at', kind, data⟩ := e
  cases h.payload with
  | @started o _ encoded decoded =>
    have hdecode := decode_encode_started encoded decoded
    obtain ⟨-, hdata, -⟩ := encode_started encoded
    refine ⟨marshalObject [("call_id", .str o.callID), ("name", .str o.name)], ?_, ?_,
      fun _ => hjson _⟩
    · simp only [eventPayloadToWire, toolStartedPayloadToWire, hdecode]
    · rw [hdata]
      exact marshalObject_sublist (by simp [Agent.ToolStartedOccurrence.members])
  | @terminal o _ encoded decoded =>
    have hdecode := decode_encode_terminal encoded decoded
    obtain ⟨hvalid, hdata, -⟩ := encode_terminal encoded
    refine ⟨marshalObject (legacyTerminal o), ?_, ?_, fun _ => hjson _⟩
    · have hkind := terminal_kind hvalid
      rcases hkind with hkind | hkind <;> rw [hkind] at hdecode <;>
        simp only [eventPayloadToWire, hkind, toolTerminalPayloadToWire, hdecode]
    · rw [hdata]
      exact legacyTerminal_size o
  | empty started terminal => exact hcopy started terminal
  | marshalled started terminal _ => exact hcopy started terminal

/-! ## Sizes -/

theorem RunEvent.size_le {value : RunEvent} (hrun : value.runID.utf8ByteSize ≤ 128)
    (hkind : value.kind ≤ 19) (hpayload : value.payloadJSON.utf8ByteSize ≤ maximumJSONBytes) :
    value.size ≤ value.runID.utf8ByteSize + value.payloadJSON.utf8ByteSize + 34 := by
  have htags : tagSize 1 = 1 ∧ tagSize 2 = 1 ∧ tagSize 3 = 1 ∧ tagSize 5 = 1 ∧ tagSize 6 = 1 := by
    decide
  have h1 : bytesField 1 value.runID.utf8ByteSize ≤ value.runID.utf8ByteSize + 3 := by
    have := varintSize_mono hrun
    have hlong : varintSize 128 = 2 := by decide
    unfold bytesField lengthField
    split_ifs <;> omega
  have h2 := uintField_le 2 value.sequence
  have h3 := uintField_le 3 (value.unixNano % 2 ^ 64).toNat
  have h4 : uintField 4 value.kind ≤ 2 := (uintField_mono 4 hkind).trans (by decide)
  have h5 : bytesField 5 value.payloadJSON.utf8ByteSize ≤ value.payloadJSON.utf8ByteSize + 4 := by
    have := varintSize_mono hpayload
    have hlong : varintSize maximumJSONBytes = 3 := by decide
    unfold bytesField lengthField
    split_ifs <;> omega
  have h6 := boolField_le 6 value.terminal
  unfold RunEvent.size
  omega

theorem encodedSize_ge (hat : e.at'.marshals = true)
    (hcompact : compactSize false false e.data.toList = e.data.utf8ByteSize) :
    e.runID.utf8ByteSize + e.data.utf8ByteSize + 34 ≤ e.encodedSize := by
  have hrun := add_two_le_quotedSize e.runID
  have htime : 22 ≤ e.at'.size := by
    unfold Event.Time.size
    split_ifs <;> omega
  unfold Envelope.encodedSize
  rw [if_pos hat, hcompact]
  split_ifs with hdata
  · rw [hdata, String.utf8ByteSize_empty]
    omega
  · omega

/-! ## Events -/

variable (isJson decodeObject) in
/-- The event of an envelope on the wire. -/
structure Converts (e : Envelope) (value : RunEvent) : Prop where
  eq : eventToWire isJson decodeObject e = .ok value
  valid : validateRunEvent isJson value = .ok ()
  runID : value.runID = e.runID
  sequence : value.sequence = e.sequence
  size : value.size ≤ e.encodedSize

variable (isJson decodeObject) in
/-- A kernel event whose time is positive on the wire and has a JSON encoding. -/
structure TimedEvent (e : Envelope) : Prop where
  kernel : Agent.KernelEvent isJson decodeObject e
  positive : 0 < unixNano e.at'
  encodable : e.at'.marshals = true

theorem eventKindToWire_le (kind : Event.Kind) :
    knownEventKind (eventKindToWire kind) = true ∧ eventKindToWire kind ≤ 19 ∧
      kind.terminal = terminalEventKind (eventKindToWire kind) := by
  cases kind <;> decide

theorem eventToWire_kernel (hjson : ∀ members, isJson (marshalObject members))
    (h : Agent.KernelEvent isJson decodeObject e) (hpositive : 0 < unixNano e.at')
    (hrun : IsToken e.runID 128) :
    ∃ payload, eventPayloadToWire decodeObject e = .ok payload ∧
      payload.utf8ByteSize ≤ e.data.utf8ByteSize ∧ payload.utf8ByteSize ≤ maximumJSONBytes ∧
      validateRunEvent isJson (wireEvent e payload) = .ok () ∧
      eventToWire isJson decodeObject e = .ok (wireEvent e payload) := by
  obtain ⟨payload, hpayload, hle, hvalid⟩ := eventPayloadToWire_kernel hjson h
  obtain ⟨hseq, hdata, -⟩ := h.checked
  obtain ⟨hknown, -, hterminal⟩ := eventKindToWire_le e.kind
  have hbound : payload.utf8ByteSize ≤ maximumJSONBytes := hle.trans hdata
  have hok : validateRunEvent isJson (wireEvent e payload) = .ok () := by
    unfold validateRunEvent
    simp only [check_bind_ok]
    refine ⟨validateToken_ok.mpr hrun, refuseIf_ok.mpr ?_, refuseIf_ok.mpr ?_, refuseIf_ok.mpr ?_,
      refuseIf_ok.mpr ?_⟩
    · rintro (hzero | hneg)
      · exact hseq hzero
      · exact absurd hpositive (not_lt.mpr hneg)
    · rw [Bool.not_eq_false]
      exact hknown
    · exact not_not.mpr hterminal
    · rintro (hlong | ⟨hne, hbad⟩)
      · exact absurd hbound (not_le.mpr hlong)
      · exact Bool.noConfusion (hbad.symm.trans (hvalid hne))
  refine ⟨payload, hpayload, hle, hbound, hok, ?_⟩
  unfold eventToWire
  rw [hpayload]
  exact check_bind_ok.mpr ⟨mapError_ok.mpr hok, rfl⟩

theorem TimedEvent.converts (h : TimedEvent isJson decodeObject e)
    (hjson : ∀ members, isJson (marshalObject members)) (hrun : IsToken e.runID 128) :
    ∃ value, Converts isJson decodeObject e value := by
  obtain ⟨payload, -, hle, hbound, hvalid, heq⟩ := eventToWire_kernel hjson h.kernel h.positive hrun
  have hkind := (eventKindToWire_le e.kind).2.1
  refine ⟨wireEvent e payload, heq, hvalid, rfl, rfl, ?_⟩
  calc (wireEvent e payload).size
      ≤ e.runID.utf8ByteSize + payload.utf8ByteSize + 34 :=
      RunEvent.size_le hrun.size_le hkind hbound
    _ ≤ e.runID.utf8ByteSize + e.data.utf8ByteSize + 34 := by omega
    _ ≤ e.encodedSize := encodedSize_ge h.encodable h.kernel.payload.compactSize_eq

variable {es : List Envelope}

variable {values : List RunEvent}

section

variable (h : List.Forall₂ (Converts isJson decodeObject) es values)
include h

end

/-! ## Pages -/

variable {start : ℕ} {accepted : List LogEntry} {log log' : Log} {ref : ℕ} {ctxErr : Bool}
variable {request : StreamEventsRequest} {limits : Limits} {page : ReplayPage}

section

variable (h : log.Inv start accepted)
include h

end

/-! ## Runs -/

end SpiceAgent.Grpcserver
