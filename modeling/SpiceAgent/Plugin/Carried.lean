import SpiceAgent.Plugin.Contract
import SpiceAgent.Tool.Valid

/-!
# Kernel values on the plugin wire

A definition, a result, progress or a failure that the tool package accepts is written into its
message and read back by `DecodeManifest` or by the validator of the stream. The kernel and the wire
agree on everything but one point: the wire reads descriptions, problems and failure messages with
`boundedText`, which is `token` and refuses the characters `\x00`, `\r`, `\n` and `\t` inside a
text, while the tool package allows them. Progress is read with the tool package's own check.
-/

namespace SpiceAgent.Pluginv1

open SpiceAgent.Lib SpiceAgent.Lib.ProtoSize SpiceAgent.Commonv1 SpiceAgent.Agent List

variable {isJson : List UInt8 → Bool} {limits : Limits}

/-- A text without the characters that `token` refuses. -/
def Plain (text : String) : Prop := ∀ c ∈ text.toList, breaksToken c = false

instance (text : String) : Decidable (Plain text) := decidableBAll _ text.toList

theorem boundedText_ok {label text : String} {maximum : ℕ} :
    boundedText label text maximum = .ok () ↔ IsToken text maximum := token_ok

theorem isToken_of_validIdentity {value : String} (h : validIdentity value = true) :
    IsToken value 128 := by
  simp only [validIdentity, Bool.and_eq_true, Bool.not_eq_true', any_eq_false,
    decide_eq_true_eq] at h
  refine ⟨h.1.1, fun c hc => ?_, h.2⟩
  simpa [breaksToken] using h.1.2 c hc

theorem boundedJSON_of_validateJSON {label what : String} {value : List UInt8} {maximum : ℕ}
    (h : Tool.validateJSON isJson what value = none) (hsize : value.length ≤ maximum) :
    boundedJSON isJson label value maximum = .ok () := by
  unfold Tool.validateJSON at h
  split_ifs at h with hjson hlong
  simp only [Bool.or_eq_true, List.isEmpty_iff, Bool.not_eq_true', not_or] at hjson
  unfold boundedJSON
  rw [check_bind_ok, refuseIf_ok, refuseIf_ok]
  exact ⟨by simpa using hjson, by omega⟩

theorem maxMessageBytes_ne_zero (h : validateLimits limits = .ok ()) :
    limits.maxMessageBytes ≠ 0 := by
  unfold validateLimits at h
  rw [check_bind_ok, refuseIf_ok] at h
  exact fun hzero => h.1 (.inl hzero)

/-! ## Definitions -/

theorem isToken_name (c : Capability) : IsToken c.name Commonv1.maximumTokenBytes := by
  have hclean : Plain c.name := by
    cases c <;> decide
  refine ⟨?_, hclean, ?_⟩
  · cases c <;> decide
  · cases c <;> decide

theorem Capability.name_injective : Function.Injective Capability.name := by
  intro a b h
  have hab := congrArg (ofName Capability.values Capability.name) h
  simpa using hab

theorem length_le_of_nodup {capabilities : List Capability} (h : capabilities.Nodup) :
    capabilities.length ≤ 7 := by
  have hsub : capabilities ⊆ Capability.values := by
    intro c _
    cases c <;> decide
  exact (subperm_of_subset h hsub).length_le

theorem mapM_decodeCapability (capabilities : List Capability) :
    (capabilities.map Capability.name).mapM decodeCapability = .ok capabilities := by
  induction capabilities with
  | nil => rfl
  | cons c rest ih =>
    have hc : decodeCapability c.name = .ok c := by
      unfold decodeCapability
      rw [Capability.ofName_name]
    rw [map_cons, mapM_cons, hc, ih]
    rfl

theorem validateCapabilities_names {d : Tool.Definition} (h : d.Built isJson) :
    validateCapabilities (some ⟨d.capabilities.map Capability.name⟩) = .ok () := by
  have hnodup := (Tool.validateCapabilities_eq_none.mp h.valid.capabilities).1
  rw [validateCapabilities_ok]
  refine ⟨_, rfl, ?_, ?_, ?_⟩
  · have hlen := length_le_of_nodup hnodup
    rw [length_map]
    omega
  · intro name hname
    obtain ⟨c, -, rfl⟩ := mem_map.mp hname
    exact isToken_name c
  · rw [pairwise_map]
    refine (h.sorted.and hnodup).imp ?_
    rintro a b ⟨hle, hne⟩
    exact lt_of_le_of_ne hle fun heq => hne (Capability.name_injective heq)

theorem decode_encodeToolDefinition {d : Tool.Definition} (h : d.Built isJson)
    (hschema : d.inputSchema.length ≤ limits.maxSchemaBytes) :
    ∃ wire, encodeToolDefinition isJson d = .ok wire ∧
      (decodeToolDefinition isJson wire limits = .ok d ↔ Plain d.description) := by
  have hvalid := h.valid
  obtain ⟨effect, heffect, heffect'⟩ :
      ∃ effect, encodeEffect d.effect = .ok effect ∧ decodeEffect effect = .ok d.effect := by
    have hne := hvalid.effect
    cases he : d.effect with
    | none => exact absurd he hne
    | readOnly => exact ⟨.readOnly, rfl, rfl⟩
    | mutating => exact ⟨.mutating, rfl, rfl⟩
  obtain ⟨replay, hreplay, hreplay'⟩ : ∃ replay, encodeReplaySafety d.replaySafety = .ok replay ∧
      decodeReplaySafety replay = .ok d.replaySafety := by
    have hne := hvalid.replaySafety
    cases hr : d.replaySafety with
    | none => exact absurd hr hne
    | safe => exact ⟨.safe, rfl, rfl⟩
    | idempotent => exact ⟨.idempotent, rfl, rfl⟩
    | never => exact ⟨.never, rfl, rfl⟩
  refine ⟨⟨d.name, d.description, d.inputSchema, effect, replay,
    some ⟨d.capabilities.map Capability.name⟩⟩, ?_, ?_⟩
  · unfold encodeToolDefinition
    rw [Tool.Definition.validate_eq_none.mpr hvalid, heffect, hreplay]
    rfl
  · unfold decodeToolDefinition
    have hname : token "plugin tool name" d.name 128 = .ok () :=
      token_ok.mpr (isToken_of_validIdentity hvalid.name)
    have hjson : boundedJSON isJson "plugin tool schema" d.inputSchema limits.maxSchemaBytes =
        .ok () :=
      boundedJSON_of_validateJSON hvalid.schema hschema
    have hcaps : wrap "plugin tool capabilities"
        (validateCapabilities (some ⟨d.capabilities.map Capability.name⟩)) = .ok () :=
      wrap_ok.mpr (validateCapabilities_names h)
    rw [check_bind_ok, check_bind_ok, boundedText_ok]
    refine ⟨fun hdecode => hdecode.2.1.clean, fun hplain => ?_⟩
    refine ⟨hname, ⟨hvalid.description.1, hplain, hvalid.description.2⟩,
      check_bind_ok.mpr ⟨hjson, ?_⟩⟩
    refine bind_ok.mpr ⟨d.effect, heffect', bind_ok.mpr ⟨d.replaySafety, hreplay', ?_⟩⟩
    refine check_bind_ok.mpr ⟨hcaps, bind_ok.mpr ⟨d.capabilities, mapM_decodeCapability _, ?_⟩⟩
    rw [h.rebuild]
    rfl

section

variable {ds : List Tool.Definition} (hbuilt : ∀ d ∈ ds, d.Built isJson)
  (hschema : ∀ d ∈ ds, d.inputSchema.length ≤ limits.maxSchemaBytes)
  (hsorted : ds.Pairwise fun a b => a.name < b.name)
include hbuilt hschema hsorted

theorem decodeTools_encode :
    ∃ wires, ds.mapM (encodeToolDefinition isJson) = .ok wires ∧ wires.length = ds.length ∧
      ∀ index previous, (previous = "" ∨ ∀ d ∈ ds, previous < d.name) →
        (decodeTools isJson limits index previous wires = .ok ds ↔
        ∀ d ∈ ds, Plain d.description) := by
  induction ds with
  | nil => exact ⟨[], rfl, rfl, fun _ _ _ => iff_of_true rfl (forall_mem_nil _)⟩
  | cons d ds ih =>
    rw [forall_mem_cons] at hbuilt hschema
    rw [pairwise_cons] at hsorted
    obtain ⟨wire, hencode, hdecode⟩ := decode_encodeToolDefinition hbuilt.1 hschema.1
    obtain ⟨wires, hencodes, hlength, hdecodes⟩ := ih hbuilt.2 hschema.2 hsorted.2
    refine ⟨wire :: wires, ?_, by simp [hlength], fun index previous hprevious => ?_⟩
    · rw [mapM_cons, hencode, hencodes]
      rfl
    · rw [forall_mem_cons, ← hdecode, ← hdecodes (index + 1) d.name (.inr hsorted.1), decodeTools]
      constructor
      · intro hall
        obtain ⟨d', hd, hall⟩ := bind_ok.mp hall
        obtain ⟨ds', hds, heq⟩ := bind_ok.mp (check_bind_ok.mp hall).2
        obtain ⟨rfl, rfl⟩ := cons.inj (Except.ok.inj heq)
        exact ⟨mapError_eq_ok.mp hd, hds⟩
      · rintro ⟨hd, hds⟩
        refine bind_ok.mpr
          ⟨d, mapError_eq_ok.mpr hd, check_bind_ok.mpr ⟨?_, bind_ok.mpr ⟨ds, hds, rfl⟩⟩⟩
        rw [refuseIf_ok]
        rintro ⟨hne, hle⟩
        exact absurd (hprevious.resolve_left hne d mem_cons_self) (not_lt.mpr hle)

theorem decodeManifest_encode {name version : String} (hlimits : validateLimits limits = .ok ())
    (hname : IsToken name maximumTokenBytes) (hversion : IsToken version maximumTokenBytes)
    (hne : ds ≠ []) (hcount : ds.length ≤ limits.maxTools) :
    ∃ wires, ds.mapM (encodeToolDefinition isJson) = .ok wires ∧
      ((Manifest.mk name version wires 0).size ≤ limits.maxMessageBytes →
        (decodeManifest isJson ⟨name, version, wires, 0⟩ limits = .ok ⟨name, version, ds⟩ ↔
          ∀ d ∈ ds, Plain d.description)) := by
  obtain ⟨wires, hencode, hlength, hdecode⟩ := decodeTools_encode hbuilt hschema hsorted
  refine ⟨wires, hencode, fun hsize => ?_⟩
  have htools : ¬ (wires = [] ∨ limits.maxTools < wires.length) := by
    rintro (rfl | hlt)
    · exact hne (length_eq_zero_iff.mp hlength.symm)
    · omega
  have hencoded := validateEncodedSize_ok.mpr ⟨maxMessageBytes_ne_zero hlimits, hsize⟩
  rw [← hdecode 0 "" (.inl rfl), decodeManifest]
  simp only [check_bind_ok, hlimits, token_ok.mpr hname, token_ok.mpr hversion,
    refuseIf_ok.mpr htools, true_and]
  constructor
  · intro hall
    obtain ⟨ds', hds, hall⟩ := bind_ok.mp hall
    cases (check_bind_ok.mp hall).2
    exact hds
  · intro hds
    exact bind_ok.mpr ⟨ds, hds, check_bind_ok.mpr ⟨hencoded, rfl⟩⟩

end

/-! ## Frames -/

/-- The response with the next sequence number of a stream. -/
def StreamValidator.response (v : StreamValidator) (payload : Payload) : ExecuteResponse :=
  ⟨v.callID, v.next, some payload, 0⟩

def StreamValidator.after (v : StreamValidator) (frame : Frame) : StreamValidator :=
  { v with next := (v.next + 1) % 2 ^ 64, terminal := frame.terminal }

def resultPayload (r : Tool.Result) : Payload := .result (some ⟨r.content, r.problem⟩)

def progressPayload (p : Tool.Progress) : Payload := .progress (some p.message)

def wireState : ExecutionState → WireExecutionState
  | .none => .unspecified
  | .definitive => .definitive
  | .uncertain => .uncertain

def wireRetry : RetryDisposition → WireRetryDisposition
  | .none => .unspecified
  | .never => .never
  | .allowed => .allowed

def failureMessage (e : Tool.ExecutionError) : String :=
  match e.cause with
  | some cause => cause.message
  | none => "tool execution failure is unavailable"

def failurePayload (e : Tool.ExecutionError) : Payload :=
  .failure (some ⟨wireState e.state, wireRetry e.retry, failureMessage e⟩)

variable {v : StreamValidator}

theorem accept_response {payload : Payload} {frame : Frame}
    (hopen : v.terminal = false) (hmax : v.limits.maxMessageBytes ≠ 0)
    (hsize : (v.response payload).size ≤ v.limits.maxMessageBytes) :
    v.accept isJson (some (v.response payload)) = .ok (frame, v.after frame) ↔
      v.decodeFrame isJson (v.response payload) = .ok frame := by
  unfold StreamValidator.accept
  rw [hopen]
  simp only [Bool.false_eq_true, if_false, check_bind_ok, validateEncodedSize_ok.mpr ⟨hmax, hsize⟩,
    true_and]
  rw [and_iff_right (refuseIf_ok.mpr nofun), and_iff_right (refuseIf_ok.mpr nofun)]
  exact bind_pure_ok fun _ _ h => (Prod.mk.inj h).1

theorem decodeFrame_result {r : Tool.Result} (h : r.validate isJson = none)
    (hid : r.callID = v.callID) (hcontent : r.content.length ≤ v.limits.maxResultBytes) :
    v.decodeFrame isJson (v.response (resultPayload r)) = .ok (.result r) ↔ Plain r.problem := by
  have hresult : decodeResult isJson v.callID ⟨r.content, r.problem⟩ = .ok r ↔ Plain r.problem := by
    have hbuilt := Tool.Result.rebuild h
    unfold decodeResult
    split_ifs at hbuilt ⊢ with hproblem
    · rw [show r.problem = "" from hproblem, ← hid, hbuilt]
      exact iff_of_true rfl (by decide)
    · obtain ⟨htrimmed, hsize⟩ := Tool.Result.problem_of_validate h hproblem
      rw [check_bind_ok, mapError_ok, boundedText_ok, ← hid, hbuilt]
      exact ⟨fun hdecode => hdecode.1.clean, fun hplain => ⟨⟨htrimmed, hplain, hsize⟩, rfl⟩⟩
  rw [← hresult]
  change (refuseIf _ _ >>= fun _ => _) = _ ↔ _
  rw [check_bind_ok, and_iff_right (refuseIf_ok.mpr (not_lt.mpr hcontent))]
  exact bind_pure_ok fun _ _ => Frame.result.inj

theorem decodeFrame_progress {p : Tool.Progress}
    (h : Tool.NewProgress p.callID p.message = .ok p) (hid : p.callID = v.callID)
    (hmessage : p.message.utf8ByteSize ≤ v.limits.maxProgressBytes) :
    v.decodeFrame isJson (v.response (progressPayload p)) = .ok (.progress p) := by
  show (refuseIf _ _ >>= fun _ => _) = _
  refine check_bind_ok.mpr ⟨refuseIf_ok.mpr (not_lt.mpr hmessage), bind_ok.mpr ⟨p, ?_, rfl⟩⟩
  rw [← hid, h]
  rfl

theorem decodeExecutionState_wireState {state : ExecutionState} (h : state ≠ .none) :
    decodeExecutionState (wireState state) = .ok state := by
  cases state with
  | none => exact absurd rfl h
  | definitive => rfl
  | uncertain => rfl

theorem decodeRetryDisposition_wireRetry {retry : RetryDisposition} (h : retry ≠ .none) :
    decodeRetryDisposition (wireRetry retry) = .ok retry := by
  cases retry with
  | none => exact absurd rfl h
  | never => rfl
  | allowed => rfl

theorem decodeFrame_failure {e : Tool.ExecutionError} (h : e.validate = none)
    (hid : e.callID = v.callID) :
    v.decodeFrame isJson (v.response (failurePayload e)) = .ok (.failure e) ↔
      Plain (failureMessage e) := by
  have hvalid := Tool.ExecutionError.validate_eq_none.mp h
  obtain ⟨cause, hcause, htrimmed, hsize, hnested⟩ := hvalid.cause
  have hmessage : failureMessage e = cause.message := by
    unfold failureMessage
    rw [hcause]
  have he : e = ⟨v.callID, e.state, e.retry, some ⟨failureMessage e, false⟩⟩ := by
    rw [hmessage, ← hid, ← hnested, ← hcause]
  have hnew : Tool.NewExecutionError v.callID e.state e.retry (some ⟨failureMessage e, false⟩) =
      .ok e := Tool.NewExecutionError_ok.mpr ⟨he, hvalid⟩
  have hdecode : decodeExecutionFailure v.callID
      ⟨wireState e.state, wireRetry e.retry, failureMessage e⟩ = .ok e ↔
      Plain (failureMessage e) := by
    unfold decodeExecutionFailure
    rw [decodeExecutionState_wireState hvalid.state, decodeRetryDisposition_wireRetry hvalid.retry]
    change (boundedText _ _ _ >>= fun _ => _) = _ ↔ _
    rw [check_bind_ok, boundedText_ok]
    refine ⟨fun hdecode => hdecode.1.clean, fun hplain =>
      ⟨⟨?_, hplain, ?_⟩, mapError_eq_ok.mpr hnew⟩⟩
    · rw [hmessage]
      exact htrimmed
    · rw [hmessage]
      exact hsize
  rw [← hdecode]
  exact bind_pure_ok fun _ _ => Frame.failure.inj

/-! ## The wire carries plain values -/

/-- With valid limits, a definition, result or failure that the tool package accepts, and whose
sizes and encoded message are within the limits, is read back from its message exactly if its
description, problem or failure message is plain; progress always is. -/
theorem wire_carries_plain_values (isJson : List UInt8 → Bool) (limits : Limits)
    (hlimits : validateLimits limits = .ok ()) :
    (∀ (name version : String) (ds : List Tool.Definition), IsToken name maximumTokenBytes →
      IsToken version maximumTokenBytes → ds ≠ [] → ds.length ≤ limits.maxTools →
      (∀ d ∈ ds, d.Built isJson) → (∀ d ∈ ds, d.inputSchema.length ≤ limits.maxSchemaBytes) →
      ds.Pairwise (fun a b => a.name < b.name) →
      ∃ wires, ds.mapM (encodeToolDefinition isJson) = .ok wires ∧
        ((Manifest.mk name version wires 0).size ≤ limits.maxMessageBytes →
          (decodeManifest isJson ⟨name, version, wires, 0⟩ limits = .ok ⟨name, version, ds⟩ ↔
            ∀ d ∈ ds, Plain d.description))) ∧
    ∀ v : StreamValidator, v.limits = limits → v.terminal = false →
      (∀ r : Tool.Result, r.validate isJson = none → r.callID = v.callID →
        r.content.length ≤ limits.maxResultBytes →
        (v.response (resultPayload r)).size ≤ limits.maxMessageBytes →
        (v.accept isJson (some (v.response (resultPayload r))) =
          .ok (.result r, v.after (.result r)) ↔ Plain r.problem)) ∧
      (∀ p : Tool.Progress, Tool.NewProgress p.callID p.message = .ok p → p.callID = v.callID →
        p.message.utf8ByteSize ≤ limits.maxProgressBytes →
        (v.response (progressPayload p)).size ≤ limits.maxMessageBytes →
        v.accept isJson (some (v.response (progressPayload p))) =
          .ok (.progress p, v.after (.progress p))) ∧
      ∀ e : Tool.ExecutionError, e.validate = none → e.callID = v.callID →
        (v.response (failurePayload e)).size ≤ limits.maxMessageBytes →
        (v.accept isJson (some (v.response (failurePayload e))) =
          .ok (.failure e, v.after (.failure e)) ↔ Plain (failureMessage e)) := by
  have hmax := maxMessageBytes_ne_zero hlimits
  refine ⟨?_, ?_⟩
  · intro name version ds hname hversion hne hcount hbuilt hschema hsorted
    exact decodeManifest_encode hbuilt hschema hsorted hlimits hname hversion hne hcount
  · rintro v rfl hopen
    refine ⟨?_, ?_, ?_⟩
    · intro r hr hid hcontent hsize
      exact (accept_response hopen hmax hsize).trans (decodeFrame_result hr hid hcontent)
    · intro p hp hid hmessage hsize
      exact (accept_response hopen hmax hsize).mpr (decodeFrame_progress hp hid hmessage)
    · intro e he hid hsize
      exact (accept_response hopen hmax hsize).trans (decodeFrame_failure he hid)

/-! ## Fixed values -/

def exampleLimits : Limits := ⟨1048576, 16, 65536, 65536, 65536, 4096, 4⟩

/-- The validator of a call at its first frame. -/
def exampleValidator : StreamValidator := ⟨"call", exampleLimits, 1, false⟩

def exampleResult (problem : String) : Tool.Result := ⟨"call", [0x7b, 0x7d], problem⟩

def exampleFailure (message : String) : Tool.ExecutionError :=
  ⟨"call", .definitive, .never, some ⟨message, false⟩⟩

def exampleDefinition (description : String) : Tool.Definition :=
  ⟨"write", description, [0x7b, 0x7d], .mutating, .never, []⟩

theorem wire_carries_plain_values_problem :
    exampleValidator.accept (fun _ => true)
      (some (exampleValidator.response (resultPayload (exampleResult "file not found")))) =
      .ok (.result (exampleResult "file not found"),
        exampleValidator.after (.result (exampleResult "file not found"))) := by
  have hlimits : validateLimits exampleLimits = .ok () := by decide +kernel
  obtain ⟨-, hframes⟩ := wire_carries_plain_values (fun _ => true) exampleLimits hlimits
  exact ((hframes exampleValidator rfl rfl).1 (exampleResult "file not found") (by decide +kernel)
    rfl (by decide +kernel) (by decide +kernel)).mpr (by decide +kernel)

def accepted {α : Type} : Except ContractError α → Bool
  | .ok _ => true
  | .error _ => false

/-- A problem, a failure message and a description of two lines are legal in the kernel, fit the
limits and are refused on the wire. -/
theorem wire_refuses_two_lines :
    validateLimits exampleLimits = .ok () ∧
    ((exampleResult "a\nb").validate (fun _ => true) = none ∧
      (exampleValidator.response (resultPayload (exampleResult "a\nb"))).size ≤
        exampleLimits.maxMessageBytes ∧
      accepted (exampleValidator.accept (fun _ => true)
        (some (exampleValidator.response (resultPayload (exampleResult "a\nb"))))) = false) ∧
    ((exampleFailure "a\nb").validate = none ∧
      (exampleValidator.response (failurePayload (exampleFailure "a\nb"))).size ≤
        exampleLimits.maxMessageBytes ∧
      accepted (exampleValidator.accept (fun _ => true)
        (some (exampleValidator.response (failurePayload (exampleFailure "a\nb"))))) = false) ∧
    ((exampleDefinition "a\nb").Built (fun _ => true) ∧
      accepted ((encodeToolDefinition (fun _ => true) (exampleDefinition "a\nb")).bind fun wire =>
        decodeManifest (fun _ => true) ⟨"plugin", "1", [wire], 0⟩ exampleLimits) = false ∧
      accepted ((encodeToolDefinition (fun _ => true) (exampleDefinition "a b")).bind fun wire =>
        decodeManifest (fun _ => true) ⟨"plugin", "1", [wire], 0⟩ exampleLimits) = true) :=
  ⟨by decide +kernel, ⟨by decide +kernel, by decide +kernel, by decide +kernel⟩,
    ⟨by decide +kernel, by decide +kernel, by decide +kernel⟩, ⟨⟨[], by decide +kernel⟩,
    by decide +kernel, by decide +kernel⟩⟩

end SpiceAgent.Pluginv1
