import Mathlib.Data.String.Basic
import SpiceAgent.Tool

/-!
# What the tool package accepts

The checks of `Definition.Validate`, `Result.Validate` and `ExecutionError.Validate` as predicates,
and that a value its `Validate` accepts is what its constructor makes of the value's own fields.
-/

namespace SpiceAgent.Tool

open SpiceAgent.Lib SpiceAgent.Agent

variable {isJson : List UInt8 → Bool}

/-! ## Definitions -/

/-- The definition was made by `NewDefinition`. -/
def Definition.Built (isJson : List UInt8 → Bool) (d : Definition) : Prop :=
  ∃ capabilities, NewDefinition isJson d.name d.description d.inputSchema d.effect d.replaySafety
    capabilities = .ok d

theorem validateCapabilities_eq_none {effect : Effect} :
    ∀ {capabilities seen : List Capability}, validateCapabilities effect seen capabilities = none ↔
      capabilities.Nodup ∧ (∀ c ∈ capabilities, c ∉ seen) ∧
        (effect = .readOnly → ∀ c ∈ capabilities, c.mutationCapable = false)
  | [], seen => by simp [validateCapabilities]
  | capability :: rest, seen => by
    unfold validateCapabilities
    split_ifs with hseen hmutation
    · simp [hseen]
    · simp_all
    · rw [validateCapabilities_eq_none]
      simp only [List.nodup_cons, List.mem_cons, forall_eq_or_imp, not_or, Bool.and_eq_true,
        decide_eq_true_eq, not_and, Bool.not_eq_true] at hmutation ⊢
      constructor
      · rintro ⟨hnodup, hnew, hrest⟩
        exact ⟨⟨fun hmem => (hnew capability hmem).1 rfl, hnodup⟩,
          ⟨hseen, fun c hc => (hnew c hc).2⟩, fun he => ⟨hmutation he, hrest he⟩⟩
      · rintro ⟨⟨hfresh, hnodup⟩, ⟨-, hnew⟩, hrest⟩
        refine ⟨hnodup, fun c hc => ⟨?_, hnew c hc⟩, fun he => (hrest he).2⟩
        rintro rfl
        exact hfresh hc

theorem validateCapabilities_perm {effect : Effect} {l l' : List Capability} (h : l.Perm l')
    (hl : validateCapabilities effect [] l = none) : validateCapabilities effect [] l' = none := by
  rw [validateCapabilities_eq_none] at hl ⊢
  refine ⟨h.nodup_iff.mp hl.1, by simp, fun he c hc => hl.2.2 he c (h.mem_iff.mpr hc)⟩

/-- What `Definition.Validate` checks. -/
structure Definition.Valid (isJson : List UInt8 → Bool) (d : Definition) : Prop where
  name : validIdentity d.name = true
  description : trimmedToken d.description = true ∧ d.description.utf8ByteSize ≤
    maximumProgressBytes
  schema : validateJSON isJson "tool input schema" d.inputSchema = none
  effect : d.effect ≠ .none
  replaySafety : d.replaySafety ≠ .none
  readOnly : ¬ (d.effect = .readOnly ∧ d.replaySafety ≠ .safe)
  mutating : ¬ (d.effect = .mutating ∧ d.replaySafety = .safe)
  capabilities : validateCapabilities d.effect [] d.capabilities = none

variable {d : Definition}

theorem Definition.validate_eq_none : d.validate isJson = none ↔ d.Valid isJson := by
  unfold Definition.validate
  simp only [Option.or_eq_none_iff, validateIdentity_eq_none, validateMessage_eq_none]
  constructor
  · rintro ⟨hname, hdescription, hschema, hrest⟩
    split_ifs at hrest with he hr hro hm
    refine ⟨hname, hdescription, hschema, he, hr, ?_, ?_, hrest⟩
    · simpa using hro
    · simpa using hm
  · rintro ⟨hname, hdescription, hschema, he, hr, hro, hm, hcaps⟩
    refine ⟨hname, hdescription, hschema, ?_⟩
    rw [if_neg he, if_neg hr, if_neg (by simpa using hro), if_neg (by simpa using hm)]
    exact hcaps

theorem Definition.Built.valid (h : d.Built isJson) : d.Valid isJson := by
  obtain ⟨capabilities, h⟩ := h
  unfold NewDefinition at h
  split at h
  · simp at h
  · rename_i hvalid
    have hd := Except.ok.inj h
    have hv := Definition.validate_eq_none.mp hvalid
    have hcaps : d.capabilities = capabilities.insertionSort fun a b => a.name ≤ b.name := by
      rw [← hd]
    refine ⟨hv.name, hv.description, hv.schema, hv.effect, hv.replaySafety, hv.readOnly,
      hv.mutating, ?_⟩
    rw [hcaps]
    exact validateCapabilities_perm (List.perm_insertionSort _ _).symm hv.capabilities

instance : Std.Total fun a b : Capability => a.name ≤ b.name := ⟨fun a b => le_total a.name b.name⟩

instance : IsTrans Capability fun a b => a.name ≤ b.name := ⟨fun _ _ _ h h' => le_trans h h'⟩

theorem Definition.Built.sorted (h : d.Built isJson) :
    d.capabilities.Pairwise fun a b => a.name ≤ b.name := by
  obtain ⟨capabilities, h⟩ := h
  unfold NewDefinition at h
  split at h
  · simp at h
  · have hd := Except.ok.inj h
    rw [← hd]
    exact List.pairwise_insertionSort _ _

theorem Definition.Built.rebuild (h : d.Built isJson) :
    NewDefinition isJson d.name d.description d.inputSchema d.effect d.replaySafety d.capabilities =
      .ok d := by
  unfold NewDefinition
  rw [show (Definition.mk d.name d.description d.inputSchema d.effect d.replaySafety
    d.capabilities).validate isJson = none from Definition.validate_eq_none.mpr h.valid]
  show Except.ok _ = _
  rw [h.sorted.insertionSort_eq]

/-! ## Results and failures -/

theorem Result.rebuild {r : Result} (h : r.validate isJson = none) :
    (if r.problem = "" then NewResult isJson r.callID r.content
      else NewErrorResult isJson r.callID r.content r.problem) = .ok r := by
  have hnew : ∀ problem, failed (newResult isJson r.callID r.content problem) = none →
      newResult isJson r.callID r.content problem = .ok ⟨r.callID, r.content, problem⟩ := by
    intro problem hp
    unfold newResult at hp ⊢
    split
    · rename_i e he
      rw [he] at hp
      simp [failed] at hp
    · rfl
  unfold Result.validate at h
  split_ifs at h ⊢ with hproblem
  · unfold NewResult at h ⊢
    rw [hnew "" h, ← hproblem]
  · unfold NewErrorResult at h ⊢
    split
    · rename_i e he
      rw [he] at h
      simp [failed] at h
    · rename_i he
      rw [he] at h
      exact hnew r.problem h

theorem Result.problem_of_validate {r : Result} (h : r.validate isJson = none)
    (hproblem : r.problem ≠ "") :
    trimmedToken r.problem = true ∧ r.problem.utf8ByteSize ≤ maximumProgressBytes := by
  unfold Result.validate NewErrorResult at h
  rw [if_neg hproblem] at h
  split at h
  · simp [failed] at h
  · rename_i he
    exact validateMessage_eq_none.mp he

/-- What `ExecutionError.Validate` checks. -/
structure ExecutionError.Valid (e : ExecutionError) : Prop where
  callID : validIdentity e.callID = true
  state : e.state ≠ .none
  retry : e.retry ≠ .none
  uncertain : ¬ (e.state = .uncertain ∧ e.retry ≠ .never)
  cause : ∃ cause, e.cause = some cause ∧ trimmedToken cause.message = true ∧
    cause.message.utf8ByteSize ≤ maximumExecutionErrorBytes ∧ cause.nested = false

theorem ExecutionError.validate_eq_none {e : ExecutionError} : e.validate = none ↔ e.Valid := by
  unfold ExecutionError.validate
  simp only [Option.or_eq_none_iff, validateIdentity_eq_none]
  constructor
  · rintro ⟨hid, hrest⟩
    split_ifs at hrest with hs hr hu
    split at hrest
    · simp at hrest
    · rename_i cause hcause
      simp only [Option.or_eq_none_iff, validateMessage_eq_none] at hrest
      refine ⟨hid, hs, hr, by simpa using hu, cause, hcause, hrest.1.1, hrest.1.2, ?_⟩
      simpa using hrest.2
  · rintro ⟨hid, hs, hr, hu, cause, hcause, htrimmed, hsize, hnested⟩
    refine ⟨hid, ?_⟩
    rw [if_neg hs, if_neg hr, if_neg (by simpa using hu), hcause]
    simp [htrimmed, hsize, hnested]

theorem NewExecutionError_ok {callID : String} {state : ExecutionState} {retry : RetryDisposition}
    {cause : Option Cause} {e : ExecutionError} :
    NewExecutionError callID state retry cause = .ok e ↔
      e = ⟨callID, state, retry, cause⟩ ∧ e.Valid := by
  unfold NewExecutionError
  split
  · rename_i err herr
    simp only [reduceCtorEq, false_iff, not_and]
    rintro rfl hvalid
    rw [ExecutionError.validate_eq_none.mpr hvalid] at herr
    simp at herr
  · rename_i hnone
    constructor
    · intro he
      obtain rfl := Except.ok.inj he
      exact ⟨rfl, ExecutionError.validate_eq_none.mp hnone⟩
    · rintro ⟨rfl, -⟩
      rfl

end SpiceAgent.Tool
