import SpiceAgent.Event.Contract
import SpiceAgent.GrpcServer.StreamEvents
import SpiceAgent.Wire.InitializeContract

/-!
# Recovery from a cursor outside the window

The log, the engine contract and the status validator each decide whether a cursor lies in a window.
They agree, and the client gets its recovery cursor, except on an empty window and on the largest
`uint64`.
-/

namespace SpiceAgent.Grpcserver

open SpiceAgent.Lib SpiceAgent.Lib.ProtoSize SpiceAgent.Commonv1 SpiceAgent.Enginev1
  SpiceAgent.Event

/-! ## The frame -/

variable (failure : OutOfRangeError)

def outsideStatus : Status where
  code := .outOfRange
  message := "requested event cursor is outside the retained replay window"
  detail := some (.replayBounds
    { requestedAfterSequence := failure.requestedAfter, earliestSequence := failure.earliest
      latestSequence := failure.latest, recoverySequence := failure.recoveryAfter })

/-- The control frame with the recovery cursor. -/
def recoveryControl : StreamControl where
  status := some (outsideStatus failure)
  earliestSequence := failure.earliest
  latestSequence := failure.latest
  lastDeliveredSequence := failure.recoveryAfter

theorem outsideStatus_size_le : (outsideStatus failure).size ≤ 110 := by
  have hcode : uintField 1 ErrorCode.outOfRange.number = 2 := by decide
  have hmessage : bytesField 2
      "requested event cursor is outside the retained replay window".utf8ByteSize = 62 := by decide
  have hrest : boolField 3 false + bytesField 4 "".utf8ByteSize = 0 := by decide
  have h1 := uintField_le 1 failure.requestedAfter
  have h2 := uintField_le 2 failure.earliest
  have h3 := uintField_le 3 failure.latest
  have h4 := uintField_le 4 failure.recoveryAfter
  have htags : tagSize 1 + tagSize 2 + tagSize 3 + tagSize 4 = 4 := by decide
  have hbounds : (ReplayBounds.mk failure.requestedAfter failure.earliest failure.latest
      failure.recoveryAfter).size ≤ 44 := by
    simp only [ReplayBounds.size]
    omega
  have hdetail : lengthField 12 44 = 46 := by decide
  have hlength := lengthField_mono 12 hbounds
  simp only [Status.size, outsideStatus, hcode, hmessage, Option.map_some, Option.getD_some,
    Detail.size]
  omega

theorem recoveryControl_size_le :
    (StreamEventsResponse.control (recoveryControl failure)).size ≤ 148 := by
  have hstatus := lengthField_mono 1 (outsideStatus_size_le failure)
  have h2 := uintField_le 2 failure.earliest
  have h3 := uintField_le 3 failure.latest
  have h4 := uintField_le 4 failure.recoveryAfter
  have htags : tagSize 2 + tagSize 3 + tagSize 4 = 3 := by decide
  have hlong : lengthField 1 110 = 112 := by decide
  have hrest : boolField 5 false + optionalField 6 none + boolField 7 false = 0 := by decide
  have hcontrol : (recoveryControl failure).size ≤ 145 := by
    simp only [StreamControl.size, recoveryControl, Option.map_some, messageField]
    omega
  have hframe : lengthField 2 145 = 148 := by decide
  exact (lengthField_mono 2 hcontrol).trans_eq hframe

section

variable (isJson : String → Bool)

theorem sendEventFailure_recovery {limits : Limits}
    (hlimits : NegotiatedLimits limits) {failure : OutOfRangeError}
    (hvalid : validateStatus (some (outsideStatus failure)) = .ok ()) :
    sendEventFailure isJson limits (recoveryControl failure) =
      .sent (.control (recoveryControl failure)) := by
  have hbound := hlimits.message_bound
  have hsize := recoveryControl_size_le failure
  have hcontrol : validateStreamControl (recoveryControl failure) = .ok () := by
    unfold validateStreamControl
    exact check_bind_ok.mpr ⟨hvalid, rfl⟩
  have hresponse : validateEventResponse isJson (.control (recoveryControl failure)) limits =
      .ok () := by
    unfold validateEventResponse
    exact check_bind_ok.mpr ⟨hcontrol, validateEncodedSize_ok.mpr ⟨by omega, by omega⟩⟩
  have hkeep : ¬(((recoveryControl failure).status.map (·.code)).getD .unspecified = .ok ∨
      validateStatus (recoveryControl failure).status ≠ .ok ()) := by
    rintro (hok | hbad)
    · cases hok
    · exact hbad hvalid
  unfold sendEventFailure
  rw [if_neg hkeep, sendEventResponse, hresponse]

/-! ## The three window predicates -/

variable {start : ℕ} {accepted : List LogEntry} {log : Log} {after : ℕ}

theorem windowStart_lt_iff (h : log.Inv start accepted) :
    log.windowStart < log.lastSequence ↔ log.entries ≠ [] := by
  have hadd := h.windowStart_add
  rw [← List.length_pos_iff]
  omega

theorem validateStatus_outsideStatus (failure : OutOfRangeError) :
    validateStatus (some (outsideStatus failure)) = .ok () ↔
      validateReplayBounds ⟨failure.requestedAfter, failure.earliest, failure.latest,
        failure.recoveryAfter⟩ = .ok () := by
  have htoken : IsToken "requested event cursor is outside the retained replay window"
      maximumStatusBytes := by decide
  simp [validateStatus, outsideStatus, htoken, validateStatusDetail, knownErrorCode,
    ErrorCode.number]

/-- The status validator accepts the recovery bounds of a window that retains events. -/
theorem validateStatus_outside (h : log.Inv start accepted) (hout : ¬log.InWindow after) :
    validateStatus (some (outsideStatus (log.outOfRange after))) = .ok () ↔ log.entries ≠ [] := by
  have hlt := h.windowStart_lt
  unfold Log.InWindow at hout
  unfold Event.maxUint64 at hlt
  rw [← windowStart_lt_iff h, validateStatus_outsideStatus, validateReplayBounds, check_bind_ok,
    check_bind_ok, refuseIf_ok, refuseIf_ok]
  simp only [Log.outOfRange, h.bounds_eq]
  constructor
  · rintro ⟨hwindow, -⟩
    omega
  · intro hwindow
    refine ⟨by omega, by omega, ?_⟩
    split_ifs with hbelow
    · exact refuseIf_ok.mpr (by omega)
    · exact refuseIf_ok.mpr (not_not.mpr rfl)

theorem checkReplayCursor_bounds (h : log.Inv start accepted) :
    (log.InWindow after ∧ (after = Commonv1.maxUint64 → log.lastSequence ≠ Commonv1.maxUint64) →
      checkReplayCursor after log.bounds.1 log.bounds.2 = none) ∧
    (¬log.InWindow after ∨ after = Commonv1.maxUint64 ∧ log.lastSequence = Commonv1.maxUint64 →
      checkReplayCursor after log.bounds.1 log.bounds.2 =
        some (outsideStatus (log.outOfRange after))) := by
  have hadd := h.windowStart_add
  have hlt := h.windowStart_lt
  have hle := h.last_le
  unfold Event.maxUint64 at hlt hle
  rw [h.bounds_eq]
  constructor
  · rintro ⟨⟨hlow, hhigh⟩, hmax⟩
    refine if_pos ?_
    simp only [emptyWindow, validWindow, Bool.and_eq_true, decide_eq_true_eq]
    unfold Commonv1.maxUint64 at hmax ⊢
    by_cases hempty : log.windowStart = log.lastSequence
    · exact .inl ⟨⟨⟨by omega, by omega⟩, by omega⟩, by omega⟩
    · exact .inr ⟨⟨by omega, by omega⟩, by omega, by omega, by omega⟩
  · intro hcase
    have hrecovery : (log.windowStart + 1 + Commonv1.maxUint64) % 2 ^ 64 = log.windowStart := by
      unfold Commonv1.maxUint64
      omega
    unfold checkReplayCursor
    rw [if_neg, hrecovery, outsideStatus, Log.outOfRange, h.bounds_eq]
    simp only [emptyWindow, validWindow, Bool.and_eq_true, decide_eq_true_eq]
    unfold Log.InWindow at hcase
    unfold Commonv1.maxUint64 at hcase ⊢
    omega

theorem sendReplayFailure_outside {limits : Limits}
    (h : log.Inv start accepted) (hlimits : NegotiatedLimits limits) (hout : ¬log.InWindow after)
    (hentries : log.entries ≠ []) :
    sendReplayFailure isJson limits false after (.outOfRange (log.outOfRange after)) =
      .sent (.control (recoveryControl (log.outOfRange after))) := by
  have hvalid := (validateStatus_outside h hout).mpr hentries
  have hcheck := (checkReplayCursor_bounds h).2 (.inl hout)
  have hcontrol : replayFailureControl after (.outOfRange (log.outOfRange after)) =
      recoveryControl (log.outOfRange after) := by
    unfold replayFailureControl
    dsimp only [Log.outOfRange]
    rw [hcheck]
    exact if_pos ⟨rfl, rfl⟩
  change sendEventFailure isJson limits (replayFailureControl after _) = _
  rw [hcontrol]
  exact sendEventFailure_recovery isJson hlimits hvalid

/-! ## The contract -/

/-- The claim about one log and one cursor: what `Replay` reports as out of range reaches the client
with its recovery cursor, and `CheckReplayCursor` passes every cursor that it does not report. -/
def KeepsRecovery (limits : Limits) (log : Log) (after : ℕ) : Prop :=
  (∀ request ref failure, request.afterSequence = after →
    (log.replay false request ref).2 = .error (.outOfRange failure) →
    ∃ status bounds, checkReplayCursor after failure.earliest failure.latest = some status ∧
      validateStatus (some status) = .ok () ∧ status.code = .outOfRange ∧
      status.detail = some (.replayBounds bounds) ∧
      bounds.recoverySequence = failure.recoveryAfter ∧
      sendReplayFailure isJson limits false after (.outOfRange failure) = .sent (.control
        { status := some status, earliestSequence := failure.earliest
          latestSequence := failure.latest, lastDeliveredSequence := failure.recoveryAfter })) ∧
  ∀ request ref, request.afterSequence = after → log.Admits request →
    (∀ failure, (log.replay false request ref).2 ≠ .error (.outOfRange failure)) →
    checkReplayCursor after log.bounds.1 log.bounds.2 = none

/-- In every reachable log, and for every cursor, the recovery is kept exactly if an empty window is
only asked for its own cursor and the largest `uint64` is not asked of a log that has reached it. -/
theorem replay_recovery {limits : Limits} {runID : String}
    {logLimits : LogLimits} {w : World} (hlimits : NegotiatedLimits limits)
    (hstart : start ≤ Event.maxUint64) (hnew : newLogAfter runID start logLimits = .ok log)
    (hw : (logSystem log).Reachable w) (after : ℕ) :
    KeepsRecovery isJson limits w.log after ↔
      (w.log.entries = [] → after = w.log.lastSequence) ∧
      (after = Event.maxUint64 → w.log.lastSequence ≠ Event.maxUint64) := by
  have h := (logSystem_inv hstart hnew hw).log
  have hadmits : w.log.Admits (w.log.subscribeRequest after) :=
    ⟨h.limits.subscriberEvents, le_rfl, h.limits.subscriberBytes, le_rfl⟩
  constructor
  · rintro ⟨hreported, hpassed⟩
    refine ⟨fun hempty => ?_, fun hmax hlast => ?_⟩
    · by_contra hne
      have hadd := h.windowStart_add
      rw [hempty, List.length_nil, add_zero] at hadd
      have hout : ¬w.log.InWindow after := fun hin => hne (by have := hin.1; have := hin.2; omega)
      rcases h.replay_cases hadmits 0 with ⟨-, heq⟩ | ⟨hin, -⟩ | ⟨hin, -⟩
      · obtain ⟨status, _, hcheck, hvalid, -⟩ :=
          hreported (w.log.subscribeRequest after) 0 _ rfl (by rw [heq])
        obtain rfl := Option.some.inj
          (hcheck.symm.trans ((checkReplayCursor_bounds h).2 (.inl hout)))
        exact (validateStatus_outside h hout).mp hvalid hempty
      · exact hout hin
      · exact hout hin
    · -- a log at the largest sequence passes a cursor that `CheckReplayCursor` refuses
      have hin : w.log.InWindow after := ⟨by have := h.windowStart_lt; omega, by omega⟩
      have hnone := hpassed (w.log.subscribeRequest after) 0 rfl hadmits fun failure hr => by
        rcases (h.replay_failure (Prod.ext rfl hr)).2 with hc | ⟨_, _, hc⟩ | ⟨_, hc⟩ | ⟨hnot, -⟩
        · cases hc
        · cases hc
        · cases hc
        · exact hnot hin
      rw [(checkReplayCursor_bounds h).2 (.inr ⟨hmax, hlast⟩)] at hnone
      cases hnone
  · rintro ⟨hempty, hmax⟩
    refine ⟨?_, ?_⟩
    · rintro request ref failure rfl hr
      rcases (h.replay_failure (Prod.ext rfl hr)).2 with hc | ⟨_, _, hc⟩ | ⟨_, hc⟩ | ⟨hout, hc⟩
      · cases hc
      · cases hc
      · cases hc
      obtain rfl := LogError.outOfRange.inj hc
      have hentries : w.log.entries ≠ [] := by
        intro hnil
        have hadd := h.windowStart_add
        rw [hnil, List.length_nil, add_zero] at hadd
        have hcursor := hempty hnil
        exact hout ⟨by omega, by omega⟩
      exact ⟨outsideStatus _, _, (checkReplayCursor_bounds h).2 (.inl hout),
        (validateStatus_outside h hout).mpr hentries, rfl, rfl, rfl,
        sendReplayFailure_outside isJson h hlimits hout hentries⟩
    · rintro request ref rfl hadmits hpass
      rcases h.replay_cases hadmits ref with ⟨-, heq⟩ | ⟨hin, -⟩ | ⟨hin, -⟩
      · exact absurd (by rw [heq]) (hpass _)
      · exact (checkReplayCursor_bounds h).1 ⟨hin, hmax⟩
      · exact (checkReplayCursor_bounds h).1 ⟨hin, hmax⟩

end

/-- A log that has dropped its first two events sends the client to sequence 2. -/
theorem replay_recovery_evicted :
    ∃ w, (logSystem sampleLog).after
        ((List.range' 1 5).map fun n => .append (sampleEvent n "")) = some w ∧
      w.log.bounds = (3, 5) ∧
      ∀ isJson, KeepsRecovery isJson smallLimits w.log 0 := by
  have hrun : (logSystem sampleLog).after
      ((List.range' 1 5).map fun n => .append (sampleEvent n "")) = some _ := rfl
  refine ⟨_, hrun, by decide, fun isJson => ?_⟩
  refine (replay_recovery isJson smallLimits_negotiated (by decide) newLogAfter_sample
    (System.reachable_of_run hrun) 0).mpr ⟨fun hnil => absurd hnil (by decide), nofun⟩

/-- A log without events reports cursor 5 with the recovery cursor 0, but the status with these
bounds is refused, and the client gets the generic failure. -/
theorem replay_recovery_lost :
    (sampleLog.replay false ⟨5, 1, 100, false⟩ 0).2 =
        .error (.outOfRange ⟨5, 1, 0, 0⟩) ∧
      checkReplayCursor 5 1 0 = some (outsideStatus ⟨5, 1, 0, 0⟩) ∧
      validateStatus (some (outsideStatus ⟨5, 1, 0, 0⟩)) =
        .error (.text "replay bounds contain an invalid retained window") ∧
      sendReplayFailure (fun _ => true) smallLimits false 5 (.outOfRange ⟨5, 1, 0, 0⟩) =
        .sent (.control { status := some (internalLifecycleFailure "event stream failed") }) := by
  refine ⟨by rfl, by decide +kernel, by decide +kernel, by decide +kernel⟩

end SpiceAgent.Grpcserver
