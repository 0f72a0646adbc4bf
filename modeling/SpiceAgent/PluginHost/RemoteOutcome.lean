import SpiceAgent.PluginHost.RemoteTool

/-!
# The outcomes of remote tools

What `remoteTool.Execute` returns through the dispatcher, for every behaviour of the connection. A
result or a failure of the plugin is taken over only as the last frame of a stream that the
validator accepted and that then ended; everything else is a failure of the host's own making, which
never allows a retry and is uncertain once the client was called for a mutating tool. The dispatcher
passes both on.
-/

namespace SpiceAgent.Pluginv1

open SpiceAgent.Lib SpiceAgent.Agent SpiceAgent.Commonv1 Except

variable (isJson : List UInt8 → Bool)

/-! ## Accepted frames -/

/-- The frames of responses that are all accepted. -/
def StreamValidator.acceptAll : StreamValidator → List (Option ExecuteResponse) →
    Option (List Frame)
  | _, [] => some []
  | v, response :: rest =>
    match v.accept isJson response with
    | .error _ => none
    | .ok (frame, v') => (v'.acceptAll rest).map (frame :: ·)

/-- A value that the tool package accepts for the call. -/
def Frame.Valid (callID : String) : Frame → Prop
  | progress _ => True
  | result r => r.validate isJson = none ∧ r.callID = callID
  | failure e => e.Valid ∧ e.callID = callID

variable {isJson}

theorem newResult_ok {callID problem : String} {content : List UInt8} {r : Tool.Result}
    (h : Tool.newResult isJson callID content problem = .ok r) : r =
      ⟨callID, content, problem⟩ := by
  unfold Tool.newResult at h
  split at h
  · simp at h
  · exact (ok.inj h).symm

theorem decodeResult_ok {callID : String} {value : WireResult} {r : Tool.Result}
    (h : decodeResult isJson callID value = .ok r) :
    r.validate isJson = none ∧ r.callID = callID := by
  unfold decodeResult at h
  split_ifs at h with hproblem
  · rw [mapError_eq_ok] at h
    have hnew : Tool.newResult isJson callID value.contentJSON "" = .ok r := h
    have hr := newResult_ok hnew
    refine ⟨?_, by rw [hr]⟩
    rw [hr]
    unfold Tool.Result.validate
    rw [if_pos rfl, h]
    rfl
  · rw [check_bind_ok, mapError_eq_ok, mapError_eq_ok] at h
    have hnew : Tool.newResult isJson callID value.contentJSON value.problem = .ok r := by
      have hproblem' := h.2
      unfold Tool.NewErrorResult at hproblem'
      split at hproblem'
      · simp at hproblem'
      · exact hproblem'
    have hr := newResult_ok hnew
    refine ⟨?_, by rw [hr]⟩
    rw [hr]
    unfold Tool.Result.validate
    rw [if_neg hproblem, h.2]
    rfl

theorem decodeFrame_valid {v : StreamValidator} {response : ExecuteResponse} {frame : Frame}
    (h : v.decodeFrame isJson response = .ok frame) : frame.Valid isJson v.callID := by
  unfold StreamValidator.decodeFrame at h
  split at h
  · simp at h
  · rw [check_bind_ok, bind_ok] at h
    obtain ⟨-, progress, -, hframe⟩ := h
    obtain rfl := ok.inj hframe
    trivial
  · simp at h
  · rw [check_bind_ok, bind_ok] at h
    obtain ⟨-, result, hresult, hframe⟩ := h
    obtain rfl := ok.inj hframe
    exact decodeResult_ok hresult
  · simp at h
  · rw [bind_ok] at h
    obtain ⟨failure, hfailure, hframe⟩ := h
    obtain rfl := ok.inj hframe
    unfold decodeExecutionFailure at hfailure
    rw [bind_ok] at hfailure
    obtain ⟨state, -, hfailure⟩ := hfailure
    rw [bind_ok] at hfailure
    obtain ⟨retry, -, hfailure⟩ := hfailure
    rw [check_bind_ok, mapError_eq_ok, Tool.NewExecutionError_ok] at hfailure
    obtain ⟨-, hfields, hvalid⟩ := hfailure
    exact ⟨hvalid, by rw [hfields]⟩
  · simp at h

/-- What an accepted frame says: the stream was open, the frame is valid, and a terminal frame ends
the stream. -/
theorem accept_ok {v v' : StreamValidator} {response : Option ExecuteResponse} {frame : Frame}
    (h : v.accept isJson response = .ok (frame, v')) :
    v.terminal = false ∧ frame.Valid isJson v.callID ∧ v'.terminal = frame.terminal ∧
      v'.callID = v.callID := by
  unfold StreamValidator.accept at h
  split at h
  · simp at h
  · rename_i hopen
    split at h
    · simp at h
    · rw [check_bind_ok, check_bind_ok, check_bind_ok, bind_ok] at h
      obtain ⟨-, -, -, f, hf, hpair⟩ := h
      have hpair := ok.inj hpair
      obtain ⟨rfl, rfl⟩ := Prod.mk.inj hpair
      exact ⟨by simpa using hopen, decodeFrame_valid hf, rfl, rfl⟩

theorem accept_terminal {v : StreamValidator} (h : v.terminal = true)
    (response : Option ExecuteResponse) : ∃ e, v.accept isJson response = .error e := by
  unfold StreamValidator.accept
  rw [if_pos h]
  exact ⟨_, rfl⟩

theorem newStreamValidator_ok {request : ExecuteRequest} {session : List UInt8} {limits : Limits}
    {v : StreamValidator} (h : newStreamValidator isJson request session limits = .ok v) :
    v.callID = request.callID ∧ v.terminal = false := by
  unfold newStreamValidator at h
  rw [bind_ok] at h
  obtain ⟨call, hcall, hv⟩ := h
  obtain rfl := ok.inj hv
  unfold decodeExecuteRequest at hcall
  simp only [check_bind_ok] at hcall
  obtain ⟨-, -, -, -, -, -, -, hcall⟩ := hcall
  obtain rfl := ok.inj hcall
  exact ⟨rfl, rfl⟩

end SpiceAgent.Pluginv1

namespace SpiceAgent.Pluginhost

open SpiceAgent.Agent SpiceAgent.Tool SpiceAgent.Pluginv1 SpiceAgent.Stage

variable {isJson : List UInt8 → Bool} {d : Definition} {callID : String}

/-! ## Failures of the host -/

/-- The error wraps no `ExecutionError`. -/
def PlainCause (cause : Option Cause) : Prop := ∀ c ∈ cause, c.nested = false

/-- What `failure` makes. -/
structure HostFailure (d : Definition) (callID : String) (definitive : Bool) (e : ExecutionError) :
    Prop where
  valid : e.Valid
  callID : e.callID = callID
  retry : e.retry = .never
  state : e.state = if !definitive && d.effect = .mutating then .uncertain else .definitive

theorem RemoteFailureMessage.text_valid (message : RemoteFailureMessage) :
    Lib.trimmedToken message.text = true ∧
      message.text.utf8ByteSize ≤ maximumExecutionErrorBytes := by
  cases message <;> decide +kernel

/-- A failure with an identity of a call and a plain cause is made, so that `failure` does not
panic. -/
theorem failWith_eq (hid : validIdentity callID = true) (definitive : Bool)
    (message : RemoteFailureMessage) {cause : Option Cause} (hplain : PlainCause cause) :
    ∃ e, failWith d callID definitive message cause = .returned .zero (some (.execution e)) ∧
      HostFailure d callID definitive e := by
  have hnested : (cause.map (·.nested)).getD false = false := by
    cases cause with
    | none => rfl
    | some c => exact hplain c rfl
  obtain ⟨htrimmed, hsize⟩ := message.text_valid
  let state : ExecutionState :=
    if !definitive && d.effect = .mutating then .uncertain else .definitive
  let e : ExecutionError := ⟨callID, state, .never, some (remoteFailureCause message cause)⟩
  have hvalid : e.Valid := by
    refine ⟨hid, ?_, by simp [e], by simp [e], _, rfl, htrimmed, hsize, hnested⟩
    show state ≠ .none
    simp only [state]
    split <;> simp
  have hnew : NewExecutionError callID state .never (some (remoteFailureCause message cause)) =
      .ok e := NewExecutionError_ok.mpr ⟨rfl, hvalid⟩
  refine ⟨e, ?_, hvalid, rfl, rfl, rfl⟩
  have hmade : remoteFailure d callID definitive message cause = some e := by
    unfold remoteFailure
    dsimp only
    rw [hnew]
  unfold failWith
  rw [hmade]

/-! ## Streams -/

/-- The stream was accepted up to a terminal frame and then ended: the outcome is that frame. -/
def Concluded (isJson : List UInt8 → Bool) (d : Definition) (v : StreamValidator)
    (events : List Recv) (r : Result) (error : Option ExecuteError) : Prop :=
  ∃ (received : List (Option ExecuteResponse × ReportInput)) (eof : Bool) (cause : Cause)
    (context : Option Cause) (rest : List Recv) (progress : List Frame) (last : Frame),
    events = received.map (fun x => .frame x.1 x.2) ++ .error eof cause context :: rest ∧
    v.acceptAll isJson (received.map Prod.fst) = some (progress ++ [last]) ∧
    (∀ f ∈ progress, f.terminal = false) ∧ last.Valid isJson v.callID ∧
    ((last = .result r ∧ error = none) ∨
      ∃ e, last = .failure e ∧ compatibleTerminalFailure d e = true ∧ r = .zero ∧
        error = some (.execution e))

/-- The causes that a stream can hand to `failure` wrap no `ExecutionError`. -/
def PlainEvents (events : List Recv) : Prop :=
  ∀ eof cause context, .error eof cause context ∈ events →
    cause.nested = false ∧ PlainCause context

theorem receive_present {v : StreamValidator} {t : RemoteTerminal} (hv : v.terminal = true)
    (ht : t.present = true) (events : List Recv) :
    receive isJson d callID v t events = (.waiting, none) ∨
      receive isJson d callID v t events = (failWith d callID false .protocol none, none) ∨
      receive isJson d callID v t events = (t.outcome, none) ∧
        ∃ eof cause context rest, events = .error eof cause context :: rest := by
  cases events with
  | nil => exact .inl rfl
  | cons event rest =>
    cases event with
    | error eof cause context =>
      refine .inr (.inr ⟨?_, eof, cause, context, rest, rfl⟩)
      unfold receive
      rw [if_pos ht]
      have hfinish : v.finish = .ok () := by
        unfold StreamValidator.finish
        rw [Lib.refuseIf_ok, hv]
        simp
      rw [hfinish]
      split
      · rename_i heq
        simp at heq
      · rfl
    | frame response report =>
      have hrefused : ∃ e, v.accept isJson response = .error e := accept_terminal hv response
      obtain ⟨e, he⟩ := hrefused
      refine .inr (.inl ?_)
      unfold receive
      rw [he]

/-- Before a terminal frame: the stream goes on, the host fails the call, or a terminal frame comes
and the stream ends. Only a refused progress leaves an error of the reporter behind. -/
theorem receive_open {v : StreamValidator} {t : RemoteTerminal} {events : List Recv}
    (hv : v.terminal = false) (ht : t.present = false) (htf : t.failure = none)
    (hplain : PlainEvents events) :
    receive isJson d callID v t events = (.waiting, none) ∨
      (∃ message cause reporter, PlainCause cause ∧ receive isJson d callID v t events =
        (failWith d callID false message cause, reporter)) ∨
      ∃ r error, receive isJson d callID v t events = (.returned r error, none) ∧
        Concluded isJson d v events r error := by
  have hnone : PlainCause none := by simp [PlainCause]
  induction events generalizing v with
  | nil => exact .inl rfl
  | cons event rest ih =>
    have hrest : PlainEvents rest := fun eof cause context hmem =>
      hplain eof cause context (List.mem_cons_of_mem _ hmem)
    cases event with
    | error eof cause context =>
      obtain ⟨hcause, hcontext⟩ := hplain eof cause context List.mem_cons_self
      refine .inr (.inl ?_)
      unfold receive
      rw [if_neg (by simp [ht])]
      split
      · exact ⟨_, _, _, hnone, rfl⟩
      · refine ⟨_, _, _, ?_, rfl⟩
        intro c hc
        cases hc
        cases context with
        | none => exact hcause
        | some c => exact hcontext c rfl
    | frame response report =>
      unfold receive
      cases haccept : v.accept isJson response with
      | error e => exact .inr (.inl ⟨_, _, _, hnone, rfl⟩)
      | ok pair =>
        obtain ⟨frame, v'⟩ := pair
        obtain ⟨-, hvalid, hterminal, hcall⟩ := accept_ok haccept
        cases frame with
        | progress progress =>
          dsimp only
          split
          · exact .inr (.inl ⟨_, _, _, hnone, rfl⟩)
          · rcases ih hterminal hrest with hwait | hfail | ⟨r, error, hreturn, hconcluded⟩
            · exact .inl hwait
            · exact .inr (.inl hfail)
            · obtain ⟨received, eof, cause, context, tail, frames, last, rfl, haccepts, hframes,
                hlast, hend⟩ := hconcluded
              refine .inr (.inr ⟨r, error, hreturn, (response, report) :: received, eof, cause,
                context, tail, .progress progress :: frames, last, rfl, ?_, ?_, ?_, hend⟩)
              · rw [List.map_cons, StreamValidator.acceptAll, haccept]
                simp [haccepts]
              · exact List.forall_mem_cons.mpr ⟨rfl, hframes⟩
              · rw [← hcall]
                exact hlast
        | result result =>
          dsimp only
          rcases receive_present hterminal (t := { t with result := result, present := true })
            rfl rest with hwait | hfail | ⟨houtcome, eof, cause, context, tail, rfl⟩
          · exact .inl hwait
          · exact .inr (.inl ⟨_, _, _, hnone, hfail⟩)
          · refine .inr
              (.inr ⟨result, none, ?_, [(response, report)], eof, cause, context, tail, [],
              .result result, rfl, ?_, by simp, hvalid, .inl ⟨rfl, rfl⟩⟩)
            · rw [houtcome]
              unfold RemoteTerminal.outcome
              simp only [htf]
            · rw [List.map_singleton, StreamValidator.acceptAll, haccept]
              rfl
        | failure failure =>
          dsimp only
          split
          · exact .inr (.inl ⟨_, _, _, hnone, rfl⟩)
          · rename_i hcompatible
            rcases receive_present hterminal
              (t := { t with failure := some failure, present := true }) rfl rest
              with hwait | hfail | ⟨houtcome, eof, cause, context, tail, rfl⟩
            · exact .inl hwait
            · exact .inr (.inl ⟨_, _, _, hnone, hfail⟩)
            · refine .inr (.inr ⟨.zero, some (.execution failure), houtcome, [(response, report)],
                eof, cause, context, tail, [], .failure failure, rfl, ?_, by simp, hvalid,
                .inr ⟨failure, rfl, by simpa using hcompatible, rfl, rfl⟩⟩)
              rw [List.map_singleton, StreamValidator.acceptAll, haccept]
              rfl

/-! ## Calls -/

/-- No error of the connection or of the context wraps an `ExecutionError`. -/
def Behaviour.Plain (b : Behaviour) : Prop :=
  PlainCause b.admission ∧ PlainCause b.context ∧
    match b.opened with
    | .failed cause context => cause.nested = false ∧ PlainCause context
    | .noStream => True
    | .stream events => PlainEvents events

/-- The outcome is the terminal frame of the stream that the client opened. -/
def Behaviour.Concluded (isJson : List UInt8 → Bool) (b : Behaviour) (session : RemoteSession)
    (call : Call) (d : Definition) (r : Result) (error : Option ExecuteError) : Prop :=
  ∃ v events, newStreamValidator isJson (executeRequest session call) session.sessionID
      session.limits = .ok v ∧ b.opened = .stream events ∧
    Pluginhost.Concluded isJson d v events r error

/-- What `Execute` does with a call that the dispatcher let through. -/
inductive ExecuteCases (isJson : List UInt8 → Bool) (session : RemoteSession) (call : Call)
    (b : Behaviour) (d : Definition) : Executed × Option Cause → Prop
  | refused {message : RemoteFailureMessage} {cause : Option Cause} (hplain : PlainCause cause)
      (hnot : ¬ b.invokes isJson session call) :
      ExecuteCases isJson session call b d (failWith d call.id true message cause, none)
  | failed {message : RemoteFailureMessage} {cause reporter : Option Cause}
      (hplain : PlainCause cause) (hinvokes : b.invokes isJson session call) :
      ExecuteCases isJson session call b d (failWith d call.id false message cause, reporter)
  | waiting : ExecuteCases isJson session call b d (.waiting, none)
  | concluded {r : Result} {error : Option ExecuteError} (hinvokes : b.invokes isJson session call)
      (hconcluded : b.Concluded isJson session call d r error) :
      ExecuteCases isJson session call b d (.returned r error, none)

section

variable {session : RemoteSession} {call : Call} {b : Behaviour}

theorem execute_cases (hcall : call.validate isJson = none) (hname : d.name = call.name)
    (hplain : b.Plain) :
    ExecuteCases isJson session call b d (execute isJson session call b d) := by
  obtain ⟨hadmission, hcontext, hopened⟩ := hplain
  have hnone : PlainCause none := by simp [PlainCause]
  unfold execute
  rw [if_neg (not_not.mpr hcall), if_neg (not_not.mpr hname.symm)]
  cases ha : b.admission with
  | some cause =>
    exact .refused (ha ▸ hadmission) fun ⟨hadmitted, _⟩ => by simp [ha] at hadmitted
  | none =>
    cases hv : newStreamValidator isJson (executeRequest session call) session.sessionID
      session.limits with
    | error e =>
      refine .refused hnone ?_
      rintro ⟨-, -, v, hv'⟩
      rw [hv] at hv'
      simp at hv'
    | ok v =>
      cases hc : b.context with
      | some cause =>
        exact .refused (hc ▸ hcontext) fun ⟨_, hlive, _⟩ => by simp [hc] at hlive
      | none =>
        have hinvokes : b.invokes isJson session call := ⟨ha, hc, v, hv⟩
        cases ho : b.opened with
        | failed cause context =>
          rw [ho] at hopened
          refine .failed ?_ hinvokes
          intro c hmem
          cases hmem
          cases context with
          | none => exact hopened.1
          | some c => exact hopened.2 c rfl
        | noStream => exact .failed hnone hinvokes
        | stream events =>
          rw [ho] at hopened
          obtain ⟨-, hterminal⟩ := newStreamValidator_ok hv
          dsimp only
          rcases receive_open (t := ⟨.zero, none, false⟩) hterminal rfl rfl hopened with
            hwait | ⟨message, cause, reporter, hcause, hfail⟩ | ⟨r, error, hreturn, hconcluded⟩
          · rw [hwait]
            exact .waiting
          · rw [hfail]
            exact .failed hcause hinvokes
          · rw [hreturn]
            exact .concluded hinvokes ⟨v, events, hv, ho, hconcluded⟩

/-- A terminal outcome of the stream is a valid result of the call, or a failure of the call that
the definition admits. -/
theorem Behaviour.Concluded.outcome {r : Result} {error : Option ExecuteError}
    (h : b.Concluded isJson session call d r error) :
    (error = none ∧ r.validate isJson = none ∧ r.callID = call.id) ∨ ∃ e, error =
      some (.execution e) ∧ r = .zero ∧ e.Valid ∧ e.callID = call.id ∧
      compatibleTerminalFailure d e = true := by
  obtain ⟨v, events, hv, -, received, eof, cause, context, rest, progress, last, -, -, -, hlast,
    hend⟩ := h
  obtain ⟨hid, -⟩ := newStreamValidator_ok hv
  rcases hend with ⟨rfl, rfl⟩ | ⟨e, rfl, hcompatible, rfl, rfl⟩
  · exact .inl ⟨rfl, hlast.1, hlast.2.trans hid⟩
  · exact .inr ⟨e, rfl, rfl, hlast.1, hlast.2.trans hid, hcompatible⟩

end

theorem compatibleTerminalFailure_iff {e : ExecutionError} :
    compatibleTerminalFailure d e = true ↔
      (e.state = .uncertain → d.effect = .mutating) ∧
        (e.retry = .allowed → d.replaySafety ≠ .never) := by
  unfold compatibleTerminalFailure
  split_ifs with h
  · simp only [Bool.and_eq_true, decide_eq_true_eq] at h
    simp [h.1, h.2]
  · simp only [Bool.and_eq_true, decide_eq_true_eq, not_and, not_not] at h
    simp only [Bool.or_eq_true, decide_eq_true_eq]
    constructor
    · exact fun hor => ⟨h, fun hallowed => hor.resolve_left (not_not.mpr hallowed)⟩
    · exact fun hboth => or_iff_not_imp_left.mpr fun hallowed => hboth.2 (not_not.mp hallowed)

theorem dispatch_eq_conclude {dispatcher : Dispatcher isJson} {scope : ToolDispatchScope}
    {call : Call} (hscope : scope.validate = none) (hcall : call.validate isJson = none)
    (hd : dispatcher.lookup call.name = some d) (f : Definition → Executed × Option Cause) :
    dispatcher.dispatch scope call none f = conclude isJson call d (f d).1 (f d).2 := by
  unfold Dispatcher.dispatch
  rw [hscope, hcall, hd]

theorem conclude_failure {call : Call} {e : ExecutionError} (reporter : Option Cause)
    (hvalid : validateExecutionError call d .zero (.execution e) = .execution e) :
    conclude isJson call d (.returned .zero (some (.execution e))) reporter =
      .returned .zero (some (match reporter with
        | some c => .failure e c
        | none => .execute (.execution e))) := by
  unfold conclude
  dsimp only
  rw [hvalid]
  cases reporter <;> rfl

/-- For every tool of a dispatcher that a remote session executes, every call that the dispatcher
lets through and every behaviour of the connection none of whose errors wraps an `ExecutionError`:
`failure` does not panic; a success is the one result frame of an accepted stream that ended after
it; an error is an `ExecutionError` of the call, which the dispatcher passes on; it allows a retry
only as the terminal failure frame of such a stream and for a tool that may be replayed; it is
definitive before the client is called, and after that it is the terminal failure frame, or it
forbids a retry and is uncertain if the tool mutates. -/
theorem conservative_remote_outcomes (dispatcher : Dispatcher isJson) (scope : ToolDispatchScope)
    (call : Call) (session : RemoteSession) (b : Behaviour) (d : Definition)
    (hd : dispatcher.lookup call.name = some d) (hscope : scope.validate = none)
    (hcall : call.validate isJson = none) (hplain : b.Plain) :
    (execute isJson session call b d).1 ≠ .panicked ∧
    (∀ r, (execute isJson session call b d).1 = .returned r none →
      b.Concluded isJson session call d r none ∧
        dispatcher.dispatch scope call none (execute isJson session call b) = .returned r none) ∧
    ∀ r error, (execute isJson session call b d).1 = .returned r (some error) →
      r = .zero ∧ ∃ e, error = .execution e ∧ e.callID = call.id ∧
        validateExecutionError call d r error = error ∧
        dispatcher.dispatch scope call none (execute isJson session call b) =
          .returned .zero (some (match (execute isJson session call b d).2 with
            | some reporter => .failure e reporter
            | none => .execute (.execution e))) ∧
        (e.retry = .allowed → d.replaySafety ≠ .never ∧
          b.Concluded isJson session call d r (some error)) ∧
        (¬ b.invokes isJson session call → e.state = .definitive) ∧
        (b.invokes isJson session call → b.Concluded isJson session call d r (some error) ∨
          (e.retry = .never ∧ (d.effect = .mutating → e.state = .uncertain))) := by
  obtain ⟨hname, -⟩ := dispatcher.lookup_some hd
  have hid : validIdentity call.id = true := Call.validate_id isJson hcall
  have hcases : ExecuteCases isJson session call b d (execute isJson session call b d) :=
    execute_cases hcall hname hplain
  have hdispatch := dispatch_eq_conclude hscope hcall hd (execute isJson session call b)
  rw [hdispatch]
  generalize execute isJson session call b d = executed at hcases ⊢
  cases hcases with
  | @refused message cause hcause hnot =>
    obtain ⟨e, he, hfail⟩ := failWith_eq (d := d) hid true message hcause
    rw [he]
    have hpass : validateExecutionError call d .zero (.execution e) = .execution e :=
      validateExecutionError_eq hfail.valid hfail.callID (by simp [hfail.state])
        (by simp [hfail.retry])
    refine ⟨by simp, by simp, ?_⟩
    rintro r error hreturn
    obtain ⟨rfl, hsome⟩ := Executed.returned.inj hreturn
    cases hsome
    refine ⟨rfl, e, rfl, hfail.callID, hpass, conclude_failure none hpass, ?_, ?_, ?_⟩
    · simp [hfail.retry]
    · intro _
      simpa using hfail.state
    · exact fun hinvokes => absurd hinvokes hnot
  | @failed message cause reporter hcause hinvokes =>
    obtain ⟨e, he, hfail⟩ := failWith_eq (d := d) hid false message hcause
    rw [he]
    have hstate : e.state = .uncertain → d.effect = .mutating := by
      rw [hfail.state]
      simp
    have hpass : validateExecutionError call d .zero (.execution e) = .execution e :=
      validateExecutionError_eq hfail.valid hfail.callID hstate (by simp [hfail.retry])
    refine ⟨by simp, by simp, ?_⟩
    rintro r error hreturn
    obtain ⟨rfl, hsome⟩ := Executed.returned.inj hreturn
    cases hsome
    refine ⟨rfl, e, rfl, hfail.callID, hpass, conclude_failure reporter hpass, ?_, ?_, ?_⟩
    · simp [hfail.retry]
    · exact fun hnot => absurd hinvokes hnot
    · intro _
      refine .inr ⟨hfail.retry, fun hmutating => ?_⟩
      rw [hfail.state]
      simp [hmutating]
  | waiting => simp
  | @concluded r error hinvokes hconcluded =>
    rcases hconcluded.outcome with
      ⟨rfl, hvalid, hcallID⟩ | ⟨e, rfl, rfl, hvalid, hcallID, hcompatible⟩
    · refine ⟨by simp, ?_, by simp⟩
      intro r' hreturn
      obtain ⟨rfl, -⟩ := Executed.returned.inj hreturn
      refine ⟨hconcluded, ?_⟩
      unfold conclude
      simp only [hvalid, hcallID, ne_eq, not_true_eq_false, if_false]
    · obtain ⟨hstate, hretry⟩ := compatibleTerminalFailure_iff.mp hcompatible
      have hpass : validateExecutionError call d .zero (.execution e) = .execution e :=
        validateExecutionError_eq hvalid hcallID hstate hretry
      refine ⟨by simp, by simp, ?_⟩
      rintro r' error hreturn
      obtain ⟨rfl, hsome⟩ := Executed.returned.inj hreturn
      cases hsome
      refine ⟨rfl, e, rfl, hcallID, hpass, conclude_failure none hpass, ?_, ?_, ?_⟩
      · exact fun hallowed => ⟨hretry hallowed, hconcluded⟩
      · exact fun hnot => absurd hinvokes hnot
      · exact fun _ => .inl hconcluded

/-! ## Fixed calls -/

def exampleTool : Definition :=
  ⟨"write", "Writes a file.", [0x7b, 0x7d], .mutating, .never, []⟩

def exampleDispatcher : Dispatcher (fun _ => true) where
  tools := [exampleTool]
  valid := by
    intro d hd
    obtain rfl := List.mem_singleton.mp hd
    exact Definition.validate_eq_none.mp (by decide +kernel)

def exampleScope : ToolDispatchScope :=
  ⟨"run", 1, "plan", "sha256:" ++ String.ofList (List.replicate 64 'a'), "", "run", some 0⟩

def exampleCall : Call := ⟨"call", "write", [0x7b, 0x7d]⟩

def exampleSession : RemoteSession :=
  ⟨List.replicate 16 0, ⟨1048576, 16, 65536, 65536, 65536, 4096, 4⟩⟩

def exampleStream (payload : Payload) : Behaviour :=
  ⟨none, none, .stream [.frame (some ⟨"call", 1, some payload, 0⟩) ⟨none, none⟩,
    .error false ⟨"connection reset", false⟩ none]⟩

/-- A connection whose first error has the given chain. -/
def exampleBroken (nested : Bool) : Behaviour :=
  ⟨none, none, .failed ⟨"unavailable", nested⟩ none⟩

theorem conservative_remote_outcomes_broken :
    (execute (fun _ => true) exampleSession exampleCall (exampleBroken false) exampleTool).1 ≠
        .panicked ∧
      ∃ e, (execute (fun _ => true) exampleSession exampleCall (exampleBroken false)
          exampleTool).1 =
          .returned .zero (some (.execution e)) ∧ e.state = .uncertain ∧ e.callID = "call" := by
  have hplain : (exampleBroken false).Plain := by
    refine ⟨by simp [exampleBroken, PlainCause], by simp [exampleBroken, PlainCause], ?_⟩
    simp [exampleBroken, PlainCause]
  obtain ⟨hpanic, -, herror⟩ := conservative_remote_outcomes exampleDispatcher exampleScope
    exampleCall exampleSession (exampleBroken false) exampleTool (by decide +kernel)
    (by decide +kernel) (by decide +kernel) hplain
  have hreturn : (execute (fun _ => true) exampleSession exampleCall (exampleBroken false)
      exampleTool).1 = .returned .zero (some (.execution ⟨"call", .uncertain, .never,
        some ⟨"runtime plugin execution transport failed", false⟩⟩)) := by decide +kernel
  obtain ⟨-, e, he, hid, -⟩ := herror _ _ hreturn
  obtain rfl := ExecuteError.execution.inj he
  exact ⟨hpanic, _, hreturn, rfl, hid⟩

/-- The plugin ends a mutating call with a definitive failure, which is returned as such although
the client was called. An error of the connection that wraps an `ExecutionError` makes `failure`
panic. -/
theorem remote_outcomes_as_stated_fail :
    (∃ e, (execute (fun _ => true) exampleSession exampleCall
        (exampleStream (.failure (some ⟨.definitive, .never, "disk full"⟩))) exampleTool).1 =
          .returned .zero (some (.execution e)) ∧ exampleTool.effect = .mutating ∧
        e.retry = .never ∧ e.state = .definitive) ∧
      (execute (fun _ => true) exampleSession exampleCall (exampleBroken true) exampleTool).1 =
        .panicked := by
  refine ⟨⟨⟨"call", .definitive, .never, some ⟨"disk full", false⟩⟩, ?_, rfl, rfl, rfl⟩, ?_⟩
  · decide +kernel
  · decide +kernel

end SpiceAgent.Pluginhost
