import SpiceAgent.Plugin.Contract
import SpiceAgent.Stage.Dispatcher

/-!
# Remote tools

`plugin/host/remote_tool.go`: `remoteTool.Execute` sends one request to a plugin and follows its
response stream. Everything the connection, the context and the reporter do is an input: the outcome
of the admission, of the call of the client, and what each `Recv` returns. `failure` panics where
`NewExecutionError` refuses its arguments.
-/

namespace SpiceAgent.Pluginhost

open SpiceAgent.Agent SpiceAgent.Tool SpiceAgent.Pluginv1 SpiceAgent.Stage

/-! ## Failures -/

inductive RemoteFailureMessage
  | admission | request | transport | protocol | missingTerminal | reporter

def RemoteFailureMessage.text : RemoteFailureMessage → String
  | admission => "runtime plugin execution was canceled before remote admission"
  | request => "runtime plugin execution request is invalid"
  | transport => "runtime plugin execution transport failed"
  | protocol => "runtime plugin execution stream is invalid"
  | missingTerminal => "runtime plugin execution ended without a terminal outcome"
  | reporter => "runtime plugin progress reporter rejected progress"

/-- `remoteFailureCause`: the fixed text, and the chain of the error it wraps. -/
def remoteFailureCause (message : RemoteFailureMessage) (cause : Option Cause) : Cause :=
  ⟨message.text, (cause.map (·.nested)).getD false⟩

/-- `remoteTool.failure`; `none` is its panic. -/
def remoteFailure (d : Definition) (callID : String) (definitive : Bool)
    (message : RemoteFailureMessage) (cause : Option Cause) : Option ExecutionError :=
  let state := if !definitive && d.effect = .mutating then .uncertain else .definitive
  match NewExecutionError callID state .never (some (remoteFailureCause message cause)) with
  | .ok e => some e
  | .error _ => none

/-- `return tool.Result{}, implementation.failure(…)`. -/
def failWith (d : Definition) (callID : String) (definitive : Bool)
    (message : RemoteFailureMessage) (cause : Option Cause) : Executed :=
  match remoteFailure d callID definitive message cause with
  | some e => .returned .zero (some (.execution e))
  | none => .panicked

def operationCause (context : Option Cause) (transport : Cause) : Option Cause :=
  some (context.getD transport)

/-! ## Streams -/

/-- What the context and the delegate of the reporter answer to progress. -/
structure ReportInput where
  context : Option Cause
  answer : Option Cause

/-- What one `Recv` returns, with the context and the reporter after it. -/
inductive Recv
  | frame (response : Option ExecuteResponse) (report : ReportInput)
  | error (eof : Bool) (cause : Cause) (context : Option Cause)

structure RemoteTerminal where
  result : Result
  failure : Option ExecutionError
  present : Bool

def RemoteTerminal.outcome (t : RemoteTerminal) : Executed :=
  match t.failure with
  | some e => .returned .zero (some (.execution e))
  | none => .returned t.result none

def compatibleTerminalFailure (d : Definition) (failure : ExecutionError) : Bool :=
  if failure.state = .uncertain && d.effect ≠ .mutating then false
  else failure.retry ≠ .allowed || d.replaySafety ≠ .never

variable (isJson : List UInt8 → Bool)

/-- `receive` over what the calls of `Recv` return, with the error of the scoped reporter. -/
def receive (d : Definition) (callID : String) :
    StreamValidator → RemoteTerminal → List Recv → Executed × Option Cause
  | _, _, [] => (.waiting, none)
  | v, t, .error eof cause context :: _ =>
    if t.present then
      match eof, v.finish with
      | true, .error _ => (failWith d callID false .protocol none, none)
      | _, _ => (t.outcome, none)
    else if eof then (failWith d callID false .missingTerminal none, none)
    else (failWith d callID false .transport (operationCause context cause), none)
  | v, t, .frame response report :: rest =>
    match v.accept isJson response with
    | .error _ => (failWith d callID false .protocol none, none)
    | .ok (.progress progress, v') =>
      match scopedReport callID report.context report.answer progress with
      | some e => (failWith d callID false .reporter none, some e)
      | none => receive d callID v' t rest
    | .ok (.result result, v') =>
      receive d callID v' { t with result := result, present := true } rest
    | .ok (.failure failure, v') =>
      if !compatibleTerminalFailure d failure then (failWith d callID false .protocol none, none)
      else receive d callID v' { t with failure := some failure, present := true } rest

/-! ## Calls -/

/-- The identity and the limits of a `remoteSession`. -/
structure RemoteSession where
  sessionID : List UInt8
  limits : Limits

/-- What `client.Execute` returns. -/
inductive Opened
  | failed (cause : Cause) (context : Option Cause)
  | noStream
  | stream (events : List Recv)

/-- What the connection and the context do during a call. -/
structure Behaviour where
  /-- The error of `acquire`. -/
  admission : Option Cause
  /-- The error of the context after it. -/
  context : Option Cause
  opened : Opened

def executeRequest (session : RemoteSession) (call : Call) : ExecuteRequest :=
  ⟨session.sessionID, call.id, call.name, call.arguments⟩

/-- `remoteTool.Execute`, with the error of the scoped reporter. -/
def execute (session : RemoteSession) (call : Call) (b : Behaviour) (d : Definition) :
    Executed × Option Cause :=
  if call.validate isJson ≠ none then
    (.returned .zero (some (.other "runtime plugin call is invalid")), none)
  else if call.name ≠ d.name then
    (.returned .zero (some (.other "runtime plugin call does not match the tool definition")), none)
  else match b.admission with
  | some cause => (failWith d call.id true .admission (some cause), none)
  | none =>
    match newStreamValidator isJson (executeRequest session call) session.sessionID
      session.limits with
    | .error _ => (failWith d call.id true .request none, none)
    | .ok validator =>
      match b.context with
      | some cause => (failWith d call.id true .admission (some cause), none)
      | none =>
        match b.opened with
        | .failed cause context =>
          (failWith d call.id false .transport (operationCause context cause), none)
        | .noStream => (failWith d call.id false .protocol none, none)
        | .stream events => receive isJson d call.id validator ⟨.zero, none, false⟩ events

/-- `client.Execute` is invoked. -/
def Behaviour.invokes (b : Behaviour) (session : RemoteSession) (call : Call) : Prop :=
  b.admission = none ∧ b.context = none ∧ ∃ v,
    newStreamValidator isJson (executeRequest session call) session.sessionID session.limits = .ok v

end SpiceAgent.Pluginhost
