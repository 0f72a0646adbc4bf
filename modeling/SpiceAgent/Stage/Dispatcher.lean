import SpiceAgent.Stage.DispatchGuard
import SpiceAgent.Tool.Valid

/-!
# The dispatcher of tools

`stage/stage.go`: `Dispatcher.Dispatch` checks the scope, the call and the context, executes the
tool of the call's name and validates its outcome. What is known of the error that a tool returns is
whether it is an `ExecutionError` itself.
-/

namespace SpiceAgent.Stage

open SpiceAgent.Lib SpiceAgent.Agent SpiceAgent.Tool

/-- An error of `Execute`: exactly an `ExecutionError`, or anything else by its text. -/
inductive ExecuteError
  | execution (failure : ExecutionError)
  | other (message : String)
  deriving DecidableEq

/-- What became of a call of `Execute`. -/
inductive Executed
  | returned (result : Result) (error : Option ExecuteError)
  | panicked
  /-- It has not returned. -/
  | waiting
  deriving DecidableEq

/-- An error of `Dispatch`. -/
inductive DispatchError
  | execute (error : ExecuteError)
  /-- `DispatchFailure`. -/
  | failure (execution : ExecutionError) (reporter : Cause)
  | reporter (error : Cause)
  /-- The error of the context. -/
  | context (error : Cause)
  | text (message : String)

def validateExecutionError (call : Call) (definition : Definition) (result : Result)
    (error : ExecuteError) : ExecuteError :=
  if !result.isZero then
    .other ("tool " ++ quoted call.name ++ " returned both a result and an execution error")
  else match error with
  | .other _ => .other ("tool " ++ quoted call.name ++
      " returned an error that is not exactly one *tool.ExecutionError")
  | .execution failure =>
    match failure.validate with
    | some e => .other
        ("tool " ++ quoted call.name ++ " returned an invalid execution error: " ++ e)
    | none =>
      if failure.callID ≠ call.id then
        .other ("tool " ++ quoted call.name ++ " execution error used call ID " ++
          quoted failure.callID ++ " for active call " ++ quoted call.id)
      else if failure.state = .uncertain && definition.effect ≠ .mutating then
        .other ("read-only tool " ++ quoted call.name ++ " returned an uncertain mutation outcome")
      else if failure.retry = .allowed && definition.replaySafety = .never then
        .other ("replay-unsafe tool " ++ quoted call.name ++
          " returned retry-allowed execution failure")
      else .execution failure

/-- `scopedReporter.report`, given the error of the context and the answer of the delegate. -/
def scopedReport (callID : String) (context answer : Option Cause) (progress : Progress) :
    Option Cause :=
  match context with
  | some e => some e
  | none =>
    match NewProgress progress.callID progress.message with
    | .error e => some ⟨e, false⟩
    | .ok _ =>
      if progress.callID ≠ callID then
        some ⟨"tool progress call ID " ++ quoted progress.callID ++
          " does not match active call " ++ quoted callID, false⟩
      else answer

/-- A `Dispatcher`: the definitions that `NewDispatcher` accepted, found by their names. -/
structure Dispatcher (isJson : List UInt8 → Bool) where
  tools : List Definition
  valid : ∀ d ∈ tools, d.Valid isJson

section

variable {isJson : List UInt8 → Bool}

def Dispatcher.lookup (dispatcher : Dispatcher isJson) (name : String) : Option Definition :=
  dispatcher.tools.find? fun d => d.name = name

/-- What `Dispatch` returns. -/
inductive Dispatched
  | returned (result : Result) (error : Option DispatchError)
  | panicked
  | waiting

variable (isJson) in
/-- `Dispatch` after `Execute`, with the first error of the reporter. -/
def conclude (call : Call) (definition : Definition) (executed : Executed)
    (reporter : Option Cause) : Dispatched :=
  match executed with
  | .panicked => .panicked
  | .waiting => .waiting
  | .returned result (some error) =>
    match validateExecutionError call definition result error, reporter with
    | .execution failure, some reporterError =>
      .returned .zero (some (.failure failure reporterError))
    | validated, _ => .returned .zero (some (.execute validated))
  | .returned result none =>
    match reporter with
    | some reporterError => .returned .zero (some (.reporter reporterError))
    | none =>
      match result.validate isJson with
      | some e => .returned .zero
          (some (.text ("validate tool " ++ quoted call.name ++ " result: " ++ e)))
      | none =>
        if result.callID ≠ call.id then
          .returned .zero (some (.text ("tool " ++ quoted call.name ++ " returned call ID " ++
            quoted result.callID ++ " for active call " ++ quoted call.id)))
        else .returned result none

/-- `Dispatch`, given the error of the context and what `Execute` and the reporter do. -/
def Dispatcher.dispatch (dispatcher : Dispatcher isJson) (scope : ToolDispatchScope) (call : Call)
    (context : Option Cause) (execute : Definition → Executed × Option Cause) : Dispatched :=
  match scope.validate, call.validate isJson, context with
  | some e, _, _ => .returned .zero (some (.text e))
  | none, some e, _ => .returned .zero (some (.text e))
  | none, none, some e => .returned .zero (some (.context e))
  | none, none, none =>
    match dispatcher.lookup call.name with
    | none => .returned .zero (some (.text ("tool " ++ quoted call.name ++ " is not available")))
    | some definition =>
      conclude isJson call definition (execute definition).1 (execute definition).2

theorem Dispatcher.lookup_some {dispatcher : Dispatcher isJson} {name : String} {d : Definition}
    (h : dispatcher.lookup name = some d) : d.name = name ∧ d.Valid isJson :=
  ⟨by simpa using List.find?_some h, dispatcher.valid d (List.mem_of_find?_eq_some h)⟩

theorem validateExecutionError_eq {call : Call} {d : Definition} {failure : ExecutionError}
    (hvalid : failure.Valid) (hid : failure.callID = call.id)
    (hstate : failure.state = .uncertain → d.effect = .mutating)
    (hretry : failure.retry = .allowed → d.replaySafety ≠ .never) :
    validateExecutionError call d .zero (.execution failure) = .execution failure := by
  unfold validateExecutionError
  have hzero : Result.isZero .zero = true := Result.isZero_iff.mpr rfl
  have huncertain : ¬ (failure.state = .uncertain && decide (d.effect ≠ .mutating)) = true := by
    simpa using hstate
  have hallowed : ¬ (failure.retry = .allowed && decide (d.replaySafety = .never)) = true := by
    simpa using hretry
  simp only [hzero, ExecutionError.validate_eq_none.mpr hvalid, Bool.not_true, Bool.false_eq_true,
    if_false]
  rw [if_neg (not_not.mpr hid), if_neg huncertain, if_neg hallowed]

end

end SpiceAgent.Stage
