import SpiceAgent.Lib.Text

/-!
# Interaction requests and responses

`interaction/interaction.go`: an interaction is scoped by the run that asks, and its request and
response are bounded byte strings; that they are UTF-8 is not checked. Whether a schema or a value
is JSON is a parameter.
-/

namespace SpiceAgent.Interaction

open SpiceAgent.Lib

def maximumPayloadBytes : ℕ := 512 * 1024

/-- `token` accepts the value. -/
def token (value : List UInt8) : Bool := trimmedBytes value && value.length ≤ 128

/-- `Scope.Validate` accepts the scope of the run. -/
def validScope (runID : String) : Bool := token (utf8 runID)

structure Request where
  id : List UInt8
  kind : List UInt8
  prompt : List UInt8
  schema : List UInt8
  deriving DecidableEq, Inhabited

structure Response where
  id : List UInt8
  value : List UInt8
  deriving DecidableEq

variable (isJson : List UInt8 → Bool)

/-- `validateJSON` accepts the value. -/
def validateJSON (value : List UInt8) : Bool :=
  !value.isEmpty && isJson value && value.length ≤ maximumPayloadBytes

/-- `Request.Validate` accepts the request. -/
def Request.validate (request : Request) : Bool :=
  token request.id && token request.kind && trimmedBytes request.prompt &&
    request.prompt.length ≤ maximumPayloadBytes && validateJSON isJson request.schema

/-- `Response.Validate` accepts the response. -/
def Response.validate (response : Response) : Bool :=
  token response.id && validateJSON isJson response.value

end SpiceAgent.Interaction
