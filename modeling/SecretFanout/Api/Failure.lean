import SecretFanout.Api.Message
import SecretFanout.Text.Quoted

/-!
# Failed requests

Why a request brought no result: it could not be built, the server reported an error, or
its answer was not what was asked for. A server reports an error as a document with a
code; where there is none, the report is made up from the response itself.
-/

namespace SecretFanout.Api

/-- What a server reports about an error. -/
structure Report where
  /-- The status in words. -/
  status : String
  /-- What happened. -/
  message : String
  /-- Why it happened, in one word. -/
  reason : String
  /-- The numeric code. -/
  code : Nat
  deriving DecidableEq

/-- Why a request brought no result. -/
inductive Failure where
  /-- The object to ask for has no name. -/
  | nameRequired
  /-- The address has a byte that may not stand there. -/
  | invalidAddress
  /-- The address is longer than one may be. -/
  | addressTooLong
  /-- The server reported an error. -/
  | reported (report : Report)
  /-- The answer is not of the form that was asked for. -/
  | undecodable
  deriving DecidableEq

/-- A report with all its fields. -/
def Report.text (r : Report) : String :=
  "ErrorResponse \x7b status: " ++ Text.Quoted.quote r.status ++ ", message: " ++
    Text.Quoted.quote r.message ++ ", reason: " ++ Text.Quoted.quote r.reason ++ ", code: " ++
    Text.natText r.code ++ " \x7d"

/-- A failure in words. -/
def Failure.message : Failure → String
  | .nameRequired =>
    "Failed to build request: failed to validate request: A non-empty name is required"
  | .invalidAddress => "Failed to build request: failed to build request: invalid uri character"
  | .addressTooLong => "Failed to build request: failed to build request: uri too long"
  | .reported r => "ApiError: " ++ r.message ++ ": " ++ r.reason ++ " (" ++ r.text ++ ")"
  | .undecodable => "Error deserializing response"

/-! ## Reading responses -/

/-- Whether a response reports an error. -/
def Response.isError (r : Response) : Bool := 400 ≤ r.status && r.status < 600

/-- The fields of a report. -/
def Report.names : List String := ["status", "message", "reason", "code"]

/-- Reads a report; no field of it may stand twice. -/
def Report.ofJson? (j : Json) : Option Report := do
  let fields ← j.record? names
  if names.any fun name => Json.hasRepeated name fields then none
  else
    pure {
      status := ← Json.required fields "status" Json.text?
      message := ← Json.defaulted fields "message" Json.text? ""
      reason := ← Json.defaulted fields "reason" Json.text? ""
      code := (← Json.required fields "code" (Json.integer? 0 65535)).toNat }

/-- The report in a response, or one made up from the response. -/
def Response.report (r : Response) : Report :=
  match r.json?.bind Report.ofJson? with
  | some report => report
  | none => {
      status := statusText r.status
      message := Text.Quoted.quote r.body
      reason := "Failed to parse error data"
      code := r.status }

/-- The result in a response. -/
def Response.decode {α : Type} (r : Response) (read : Json → Option α) : Except Failure α :=
  if r.isError then .error (.reported r.report)
  else
    match r.json?.bind read with
    | some a => .ok a
    | none => .error .undecodable

/-! ## Writing responses -/

/-- A report as a document. -/
def Report.toJson (r : Report) : Json :=
  .obj [("apiVersion", .str "v1"), ("code", .int r.code), ("kind", .str "Status"),
    ("message", .str r.message), ("reason", .str r.reason), ("status", .str r.status)]

/-- A response that reports an error. -/
def errorResponse (code : Nat) (reason message : String) : Response where
  status := code
  body := (Report.toJson { status := "Failure", message, reason, code }).render

/-- The response to a request for what there is not. -/
def unknownResource : Response := errorResponse 404 "NotFound" "resource \"unknown\" not found"

end SecretFanout.Api
