import SecretFanout.Json.Text
import SecretFanout.Text.Numeral

/-!
# Requests and responses

What a client of the cluster's interface sends and what comes back. The address of a
request is checked byte by byte: a path has no blanks and no control characters, ends at
`?`, behind which the query starts, and whatever follows `#` is dropped.

* `Request.make?` checks an address and builds a request.
* `Response.json?` is the document in a response.
-/

namespace SecretFanout.Api

/-- What a request asks for. -/
inductive Method where
  /-- To see an object or a list. -/
  | get
  /-- To add an object. -/
  | post
  /-- To put an object in the place of another. -/
  | put
  deriving DecidableEq

/-- The word for a method. -/
def Method.text : Method → String
  | .get => "GET"
  | .post => "POST"
  | .put => "PUT"

/-- A request. -/
structure Request where
  /-- What it asks for. -/
  method : Method
  /-- The path of its address. -/
  path : String
  /-- The query of its address; empty if there is none. -/
  query : String := ""
  /-- The text it sends along. -/
  body : Option String := none
  deriving DecidableEq

/-- A response. -/
structure Response where
  /-- The numeric status. -/
  status : Nat
  /-- The text it brings. -/
  body : String
  deriving DecidableEq

/-- The document that a request sends along. -/
def Request.json? (r : Request) : Option Json := r.body.bind Json.ofText?

/-- The document in a response. -/
def Response.json? (r : Response) : Option Json := Json.ofText? r.body

/-! ## Addresses -/

/-- Whether a byte may stand in a path. -/
def isPathByte (b : UInt8) : Bool :=
  b = 0x21 || b = 0x22 || (0x24 ≤ b && b ≤ 0x3b) || b = 0x3d || (0x40 ≤ b && b ≤ 0x5f) ||
    (0x61 ≤ b && b ≤ 0x7e) || 0x80 ≤ b

/-- Whether a byte may stand in a query. -/
def isQueryByte (b : UInt8) : Bool :=
  b = 0x21 || (0x24 ≤ b && b ≤ 0x3b) || b = 0x3d || (0x3f ≤ b && b ≤ 0x7e) || 0x80 ≤ b

/-- Whether every byte of a text passes a test. -/
def allBytes (test : UInt8 → Bool) (s : List Char) : Bool :=
  (String.ofList s).toUTF8.data.all test

/-- Splits an address into path and query, if both are well formed. -/
def splitAddress? (address : String) : Option (String × String) :=
  let s := address.toList.takeWhile fun c => c != '#'
  let path := s.takeWhile fun c => c != '?'
  let query := (s.dropWhile fun c => c != '?').drop 1
  if allBytes isPathByte path && allBytes isQueryByte query then
    some (String.ofList path, String.ofList query)
  else none

/-- The longest address in bytes. -/
def longestAddress : Nat := 65534

/-- Builds a request, if its address is well formed; a document is sent along as text. -/
def Request.make? (method : Method) (address : String) (body : Option Json) : Option Request :=
  (splitAddress? address).map fun (path, query) =>
    { method, path, query, body := body.map Json.render }

/-! ## Statuses -/

/-- The name of a status that reports an error. -/
def statusPhrase? : Nat → Option String
  | 400 => some "Bad Request"
  | 401 => some "Unauthorized"
  | 402 => some "Payment Required"
  | 403 => some "Forbidden"
  | 404 => some "Not Found"
  | 405 => some "Method Not Allowed"
  | 406 => some "Not Acceptable"
  | 407 => some "Proxy Authentication Required"
  | 408 => some "Request Timeout"
  | 409 => some "Conflict"
  | 410 => some "Gone"
  | 411 => some "Length Required"
  | 412 => some "Precondition Failed"
  | 413 => some "Payload Too Large"
  | 414 => some "URI Too Long"
  | 415 => some "Unsupported Media Type"
  | 416 => some "Range Not Satisfiable"
  | 417 => some "Expectation Failed"
  | 418 => some "I'm a teapot"
  | 421 => some "Misdirected Request"
  | 422 => some "Unprocessable Entity"
  | 423 => some "Locked"
  | 424 => some "Failed Dependency"
  | 425 => some "Too Early"
  | 426 => some "Upgrade Required"
  | 428 => some "Precondition Required"
  | 429 => some "Too Many Requests"
  | 431 => some "Request Header Fields Too Large"
  | 451 => some "Unavailable For Legal Reasons"
  | 500 => some "Internal Server Error"
  | 501 => some "Not Implemented"
  | 502 => some "Bad Gateway"
  | 503 => some "Service Unavailable"
  | 504 => some "Gateway Timeout"
  | 505 => some "HTTP Version Not Supported"
  | 506 => some "Variant Also Negotiates"
  | 507 => some "Insufficient Storage"
  | 508 => some "Loop Detected"
  | 510 => some "Not Extended"
  | 511 => some "Network Authentication Required"
  | _ => none

/-- A status with its name. -/
def statusText (status : Nat) : String :=
  Text.natText status ++ " " ++ (statusPhrase? status).getD "<unknown status code>"

end SecretFanout.Api
