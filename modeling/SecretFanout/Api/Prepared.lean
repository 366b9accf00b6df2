import SecretFanout.Api.Client

/-!
# Prepared responses

A server that only knows what it was told to say: a table of responses by method and
path. Of several entries for one request the last counts, and a request without an entry
is answered as one for a resource that does not exist.

* `respond` looks a request up, `Prepared.transport` also writes down the requests.
-/

namespace SecretFanout.Api

/-- The response to the requests of one method and path. -/
structure PreparedResponse where
  /-- The method. -/
  method : Method
  /-- The path. -/
  path : String
  /-- What is said. -/
  response : Response

/-- Whether an entry is for a request. -/
def PreparedResponse.isFor (p : PreparedResponse) (r : Request) : Bool :=
  p.method = r.method ∧ p.path = r.path

/-- The response to a request. -/
def respond (table : List PreparedResponse) (r : Request) : Response :=
  match table.reverse.find? fun p => p.isFor r with
  | some p => p.response
  | none => unknownResource

/-- A table of responses and the requests so far, the latest last. -/
structure Prepared where
  /-- The table. -/
  table : List PreparedResponse
  /-- The requests. -/
  requests : List Request := []

/-- A table as a server that writes down the requests. -/
def Prepared.transport : Transport Prepared where
  send request s := (respond s.table request, { s with requests := s.requests ++ [request] })

end SecretFanout.Api
