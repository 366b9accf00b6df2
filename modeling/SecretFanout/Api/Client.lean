import SecretFanout.Api.Failure
import SecretFanout.Fanout.Program

/-!
# The client of the cluster's interface

Reads and writes of secrets and the list of namespaces as requests over a `Transport`,
which answers requests from a state of its own. A secret that the server reports as
missing is no error; that is decided by the code in the report, not by the status.

* `Transport.gateway` lets programs run over a transport.
-/

namespace SecretFanout.Api

/-- How a state of the outer world answers requests. -/
structure Transport (σ : Type) where
  /-- Sends a request. -/
  send : Request → σ → Response × σ

/-! ## Requests -/

/-- The address of the namespaces. -/
def namespacesAddress : String := "/api/v1/namespaces"

/-- The address of the secrets in a namespace. -/
def secretsAddress (ns : String) : String := namespacesAddress ++ "/" ++ ns ++ "/secrets"

/-- Builds a request, or says why that cannot be done. -/
def build (method : Method) (address : String) (body : Option Json) : Except Failure Request :=
  if longestAddress < address.utf8ByteSize then .error .addressTooLong
  else
    match Request.make? method address body with
    | some request => .ok request
    | none => .error .invalidAddress

/-- Builds a request for an object that has to have a name. -/
def buildNamed (method : Method) (key : SecretKey) (mark : String) (body : Option Json) :
    Except Failure Request :=
  if key.name = "" then .error .nameRequired
  else build method (secretsAddress key.ns ++ "/" ++ key.name ++ mark) body

/-- The request for the list of namespaces; like all but the request for one object its
address has an empty query. -/
def listRequest : Except Failure Request := build .get (namespacesAddress ++ "?") none

/-- The request for a secret. -/
def readRequest (key : SecretKey) : Except Failure Request := buildNamed .get key "" none

/-- The request to add a secret. -/
def createRequest (s : Secret) : Except Failure Request :=
  build .post (secretsAddress s.key.ns ++ "?") (some s.toJson)

/-- The request to replace a secret. -/
def replaceRequest (s : Secret) : Except Failure Request :=
  buildNamed .put s.key "?" (some s.toJson)

/-! ## Answers -/

/-- Reads the metadata of a list, of which nothing is used. -/
def listMetaOfJson? (j : Json) : Option Unit := do
  let fields ← j.fields?
  let _ ← Json.optional fields "continue" Json.text?
  let _ ← Json.optional fields "remainingItemCount" Json.int64?
  let _ ← Json.optional fields "resourceVersion" Json.text?
  let _ ← Json.optional fields "selfLink" Json.text?

/-- Reads items; null stands for none. -/
def itemsOfJson? {α : Type} (item : Json → Option α) : Json → Option (List α)
  | .null => some []
  | j => j.list? item

/-- Reads a list of objects; its own fields may not stand twice, and all others have to be
such as can be held as a whole. -/
def listOfJson? {α : Type} (item : Json → Option α) (j : Json) : Option (List α) := do
  let fields ← j.fields?
  let own := ["metadata", "items"]
  if own.any fun name => Json.hasRepeated name fields then none
  if fields.any fun e => !own.contains e.1 && !e.2.isSound then none
  Json.defaulted fields "metadata" listMetaOfJson? ()
  Json.required fields "items" (itemsOfJson? item)

namespace Transport

variable {σ : Type}

/-- Sends a request, if it could be built, and reads the answer. -/
def call {α : Type} (t : Transport σ) (request : Except Failure Request)
    (read : Json → Option α) (s : σ) : Except Failure α × σ :=
  match request with
  | .error failure => (.error failure, s)
  | .ok request =>
    let (response, s) := t.send request s
    (response.decode read, s)

/-- Lists the namespaces. -/
def listNamespaces (t : Transport σ) (s : σ) : Reply (List Snapshot) × σ :=
  match t.call listRequest (listOfJson? Namespace.ofJson?) s with
  | (.ok namespaces, s) => (.ok (namespaces.map Namespace.snapshot), s)
  | (.error failure, s) => (.error (.listing (.api failure)), s)

/-- The code by which a server reports that there is no such object. -/
def missingCode : Nat := 404

/-- Reads a secret. -/
def readSecret (t : Transport σ) (key : SecretKey) (s : σ) : Reply (Option Secret) × σ :=
  match t.call (readRequest key) Secret.ofJson? s with
  | (.ok secret, s) => (.ok (some secret), s)
  | (.error (.reported report), s) =>
    if report.code = missingCode then (.ok none, s)
    else (.error (.reading key (.api (.reported report))), s)
  | (.error failure, s) => (.error (.reading key (.api failure)), s)

/-- Adds a secret; the answer is the secret as stored. -/
def createSecret (t : Transport σ) (secret : Secret) (s : σ) : Reply Secret × σ :=
  match t.call (createRequest secret) Secret.ofJson? s with
  | (.ok stored, s) => (.ok stored, s)
  | (.error failure, s) => (.error (.writing .create secret.key (.api failure)), s)

/-- Replaces a secret; the answer is the secret as stored. -/
def replaceSecret (t : Transport σ) (secret : Secret) (s : σ) : Reply Secret × σ :=
  match t.call (replaceRequest secret) Secret.ofJson? s with
  | (.ok stored, s) => (.ok stored, s)
  | (.error failure, s) => (.error (.writing .replace secret.key (.api failure)), s)

/-- Lets programs run over a transport. -/
def gateway (t : Transport σ) : Gateway σ where
  list := t.listNamespaces
  read := t.readSecret
  create secret s :=
    let (r, s) := t.createSecret secret s
    (r.map fun _ => (), s)
  replace secret s :=
    let (r, s) := t.replaceSecret secret s
    (r.map fun _ => (), s)

end Transport

end SecretFanout.Api
