import SecretFanout.Api.Client
import SecretFanout.Cluster.Change

/-!
# The cluster's interface

A cluster that answers requests. Refusals are reported with a code, a word for the
reason and a text; what there is no address for is reported as missing. All exchanges are
written down.

* `answer` answers one request, `Session.transport` is the cluster as a transport.
-/

namespace SecretFanout.Api

/-! ## Responses -/

/-- The response when a store refuses a call that concerns a key. -/
def faultResponse (key : SecretKey) : StoreFault → Response
  | .unreachable => errorResponse 500 "InternalError" "etcd unavailable"
  | .timeout => errorResponse 500 "InternalError" ("secret " ++ key.text ++ " timeout")
  | .forbidden => errorResponse 403 "Forbidden" (subject ++ " is forbidden")
  | .alreadyExists => errorResponse 409 "AlreadyExists" (subject ++ " already exists")
  | .notFound => errorResponse 404 "NotFound" (subject ++ " not found")
  | .conflict => errorResponse 409 "Conflict" (subject ++ " has been modified")
where
  /-- The secret that a report is about. -/
  subject : String := "secrets \"" ++ key.name ++ "\""

/-- A list of namespaces as a document. -/
def namespaceListJson (c : Cluster) (namespaces : List Namespace) : Json :=
  .obj [("apiVersion", .str "v1"), ("items", Json.ofList Namespace.toJson namespaces),
    ("kind", .str "NamespaceList"),
    ("metadata", .obj [("resourceVersion", .str (Text.natText c.version))])]

/-- The response to a write. -/
def writeResponse (status : Nat) (key : SecretKey) :
    Except StoreFault Unit × Cluster → Response × Cluster
  | (.error fault, c) => (faultResponse key fault, c)
  | (.ok (), c) =>
    match c.secrets.get? key with
    | some stored => (⟨status, stored.toJson.render⟩, c)
    | none => (faultResponse key .notFound, c)

/-! ## Requests -/

/-- What a path leads to. -/
inductive Place where
  /-- The namespaces. -/
  | namespaces
  /-- The secrets in a namespace. -/
  | secrets (ns : String)
  /-- A secret. -/
  | secret (key : SecretKey)
  deriving DecidableEq

/-- Splits a text at slashes. -/
def splitSlashes (s : List Char) : List (List Char) :=
  s.foldr (fun c parts =>
    if c = '/' then [] :: parts
    else
      match parts with
      | part :: rest => (c :: part) :: rest
      | [] => [[c]]) [[]]

/-- What a path leads to, if it leads anywhere. -/
def Place.ofPath? (path : String) : Option Place :=
  match (splitSlashes path.toList).map String.ofList with
  | ["", "api", "v1", "namespaces"] => some .namespaces
  | ["", "api", "v1", "namespaces", ns, "secrets"] => some (.secrets ns)
  | ["", "api", "v1", "namespaces", ns, "secrets", name] => some (.secret ⟨ns, name⟩)
  | _ => none

/-- Answers a request. -/
def answer (request : Request) (c : Cluster) : Response × Cluster :=
  match request.method, Place.ofPath? request.path with
  | .get, some .namespaces =>
    match c.list with
    | .ok namespaces => (⟨200, (namespaceListJson c namespaces).render⟩, c)
    | .error fault => (faultResponse ⟨"", ""⟩ fault, c)
  | .get, some (.secret key) =>
    match c.read key with
    | (.ok (some s), c) => (⟨200, s.toJson.render⟩, c)
    | (.ok none, c) => (faultResponse key .notFound, c)
    | (.error fault, c) => (faultResponse key fault, c)
  | .post, some (.secrets ns) =>
    match request.json?.bind Secret.ofJson? with
    | some s =>
      let key : SecretKey := ⟨ns, s.metadata.anyName⟩
      writeResponse 201 key (c.create key s)
    | none => (unknownResource, c)
  | .put, some (.secret key) =>
    match request.json?.bind Secret.ofJson? with
    | some s => writeResponse 200 key (c.replace key s)
    | none => (unknownResource, c)
  | _, _ => (unknownResource, c)

/-! ## Records -/

/-- A request with the status of its response. -/
structure Exchange where
  /-- The request. -/
  request : Request
  /-- The status of the response. -/
  status : Nat

/-- An exchange in words. -/
def Exchange.text (e : Exchange) : String :=
  e.request.method.text ++ " " ++ e.request.path ++ " " ++ Text.natText e.status

/-- A cluster and the exchanges with it, the latest last. -/
structure Session where
  /-- The cluster. -/
  cluster : Cluster
  /-- The exchanges. -/
  exchanges : List Exchange := []

/-- A cluster that answers requests and writes down the exchanges. -/
def Session.transport : Transport Session where
  send request s :=
    let (response, cluster) := answer request s.cluster
    (response, { cluster, exchanges := s.exchanges ++ [⟨request, response.status⟩] })

/-- A cluster that programs reach through its interface. -/
def Session.gateway : Gateway Session := Session.transport.gateway

end SecretFanout.Api
