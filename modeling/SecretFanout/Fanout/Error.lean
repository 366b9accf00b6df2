import SecretFanout.Api.Failure
import SecretFanout.Duration
import SecretFanout.Object.Secret

/-!
# Errors of a pass

What can go wrong while secrets are copied, with its cause: a call to the cluster that
failed, or a period that cannot be read.

* `SyncError.isWriteFailure`: a failed write concerns one copy only.
* `SyncError.message` is the error in words.
-/

namespace SecretFanout

/-- Why a store refuses a call. -/
inductive StoreFault where
  /-- The store cannot be reached. -/
  | unreachable
  /-- The store does not answer. -/
  | timeout
  /-- The write is not allowed. -/
  | forbidden
  /-- There is an object under that key. -/
  | alreadyExists
  /-- There is no object under that key. -/
  | notFound
  /-- The object was written by someone else in between. -/
  | conflict
  deriving DecidableEq

/-- A refusal in words. -/
def StoreFault.message : StoreFault → String
  | .unreachable => "connection refused"
  | .timeout => "timeout"
  | .forbidden => "forbidden"
  | .alreadyExists => "already exists"
  | .notFound => "not found"
  | .conflict => "conflict"

/-- Why a call to the cluster failed. -/
inductive Cause where
  /-- The store itself refused it. -/
  | store (fault : StoreFault)
  /-- The request to the cluster's interface brought no result. -/
  | api (failure : Api.Failure)
  deriving DecidableEq

/-- A cause in words. -/
def Cause.message : Cause → String
  | .store fault => fault.message
  | .api failure => failure.message

/-- The two ways to write a secret. -/
inductive WriteKind where
  /-- A secret is added. -/
  | create
  /-- A secret takes the place of another version of it. -/
  | replace
  deriving DecidableEq

/-- The verb that is put before a secret in the words for a failed write. -/
def WriteKind.verb : WriteKind → String
  | .create => "create"
  | .replace => "update"

/-- What can go wrong in a pass. -/
inductive SyncError where
  /-- The namespaces could not be listed. -/
  | listing (cause : Cause)
  /-- A secret could not be read. -/
  | reading (key : SecretKey) (cause : Cause)
  /-- A secret could not be written. -/
  | writing (kind : WriteKind) (key : SecretKey) (cause : Cause)
  /-- The period of a copier is no duration. -/
  | period (error : Duration.ReadError)
  deriving DecidableEq

namespace SyncError

/-- Whether a write failed. -/
def isWriteFailure : SyncError → Bool
  | writing .. => true
  | _ => false

/-- The secret of a failed write; the interface also names the verb. -/
def writeSubject (kind : WriteKind) (key : SecretKey) : Cause → String
  | .store _ => "secret " ++ key.text
  | .api _ => kind.verb ++ " secret " ++ key.text

/-- An error in words. -/
def message : SyncError → String
  | listing cause => "Failed to list namespaces: " ++ cause.message
  | reading key cause => "Failed to read secret " ++ key.text ++ ": " ++ cause.message
  | writing kind key cause =>
    "Failed to write " ++ writeSubject kind key cause ++ ": " ++ cause.message
  | period error => "Invalid duration: " ++ error.message

end SyncError

end SecretFanout
