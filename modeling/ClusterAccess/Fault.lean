/-
What can go wrong, and what a caller may do about it.

A fault is a cause.  Its wording is one function, `message`, and the questions a
caller asks -- is it worth another try, was the object missing, was it already
there, did somebody else write first -- are one function each.
-/
namespace ClusterAccess

/-- A cluster API call that failed: with a status, or before one could be read. -/
inductive ApiFailure where
  /-- The API server answered with an error status. -/
  | status (code : Nat) (reason message : String)
  /-- There was no status: a broken transport, an unreadable answer, a request that cannot be sent. -/
  | noStatus (detail : String)
  deriving DecidableEq, Repr, Inhabited

/-- The causes a request can fail for. -/
inductive Fault where
  /-- The cluster API refused or broke a call. -/
  | api (operation : String) (failure : ApiFailure)
  /-- A cloud registry refused a call; some refusals pass with time. -/
  | cloud (operation message : String) (passing : Bool)
  /-- The addressed object does not exist. -/
  | notFound (resource : String)
  /-- The object to be created is already there. -/
  | alreadyExists (resource : String)
  /-- A cluster-wide and a namespaced scope meet in one association. -/
  | scopeConflict (principal policy message : String)
  /-- A value is not acceptable; `field` names it where there is one. -/
  | validation (field : Option String) (message : String)
  /-- An entitlement id cannot be used. -/
  | invalidEntitlement (id message : String)
  /-- A document does not parse. -/
  | malformed (document message : String)
  /-- Neither source of identity mappings could be read. -/
  | sourcesUnavailable (awsAuth accessEntries : Fault)
  /-- A request outlived its deadline. -/
  | timeout (operation : String)
  /-- Something that should not happen did. -/
  | internal (context message : String)
  deriving DecidableEq, Repr, Inhabited

namespace Fault

/-- The wording of a fault. -/
def message : Fault → String
  | .api operation (.status _ _ text) => s!"kubernetes error during {operation}: ApiError: {text}"
  | .api operation (.noStatus detail) => s!"kubernetes error during {operation}: {detail}"
  | .cloud operation text _ => s!"upstream error during {operation}: {text}"
  | .notFound resource => s!"{resource} not found"
  | .alreadyExists resource => s!"{resource} already exists"
  | .scopeConflict principal policy text => s!"scope conflict for {principal} on {policy}: {text}"
  | .validation _ text => s!"validation error: {text}"
  | .invalidEntitlement id text => "invalid entitlement id '" ++ id ++ "': " ++ text
  | .malformed document text => s!"malformed document [{document}]: {text}"
  | .sourcesUnavailable awsAuth accessEntries =>
    "no identity mappings available: aws-auth: " ++ awsAuth.message
      ++ "; access entries: " ++ accessEntries.message
  | .timeout operation => s!"timed out during {operation}"
  | .internal context text => s!"internal error [{context}]: {text}"

/-- Could the same request succeed later? -/
def isRetryable : Fault → Bool
  | .api _ (.status code _ _) => code ≥ 500 || code == 409 || code == 429
  | .api _ (.noStatus _) => true
  | .cloud _ _ passing => passing
  | .sourcesUnavailable _ _ => true
  | .timeout _ => true
  | .internal _ _ => true
  | _ => false

/-- Was the addressed object missing? -/
def isNotFound : Fault → Bool
  | .notFound _ => true
  | .api _ (.status code _ _) => code == 404
  | _ => false

/-- The reason the API server gives when an object changed since it was read. -/
def conflictReason : String := "Conflict"

/-- Was the object to be created already there? -/
def isAlreadyExists : Fault → Bool
  | .alreadyExists _ => true
  | .api _ (.status code reason _) => code == 409 && reason != conflictReason
  | _ => false

/-- Did somebody else write the object since it was read? -/
def isUpdateConflict : Fault → Bool
  | .api _ (.status code reason _) => code == 409 && reason == conflictReason
  | _ => false

/-- The operation that failed, for the faults that name one. -/
def operation? : Fault → Option String
  | .api operation _ => some operation
  | .cloud operation _ _ => some operation
  | .timeout operation => some operation
  | _ => none

/-- A validation fault that names its field. -/
def invalidField (field message : String) : Fault :=
  .validation (some field) message

end Fault

/-- The outcome of an operation that can fail. -/
abbrev Outcome := Except Fault

end ClusterAccess
