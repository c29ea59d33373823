/-
The usernames of principals.

A grant needs the username that a principal has in the cluster, and makes one if there
is none; a revoke only looks it up.  The directory of a cluster is its mapping document:
a principal without a row gets one that maps it to itself.
-/
import ClusterAccess.Call

namespace ClusterAccess

/-- The username of a principal, and whether it was made just now. -/
structure Resolved where
  username : String
  created : Bool
  deriving DecidableEq, Repr

/-- A directory of usernames. -/
structure Directory where
  /-- The username of a principal, if it has one. -/
  resolve : String → Request (Option String)
  /-- The username of a principal, made if it has none. -/
  resolveOrCreate : String → Request Resolved

namespace AwsAuth

/-- Reads the mapping document, which has to exist. -/
def load : Request AwsAuth := do
  match ← send .getAwsAuth with
  | some document => pure document
  | none => throw (.notFound "aws-auth ConfigMap")

/-- The username of a principal in the mapping document. -/
def resolve (principal : String) : Request (Option String) := do
  let document ← load
  pure (document.findUsername? principal)

/-- The username of a principal in the mapping document, with a row of its own if it has none. -/
def resolveOrCreate (principal : String) : Request Resolved := do
  if !Arn.isUserOrRole principal then
    throw (unsupportedPrincipal principal)
  let document ← load
  match document.findUsername? principal with
  | some username => pure ⟨username, false⟩
  | none =>
    let changed ← ofOutcome (document.appendSelf principal)
    send (.updateAwsAuth changed)
    pure ⟨principal, true⟩

/-- The mapping document as a directory. -/
def directory : Directory := ⟨resolve, resolveOrCreate⟩

end AwsAuth

end ClusterAccess
