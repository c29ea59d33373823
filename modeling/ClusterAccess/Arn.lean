/-
IAM principals and the ARNs that name them.

Only users and roles can be mapped to a username of the cluster.  An ARN names one
when it reads

    arn:<partition>:iam::<account>:user/<path>     (or role/<path>)

with a known partition, no region, an account, and a path that is not empty and
does not end in a slash, so that its last segment is a name.  Everything else --
assumed-role sessions, account roots, services -- is unsupported.
-/
import ClusterAccess.Text.Split

namespace ClusterAccess

/-- What an ARN names. -/
inductive PrincipalKind where
  | user
  | role
  | unsupported
  deriving DecidableEq, Repr

namespace Arn

open Text

/-- The partitions whose ARNs are recognised. -/
def partitions : List (List Char) :=
  ["aws".toList, "aws-cn".toList, "aws-us-gov".toList]

/-- The resource type and resource path of an IAM ARN. -/
def iamResource (principal : String) : Option (List Char × List Char) := do
  let (lead, rest) ← splitOnce ':' principal.toList
  let (partition, rest) ← splitOnce ':' rest
  let (service, rest) ← splitOnce ':' rest
  let (region, rest) ← splitOnce ':' rest
  let (account, resource) ← splitOnce ':' rest
  if lead ≠ "arn".toList ∨ partition ∉ partitions ∨ service ≠ "iam".toList
      ∨ region ≠ [] ∨ account = [] then none
  else
    let (kind, path) ← splitOnce '/' resource
    if path = [] ∨ path.getLast? = some '/' then none else some (kind, path)

/-- The kind of principal an ARN names. -/
def classify (principal : String) : PrincipalKind :=
  match iamResource principal with
  | some (kind, _) =>
    if kind = "user".toList then .user
    else if kind = "role".toList then .role
    else .unsupported
  | none => .unsupported

/-- Can the principal be mapped to a username? -/
def isUserOrRole (principal : String) : Bool :=
  classify principal != .unsupported

/-- The name a role ARN ends in: the last segment of its path. -/
def roleName? (principal : String) : Option String :=
  match iamResource principal with
  | some (kind, path) =>
    if kind = "role".toList then (pieces '/' path).getLast?.map String.ofList else none
  | none => none

end Arn

/-- The word for a kind of principal. -/
def PrincipalKind.word : PrincipalKind → String
  | .user => "user"
  | .role => "role"
  | .unsupported => "unsupported"

end ClusterAccess
