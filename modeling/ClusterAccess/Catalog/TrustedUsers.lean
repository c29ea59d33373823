/-
IAM roles and the users who may assume them.

An IAM role is a resource under its ARN.  It offers one entitlement, to assume it,
which is held by the users that its trust policy names.  A trust policy that cannot be
fetched or read names nobody.
-/
import ClusterAccess.Catalog.Resource
import ClusterAccess.TrustPolicy
import ClusterAccess.Call

namespace ClusterAccess.Catalog

/-- The resource of an IAM role. -/
def iamRoleResource (role : IamRole) : Resource where
  id := ResourceType.iamRole.resourceId role.arn
  displayName := role.name
  profile := [("role_name", .string role.name), ("role_id", .string role.id),
      ("arn", .string role.arn)]
    ++ Kube.Metadata.optional "path" (role.path.map .string)
    ++ Kube.Metadata.optional "create_date"
      (role.created.map fun (created : Timestamp) => .string created.render)

/-- One page of IAM roles. -/
def listIamRoles (token : Option String) : Request (Page Resource) := do
  let page ← send (.listIamRoles token)
  pure (Page.map iamRoleResource page)

/-- The IAM role of a name. -/
def getIamRole (name : String) : Request Resource := do
  let role ← send (.getIamRole name)
  pure (iamRoleResource role)

/-- The id of the entitlement to assume an IAM role. -/
def assumeId (arn : String) : EntitlementId :=
  .assumes ResourceType.iamRole.id arn

/-- What can be granted on an IAM role. -/
def iamRoleEntitlements (resource : Resource) : List Entitlement :=
  let name := resource.displayName
  [resource.entitlement (assumeId resource.id.resource) (name ++ " Role")
    ("Can assume the " ++ name ++ " role in AWS") [ResourceType.iamUser]]

/-- The grants of an IAM role to the users among the principals that it trusts. -/
def trustGrants (arn : String) (principals : List String) : List Grant :=
  (principals.filter fun principal => Arn.classify principal = .user).map fun user =>
    ⟨toString (assumeId arn), ResourceType.iamUser.resourceId user, []⟩

/-- The principals that a fetched trust policy names. -/
def trustedBy (fetched : Outcome String) : List String :=
  match fetched with
  | .ok document =>
    match TrustPolicy.trustedPrincipals document with
    | .ok principals => principals
    | .error _ => []
  | .error _ => []

/-- Who may assume an IAM role. -/
def iamRoleGrants (resource : Resource) : Request (List Grant) := do
  let arn := resource.id.resource
  match Arn.roleName? arn with
  | none => throw (.invalidField "resource" ("not a role ARN: " ++ arn))
  | some name =>
    let fetched ← attempt (send (.getTrustPolicy name))
    pure (trustGrants arn (trustedBy fetched))

end ClusterAccess.Catalog
