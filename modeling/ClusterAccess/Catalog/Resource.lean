/-
Resources, the entitlements they offer and the grants on them.

A resource is something access can be given to, or somebody it can be given to: a
role of the cluster, an access policy, an IAM role or user, a service account, a
group.  A resource offers entitlements; a grant says that a principal holds one.  A
grant to an IAM role also holds for everybody who may assume the role, which it says
by naming the entitlement to assume it.
-/
import ClusterAccess.Arn
import ClusterAccess.Entitlement
import ClusterAccess.Json.Value

namespace ClusterAccess

/-- A type of resources. -/
structure ResourceType where
  /-- What entitlement ids start with. -/
  id : String
  displayName : String
  description : String
  deriving DecidableEq, Repr

namespace ResourceType

/-- Cluster roles. -/
def clusterRole : ResourceType := ⟨"cluster_role", "Cluster Role", "Kubernetes ClusterRole"⟩

/-- Roles of a namespace. -/
def role : ResourceType := ⟨"role", "Role", "Kubernetes Role"⟩

/-- Access policies. -/
def accessPolicy : ResourceType := ⟨"access_policy", "Access Policy", "EKS Access Policy"⟩

/-- IAM roles. -/
def iamRole : ResourceType := ⟨"iam_role", "IAM Role", "AWS IAM Role"⟩

/-- IAM users. -/
def iamUser : ResourceType := ⟨"iam_user", "IAM User", "AWS IAM User"⟩

/-- Service accounts. -/
def serviceAccount : ResourceType :=
  ⟨"service_account", "Service Account", "Kubernetes ServiceAccount"⟩

/-- Groups. -/
def group : ResourceType := ⟨"group", "Group", "Kubernetes group"⟩

/-- Every type. -/
def all : List ResourceType :=
  [clusterRole, role, accessPolicy, iamRole, iamUser, serviceAccount, group]

end ResourceType

/-- What identifies a resource: its type, and its name, path or ARN within the type. -/
structure ResourceId where
  type : String
  resource : String
  deriving DecidableEq, Repr

/-- The id of a resource of a type. -/
def ResourceType.resourceId (type : ResourceType) (resource : String) : ResourceId :=
  ⟨type.id, resource⟩

/-- A resource. -/
structure Resource where
  id : ResourceId
  displayName : String
  /-- Attributes for those who review access. -/
  profile : List (String × Json) := []
  deriving Repr, BEq

/-- Something that can be granted on a resource. -/
structure Entitlement where
  /-- The written form of its id. -/
  id : String
  resource : ResourceId
  displayName : String
  description : String
  /-- The types of those who can hold it. -/
  grantableTo : List String
  deriving DecidableEq, Repr

/-- The entitlement of an id on a resource. -/
def Resource.entitlement (resource : Resource) (id : EntitlementId)
    (displayName description : String) (grantableTo : List ResourceType) : Entitlement :=
  ⟨toString id, resource.id, displayName, description, grantableTo.map (·.id)⟩

/-- The fact that a principal holds an entitlement. -/
structure Grant where
  /-- The written form of the entitlement's id. -/
  entitlement : String
  principal : ResourceId
  /-- The entitlements whose holders hold this one too. -/
  expandable : List String := []
  deriving DecidableEq, Repr

/-- The grant of an entitlement to an IAM user or role; others hold none. -/
def principalGrant (entitlement : EntitlementId) (principal : String) : Option Grant :=
  match Arn.classify principal with
  | .role =>
    some ⟨toString entitlement, ResourceType.iamRole.resourceId principal,
      [toString (EntitlementId.assumes ResourceType.iamRole.id principal)]⟩
  | .user => some ⟨toString entitlement, ResourceType.iamUser.resourceId principal, []⟩
  | .unsupported => none

/-- The ARN of a principal that can be granted something: an IAM user or role. -/
def principalArn (principal : ResourceId) : Outcome String :=
  if principal.type = ResourceType.iamUser.id ∨ principal.type = ResourceType.iamRole.id then
    .ok principal.resource
  else
    .error (.invalidField "principal" ("principal type " ++ principal.type ++ " is not supported"))

end ClusterAccess
