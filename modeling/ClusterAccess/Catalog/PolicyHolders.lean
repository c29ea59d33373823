/-
Access policies and their holders.

The access policies are a fixed list.  A policy can be granted in every namespace and
for the whole cluster.  Its entitlements come in the pages of the namespace listing,
those of the namespaces first and that of the cluster at the very end.  Its holders
come in pages too; one whose association cannot be read, or that is neither a user nor
a role, is left out.
-/
import ClusterAccess.Catalog.Resource
import ClusterAccess.Policy

namespace ClusterAccess.Catalog

/-- An access policy that every cluster offers. -/
structure StandardPolicy where
  arn : String
  name : String
  description : String
  deriving DecidableEq, Repr

/-- A standard policy of this name. -/
def standardPolicy (name description : String) : StandardPolicy :=
  ⟨"arn:aws:eks::aws:cluster-access-policy/" ++ name, name,
    "This access policy includes permissions that " ++ description⟩

/-- The access policies that every cluster offers. -/
def standardPolicies : List StandardPolicy := [
  standardPolicy "AmazonEKSClusterAdminPolicy"
    ("grant an IAM principal administrator access to a cluster. When associated to an access "
      ++ "entry, its access scope is typically the cluster, rather than a Kubernetes namespace. "
      ++ "If you want an IAM principal to have a more limited administrative scope, consider "
      ++ "associating the AmazonEKSAdminPolicy access policy to your access entry instead."),
  standardPolicy "AmazonEKSAdminPolicy"
    ("grant an IAM principal most permissions to resources. When associated to an access entry, "
      ++ "its access scope is typically one or more Kubernetes namespaces. If you want an IAM "
      ++ "principal to have administrator access to all resources on your cluster, associate the "
      ++ "AmazonEKSClusterAdminPolicy access policy to your access entry instead."),
  standardPolicy "AmazonEKSViewPolicy"
    "allow an IAM principal to view most Kubernetes resources.",
  standardPolicy "AmazonEKSEditPolicy"
    "allow an IAM principal to edit most Kubernetes resources.",
  standardPolicy "AmazonEKSAdminViewPolicy"
    ("grant an IAM principal access to list/view all resources in a cluster. "
      ++ "Note this includes Kubernetes Secrets.")]

/-- The resource of an access policy. -/
def StandardPolicy.resource (policy : StandardPolicy) : Resource where
  id := ResourceType.accessPolicy.resourceId policy.arn
  displayName := policy.name
  profile := [("display_name", .string policy.name), ("policy_arn", .string policy.arn),
    ("description", .string policy.description)]

/-- The access policies as resources. -/
def listPolicies : List Resource :=
  standardPolicies.map StandardPolicy.resource

/-- Who can hold an access policy. -/
def holderTypes : List ResourceType :=
  [ResourceType.iamUser, ResourceType.iamRole]

/-- The id of the entitlement to a policy at a scope. -/
def policyId (policy : String) (scope : Scope) : EntitlementId :=
  .assigned ResourceType.accessPolicy.id policy scope

/-- The entitlement to a policy at a scope. -/
def policyEntitlement (resource : Resource) (scope : Scope) : Entitlement :=
  let name := resource.displayName
  let id := policyId resource.id.resource scope
  match scope with
  | .cluster =>
    resource.entitlement id (name ++ " Access policy cluster scoped")
      ("Grants assignment to the " ++ name ++ " Access policy for cluster") holderTypes
  | .inNamespace ns =>
    resource.entitlement id (name ++ " Access policy scoped to " ++ ns ++ " namespace")
      ("Grants assignment to the " ++ name ++ " Access policy in " ++ ns ++ " namespace")
      holderTypes

/-- The scopes of a page of namespaces; after the last page comes the whole cluster. -/
def pageScopes (page : Page Kube.Object) : List Scope :=
  let namespaces := page.items.filterMap fun object => object.metadata.name.map Scope.inNamespace
  if page.next.isNone then namespaces ++ [.cluster] else namespaces

/-- One page of what can be granted on a policy. -/
def policyEntitlements (resource : Resource) (token : Option String) :
    Request (Page Entitlement) := do
  let page ← send (.listObjects .namespaces token)
  pure (⟨(pageScopes page).map (policyEntitlement resource), Page.next page⟩ : Page Entitlement)

/-- The scopes that a policy scope covers. -/
def coveredScopes : PolicyScope → List Scope
  | .cluster => [.cluster]
  | .namespaces names => names.map .inNamespace

/-- The grants of a policy that a principal holds. -/
def holderGrants (policy principal : String) : Request (List Grant) := do
  match ← attempt (Policy.scopeOf principal policy) with
  | .ok (some held) =>
    pure ((coveredScopes held).filterMap fun scope =>
      principalGrant (policyId policy scope) principal)
  | .ok none => pure []
  | .error _ => pure []

/-- One page of who holds a policy, and where. -/
def policyGrants (resource : Resource) (token : Option String) : Request (Page Grant) := do
  let policy := resource.id.resource
  let page ← send (.listPrincipals policy token)
  let grants ← gather (holderGrants policy) (Page.items page)
  pure (⟨grants, Page.next page⟩ : Page Grant)

/-- The policy and the scope that an entitlement id is about. -/
def policyTarget (entitlement : String) : Outcome (String × Scope) :=
  EntitlementId.decodeAssigned entitlement ResourceType.accessPolicy.id

end ClusterAccess.Catalog
