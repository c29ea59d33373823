/-
Roles of the cluster and their members.

A cluster role is a resource under its name.  It can be granted for the whole cluster
and in every namespace.  A role is a resource under its namespace and its name, with a
slash between them, and can be granted in its own namespace only.  The members of both
are the subjects of their bindings.
-/
import ClusterAccess.Catalog.BindingGrants
import ClusterAccess.Catalog.NamespaceNames
import ClusterAccess.Identity.Lookup
import ClusterAccess.Rbac.Assignment

namespace ClusterAccess.Catalog

open Text

/-! ### Role ids -/

/-- The id of a role as a resource. -/
def roleId (ns name : String) : String :=
  ns ++ "/" ++ name

/-- The namespace and the name of a role: neither is empty, and there is one slash. -/
def splitRoleId? (id : String) : Option (String × String) :=
  match splitOnce '/' id.toList with
  | some (ns, name) =>
    if ns = [] ∨ name = [] ∨ '/' ∈ name then none
    else some (String.ofList ns, String.ofList name)
  | none => none

/-- How a malformed role id is described. -/
def roleIdForm : String := "role id must be <namespace>/<name>"

/-- The role of a resource id. -/
def roleOfResource (id : String) : Outcome (String × String) :=
  match splitRoleId? id with
  | some target => .ok target
  | none => .error (.invalidField "resource" (roleIdForm ++ ": " ++ id))

/-! ### Resources -/

/-- Who can be a member of a role. -/
def memberTypes : List ResourceType :=
  [ResourceType.iamUser, ResourceType.iamRole, ResourceType.serviceAccount, ResourceType.group]

/-- The attributes that all objects of the cluster have. -/
def objectProfile (metadata : Kube.Metadata) : List (String × Json) :=
  [("uid", .string (metadata.uid.getD ""))]
    ++ Kube.Metadata.optional "creationTimestamp" (metadata.created.map .string)
    ++ [("labels", Kube.ofTextTable (metadata.labels.getD [])),
      ("annotations", Kube.ofTextTable (metadata.annotations.getD []))]

/-- The resource of a cluster role, which has to have a name. -/
def clusterRoleResource? (object : Kube.Object) : Option Resource :=
  object.properName?.map fun name =>
    { id := ResourceType.clusterRole.resourceId name
      displayName := name
      profile := ("name", .string name) :: objectProfile object.metadata
        ++ Kube.Metadata.optional "aggregationRule" (Json.field? "aggregationRule" object.fields) }

/-- The resource of a role, which has to have a name and a namespace. -/
def roleResource? (object : Kube.Object) : Option Resource := do
  let name ← object.properName?
  let ns ← object.properNs?
  some {
    id := ResourceType.role.resourceId (roleId ns name)
    displayName := name
    profile := ("name", .string name) :: ("namespace", .string ns)
      :: objectProfile object.metadata }

/-- One page of the resources among the objects of a listing. -/
def listResources (listing : ObjectListing) (resource? : Kube.Object → Option Resource)
    (token : Option String) : Request (Page Resource) := do
  let page ← send (.listObjects listing token)
  pure (⟨List.filterMap resource? (Page.items page), Page.next page⟩ : Page Resource)

/-- One page of cluster roles. -/
def listClusterRoles (token : Option String) : Request (Page Resource) :=
  listResources .clusterRoles clusterRoleResource? token

/-- One page of the roles of all namespaces. -/
def listRoles (token : Option String) : Request (Page Resource) :=
  listResources .roles roleResource? token

/-! ### Entitlements -/

/-- Membership of a cluster role at a scope. -/
def clusterRoleEntitlement (resource : Resource) (scope : Scope) : Entitlement :=
  let name := resource.displayName
  let id := EntitlementId.assigned ResourceType.clusterRole.id resource.id.resource scope
  match scope with
  | .cluster =>
    resource.entitlement id (name ++ " Cluster Role Member")
      ("Grants membership to the " ++ name ++ " cluster role") memberTypes
  | .inNamespace ns =>
    resource.entitlement id (name ++ " Cluster Role Member in " ++ ns ++ " namespace")
      ("Grants membership to the " ++ name ++ " cluster role in namespace " ++ ns) memberTypes

/-- The scopes of a list of namespaces, with that of the whole cluster before them. -/
def clusterFirst (namespaces : List String) : List Scope :=
  .cluster :: namespaces.map .inNamespace

/-- What can be granted on a cluster role. -/
def clusterRoleEntitlements (upkeep : Upkeep) (resource : Resource) :
    Session (List Entitlement) := do
  let namespaces ← namespaceNames upkeep
  pure ((clusterFirst namespaces).map (clusterRoleEntitlement resource))

/-- What can be granted on a role. -/
def roleEntitlements (resource : Resource) : Outcome (List Entitlement) := do
  let (ns, name) ← roleOfResource resource.id.resource
  let id :=
    EntitlementId.assigned ResourceType.role.id resource.id.resource (.inNamespace ns)
  .ok [resource.entitlement id (name ++ " Role Member")
    ("Grants membership to the " ++ name ++ " role in namespace " ++ ns) memberTypes]

/-! ### Grants -/

/-- Who holds a cluster role, and where. -/
def clusterRoleGrants (upkeep : Upkeep) (resource : Resource) : Session (List Grant) := do
  let name := resource.id.resource
  let bindings ← Session.ofRequest (send (.matchingBindings (.clusterRole name)))
  bindingGrants (Identity.lookup upkeep) ResourceType.clusterRole name
    (RoleBindings.toList bindings)

/-- Who holds a role in its namespace. -/
def roleGrants (upkeep : Upkeep) (resource : Resource) : Session (List Grant) := do
  let (ns, name) ← ofOutcome (roleOfResource resource.id.resource)
  let bindings ← Session.ofRequest (RoleTarget.bindingsAt (.role ns name) (.inNamespace ns))
  bindingGrants (Identity.lookup upkeep) ResourceType.role resource.id.resource bindings

/-! ### Membership as a target -/

/-- The cluster role and the scope that an entitlement id is about. -/
def clusterRoleTarget (entitlement : String) : Outcome (RoleTarget × Scope) := do
  let (name, scope) ← EntitlementId.decodeAssigned entitlement ResourceType.clusterRole.id
  .ok (.clusterRole name, scope)

/-- The role and the scope that an entitlement id is about. -/
def roleTarget (entitlement : String) : Outcome (RoleTarget × Scope) := do
  let (resource, scope) ← EntitlementId.decodeAssigned entitlement ResourceType.role.id
  match splitRoleId? resource with
  | some (ns, name) => .ok (.role ns name, scope)
  | none => .error (.invalidEntitlement entitlement roleIdForm)

end ClusterAccess.Catalog
