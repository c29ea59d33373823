/-
The grants behind bindings.

Whoever is a subject of a binding of a role holds the role at the scope of the
binding.  A service account is reported as it is.  A user or a group of the RBAC API
group is looked up, and every IAM user or role behind it holds a grant; names that
contain `system:` are built into the cluster and left out.  A role binding without a
namespace holds nowhere.
-/
import ClusterAccess.Catalog.Resource
import ClusterAccess.Mappings
import ClusterAccess.Program
import ClusterAccess.Rbac.Binding
import ClusterAccess.Text.Split

namespace ClusterAccess

open Text

namespace Subject

/-- The API groups whose users and groups are those of the RBAC API. -/
def rbacGroups : List String := [rbacGroup, rbacGroup ++ "/v1"]

/-- Is the subject in the RBAC API group? -/
def inRbacGroup (subject : Subject) : Bool :=
  match subject.apiGroup with
  | some group => rbacGroups.contains group
  | none => false

/-- What marks identities that are built into the cluster. -/
def systemMark : List Char := "system:".toList

/-- Is the subject built into the cluster? -/
def isBuiltIn (subject : Subject) : Bool :=
  hasPart systemMark subject.name.toList

/-- Is the subject a service account? -/
def isServiceAccount (subject : Subject) : Bool :=
  subject.kind = "ServiceAccount"

/-- Whom to look up for the subject, if anybody. -/
def identity? (subject : Subject) : Option Identity :=
  if subject.isServiceAccount || !subject.inRbacGroup || subject.isBuiltIn then none
  else if subject.kind = userKind then some (.username subject.name)
  else if subject.kind = "Group" then some (.group subject.name)
  else none

/-- The id of a service account: its namespace, or else that of the binding, and its name. -/
def accountId (subject : Subject) (bindingNs : Option String) : String :=
  ((subject.ns.or bindingNs).getD "") ++ "/" ++ subject.name

end Subject

/-- The scope at which the subjects of a binding hold its role. -/
def Binding.scope? (b : Binding) : Option Scope :=
  match b.reach with
  | .clusterWide => some .cluster
  | .namespaced => b.metadata.ns.map .inNamespace

section

variable {m : Type → Type} [Monad m]

/-- The grants of an entitlement that a subject of a binding holds. -/
def subjectGrants (lookup : Identity → m (List String)) (entitlement : EntitlementId)
    (bindingNs : Option String) (subject : Subject) : m (List Grant) :=
  if subject.isServiceAccount then
    pure [⟨toString entitlement,
      ResourceType.serviceAccount.resourceId (subject.accountId bindingNs), []⟩]
  else
    match subject.identity? with
    | none => pure []
    | some identity => do
      let principals ← lookup identity
      pure (principals.filterMap (principalGrant entitlement))

/-- The grants on a resource that the subjects of one binding hold. -/
def grantsOfBinding (lookup : Identity → m (List String)) (type : ResourceType)
    (resource : String) (b : Binding) : m (List Grant) :=
  match b.scope? with
  | none => pure []
  | some scope =>
    gather (subjectGrants lookup (.assigned type.id resource scope) b.ns?) b.subjects

/-- The grants on a resource that are held through bindings, in the order of the bindings, their
subjects and what the lookup gives. -/
def bindingGrants (lookup : Identity → m (List String)) (type : ResourceType)
    (resource : String) (bindings : List Binding) : m (List Grant) :=
  gather (grantsOfBinding lookup type resource) bindings

end

end ClusterAccess
