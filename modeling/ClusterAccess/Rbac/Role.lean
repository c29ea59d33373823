/-
The roles that can be bound.

A cluster role can be bound at any scope, a role only in its own namespace.  A
binding points at a role by kind and name; it is the namespace of the binding that
says which role of that name is meant.
-/
import ClusterAccess.Entitlement

namespace ClusterAccess

/-- How faults and logs call the place of a binding. -/
def Scope.describe : Scope → String
  | .cluster => "cluster"
  | .inNamespace ns => s!"namespace {ns}"

/-- The API group of roles and of the subjects that are bound to them. -/
def rbacGroup : String := "rbac.authorization.k8s.io"

/-- What a binding points at. -/
structure RoleRef where
  apiGroup : String
  kind : String
  name : String
  deriving DecidableEq, Repr

/-- A role that is granted or revoked. -/
inductive RoleTarget where
  | clusterRole (name : String)
  | role (ns name : String)
  deriving DecidableEq, Repr

namespace RoleTarget

/-- The name of the role. -/
def name : RoleTarget → String
  | .clusterRole name => name
  | .role _ name => name

/-- The namespace that a role lives in. -/
def ns? : RoleTarget → Option String
  | .clusterRole _ => none
  | .role ns _ => some ns

/-- The kind by which bindings point at the role. -/
def refKind : RoleTarget → String
  | .clusterRole _ => "ClusterRole"
  | .role _ _ => "Role"

/-- How a binding points at the role. -/
def ref (role : RoleTarget) : RoleRef :=
  ⟨rbacGroup, role.refKind, role.name⟩

/-- Does a reference point at the role?  The API group does not matter. -/
def isRef (role : RoleTarget) (ref : RoleRef) : Bool :=
  ref.kind = role.refKind && ref.name = role.name

instance : ToString RoleTarget where
  toString
    | .clusterRole name => s!"ClusterRole {name}"
    | .role ns name => s!"Role {ns}/{name}"

/-- Can the role be bound at the scope? -/
def admits (role : RoleTarget) (scope : Scope) : Bool :=
  match role with
  | .clusterRole _ => true
  | .role ns _ => scope = .inNamespace ns

/-- Refuses to bind a role outside its own namespace. -/
def checkScope (role : RoleTarget) (scope : Scope) : Outcome Unit :=
  if role.admits scope then .ok ()
  else
    let ns := role.ns?.getD ""
    let name := role.name
    let place := scope.describe
    .error (.invalidField "scope"
      s!"role {ns}/{name} can only be bound in namespace {ns}, not at {place}")

end RoleTarget

end ClusterAccess
