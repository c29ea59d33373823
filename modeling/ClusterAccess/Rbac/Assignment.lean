/-
Giving a role to a principal and taking it away.

A principal holds a role at a scope when some binding of the role at that scope has its
username among the subjects.  A grant adds the username to the library's own binding of
the role at the scope, which it creates if need be, and writes nothing if the principal
holds the role already.  A revoke removes the username from every binding of the role
at the scope, and deletes the bindings that are left without subjects.

No lock is held between the calls of a request.  A write of a binding that has changed
since it was read is refused, and the request fails with a fault that is worth
another try.
-/
import ClusterAccess.Directory
import ClusterAccess.Provisioned

namespace ClusterAccess.RoleTarget

/-- The bindings of a role at a scope. -/
def bindingsAt (role : RoleTarget) (scope : Scope) : Request (List Binding) := do
  let bindings ← send (.matchingBindings role)
  pure (bindings.narrow scope)

/-- Makes sure that a principal holds a role at a scope. -/
def grant (directory : Directory) (principal : String) (role : RoleTarget) (scope : Scope) :
    Request GrantResult := do
  ofOutcome (role.checkScope scope)
  let resolved ← directory.resolveOrCreate principal
  let candidates ← role.bindingsAt scope
  if candidates.any fun b => b.hasUser resolved.username then
    pure .alreadySatisfied
  else
    match candidates.find? fun b => b.name = canonicalBindingName role scope with
    | some b => send (.updateBinding (b.addUser resolved.username))
    | none => send (.createBinding (.newForUser role scope resolved.username))
    pure .applied

/-- Deletes a binding; it does not matter if somebody else did. -/
def deleteBinding (b : Binding) : Request Unit := do
  let ns ←
    match b.reach with
    | .clusterWide => pure none
    | .namespaced =>
      match b.ns? with
      | some ns => pure (some ns)
      | none => throw (.invalidField "metadata.namespace" "RoleBinding has no namespace")
  match ← attempt (send (.deleteBinding ns b.name)) with
  | .ok () => pure ()
  | .error fault => if fault.isNotFound then pure () else throw fault

/-- Takes a user out of a binding, and the binding away when nobody is left. -/
def removeFrom (username : String) (b : Binding) : Request Unit :=
  let left := b.removeUser username
  if left.subjects = [] then deleteBinding left else send (.updateBinding left)

/-- Takes a user out of one binding after another. -/
def removeFromAll (username : String) : List Binding → Request Unit
  | [] => pure ()
  | b :: rest => do
    removeFrom username b
    removeFromAll username rest

/-- Makes sure that a principal no longer holds a role at a scope. -/
def revoke (directory : Directory) (principal : String) (role : RoleTarget) (scope : Scope) :
    Request RevokeResult := do
  ofOutcome (role.checkScope scope)
  match ← directory.resolve principal with
  | none => pure .alreadyRevoked
  | some username =>
    let bindings ← role.bindingsAt scope
    match bindings.filter fun b => b.hasUser username with
    | [] => pure .alreadyRevoked
    | holding =>
      removeFromAll username holding
      pure .applied

end ClusterAccess.RoleTarget
