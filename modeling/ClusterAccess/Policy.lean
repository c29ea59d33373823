/-
Giving an access policy to a principal and taking it away.

A principal has at most one association with a policy, for the whole cluster or for a
list of namespaces.  So a grant or a revoke of one namespace writes the list anew, a
grant of the cluster takes the place of any namespaces, and a request about a namespace
is refused when the association is for the cluster.
-/
import ClusterAccess.Provisioned
import ClusterAccess.Call

namespace ClusterAccess.Policy

/-- The scope at which a principal is associated with a policy.  A principal without an access
entry has no association. -/
def scopeOf (principal policy : String) : Request (Option PolicyScope) := do
  match ← attempt (send (.associatedPolicies principal)) with
  | .ok associations =>
    let found : Option Association :=
      List.find? (fun (a : Association) => a.policy = policy) associations
    pure (found.map Association.scope)
  | .error fault => if fault.isNotFound then pure none else throw fault

/-- Makes sure that a principal has an access entry. -/
def ensureEntry (principal : String) : Request Unit := do
  match ← attempt (send (.createAccessEntry principal)) with
  | .ok () => pure ()
  | .error fault => if fault.isAlreadyExists then pure () else throw fault

/-- What a request comes down to. -/
inductive Change where
  /-- Nothing is written. -/
  | nothing
  /-- The association is written with this scope. -/
  | associate (scope : PolicyScope)
  /-- The association is removed. -/
  | disassociate
  /-- The request is refused: the association is for the whole cluster. -/
  | conflict
  deriving DecidableEq, Repr

/-- What the grant of a scope comes down to, given the scope of the association. -/
def grantChange (held : Option PolicyScope) (requested : Scope) : Change :=
  match held, requested with
  | none, .cluster => .associate .cluster
  | none, .inNamespace ns => .associate (.namespaces [ns])
  | some .cluster, .inNamespace _ => .conflict
  | some (.namespaces names), .inNamespace ns =>
    if ns ∈ names then .nothing else .associate (.namespaces (names ++ [ns]))
  | some _, .cluster => .associate .cluster

/-- What the revoke of a scope comes down to, given the scope of the association. -/
def revokeChange (held : Option PolicyScope) (requested : Scope) : Change :=
  match held, requested with
  | none, _ => .nothing
  | some .cluster, .inNamespace _ => .conflict
  | some .cluster, .cluster => .disassociate
  | some (.namespaces _), .cluster => .nothing
  | some (.namespaces names), .inNamespace ns =>
    if ns ∉ names then .nothing
    else
      match names.filter (· ≠ ns) with
      | [] => .disassociate
      | remaining => .associate (.namespaces remaining)

/-- The fault of a request about a namespace when the association is for the whole cluster. -/
def conflict (principal policy : String) (requested : Scope) (isGrant : Bool) : Fault :=
  let ns := requested.ns?.getD ""
  .scopeConflict principal policy
    (if isGrant then
      "cannot grant namespace " ++ ns ++ ": policy is already associated at cluster scope"
    else "cannot revoke namespace " ++ ns ++ ": policy is associated at cluster scope")

/-- Makes sure that a principal holds a policy at a scope. -/
def grant (principal policy : String) (requested : Scope) : Request GrantResult := do
  if !Arn.isUserOrRole principal then
    throw (AwsAuth.unsupportedPrincipal principal)
  ensureEntry principal
  match grantChange (← scopeOf principal policy) requested with
  | .associate scope =>
    send (.associatePolicy principal policy scope)
    pure .applied
  | .conflict => throw (conflict principal policy requested true)
  | _ => pure .alreadySatisfied

/-- Removes an association; it does not matter if somebody else did. -/
def disassociate (principal policy : String) : Request Unit := do
  match ← attempt (send (.disassociatePolicy principal policy)) with
  | .ok () => pure ()
  | .error fault => if fault.isNotFound then pure () else throw fault

/-- Makes sure that a principal no longer holds a policy at a scope. -/
def revoke (principal policy : String) (requested : Scope) : Request RevokeResult := do
  match revokeChange (← scopeOf principal policy) requested with
  | .associate scope =>
    send (.associatePolicy principal policy scope)
    pure .applied
  | .disassociate =>
    disassociate principal policy
    pure .applied
  | .conflict => throw (conflict principal policy requested false)
  | .nothing => pure .alreadyRevoked

end ClusterAccess.Policy
