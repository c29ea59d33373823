/-
The calls that the library makes.

There is the cluster with its mapping document, its bindings and its listings, and
there are the registries of the cloud: access entries, policy associations and IAM
roles.  A call names what it is about, and its type says what the answer is; any call
can fail.
-/
import ClusterAccess.AwsAuth
import ClusterAccess.Program
import ClusterAccess.Rbac.Binding
import ClusterAccess.Timestamp

namespace ClusterAccess

/-- The detail of an access entry, which maps a principal into the cluster. -/
structure AccessEntry where
  principal : String
  type : String
  username : Option String := none
  groups : List String := []
  deriving DecidableEq, Repr

/-- The scope of a policy association: the whole cluster, or the namespaces of a list. -/
inductive PolicyScope where
  | cluster
  | namespaces (names : List String)
  deriving DecidableEq, Repr

/-- A policy that is associated with a principal. -/
structure Association where
  policy : String
  scope : PolicyScope
  deriving DecidableEq, Repr

/-- An IAM role. -/
structure IamRole where
  name : String
  id : String
  arn : String
  path : Option String := none
  created : Option Timestamp := none
  deriving DecidableEq, Repr

/-- The kinds of objects that the cluster lists in pages. -/
inductive ObjectListing where
  | clusterRoles
  | roles
  | namespaces
  deriving DecidableEq, Repr

/-- A call. -/
inductive Call where
  | getAwsAuth
  /-- Writes the mapping document, unless it has changed since its version was read. -/
  | updateAwsAuth (document : AwsAuth)
  | listAccessEntries (token : Option String)
  | describeAccessEntry (principal : String)
  | createAccessEntry (principal : String)
  | associatedPolicies (principal : String)
  /-- Associates a policy with a principal, at this scope instead of an earlier one. -/
  | associatePolicy (principal policy : String) (scope : PolicyScope)
  | disassociatePolicy (principal policy : String)
  | listPrincipals (policy : String) (token : Option String)
  | listObjects (listing : ObjectListing) (token : Option String)
  | listIamRoles (token : Option String)
  | getIamRole (name : String)
  | getTrustPolicy (name : String)
  /-- Finds the bindings that point at a role. -/
  | matchingBindings (role : RoleTarget)
  | createBinding (binding : Binding)
  /-- Replaces a binding, unless it has changed since its version was read. -/
  | updateBinding (binding : Binding)
  /-- Deletes a role binding of a namespace, or else a cluster role binding, by name. -/
  | deleteBinding (ns : Option String) (name : String)

namespace Call

/-- What a call answers when it succeeds. -/
def Answer : Call → Type
  | .getAwsAuth => Option AwsAuth
  | .updateAwsAuth _ => Unit
  | .listAccessEntries _ => Page String
  | .describeAccessEntry _ => Option AccessEntry
  | .createAccessEntry _ => Unit
  | .associatedPolicies _ => List Association
  | .associatePolicy _ _ _ => Unit
  | .disassociatePolicy _ _ => Unit
  | .listPrincipals _ _ => Page String
  | .listObjects _ _ => Page Kube.Object
  | .listIamRoles _ => Page IamRole
  | .getIamRole _ => IamRole
  | .getTrustPolicy _ => String
  | .matchingBindings _ => RoleBindings
  | .createBinding _ => Unit
  | .updateBinding _ => Unit
  | .deleteBinding _ _ => Unit

/-- What a call gives: its answer, or a fault. -/
abbrev Reply (call : Call) : Type := Outcome call.Answer

end Call

/-- A program of calls that can fail. -/
abbrev Request := ExceptT Fault (Program Call Call.Reply)

/-- Makes a call. -/
def send (call : Call) : Request call.Answer :=
  ExceptT.mk (.call call .done)

end ClusterAccess
