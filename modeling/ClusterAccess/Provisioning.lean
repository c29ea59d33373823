/-
Granting and revoking entitlements.

A request names a principal and an entitlement id.  The id says what is provisioned:
membership of a cluster role or of a role, through bindings, or an access policy,
through associations.  Nothing else can be provisioned.  Everything that can be told
from the request alone is checked before the first call is made.

A request may have a deadline.  What it has not done by then it does not do.
-/
import ClusterAccess.Catalog.PolicyHolders
import ClusterAccess.Catalog.RoleMembers
import ClusterAccess.Rbac.Assignment
import ClusterAccess.Settings.Basic

namespace ClusterAccess.Provisioning

open Catalog

/-- What an entitlement can be provisioned through. -/
inductive Channel where
  | clusterRoles
  | roles
  | accessPolicies
  deriving DecidableEq, Repr

/-- What an entitlement is provisioned through, by its kind. -/
def channel (entitlement : String) : Outcome Channel := do
  let id ← EntitlementId.decode entitlement
  if id.kind = ResourceType.clusterRole.id then .ok .clusterRoles
  else if id.kind = ResourceType.role.id then .ok .roles
  else if id.kind = ResourceType.accessPolicy.id then .ok .accessPolicies
  else
    .error (.invalidField "entitlement" (id.kind ++ " entitlements cannot be provisioned"))

/-- What a request is about. -/
inductive Target where
  | membership (role : RoleTarget) (scope : Scope)
  | policy (arn : String) (scope : Scope)
  deriving DecidableEq, Repr

/-- The target of an entitlement id, which has to be one of the channel's. -/
def Channel.target (channel : Channel) (entitlement : String) : Outcome Target :=
  match channel with
  | .clusterRoles => do
    let (role, scope) ← clusterRoleTarget entitlement
    .ok (.membership role scope)
  | .roles => do
    let (role, scope) ← roleTarget entitlement
    .ok (.membership role scope)
  | .accessPolicies => do
    let (arn, scope) ← policyTarget entitlement
    .ok (.policy arn scope)

/-- Grants a target to a principal. -/
def Target.grant (principal : String) : Target → Request GrantResult
  | .membership role scope => role.grant AwsAuth.directory principal scope
  | .policy arn scope => Policy.grant principal arn scope

/-- Revokes a target from a principal. -/
def Target.revoke (principal : String) : Target → Request RevokeResult
  | .membership role scope => role.revoke AwsAuth.directory principal scope
  | .policy arn scope => Policy.revoke principal arn scope

/-- Grants an entitlement of a channel to a principal. -/
def Channel.grant (channel : Channel) (principal : ResourceId) (entitlement : String) :
    Request GrantResult := do
  let target ← ofOutcome (channel.target entitlement)
  let arn ← ofOutcome (principalArn principal)
  target.grant arn

/-- Revokes an entitlement of a channel from a principal. -/
def Channel.revoke (channel : Channel) (principal : ResourceId) (entitlement : String) :
    Request RevokeResult := do
  let target ← ofOutcome (channel.target entitlement)
  let arn ← ofOutcome (principalArn principal)
  target.revoke arn

/-- A request under a deadline. -/
structure Timed (α : Type) where
  /-- What the fault of a missed deadline calls the request. -/
  operation : String
  /-- How long the request may take, in seconds. -/
  deadline : Option Nat
  request : Request α

/-- The outcome of a request that missed its deadline. -/
def Timed.missed (timed : Timed α) : Outcome α :=
  .error (.timeout timed.operation)

/-- Grants an entitlement to a principal. -/
def grant (settings : Settings) (principal : ResourceId) (entitlement : String) :
    Timed GrantResult where
  operation := "grant"
  deadline := settings.deadline?
  request := do
    let through ← ofOutcome (channel entitlement)
    through.grant principal entitlement

/-- Revokes an entitlement from a principal. -/
def revoke (settings : Settings) (principal : ResourceId) (entitlement : String) :
    Timed RevokeResult where
  operation := "revoke"
  deadline := settings.deadline?
  request := do
    let through ← ofOutcome (channel entitlement)
    through.revoke principal entitlement

end ClusterAccess.Provisioning
