/-
Settings of one connector.

A connector serves one cluster.  The settings name the cluster and its mapping
document, say how long observations may be reused, and how long one request may
take.  `check` refuses settings that cannot work, in the order of the fields; a
request deadline of zero means that there is none.
-/
import ClusterAccess.Arn
import ClusterAccess.Fault
import ClusterAccess.Text.Blank

namespace ClusterAccess

open Text

/-- The settings of a connector; lifetimes and deadlines are in seconds. -/
structure Settings where
  clusterName : String := ""
  region : Option String := none
  /-- The IAM role that cloud calls are made as. -/
  assumedRole : Option String := none
  awsAuthNs : String := "kube-system"
  awsAuthName : String := "aws-auth"
  identityLifetime : Nat := 300
  namespaceLifetime : Nat := 300
  requestDeadline : Nat := 30
  deriving DecidableEq, Repr

namespace Settings

/-- The longest lifetime of an observation: one day. -/
def maxLifetime : Nat := 24 * 60 * 60

/-- The longest deadline of a request: one hour. -/
def maxDeadline : Nat := 60 * 60

/-- Refuses a lifetime of nothing or of more than a day. -/
def checkLifetime (field : String) (seconds : Nat) : Outcome Unit :=
  if seconds = 0 then .error (.invalidField field "must be greater than zero")
  else if seconds > maxLifetime then
    .error (.invalidField field s!"must be at most {maxLifetime}")
  else .ok ()

/-- Refuses a role that is not the ARN of one. -/
def checkRole : Option String → Outcome Unit
  | none => .ok ()
  | some role =>
    if Arn.classify role = .role then .ok ()
    else .error (.invalidField "assume_role_arn" s!"{role} is not an IAM role ARN")

/-- Refuses settings that no connector can run with. -/
def check (s : Settings) : Outcome Unit := do
  if allBlank s.clusterName then
    .error (.invalidField "cluster_name" "must not be empty")
  if s.awsAuthNs = "" ∨ s.awsAuthName = "" then
    .error (.invalidField "aws_auth" "aws-auth namespace and name must not be empty")
  checkLifetime "identity_cache_ttl_secs" s.identityLifetime
  checkLifetime "namespace_cache_ttl_secs" s.namespaceLifetime
  if s.requestDeadline > maxDeadline then
    .error (.invalidField "request_timeout_secs" s!"must be at most {maxDeadline}")
  checkRole s.assumedRole

/-- The deadline of a request in seconds, unless there is none. -/
def deadline? (s : Settings) : Option Nat :=
  if s.requestDeadline = 0 then none else some s.requestDeadline

end Settings

end ClusterAccess
