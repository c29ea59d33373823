/-
The names of calls.

A call has a name and an argument, which together label it: in the count of the calls
that were made, and in the rules that say which calls are slow and which fail.
-/
import ClusterAccess.Call

namespace ClusterAccess

/-- What the name of a listing call starts with. -/
def ObjectListing.callName : ObjectListing → String
  | .clusterRoles => "list_cluster_roles"
  | .roles => "list_roles"
  | .namespaces => "list_namespaces"

/-- What a kind of binding is called in the name of a call. -/
def Reach.callPart : Reach → String
  | .namespaced => "role_binding"
  | .clusterWide => "cluster_role_binding"

namespace Call

/-- The name of a call. -/
def name : Call → String
  | .getAwsAuth => "get_aws_auth"
  | .updateAwsAuth _ => "update_aws_auth"
  | .listAccessEntries _ => "list_access_entries"
  | .describeAccessEntry _ => "describe_access_entry"
  | .createAccessEntry _ => "create_access_entry"
  | .associatedPolicies _ => "associated_policies"
  | .associatePolicy _ _ _ => "associate_policy"
  | .disassociatePolicy _ _ => "disassociate_policy"
  | .listPrincipals _ _ => "list_principals_with_policy"
  | .listObjects listing _ => listing.callName
  | .listIamRoles _ => "list_iam_roles"
  | .getIamRole _ => "get_role"
  | .getTrustPolicy _ => "get_trust_policy"
  | .matchingBindings _ => "matching_bindings"
  | .createBinding b => "create_" ++ b.reach.callPart
  | .updateBinding b => "update_" ++ b.reach.callPart
  | .deleteBinding (some _) _ => "delete_role_binding"
  | .deleteBinding none _ => "delete_cluster_role_binding"

/-- The argument of a listing call: the token, or a hyphen for the first page. -/
def tokenArgument (token : Option String) : String :=
  token.getD "-"

/-- The argument of a call, empty for the calls that have none. -/
def argument : Call → String
  | .listAccessEntries token => tokenArgument token
  | .describeAccessEntry principal => principal
  | .createAccessEntry principal => principal
  | .associatedPolicies principal => principal
  | .associatePolicy principal _ _ => principal
  | .disassociatePolicy principal _ => principal
  | .listPrincipals _ token => tokenArgument token
  | .listObjects _ token => tokenArgument token
  | .listIamRoles token => tokenArgument token
  | .getIamRole name => name
  | .getTrustPolicy name => name
  | .matchingBindings role => toString role
  | _ => ""

/-- The label of a call: its name, and its argument if it has one. -/
def label (call : Call) : String :=
  if call.argument = "" then call.name else call.name ++ " " ++ call.argument

/-- Does the call change something? -/
def isWrite : Call → Bool
  | .updateAwsAuth _ => true
  | .createAccessEntry _ => true
  | .associatePolicy _ _ _ => true
  | .disassociatePolicy _ _ => true
  | .createBinding _ => true
  | .updateBinding _ => true
  | .deleteBinding _ _ => true
  | _ => false

end Call

end ClusterAccess
