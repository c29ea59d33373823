/-
A control plane in memory.

It holds what the calls of this library are about: the mapping document, the access
entries and policy associations, the bindings, and the objects and IAM roles that are
listed.  Listings come in pages of a given size, and the last page may carry a token
that leads nowhere.
-/
import ClusterAccess.Text.Digits
import ClusterAccess.Call

namespace ClusterAccess

/-- The listings of a control plane. -/
inductive Listing where
  | accessEntries
  | principals
  | objects (listing : ObjectListing)
  | iamRoles
  deriving DecidableEq, Repr

namespace Listing

/-- The name of a listing. -/
def name : Listing → String
  | .accessEntries => "access_entries"
  | .principals => "principals"
  | .objects .clusterRoles => "cluster_roles"
  | .objects .roles => "roles"
  | .objects .namespaces => "namespaces"
  | .iamRoles => "iam_roles"

end Listing

/-- An access entry as it is held. -/
structure HeldEntry where
  principal : String
  /-- What describing the entry gives; nothing if it vanishes in between. -/
  description : Option AccessEntry
  deriving DecidableEq, Repr

/-- The associations of a principal. -/
structure HeldAssociations where
  principal : String
  policies : List Association
  deriving DecidableEq, Repr

/-- The state of a control plane. -/
structure ControlPlane where
  awsAuth : Option AwsAuth := some ⟨"kube-system", "aws-auth", some "1", []⟩
  entries : List HeldEntry := []
  associations : List HeldAssociations := []
  bindings : List Binding := []
  objects : ObjectListing → List Kube.Object := fun _ => []
  iamRoles : List IamRole := []
  /-- The trust policies by the name of the role. -/
  trustPolicies : List (String × String) := []
  /-- The page size of each listing; a listing without one is a single page. -/
  pageSizes : List (String × Nat) := []
  /-- The token on the last page of each listing. -/
  endTokens : List (String × String) := []

namespace ControlPlane

/-! ### Pages -/

/-- The number of a page, from its token. -/
def pageNumber? (token : String) : Option Nat :=
  match token.toList with
  | 'p' :: number => Text.unsigned? 64 number
  | _ => none

/-- The token of a page. -/
def pageToken (number : Nat) : String :=
  "p" ++ Nat.repr number

/-- The page of a listing that a token asks for. -/
def page (plane : ControlPlane) (listing : Listing) (items : List α) (token : Option String) :
    Outcome (Page α) :=
  let lastToken := plane.endTokens.lookup listing.name
  let bad (token : String) : Outcome (Page α) :=
    .error (.cloud ("list " ++ listing.name) ("bad token " ++ token) false)
  match plane.pageSizes.lookup listing.name with
  | none =>
    match token with
    | none => .ok ⟨items, lastToken⟩
    | some token => bad token
  | some size =>
    let cut (number : Nat) : Page α :=
      ⟨(items.drop (number * size)).take size,
        if (number + 1) * size < items.length then some (pageToken (number + 1)) else lastToken⟩
    match token with
    | none => .ok (cut 0)
    | some token =>
      match pageNumber? token with
      | some number =>
        if 0 < number ∧ number * size < items.length then .ok (cut number) else bad token
      | none => bad token

/-! ### The mapping document -/

/-- The version of a document after a write. -/
def nextVersion (version : Option String) : Option String :=
  version.map fun (text : String) =>
    match Text.unsigned? 32 text.toList with
    | some n => Nat.repr (n + 1)
    | none => text

/-- Stores the mapping document, unless it has another version than the one it is written over. -/
def updateAwsAuth (plane : ControlPlane) (document : AwsAuth) : Outcome ControlPlane :=
  if document.resourceVersion = plane.awsAuth.bind AwsAuth.resourceVersion then
    .ok { plane with
      awsAuth := some { document with resourceVersion := nextVersion document.resourceVersion } }
  else .error (.api "update aws-auth" (.status 409 Fault.conflictReason "version mismatch"))

/-! ### Access entries and associations -/

/-- The access entry of a principal. -/
def entry? (plane : ControlPlane) (principal : String) : Option HeldEntry :=
  plane.entries.find? fun entry => entry.principal = principal

/-- How faults call the access entry of a principal. -/
def entryName (principal : String) : String :=
  "access entry " ++ principal

/-- Adds a standard access entry for a principal that has none. -/
def createEntry (plane : ControlPlane) (principal : String) : Outcome ControlPlane :=
  match plane.entry? principal with
  | some _ => .error (.alreadyExists (entryName principal))
  | none =>
    .ok { plane with entries := plane.entries ++
      [⟨principal, some ⟨principal, "STANDARD", none, []⟩⟩] }

/-- The policies that are associated with a principal. -/
def policiesOf (plane : ControlPlane) (principal : String) : List Association :=
  match plane.associations.find? fun held => held.principal = principal with
  | some held => held.policies
  | none => []

/-- Changes the policies of the first record of a principal. -/
def changePolicies (change : List Association → List Association) (principal : String) :
    List HeldAssociations → List HeldAssociations
  | [] => []
  | held :: rest =>
    if held.principal = principal then { held with policies := change held.policies } :: rest
    else held :: changePolicies change principal rest

/-- Associates a policy with a principal, in place of an earlier association. -/
def associate (plane : ControlPlane) (principal policy : String) (scope : PolicyScope) :
    ControlPlane :=
  let records :=
    if plane.associations.any fun held => held.principal = principal then plane.associations
    else plane.associations ++ [⟨principal, []⟩]
  { plane with
    associations := changePolicies
      (fun policies => policies.filter (fun a => a.policy ≠ policy) ++ [⟨policy, scope⟩])
      principal records }

/-- Removes the associations of a policy with a principal. -/
def disassociate (plane : ControlPlane) (principal policy : String) : ControlPlane :=
  { plane with
    associations := changePolicies (fun policies => policies.filter fun a => a.policy ≠ policy)
      principal plane.associations }

/-- The principals that a policy is associated with. -/
def holders (plane : ControlPlane) (policy : String) : List String :=
  (plane.associations.filter fun held => held.policies.any fun a => a.policy = policy).map
    HeldAssociations.principal

/-! ### Bindings -/

/-- Are two bindings the same object: of one kind, in one namespace, of one name? -/
def sameObject (a b : Binding) : Bool :=
  a.reach = b.reach && a.ns? = b.ns? && a.name = b.name

/-- Puts something in the place of the first member of a kind. -/
def replaceFirst (new : α) (isOld : α → Bool) : List α → List α
  | [] => []
  | a :: rest => if isOld a then new :: rest else a :: replaceFirst new isOld rest

/-- Adds a binding, unless one of its name is there. -/
def createBinding (plane : ControlPlane) (b : Binding) : Outcome ControlPlane :=
  if plane.bindings.any (sameObject b) then
    .error (.api ("create " ++ b.describe) (.status 409 "AlreadyExists" "already exists"))
  else .ok { plane with bindings := plane.bindings ++ [b] }

/-- Replaces a binding, which has to be there. -/
def updateBinding (plane : ControlPlane) (b : Binding) : Outcome ControlPlane :=
  if plane.bindings.any (sameObject b) then
    .ok { plane with
      bindings := replaceFirst b (sameObject b) plane.bindings }
  else .error (.api ("update " ++ b.describe) (.status 404 "NotFound" "not found"))

/-- Is it the role binding of a namespace, or else the cluster role binding, of this name? -/
def isNamed (ns : Option String) (name : String) (b : Binding) : Bool :=
  (match ns with
    | some ns => b.reach = .namespaced && b.ns? = some ns
    | none => b.reach = .clusterWide) && b.name = name

/-- Removes a binding by name. -/
def deleteBinding (plane : ControlPlane) (ns : Option String) (name : String) :
    Outcome ControlPlane :=
  if plane.bindings.any (isNamed ns name) then
    .ok { plane with bindings := plane.bindings.eraseP (isNamed ns name) }
  else .error (.api ("delete binding " ++ name) (.status 404 "NotFound" "not found"))

/-! ### Calls -/

/-- A change as the reply to a call that answers nothing, and the state after it. -/
def changed (plane : ControlPlane) (after : Outcome ControlPlane) : Outcome Unit × ControlPlane :=
  match after with
  | .ok after => (.ok (), after)
  | .error fault => (.error fault, plane)

/-- An answer or a fault for something that may be missing. -/
def orMissing (what : String) : Option α → Outcome α
  | some value => .ok value
  | none => .error (.notFound what)

/-- Carries out a call. -/
def act (plane : ControlPlane) : (call : Call) → call.Reply × ControlPlane
  | .getAwsAuth => (.ok plane.awsAuth, plane)
  | .updateAwsAuth document => plane.changed (plane.updateAwsAuth document)
  | .listAccessEntries token =>
    (plane.page .accessEntries (plane.entries.map HeldEntry.principal) token, plane)
  | .describeAccessEntry principal =>
    (.ok ((plane.entry? principal).bind HeldEntry.description), plane)
  | .createAccessEntry principal => plane.changed (plane.createEntry principal)
  | .associatedPolicies principal =>
    ((orMissing (entryName principal) (plane.entry? principal)).map
      fun _ => plane.policiesOf principal, plane)
  | .associatePolicy principal policy scope =>
    plane.changed (.ok (plane.associate principal policy scope))
  | .disassociatePolicy principal policy =>
    plane.changed (.ok (plane.disassociate principal policy))
  | .listPrincipals policy token => (plane.page .principals (plane.holders policy) token, plane)
  | .listObjects listing token =>
    (plane.page (.objects listing) (plane.objects listing) token, plane)
  | .listIamRoles token => (plane.page .iamRoles plane.iamRoles token, plane)
  | .getIamRole name =>
    (orMissing ("IAM role " ++ name) (plane.iamRoles.find? fun role => role.name = name), plane)
  | .getTrustPolicy name =>
    (orMissing ("trust policy " ++ name) (plane.trustPolicies.lookup name), plane)
  | .matchingBindings role =>
    (.ok (.ofList (plane.bindings.filter fun b => role.isRef b.roleRef)), plane)
  | .createBinding b => plane.changed (plane.createBinding b)
  | .updateBinding b => plane.changed (plane.updateBinding b)
  | .deleteBinding ns name => plane.changed (plane.deleteBinding ns name)

end ControlPlane

end ClusterAccess
