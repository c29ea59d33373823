/-
What was granted is listed.

A grant turns a principal into a username and has a binding list that.  A listing goes the other
way, from the subjects of the bindings to the principals behind them.  The two meet because
whoever has a username in the mapping document is behind it there, and stays so in a
snapshot, whatever the access entries add.

The listing may read the snapshot itself, or find one that has been read since, and the access
entries need not have been readable.  Only the document and the bindings do.
-/
import ClusterAccess.Proofs.RoleListing
import ClusterAccess.Proofs.RoleRequests

namespace ClusterAccess

open Program (After History)
open Trial (Shelves)

/-! ### Snapshots of a document -/

/-- The mappings are those of a reading in which the mapping document could be read. -/
def ControlPlane.Maps (plane : ControlPlane) (mappings : Mappings) : Prop :=
  ∃ document entries, plane.awsAuth = some document ∧
    Identity.combine (.ok document.mappings) entries = .ok mappings

namespace Identity

variable {plane : ControlPlane} {mayFail : Call → Prop} {document : AwsAuth} {mappings : Mappings}
  {principal username : String}

/-- What is read while the document can be read maps whoever it maps. -/
theorem loadsOnly_maps (hdocument : plane.awsAuth = some document) (hsure : ¬mayFail .getAwsAuth)
    (maxPages : Nat) : LoadsOnly plane mayFail maxPages plane.Maps := by
  intro read entries hread _
  rw [AwsAuth.answers_readMappings hsure hdocument hread]
  cases entries with
  | ok entries => exact ⟨_, rfl, document, .ok entries, hdocument, rfl⟩
  | error fault => exact ⟨_, rfl, document, .error fault, hdocument, rfl⟩

theorem mem_forUsername_of_maps (hdocument : plane.awsAuth = some document)
    (h : plane.Maps mappings) (hmem : principal ∈ document.mappings.forUsername username) :
    principal ∈ mappings.forUsername username := by
  obtain ⟨found, entries, hfound, hcombine⟩ := h
  obtain rfl := Option.some.inj (hdocument.symm.trans hfound)
  cases entries with
  | ok entries =>
      obtain rfl := Except.ok.inj hcombine
      exact Mappings.mem_forUsername_merge hmem
  | error fault =>
      obtain rfl := Except.ok.inj hcombine
      exact hmem

end Identity

theorem ResourceId.exists_ofArn? {arn : String} (h : Arn.isUserOrRole arn = true) :
    ∃ principal, ofArn? arn = some principal := by
  unfold Arn.isUserOrRole at h
  unfold ofArn?
  cases hclass : Arn.classify arn with
  | user => exact ⟨_, rfl⟩
  | role => exact ⟨_, rfl⟩
  | unsupported =>
      rw [hclass] at h
      cases h

/-! ### Grants and listings -/

namespace Connector

variable {connector : Connector} {holder : ResourceId} {entitlement : String} {role : RoleTarget}
  {scope : Scope} {t after later : Trial} {shelves : Shelves} {last : Shelves × Trial}
  {result : GrantResult} {upkeep : Upkeep} {resource : Resource} {limit : Option Nat}
  {listing : Outcome (List Grant)}

/-- **What was granted is listed under its own id.**  Say a grant of a membership succeeded, the
username that the principal resolved to is not one that is built into the cluster, and nothing
has been written since.  Then a listing of the role succeeds if the mapping document and the
bindings can be read, and it has a grant of just this entitlement to just this principal. -/
theorem listed_of_granted (hserver : t.server = none)
    (hgrant : (Trial.runTimed (connector.grant holder entitlement)).run t =
      (some (.ok result), after))
    (hnames : Provisioning.Names entitlement (.membership role scope))
    (hgroups : ∀ b ∈ t.plane.bindings, ∀ s ∈ b.subjects, s.kind = Subject.userKind →
      s.inRbacGroup = true)
    (hbuiltIn : Text.hasPart Subject.systemMark
      ((t.plane.username? holder.resource).getD holder.resource).toList = false)
    (hback : ∀ document, t.plane.awsAuth = some document → document.ReadsBack holder.resource)
    (hquiet : later.plane = after.plane) (hlater : later.server = none)
    (hdocument : ¬later.MayFail .getAwsAuth) (hbindings : ¬later.MayFail (.matchingBindings role))
    (hsnapshot : shelves.identities.expiry = .stale ∨ after.plane.Maps shelves.identities.value)
    (hresource : resource.id = role.resourceId)
    (hlist : (Trial.runSession limit (role.listGrants upkeep resource)).run (shelves, later) =
      (some listing, last)) :
    ∃ grants, listing = .ok grants ∧
      ∃ g ∈ grants, g.entitlement = entitlement ∧
        ResourceId.ofArn? holder.resource = some g.principal := by
  obtain ⟨⟨history, hafter, hacts⟩, -, -⟩ := Trial.acts_of_runTimed hserver hgrant
  obtain ⟨hclass, ⟨document, hmapped, hmem⟩, b, hb, hof, s, hs, huser, hgroup⟩ :=
    Errand.lists_of_grant (errand_of_grant hnames hafter) hacts hback hgroups
  obtain ⟨hkind, hname⟩ := Binding.isUser_iff.1 huser
  have hready : Identity.Ready after.plane later.MayFail after.plane.Maps (shelves, later) :=
    ⟨⟨hquiet, hlater, fun _ hcall => hcall⟩, hsnapshot⟩
  have hmaps : after.plane.Maps document.mappings := ⟨document, .error default, hmapped, rfl⟩
  obtain ⟨grants, rfl, hreports, -⟩ := RoleTarget.ensures_listGrants
    (Identity.loadsOnly_maps hmapped hdocument upkeep.maxPages) hmaps hbindings hresource
    hnames.listable _ _ _ hready hlist
  refine ⟨grants, rfl, ?_⟩
  -- The user that the grant has left listed is looked up, and the principal is behind it.
  obtain ⟨mappings, hfound, hgrants⟩ :=
    RoleTarget.grants_of_gathered hreports hb hof hnames.admits hs
  have hlooked : s.isLookedUp = true := by
    rw [Subject.isLookedUp, hgroup, Subject.isBuiltIn, hname, hbuiltIn]
    rfl
  obtain ⟨principal, hprincipal⟩ := ResourceId.exists_ofArn? hclass
  obtain ⟨g, hg, htext, hholder⟩ :=
    exists_principalGrant_iff.2 ⟨hnames.toString_eq, hprincipal⟩
  refine ⟨g, hgrants g ?_, htext, by rw [hholder, hprincipal]⟩
  refine (Subject.mem_grants_iff hkind).2 ⟨hlooked, holder.resource, ?_, hg⟩
  rw [hname]
  exact Identity.mem_forUsername_of_maps hmapped hfound hmem

/-- The cluster role view. -/
def viewRole : Resource :=
  { id := ResourceType.clusterRole.resourceId "view", displayName := "view" }

/-- The listing of the role on a control plane that nothing has been read from. -/
def listView (plane : ControlPlane) : Option (Outcome (List Grant)) × Shelves × Trial :=
  (Trial.runSession none
    ((RoleTarget.clusterRole "view").listGrants prod.identityUpkeep viewRole)).run ({}, { plane })

theorem run_listView {plane : ControlPlane} {listing : Outcome (List Grant)}
    (h : (listView plane).1 = some listing) :
    (Trial.runSession none
      ((RoleTarget.clusterRole "view").listGrants prod.identityUpkeep viewRole)).run ({}, { plane }) =
        (some listing, (listView plane).2) := Trial.run_eq h

theorem names_view : Provisioning.Names "cluster_role:view:assigned:cluster"
    (.membership (.clusterRole "view") .cluster) := .clusterRole rfl

/-- The row that maps alice to herself reads back. -/
theorem readsBack_alice :
    (⟨"kube-system", "aws-auth", some "1", []⟩ : AwsAuth).ReadsBack alice.resource :=
  AwsAuth.readsBack_alice rfl

/-- Alice is granted the role on a control plane that holds nothing, and then it is listed. -/
theorem exists_grant_alice : ∃ after,
    (Trial.runTimed (prod.grant alice "cluster_role:view:assigned:cluster")).run {} =
      (some (.ok .applied), after) ∧
    (listView after.plane).1 = some (.ok [⟨"cluster_role:view:assigned:cluster", alice, []⟩]) :=
  ⟨_, Trial.run_eq (by decide +kernel), by decide +kernel⟩

/-- Alice, who was mapped to herself by the grant, is listed. -/
theorem listed_alice : ∃ after,
    (Trial.runTimed (prod.grant alice "cluster_role:view:assigned:cluster")).run {} =
      (some (.ok .applied), after) ∧
    ∃ grants, (listView after.plane).1 = some (.ok grants) ∧
      ∃ g ∈ grants, g.entitlement = "cluster_role:view:assigned:cluster" ∧
        ResourceId.ofArn? alice.resource = some g.principal := by
  obtain ⟨after, hgrant, hlist⟩ := exists_grant_alice
  refine ⟨after, hgrant, _, hlist, ?_⟩
  have hsure : ∀ call, ¬({ plane := after.plane } : Trial).MayFail call := Trial.not_mayFail rfl
  have hgroups : ∀ b ∈ ({} : Trial).plane.bindings, ∀ s ∈ b.subjects,
      s.kind = Subject.userKind → s.inRbacGroup = true := by
    intro b hb
    cases hb
  have hbuiltIn : Text.hasPart Subject.systemMark
      ((({} : Trial).plane.username? alice.resource).getD alice.resource).toList = false := by
    decide +kernel
  have hback : ∀ document, ({} : Trial).plane.awsAuth = some document →
      document.ReadsBack alice.resource := by
    intro document hdocument
    rw [← Option.some.inj hdocument]
    exact readsBack_alice
  have hquiet : ({ plane := after.plane } : Trial).plane = after.plane := rfl
  obtain ⟨grants, heq, hlisted⟩ := listed_of_granted rfl hgrant names_view hgroups hbuiltIn hback
    hquiet rfl (hsure _) (hsure _) (Or.inl rfl) rfl (run_listView hlist)
  obtain rfl := Except.ok.inj heq
  exact hlisted

end Connector

end ClusterAccess
