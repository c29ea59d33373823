/-
A role that is listed is provisioned as itself.

A role is packed twice.  Its namespace and its name make the id of a resource, with a slash between
them, and this id and the namespace again make the id of an entitlement, with colons and a marker.
Each is taken apart by another function.  The name may hold any of the separators of the outer
layer, because the marker is looked for from the end; it may not hold the slash of the inner one.

So from the listed role to the requests for what it offers, all steps are about the same role in
the same namespace (`ProvisionedAs`), if the namespace is one that an id can be read back with
(`Scope.Survives`).
-/
import ClusterAccess.Proofs.EntitlementGrammar
import ClusterAccess.Proofs.RequestBounds

namespace ClusterAccess

open Program (After)
open Provisioning (Channel)

/-! ### Scopes that are read back -/

namespace Scope

variable {scope : Scope} {ns kind resource : String}

/-- Some membership at the scope is read back as itself. -/
def Survives (scope : Scope) : Prop :=
  ∃ id : EntitlementId, id.form = .assigned scope ∧ EntitlementId.decode (toString id) = .ok id

/-- One namespace does not survive though its name is a label: the one that is written like the end
of the other form. -/
theorem survives_iff : scope.Survives ↔ scope.Valid ∧ scope ≠ .inNamespace "assumes" := by
  refine ⟨?_, ?_⟩
  · intro h
    obtain ⟨id, hform, hread⟩ := h
    obtain ⟨hwell, -, hne⟩ := EntitlementId.decode_eq_ok_iff.1 hread
    have hvalid := hwell.form_valid
    rw [hform] at hvalid hne
    exact ⟨hvalid, fun h => hne (congrArg _ h)⟩
  · intro h
    obtain ⟨hvalid, hne⟩ := h
    refine ⟨.assigned "role" "view" scope, rfl, EntitlementId.decode_eq_ok_iff.2 ⟨?_, rfl, ?_⟩⟩
    · exact ⟨show "role" ≠ "" by decide, show ':' ∉ "role".toList by decide,
        show "view" ≠ "" by decide, hvalid⟩
    · exact fun h => hne (EntitlementForm.assigned.inj h)

/-- If a scope is read back in one membership, then it is read back in all of them. -/
theorem Survives.decode_assigned (h : scope.Survives) (hkind : kind ≠ "" ∧ ':' ∉ kind.toList)
    (hresource : resource ≠ "") :
    EntitlementId.decode (toString (EntitlementId.assigned kind resource scope)) =
      .ok (.assigned kind resource scope) := by
  obtain ⟨hvalid, hne⟩ := survives_iff.1 h
  exact EntitlementId.decode_eq_ok_iff.2 ⟨⟨hkind.1, hkind.2, hresource, hvalid⟩, rfl,
    fun h => hne (EntitlementForm.assigned.inj h)⟩

theorem Label.not_mem_slash (h : Label ns) : '/' ∉ ns.toList := by
  intro hslash
  have hletter := h.letters '/' hslash
  revert hletter
  decide

end Scope

namespace Catalog

variable {object : Kube.Object} {id ns name entitlement : String} {role : RoleTarget}
  {scope : Scope} {resource : Resource}

/-! ### The resource of a role -/

theorem splitRoleId?_eq_some_iff : splitRoleId? id = some (ns, name) ↔
    id = roleId ns name ∧ (ns ≠ "" ∧ '/' ∉ ns.toList) ∧ name ≠ "" ∧ '/' ∉ name.toList := by
  refine ⟨eq_of_splitRoleId?, ?_⟩
  intro h
  obtain ⟨rfl, hns, hname⟩ := h
  exact splitRoleId?_join hns hname

theorem exists_roleResource? (hns : object.metadata.ns = some ns)
    (hname : object.metadata.name = some name) (hns' : ns ≠ "") (hname' : name ≠ "") :
    ∃ resource, roleResource? object = some resource ∧
      resource.id = ResourceType.role.resourceId (roleId ns name) := by
  have hproperNs : object.properNs? = some ns := by
    rw [Kube.Object.properNs?, hns, Option.filter_some, if_pos (decide_eq_true hns')]
  have hproperName : object.properName? = some name := by
    rw [Kube.Object.properName?, hname, Option.filter_some, if_pos (decide_eq_true hname')]
  unfold roleResource?
  rw [hproperName, hproperNs]
  exact ⟨_, rfl, rfl⟩

/-- A page of roles gives the resource of each of its objects that has one. -/
theorem listRoles_lists {page : Page Kube.Object} (token : Option String)
    (hobject : object ∈ page.items) (hresource : roleResource? object = some resource) :
    ∃ listed, After (listRoles token).run [⟨.listObjects .roles token, .ok page⟩]
      (.done (.ok listed)) ∧ resource ∈ listed.items :=
  ⟨⟨page.items.filterMap roleResource?, page.next⟩, .reply (.start _),
    List.mem_filterMap.2 ⟨object, hobject, hresource⟩⟩

/-! ### The requests for an entitlement -/

/-- The requests for the entitlement are about the role at the scope, where it can be bound. -/
structure Provisions (entitlement : String) (role : RoleTarget) (scope : Scope) : Prop where
  target : roleTarget entitlement = .ok (role, scope)
  admitted : role.checkScope scope = .ok ()
  grant : ∀ principal, Channel.roles.grant principal entitlement =
    ofOutcome (principalArn principal) >>= fun arn => role.grant AwsAuth.directory arn scope
  revoke : ∀ principal, Channel.roles.revoke principal entitlement =
    ofOutcome (principalArn principal) >>= fun arn => role.revoke AwsAuth.directory arn scope

theorem provisions_of_target (h : roleTarget entitlement = .ok (role, scope))
    (hadmitted : role.checkScope scope = .ok ()) : Provisions entitlement role scope where
  target := h
  admitted := hadmitted
  grant principal := by
    unfold Channel.grant Channel.target
    rw [h]
    rfl
  revoke principal := by
    unfold Channel.revoke Channel.target
    rw [h]
    rfl

/-- The id of a resource and what the resource offers are about this role of the namespace. -/
structure ProvisionedAs (resource : Resource) (ns name : String) : Prop where
  split : splitRoleId? resource.id.resource = some (ns, name)
  offered : ∃ entitlement, roleEntitlements resource = .ok [entitlement] ∧
    Provisions entitlement.id (.role ns name) (.inNamespace ns)

theorem provisions_of_survives (hscope : (Scope.inNamespace ns).Survives)
    (hsplit : splitRoleId? id = some (ns, name)) :
    Provisions (toString (EntitlementId.assigned ResourceType.role.id id (.inNamespace ns)))
      (.role ns name) (.inNamespace ns) := by
  have hne : id ≠ "" := by
    rintro rfl
    cases hsplit
  exact provisions_of_target (roleTarget_of_decode (hscope.decode_assigned (by decide) hne) hsplit)
    (RoleTarget.checkScope_eq_ok_iff.2 (decide_eq_true rfl))

theorem provisionedAs_of_split (hscope : (Scope.inNamespace ns).Survives)
    (hsplit : splitRoleId? resource.id.resource = some (ns, name)) :
    ProvisionedAs resource ns name where
  split := hsplit
  offered := by
    have hrole : roleOfResource resource.id.resource = .ok (ns, name) := by
      unfold roleOfResource
      rw [hsplit]
    unfold roleEntitlements
    rw [hrole]
    exact ⟨_, rfl, provisions_of_survives hscope hsplit⟩

/--
**A listed role is provisioned as itself**, whatever its name, if the name of its namespace is read
back.  And an id that is taken for a role is the id of that role.
-/
theorem listed_role_provisioned (hns : object.metadata.ns = some ns)
    (hname : object.metadata.name = some name) (hscope : (Scope.inNamespace ns).Survives)
    (hproper : name ≠ "" ∧ '/' ∉ name.toList) :
    (∃ resource, roleResource? object = some resource ∧
      (∀ token (page : Page Kube.Object), object ∈ page.items →
        ∃ listed, After (listRoles token).run [⟨.listObjects .roles token, .ok page⟩]
          (.done (.ok listed)) ∧ resource ∈ listed.items) ∧
      resource.id = ResourceType.role.resourceId (roleId ns name) ∧
      ProvisionedAs resource ns name) ∧
    ∀ id ns name, splitRoleId? id = some (ns, name) ↔
      id = roleId ns name ∧ (ns ≠ "" ∧ '/' ∉ ns.toList) ∧ name ≠ "" ∧ '/' ∉ name.toList := by
  have hlabel : Scope.Label ns := (Scope.survives_iff.1 hscope).1
  have hslash := hlabel.not_mem_slash
  refine ⟨?_, fun _ _ _ => splitRoleId?_eq_some_iff⟩
  obtain ⟨resource, hresource, hid⟩ :=
    exists_roleResource? hns hname hlabel.nonempty hproper.1
  refine ⟨resource, hresource, fun token page hobject => listRoles_lists token hobject hresource,
    hid, provisionedAs_of_split hscope ?_⟩
  rw [hid]
  exact splitRoleId?_eq_some_iff.2 ⟨rfl, ⟨hlabel.nonempty, hslash⟩, hproper⟩

/-- A role whose name holds both markers, in a namespace that is called like the whole cluster. -/
def markedRole : Kube.Object :=
  ⟨{ name := some "a:assigned:b:assumes", ns := some "cluster" }, []⟩

theorem listed_role_provisioned_marked :
    (Scope.inNamespace "cluster").Survives ∧ ∃ resource, roleResource? markedRole = some resource ∧
      ProvisionedAs resource "cluster" "a:assigned:b:assumes" := by
  have hns : markedRole.metadata.ns = some "cluster" := rfl
  have hname : markedRole.metadata.name = some "a:assigned:b:assumes" := rfl
  have hscope : (Scope.inNamespace "cluster").Survives := Scope.survives_iff.2 (by decide)
  obtain ⟨⟨resource, hresource, -, -, hprovisioned⟩, -⟩ :=
    listed_role_provisioned hns hname hscope (by decide)
  exact ⟨hscope, resource, hresource, hprovisioned⟩

end Catalog

end ClusterAccess
