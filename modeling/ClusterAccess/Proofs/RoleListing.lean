/-
Whom the listing of a role reports.

A listing goes through the bindings of a role and through their subjects, and looks every
user and group up.  What it reports is therefore told by the bindings and by the mappings
that the lookups were answered from (`Reports`, `ensures_listGrants`).  When there is only one
set of mappings that they can have been answered from, the listing is a function of the two
(`listed`).

A grant in a listing has the text of an entitlement.  Texts are equal when the places are
written alike (`toString_entitlementAt`), so that is what decides whether a user is reported
under a given id (`exists_stems_iff`).
-/
import ClusterAccess.Proofs.EntitlementCodec
import ClusterAccess.Proofs.RequestBounds
import ClusterAccess.Proofs.Snapshots

namespace ClusterAccess

open Catalog
open Session (Ensures ensures_pure ensures_of_fact ensures_gather)

/-! ### Principals -/

/-- A user or a role as a resource, typed by the class of its ARN. -/
def ResourceId.ofArn? (arn : String) : Option ResourceId :=
  match Arn.classify arn with
  | .role => some (ResourceType.iamRole.resourceId arn)
  | .user => some (ResourceType.iamUser.resourceId arn)
  | .unsupported => none

theorem ResourceId.eq_of_ofArn? {arn : String} {principal : ResourceId}
    (h : ofArn? arn = some principal) :
    principal = ResourceType.iamRole.resourceId arn ∨
      principal = ResourceType.iamUser.resourceId arn := by
  unfold ofArn? at h
  cases hclass : Arn.classify arn with
  | role =>
      simp only [hclass] at h
      exact Or.inl (Option.some.inj h).symm
  | user =>
      simp only [hclass] at h
      exact Or.inr (Option.some.inj h).symm
  | unsupported =>
      simp only [hclass] at h
      cases h

theorem ResourceId.resource_of_ofArn? {arn : String} {principal : ResourceId}
    (h : ofArn? arn = some principal) : principal.resource = arn := by
  rcases eq_of_ofArn? h with rfl | rfl <;> rfl

/-- A principal gets a grant of an entitlement exactly if it is a user or a role. -/
theorem exists_principalGrant_iff {id : EntitlementId} {arn text : String}
    {principal : ResourceId} :
    (∃ g, principalGrant id arn = some g ∧ g.entitlement = text ∧ g.principal = principal) ↔
      toString id = text ∧ ResourceId.ofArn? arn = some principal := by
  unfold principalGrant ResourceId.ofArn?
  cases Arn.classify arn <;> simp

/-! ### Subjects -/

namespace Subject

variable {mappings : Mappings} {id : EntitlementId} {bindingNs : Option String} {s : Subject}

/-- The grants that a subject stands for when it is looked up in these mappings. -/
def grants (mappings : Mappings) (id : EntitlementId) (bindingNs : Option String) (s : Subject) :
    List Grant :=
  Id.run (subjectGrants (fun identity => pure (mappings.behind identity)) id bindingNs s)

/-- Is a user or a group of this group and name looked up? -/
def isLookedUp (s : Subject) : Bool :=
  s.inRbacGroup && !s.isBuiltIn

/-- A user stands for grants to everybody behind its name. -/
theorem mem_grants_iff {g : Grant} (hkind : s.kind = userKind) :
    g ∈ s.grants mappings id bindingNs ↔
      s.isLookedUp = true ∧
        ∃ principal ∈ mappings.forUsername s.name, principalGrant id principal = some g := by
  have haccount : s.isServiceAccount = false := by
    rw [isServiceAccount, hkind]
    decide
  have hidentity : s.identity? = if s.isLookedUp = true then some (.username s.name) else none := by
    unfold identity? isLookedUp
    rw [haccount, hkind]
    cases s.inRbacGroup <;> cases s.isBuiltIn <;> rfl
  unfold grants subjectGrants
  rw [hidentity, haccount]
  by_cases hlooked : s.isLookedUp = true
  · rw [if_pos hlooked]
    have hmem : g ∈ (mappings.forUsername s.name).filterMap (principalGrant id) ↔
        ∃ principal ∈ mappings.forUsername s.name, principalGrant id principal = some g :=
      List.mem_filterMap
    exact hmem.trans (and_iff_right hlooked).symm
  · rw [if_neg hlooked]
    refine ⟨fun h => ?_, fun h => absurd h.1 hlooked⟩
    cases h

end Subject

/-! ### Roles -/

namespace RoleTarget

/-- The type of the resource that a role is. -/
def resourceType : RoleTarget → ResourceType
  | .clusterRole _ => .clusterRole
  | .role _ _ => .role

/-- The role as a resource. -/
def resourceId : RoleTarget → ResourceId
  | .clusterRole name => ResourceType.clusterRole.resourceId name
  | .role ns name => ResourceType.role.resourceId (roleId ns name)

/-- Membership of the role at a place. -/
def entitlementAt (role : RoleTarget) (place : Scope) : EntitlementId :=
  .assigned role.resourceType.id role.resourceId.resource place

/-- Who holds a role, as the catalog lists it. -/
def listGrants (upkeep : Upkeep) (role : RoleTarget) (resource : Resource) :
    Session (List Grant) :=
  match role with
  | .clusterRole _ => clusterRoleGrants upkeep resource
  | .role _ _ => roleGrants upkeep resource

/-- The bindings that a listing goes through. -/
def bindingsIn (role : RoleTarget) (bindings : List Binding) : List Binding :=
  let found := RoleBindings.ofList (bindings.filter fun b => role.isRef b.roleRef)
  match role with
  | .clusterRole _ => found.toList
  | .role ns _ => found.narrow (.inNamespace ns)

/-- The namespace and the name of a role can be told from its id. -/
def Listable : RoleTarget → Prop
  | .clusterRole _ => True
  | .role ns name => splitRoleId? (roleId ns name) = some (ns, name)

variable {role : RoleTarget} {scope place : Scope} {bindings : List Binding} {b : Binding}
  {Sound : Mappings → Prop} {mappings : Mappings}

/-- What is reported for a binding: what its subjects stand for in sound mappings. -/
def Reports (role : RoleTarget) (Sound : Mappings → Prop) (b : Binding) (part : List Grant) :
    Prop :=
  match b.scope? with
  | none => part = []
  | some place =>
    Gathered (fun s part => ∃ mappings, Sound mappings ∧
      part = s.grants mappings (role.entitlementAt place) b.ns?) b.subjects part

/-- What is reported for a binding in these mappings. -/
def reported (role : RoleTarget) (mappings : Mappings) (b : Binding) : List Grant :=
  match b.scope? with
  | none => []
  | some place => b.subjects.flatMap (Subject.grants mappings (role.entitlementAt place) b.ns?)

/-- The listing of the role for these bindings and mappings. -/
def listed (role : RoleTarget) (mappings : Mappings) (bindings : List Binding) : List Grant :=
  (role.bindingsIn bindings).flatMap (role.reported mappings)

theorem scope?_eq_some_iff : b.scope? = some place ↔ b.isAt place = true := by
  unfold Binding.scope? Binding.isAt
  cases b.reach <;> cases place <;> simp

/-- A listing goes through the bindings that give the role where it can be bound. -/
theorem mem_bindingsIn_iff : b ∈ role.bindingsIn bindings ∧ b.scope? = some place ↔
    b ∈ bindings ∧ b.isOf role place = true ∧ role.admits place = true := by
  rw [scope?_eq_some_iff]
  cases role with
  | clusterRole name =>
      have hmem : b ∈ bindingsIn (.clusterRole name) bindings ↔
          b ∈ bindings ∧ isRef (.clusterRole name) b.roleRef = true := by
        unfold bindingsIn RoleBindings.ofList RoleBindings.toList
        cases hreach : b.reach <;> simp [hreach]
      rw [hmem, Binding.isOf, Bool.and_eq_true]
      exact ⟨fun h => ⟨h.1.1, ⟨h.2, h.1.2⟩, rfl⟩, fun h => ⟨⟨h.1, h.2.1.2⟩, h.2.1.1⟩⟩
  | role ns name =>
      have hmem : b ∈ bindingsIn (.role ns name) bindings ↔
          b ∈ bindings ∧ b.isOf (.role ns name) (.inNamespace ns) = true := by
        show b ∈ RoleBindings.narrow (.ofList (bindings.filter _)) (.inNamespace ns) ↔ _
        rw [RoleBindings.narrow_ofList, List.mem_filter]
      rw [hmem]
      refine ⟨?_, ?_⟩
      · intro hin
        obtain ⟨⟨hb, hof⟩, hat⟩ := hin
        obtain rfl := Binding.isAt_inj (Bool.and_eq_true _ _ ▸ hof).1 hat
        exact ⟨hb, hof, decide_eq_true rfl⟩
      · intro hin
        obtain ⟨hb, hof, hadmits⟩ := hin
        obtain rfl : place = .inNamespace ns := of_decide_eq_true hadmits
        exact ⟨⟨hb, hof⟩, (Bool.and_eq_true _ _ ▸ hof).1⟩

/-! ### Listings -/

variable {plane : ControlPlane} {mayFail : Call → Prop} {upkeep : Upkeep} {limit : Option Nat}
  {resource : Resource}

theorem ensures_subjectGrants (hsources : Identity.LoadsOnly plane mayFail upkeep.maxPages Sound)
    (hsome : Sound mappings) (id : EntitlementId) (bindingNs : Option String) (s : Subject) :
    Ensures limit (Identity.Ready plane mayFail Sound)
      (subjectGrants (Identity.lookup upkeep) id bindingNs s)
      fun part st => (∃ mappings, Sound mappings ∧ part = s.grants mappings id bindingNs) ∧
        Identity.Ready plane mayFail Sound st := by
  unfold subjectGrants Subject.grants subjectGrants
  by_cases haccount : s.isServiceAccount = true
  · simp only [haccount, if_true]
    exact ensures_pure fun st hst => ⟨⟨mappings, hsome, rfl⟩, hst⟩
  · simp only [haccount]
    cases hidentity : s.identity? with
    | none => exact ensures_pure fun st hst => ⟨⟨mappings, hsome, rfl⟩, hst⟩
    | some identity =>
        refine (Identity.ensures_lookup hsources identity).bind fun principals => ?_
        refine ensures_of_fact fun hfound => ensures_pure fun st hst => ⟨?_, hst⟩
        obtain ⟨found, hsound, rfl⟩ := hfound
        exact ⟨found, hsound, rfl⟩

theorem ensures_bindingGrants (hsources : Identity.LoadsOnly plane mayFail upkeep.maxPages Sound)
    (hsome : Sound mappings) (role : RoleTarget) (bindings : List Binding) :
    Ensures limit (Identity.Ready plane mayFail Sound)
      (bindingGrants (Identity.lookup upkeep) role.resourceType role.resourceId.resource bindings)
      fun gs st => Gathered (role.Reports Sound) bindings gs ∧
        Identity.Ready plane mayFail Sound st := by
  refine ensures_gather (fun b => ?_) bindings
  unfold grantsOfBinding Reports
  cases b.scope? with
  | none => exact ensures_pure fun st hst => ⟨rfl, hst⟩
  | some place => exact ensures_gather (ensures_subjectGrants hsources hsome _ _) b.subjects

/-- The bindings that a plane answers a request for those of a role with. -/
theorem answers_matchingBindings (hsure : ¬mayFail (.matchingBindings role))
    {outcome : Outcome RoleBindings}
    (h : plane.Answers mayFail (send (.matchingBindings role)) outcome) :
    outcome = .ok (.ofList (plane.bindings.filter fun b => role.isRef b.roleRef)) := by
  obtain ⟨history, hafter, hacts⟩ := h
  rw [Request.after_send_done_iff.1 hafter] at hacts
  exact (hacts.of_sure hsure).1

theorem answers_bindingsAt (hsure : ¬mayFail (.matchingBindings role))
    {outcome : Outcome (List Binding)}
    (h : plane.Answers mayFail (role.bindingsAt scope) outcome) :
    outcome =
      .ok (RoleBindings.narrow (.ofList (plane.bindings.filter fun b => role.isRef b.roleRef))
        scope) := by
  obtain ⟨history, hafter, hacts⟩ := h
  cases outcome with
  | error fault =>
      rw [bindingsAt_error hafter] at hacts
      cases (hacts.of_sure hsure).1
  | ok bindings =>
      obtain ⟨listed, rfl, rfl⟩ := bindingsAt_ok hafter
      have hlisted : (.ok listed : Outcome RoleBindings) =
          .ok (.ofList (plane.bindings.filter fun b => role.isRef b.roleRef)) :=
        (hacts.of_sure hsure).1
      rw [Except.ok.inj hlisted]

theorem asks_bindingsAt : (role.bindingsAt scope).run.Asks fun call => call.isWrite = false :=
  Request.asks_bind (Program.Makes.asks ⟨rfl, fun _ => trivial⟩) fun _ => Program.Makes.asks trivial

/-- **A listing that comes to an end reports what the subjects of the bindings stand for**, in
mappings that are sound. -/
theorem ensures_listGrants (hsources : Identity.LoadsOnly plane mayFail upkeep.maxPages Sound)
    (hsome : Sound mappings) (hsure : ¬mayFail (.matchingBindings role))
    (hresource : resource.id = role.resourceId) (hlist : role.Listable) :
    Ensures limit (Identity.Ready plane mayFail Sound) (role.listGrants upkeep resource)
      fun gs st => Gathered (role.Reports Sound) (role.bindingsIn plane.bindings) gs ∧
        Identity.Ready plane mayFail Sound st := by
  cases role with
  | clusterRole name =>
      have hname : resource.id.resource = name := by rw [hresource]; rfl
      have hreads : (send (.matchingBindings (.clusterRole name))).run.Asks
          fun call => call.isWrite = false := Program.Makes.asks ⟨rfl, fun _ => trivial⟩
      unfold listGrants clusterRoleGrants
      rw [hname]
      refine (Identity.ensures_ofRequest hreads fun _ => answers_matchingBindings hsure).bind
        fun found => ensures_of_fact fun hfound => ?_
      rw [hfound]
      exact ensures_bindingGrants hsources hsome (.clusterRole name) _
  | role ns name =>
      have hname : resource.id.resource = roleId ns name := by rw [hresource]; rfl
      have hrole : roleOfResource (roleId ns name) = .ok (ns, name) := by
        unfold roleOfResource
        rw [show splitRoleId? (roleId ns name) = some (ns, name) from hlist]
      unfold listGrants roleGrants
      rw [hname, hrole]
      refine (Identity.ensures_ofRequest asks_bindingsAt
        fun _ => answers_bindingsAt hsure).bind fun found => ensures_of_fact fun hfound => ?_
      rw [hfound]
      exact ensures_bindingGrants hsources hsome (.role ns name) _

/-! ### Who is reported -/

/-- In mappings that are known, the listing is a function of the bindings. -/
theorem eq_listed_of_gathered {gs : List Grant}
    (h : Gathered (role.Reports fun found => found = mappings) (role.bindingsIn bindings) gs) :
    gs = role.listed mappings bindings := by
  refine h.eq_flatMap fun b part hpart => ?_
  unfold Reports at hpart
  unfold reported
  cases hscope : b.scope? with
  | none =>
      simp only [hscope] at hpart
      exact hpart
  | some place =>
      simp only [hscope] at hpart
      refine hpart.eq_flatMap fun s part hs => ?_
      obtain ⟨found, rfl, rfl⟩ := hs
      rfl

/-- What a subject stands for is in the listing. -/
theorem grants_of_gathered {gs : List Grant} {s : Subject}
    (h : Gathered (role.Reports Sound) (role.bindingsIn bindings) gs) (hb : b ∈ bindings)
    (hof : b.isOf role place = true) (hadmits : role.admits place = true) (hs : s ∈ b.subjects) :
    ∃ mappings, Sound mappings ∧
      ∀ g ∈ s.grants mappings (role.entitlementAt place) b.ns?, g ∈ gs := by
  obtain ⟨hin, hscope⟩ := mem_bindingsIn_iff.2 ⟨hb, hof, hadmits⟩
  obtain ⟨part, hpart, hmem⟩ := h.part_of_mem hin
  simp only [Reports, hscope] at hpart
  obtain ⟨own, ⟨mappings, hsound, rfl⟩, hall⟩ := hpart.part_of_mem hs
  exact ⟨mappings, hsound, fun g hg => hmem g (hall g hg)⟩

/-- The listing reports the grant for a subject of this kind. -/
def Stems (role : RoleTarget) (mappings : Mappings) (bindings : List Binding) (kind : String)
    (g : Grant) : Prop :=
  ∃ b ∈ role.bindingsIn bindings, ∃ place, b.scope? = some place ∧
    ∃ s ∈ b.subjects, s.kind = kind ∧ g ∈ s.grants mappings (role.entitlementAt place) b.ns?

theorem mem_listed_iff {g : Grant} :
    g ∈ role.listed mappings bindings ↔ ∃ kind, role.Stems mappings bindings kind g := by
  unfold listed Stems
  rw [List.mem_flatMap]
  refine ⟨?_, ?_⟩
  · intro hin
    obtain ⟨b, hb, hg⟩ := hin
    unfold reported at hg
    cases hscope : b.scope? with
    | none =>
        simp only [hscope] at hg
        cases hg
    | some place =>
        simp only [hscope] at hg
        obtain ⟨s, hs, hg⟩ := List.mem_flatMap.1 hg
        exact ⟨s.kind, b, hb, place, hscope, s, hs, rfl, hg⟩
  · intro hin
    obtain ⟨kind, b, hb, place, hscope, s, hs, -, hg⟩ := hin
    refine ⟨b, hb, ?_⟩
    simp only [reported, hscope]
    exact List.mem_flatMap.2 ⟨s, hs, hg⟩

end RoleTarget

/-! ### Under which id -/

theorem EntitlementId.toString_assigned_inj {kind resource : String} {scope place : Scope} :
    toString (assigned kind resource place) = toString (assigned kind resource scope) ↔
      toString place = toString scope := by
  show String.ofList _ = String.ofList _ ↔ String.ofList _ = String.ofList _
  simp [assigned, toChars, formChars]

namespace Provisioning

variable {entitlement arn : String} {role : RoleTarget} {scope place : Scope} {mappings : Mappings}
  {bindings : List Binding} {principal : ResourceId}

/-- An id that names a role is the text of the membership. -/
theorem Names.toString_eq (h : Names entitlement (.membership role scope)) :
    toString (role.entitlementAt scope) = entitlement := by
  cases h with
  | clusterRole h => exact EntitlementId.toString_of_decode h
  | role h => exact EntitlementId.toString_of_decode h

theorem Names.admits (h : Names entitlement (.membership role scope)) :
    role.admits scope = true := by
  cases h with
  | clusterRole => rfl
  | role => exact decide_eq_true rfl

theorem Names.listable (h : Names entitlement (.membership role scope)) : role.Listable := by
  cases h with
  | clusterRole => trivial
  | role _ hns hname => exact splitRoleId?_join hns hname

/-- A place is reported under an id when it is written like the scope of the id. -/
theorem Names.toString_entitlementAt (h : Names entitlement (.membership role scope)) :
    toString (role.entitlementAt place) = entitlement ↔ toString place = toString scope := by
  rw [← h.toString_eq]
  exact EntitlementId.toString_assigned_inj

/-- **A principal is reported under an id for a user exactly if a binding lists a username that it
is behind**, at a place that is written like the scope of the id. -/
theorem Names.exists_stems_iff (h : Names entitlement (.membership role scope))
    (hprincipal : ResourceId.ofArn? arn = some principal) :
    (∃ g, role.Stems mappings bindings Subject.userKind g ∧ g.entitlement = entitlement ∧
        g.principal = principal) ↔
      ∃ place, toString place = toString scope ∧ role.admits place = true ∧
        ∃ s, Binds bindings role place s ∧ s.kind = Subject.userKind ∧ s.isLookedUp = true ∧
          arn ∈ mappings.forUsername s.name := by
  refine ⟨?_, ?_⟩
  · intro hin
    obtain ⟨g, ⟨b, hb, place, hscope, s, hs, hkind, hg⟩, htext, hholder⟩ := hin
    obtain ⟨hb, hof, hadmits⟩ := RoleTarget.mem_bindingsIn_iff.1 ⟨hb, hscope⟩
    obtain ⟨hlooked, found, hmem, hgrant⟩ := (Subject.mem_grants_iff hkind).1 hg
    obtain ⟨hplace, hfound⟩ := exists_principalGrant_iff.1 ⟨g, hgrant, htext, hholder⟩
    obtain rfl : arn = found := (ResourceId.resource_of_ofArn? hprincipal).symm.trans
      (ResourceId.resource_of_ofArn? hfound)
    exact ⟨place, h.toString_entitlementAt.1 hplace, hadmits, s, ⟨b, hb, hof, hs⟩, hkind, hlooked,
      hmem⟩
  · intro hin
    obtain ⟨place, htext, hadmits, s, ⟨b, hb, hof, hs⟩, hkind, hlooked, hmem⟩ := hin
    obtain ⟨hb, hscope⟩ := RoleTarget.mem_bindingsIn_iff.2 ⟨hb, hof, hadmits⟩
    obtain ⟨g, hgrant, hentitlement, hholder⟩ :=
      exists_principalGrant_iff.2 ⟨h.toString_entitlementAt.2 htext, hprincipal⟩
    refine ⟨g, ⟨b, hb, place, hscope, s, hs, hkind, ?_⟩, hentitlement, hholder⟩
    exact (Subject.mem_grants_iff hkind).2 ⟨hlooked, arn, hmem, hgrant⟩

end Provisioning

end ClusterAccess
