/-
What is still listed after a revoke.

A revoke finds the username of a principal in the mapping document, in the first row that names
the principal.  A listing looks every username up in the mappings of both sources, and there
a principal can be behind more usernames: those of further rows of the document, and those of
its access entries.  So a principal is still listed for a user after a revoke exactly if it was
bound under a username other than the one that the document has first (`Remains`).

A scope of a binding is told from its text.  No two places that a role can be bound at are
written alike, but for names that no namespace has, so `Remains` asks for the text only.
-/
import ClusterAccess.Proofs.ListedGrants

namespace ClusterAccess

open Trial (Shelves)

/-! ### Mappings of both sources -/

namespace ControlPlane

variable {plane : ControlPlane} {mayFail : Call → Prop} {maxPages : Nat} {mappings : Mappings}

/-- These are the mappings when both sources can be read. -/
def Gives (plane : ControlPlane) (maxPages : Nat) (mappings : Mappings) : Prop :=
  ∃ document entries, plane.awsAuth = some document ∧
    plane.Answers (fun _ => False) (AccessEntry.readMappings maxPages) (.ok entries) ∧
      mappings = document.mappings.merge entries

/-- When nothing fails, nothing else is read. -/
theorem Gives.loadsOnly (h : plane.Gives maxPages mappings) (hsure : ∀ call, ¬mayFail call) :
    Identity.LoadsOnly plane mayFail maxPages fun found => found = mappings := by
  obtain ⟨document, entries, hdocument, hentries, rfl⟩ := h
  intro read found hread hfound
  rw [AwsAuth.answers_readMappings (hsure _) hdocument hread,
    Answers.unique hsure (fun _ => id) hfound hentries]
  exact ⟨_, rfl, rfl⟩

/-- The principal is bound to the role at the scope under a username that a revoke does not look
for: one of its usernames in these mappings, but not the one that the mapping document has. -/
def Remains (plane : ControlPlane) (mappings : Mappings) (role : RoleTarget) (scope : Scope)
    (principal : String) : Prop :=
  ∃ place, toString place = toString scope ∧ role.admits place = true ∧
    ∃ s, Binds plane.bindings role place s ∧ s.kind = Subject.userKind ∧ s.isLookedUp = true ∧
      principal ∈ mappings.forUsername s.name ∧
      ¬(place = scope ∧ plane.username? principal = some s.name)

/-- A principal with no username but that of the mapping document keeps nothing, as long as no
other place is written like the scope. -/
theorem not_remains {role : RoleTarget} {scope : Scope} {principal : String}
    (honly : ∀ name, principal ∈ mappings.forUsername name → plane.username? principal = some name)
    (hwritten : ∀ place, role.admits place = true → toString place = toString scope →
      place = scope) : ¬plane.Remains mappings role scope principal := by
  intro hin
  obtain ⟨place, htext, hadmits, s, -, -, -, hmem, hnot⟩ := hin
  exact hnot ⟨hwritten place hadmits htext, honly s.name hmem⟩

end ControlPlane

/-! ### Revokes and listings -/

namespace Connector

variable {connector : Connector} {holder principal : ResourceId} {entitlement : String}
  {role : RoleTarget} {scope : Scope} {t after later : Trial} {shelves : Shelves}
  {last : Shelves × Trial} {result : RevokeResult} {upkeep : Upkeep} {resource : Resource}
  {limit : Option Nat} {listing : Outcome (List Grant)} {mappings : Mappings}

/-- **What is still listed for a user after a revoke.**  Say a revoke of a membership succeeded,
and nothing has been written since.  Then a listing of the role, from mappings that both
sources have given, has a grant of just this entitlement to the principal for a subject that is
a user exactly if the principal was bound under another username than the one that the mapping
document has for it. -/
theorem listed_of_revoked_iff (hserver : t.server = none)
    (hdeletions : ∀ ns name, ¬t.MayFail (.deleteBinding ns name))
    (hdistinct : t.plane.bindings.Pairwise fun a b => a.place ≠ b.place)
    (hrevoke : (Trial.runTimed (connector.revoke holder entitlement)).run t =
      (some (.ok result), after))
    (hnames : Provisioning.Names entitlement (.membership role scope))
    (hprincipal : ResourceId.ofArn? holder.resource = some principal)
    (hquiet : later.plane = after.plane) (hlater : later.server = none)
    (hsure : ∀ call, ¬later.MayFail call)
    (hgives : after.plane.Gives upkeep.maxPages mappings)
    (hsnapshot : shelves.identities.expiry = .stale ∨ shelves.identities.value = mappings)
    (hresource : resource.id = role.resourceId)
    (hlist : (Trial.runSession limit (role.listGrants upkeep resource)).run (shelves, later) =
      (some listing, last)) :
    ∃ grants, listing = .ok grants ∧
      (∀ g, g ∈ grants ↔ ∃ kind, role.Stems mappings after.plane.bindings kind g) ∧
      ((∃ g, role.Stems mappings after.plane.bindings Subject.userKind g ∧
          g.entitlement = entitlement ∧ g.principal = principal) ↔
        t.plane.Remains mappings role scope holder.resource) := by
  obtain ⟨⟨history, hafter, hacts⟩, -, -⟩ := Trial.acts_of_runTimed hserver hrevoke
  have hready : Identity.Ready after.plane later.MayFail (fun found => found = mappings)
      (shelves, later) := ⟨⟨hquiet, hlater, fun _ hcall => hcall⟩, hsnapshot⟩
  obtain ⟨grants, rfl, hreports, -⟩ := RoleTarget.ensures_listGrants (hgives.loadsOnly hsure) rfl
    (hsure _) hresource hnames.listable _ _ _ hready hlist
  obtain rfl := RoleTarget.eq_listed_of_gathered hreports
  refine ⟨_, rfl, fun g => RoleTarget.mem_listed_iff, (hnames.exists_stems_iff hprincipal).trans ?_⟩
  -- What is bound now was bound before, and the revoke has not looked for it.
  have hbinds : ∀ place s, Binds after.plane.bindings role place s ↔
      Binds t.plane.bindings role place s ∧ ¬(place = scope ∧ s.kind = Subject.userKind ∧
        t.plane.username? holder.resource = some s.name) :=
    fun _ _ => Errand.binds_of_revoke hdeletions hdistinct (errand_of_revoke hnames hafter) hacts
  refine ⟨?_, ?_⟩
  · intro hin
    obtain ⟨place, htext, hadmits, s, hbound, hkind, hlooked, hmem⟩ := hin
    obtain ⟨hbefore, hnot⟩ := (hbinds place s).1 hbound
    exact ⟨place, htext, hadmits, s, hbefore, hkind, hlooked, hmem,
      fun h => hnot ⟨h.1, hkind, h.2⟩⟩
  · intro hin
    obtain ⟨place, htext, hadmits, s, hbefore, hkind, hlooked, hmem, hnot⟩ := hin
    exact ⟨place, htext, hadmits, s, (hbinds place s).2 ⟨hbefore, fun h => hnot ⟨h.1, h.2.2⟩⟩,
      hkind, hlooked, hmem⟩

/-- A control plane where alice has the username alice by an access entry only, and that user has
the role. -/
def mappedByEntry : ControlPlane where
  entries := [⟨alice.resource, some ⟨alice.resource, AccessEntry.standardType, some "alice", []⟩⟩]
  bindings := [.newForUser (.clusterRole "view") .cluster "alice"]

/-- What both sources say there. -/
def aliceByEntry : Mappings where
  users := [("alice", [alice.resource])]

/-- The mapping document does not have alice, so a revoke has nothing to do. -/
theorem exists_revoke_alice : ∃ after,
    (Trial.runTimed (prod.revoke alice "cluster_role:view:assigned:cluster")).run
      { plane := mappedByEntry } = (some (.ok .alreadyRevoked), after) ∧
    after.plane.Gives maxPages aliceByEntry ∧
    (∀ b ∈ after.plane.bindings, ∀ s ∈ b.subjects, s.kind = Subject.userKind) ∧
    (listView after.plane).1 = some (.ok [⟨"cluster_role:view:assigned:cluster", alice, []⟩]) :=
  ⟨_, Trial.run_eq (by decide +kernel),
    ⟨⟨"kube-system", "aws-auth", some "1", []⟩, aliceByEntry, by decide +kernel,
      Trial.answers_of_run (AccessEntry.asks_readMappings maxPages) (by decide +kernel),
      by decide +kernel⟩,
    by decide +kernel, by decide +kernel⟩

/-- After the revoke the binding is still there, and alice is listed for its user. -/
theorem listed_alice_after_revoke : ∃ after,
    (Trial.runTimed (prod.revoke alice "cluster_role:view:assigned:cluster")).run
      { plane := mappedByEntry } = (some (.ok .alreadyRevoked), after) ∧
    (∃ g, (RoleTarget.clusterRole "view").Stems aliceByEntry after.plane.bindings
      Subject.userKind g ∧ g.entitlement = "cluster_role:view:assigned:cluster" ∧
        g.principal = alice) := by
  obtain ⟨after, hrevoke, hgives, -, hlist⟩ := exists_revoke_alice
  have hremains : mappedByEntry.Remains aliceByEntry (.clusterRole "view") .cluster
      alice.resource := by
    refine ⟨.cluster, rfl, rfl, .user "alice",
      ⟨_, List.mem_singleton_self _, by decide +kernel, List.mem_singleton_self _⟩, rfl,
      by decide +kernel, List.mem_singleton_self _, ?_⟩
    intro h
    have hnone : mappedByEntry.username? alice.resource = none := by decide +kernel
    rw [hnone] at h
    cases h.2
  have hprincipal : ResourceId.ofArn? alice.resource = some alice := by decide +kernel
  have hquiet : ({ plane := after.plane } : Trial).plane = after.plane := rfl
  obtain ⟨grants, -, -, hstill⟩ := listed_of_revoked_iff rfl (fun _ _ => Trial.not_mayFail rfl _)
    (List.pairwise_singleton _ _) hrevoke names_view hprincipal hquiet rfl
    (Trial.not_mayFail rfl) hgives (Or.inl rfl) rfl (run_listView hlist)
  exact ⟨after, hrevoke, hstill.2 hremains⟩

/-- A listing that reads both sources again can have a principal for whom a revoke succeeded, also
when all subjects of bindings are users. -/
theorem not_unlisted_after_revoke : ¬∀ (result : RevokeResult) (after : Trial) (grants : List Grant),
    (Trial.runTimed (prod.revoke alice "cluster_role:view:assigned:cluster")).run
      { plane := mappedByEntry } = (some (.ok result), after) →
    (∀ b ∈ after.plane.bindings, ∀ s ∈ b.subjects, s.kind = Subject.userKind) →
    (listView after.plane).1 = some (.ok grants) →
    ∀ g ∈ grants, g.entitlement = "cluster_role:view:assigned:cluster" → g.principal ≠ alice := by
  intro hclaim
  obtain ⟨after, hrevoke, -, husers, hlist⟩ := exists_revoke_alice
  exact hclaim _ _ _ hrevoke husers hlist _ (List.mem_singleton_self _) rfl rfl

end Connector

end ClusterAccess
