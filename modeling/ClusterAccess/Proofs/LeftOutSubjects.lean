/-
Which subjects a listing leaves out.

A listing answers the question who holds a role, so a subject that it leaves out should stand
for nobody.  Of the users and groups of the RBAC group, those that are built into the cluster
are left out, and they are told by a mark in their name.  The mark begins the names that the
cluster reserves; but the listing leaves a name out wherever the mark stands in it.

So a listing is complete for the names without the mark, whatever it is that lookups find, and
it is silent about every other one (`lists_unless_marked`).  A group that only ends in a
reserved word is an example: its members hold the role and are not listed
(`bindingGrants_of_inner_mark`).
-/
import ClusterAccess.Proofs.Holdings

namespace ClusterAccess

open Program (After History)

namespace Subject

variable {s : Subject}

/-- The mark of built-in identities stands somewhere in the name. -/
def Marked (s : Subject) : Prop :=
  systemMark <:+: s.name.toList

theorem isLookedUp_iff (hgroup : s.inRbacGroup = true) : s.isLookedUp = true ↔ ¬s.Marked := by
  unfold isLookedUp isBuiltIn Marked
  rw [hgroup, ← Text.hasPart_iff]
  simp

end Subject

section

variable {Op : Type} {Reply : Op → Type}
  {lookup : Identity → ExceptT Fault (Program Op Reply) (List String)} {type : ResourceType}
  {resource : String} {bindings : List Binding} {identity : Identity}
  {visit : Visit Holding (List String) Op Reply}

/-- A listing succeeds when the lookups of the users and groups do. -/
theorem succeeds_bindingGrants
    (hlookup : ∀ held ∈ holdings bindings, ∀ identity, held.subject.Named identity →
      Succeeds (lookup identity)) :
    Succeeds (bindingGrants lookup type resource bindings) := by
  rw [bindingGrants_eq]
  refine succeeds_gather fun held hheld => ?_
  have hfind : Succeeds (held.subject.find lookup) := by
    unfold Subject.find
    cases hidentity : held.subject.identity? with
    | none => exact succeeds_pure []
    | some identity => exact hlookup held hheld identity (Subject.identity?_eq_some_iff.1 hidentity).1
  exact hfind.bind fun found => succeeds_pure _

/-- A user or a group whose name has no mark is looked up. -/
theorem Visit.Follows.looked (h : visit.Follows (Holding.find lookup))
    (hnamed : visit.member.subject.Named identity) (hlooked : visit.member.subject.isLookedUp = true) :
    After (lookup identity).run visit.history (.done (.ok visit.found)) := by
  unfold Visit.Follows Holding.find Subject.find at h
  rwa [Subject.identity?_eq_some_iff.2 ⟨hnamed, hlooked⟩] at h

/-- One whose name has the mark is not, and nobody is found for it. -/
theorem Visit.Follows.leftOut (h : visit.Follows (Holding.find lookup))
    (hnamed : visit.member.subject.Named identity) (hlooked : ¬visit.member.subject.isLookedUp = true) :
    visit.history = [] ∧ visit.found = [] := by
  unfold Visit.Follows Holding.find Subject.find at h
  rw [hnamed.identity?_eq, if_neg hlooked] at h
  obtain ⟨hhistory, hfound⟩ := Program.after_done_iff.1 h
  exact ⟨hhistory, Except.ok.inj (Program.done.inj hfound)⟩

/-- What a holding stands for through a user or a group. -/
theorem Holding.grants_of_named {held : Holding} (hnamed : held.subject.Named identity)
    (found : List String) :
    held.grants type resource found =
      (found.filterMap ResourceId.ofArn?).map (grantTo (held.entitlement type resource)) := by
  unfold grants holders
  rw [hnamed.not_isServiceAccount]
  rfl

/-- **A listing leaves out exactly the names with the mark.**  When the lookups succeed, so does the
listing.  Every user and group of the RBAC group is then listed with a grant, at the place of its
binding, for each user and role that its lookup found, unless the mark stands anywhere in its name;
in that case it is not looked up, and nobody is listed for it. -/
theorem lists_unless_marked
    (hlookup : ∀ held ∈ holdings bindings, ∀ identity, held.subject.Named identity →
      Succeeds (lookup identity)) :
    Succeeds (bindingGrants lookup type resource bindings) ∧
      ∀ history grants,
        After (bindingGrants lookup type resource bindings).run history (.done (.ok grants)) →
        ∃ visits : List (Visit Holding (List String) Op Reply),
          visits.map Visit.member = holdings bindings ∧ history = visits.flatMap Visit.history ∧
          (grants = visits.flatMap fun visit => visit.member.grants type resource visit.found) ∧
          ∀ visit ∈ visits, ∀ identity, visit.member.subject.Named identity →
            visit.member.subject.inRbacGroup = true →
            (¬visit.member.subject.Marked →
              After (lookup identity).run visit.history (.done (.ok visit.found)) ∧
              visit.member.grants type resource visit.found =
                (visit.found.filterMap ResourceId.ofArn?).map
                  (grantTo (.assigned type.id resource visit.member.place))) ∧
            (visit.member.subject.Marked →
              visit.history = [] ∧ visit.member.grants type resource visit.found = []) := by
  refine ⟨succeeds_bindingGrants hlookup, fun history grants h => ?_⟩
  obtain ⟨visits, hmembers, hfollows, hhistory, hgrants⟩ := bindingGrants_ok_iff.1 h
  refine ⟨visits, hmembers, hhistory, hgrants, fun visit hvisit identity hnamed hgroup => ?_⟩
  have hvisits : visit.Follows (Holding.find lookup) := hfollows visit hvisit
  refine ⟨fun hmark => ?_, fun hmark => ?_⟩
  · have hlooked : visit.member.subject.isLookedUp = true := (Subject.isLookedUp_iff hgroup).2 hmark
    exact ⟨hvisits.looked hnamed hlooked, Holding.grants_of_named hnamed visit.found⟩
  · have hlooked : ¬visit.member.subject.isLookedUp = true :=
      fun hlooked => (Subject.isLookedUp_iff hgroup).1 hlooked hmark
    obtain ⟨hhistory, hfound⟩ := hvisits.leftOut hnamed hlooked
    refine ⟨hhistory, ?_⟩
    rw [hfound, Holding.grants_of_named hnamed]
    rfl

end

/-! ### A mark inside a name -/

/-- A binding that gives the cluster role `view` to a group. -/
def viewers (group : String) : Binding where
  reach := .clusterWide
  metadata := { name := some "viewers" }
  roleRef := ⟨rbacGroup, "ClusterRole", "view"⟩
  subjectList := some [⟨some rbacGroup, "Group", group, none⟩]

/-- Whoever is looked up, it is Alice. -/
def findsAlice (_ : Identity) : Request (List String) :=
  pure ["arn:aws:iam::111122223333:user/alice"]

/-- The members of the group `ops` are listed. -/
theorem lists_ops :
    (∀ held ∈ holdings [viewers "ops"], ∀ identity, held.subject.Named identity →
      Succeeds (findsAlice identity)) ∧
    ∀ history grants,
      After (bindingGrants findsAlice .clusterRole "view" [viewers "ops"]).run history
        (.done (.ok grants)) →
      grants = [⟨"cluster_role:view:assigned:cluster",
        ResourceType.iamUser.resourceId "arn:aws:iam::111122223333:user/alice", []⟩] := by
  have hlookup : ∀ held ∈ holdings [viewers "ops"], ∀ identity, held.subject.Named identity →
      Succeeds (findsAlice identity) := fun _ _ _ _ => succeeds_pure _
  refine ⟨hlookup, fun history grants h => ?_⟩
  obtain ⟨visits, hmembers, -, hgrants, hall⟩ := (lists_unless_marked hlookup).2 history grants h
  obtain ⟨visit, others, rfl, hvisit, hothers⟩ := List.map_eq_cons_iff.1 hmembers
  obtain rfl := List.map_eq_nil_iff.1 hothers
  obtain ⟨hlisted, -⟩ := hall visit List.mem_cons_self (.group "ops") (hvisit ▸ .group rfl)
    (hvisit ▸ rfl)
  have hunmarked : ¬visit.member.subject.Marked := by
    rw [hvisit]
    unfold Subject.Marked
    decide
  obtain ⟨hlooked, hparts⟩ := hlisted hunmarked
  have hfound : visit.found = ["arn:aws:iam::111122223333:user/alice"] :=
    Except.ok.inj (Program.done.inj (Program.after_done_iff.1 hlooked).2)
  rw [hgrants, List.flatMap_singleton, hparts, hfound, hvisit]
  rfl

/-- Those of the group `ecosystem:ops` are not, although its name does not begin with the mark. -/
theorem bindingGrants_of_inner_mark :
    ¬Subject.systemMark <+: "ecosystem:ops".toList ∧
      (∃ held ∈ holdings [viewers "ecosystem:ops"], held.place = .cluster ∧
        held.subject.Named (.group "ecosystem:ops") ∧ held.subject.inRbacGroup = true) ∧
      After (findsAlice (.group "ecosystem:ops")).run []
        (.done (.ok ["arn:aws:iam::111122223333:user/alice"])) ∧
      ResourceId.ofArn? "arn:aws:iam::111122223333:user/alice" =
        some (ResourceType.iamUser.resourceId "arn:aws:iam::111122223333:user/alice") ∧
      (bindingGrants findsAlice .clusterRole "view" [viewers "ecosystem:ops"]).run =
        .done (.ok []) :=
  ⟨by decide, ⟨_, List.mem_singleton_self _, rfl, .group rfl, rfl⟩, .start _, by decide, rfl⟩

end ClusterAccess
