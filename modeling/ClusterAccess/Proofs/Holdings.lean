/-
Who is listed for the bindings of a role.

A listing goes through the bindings and through the subjects of each, so what it goes through
is one list: of every subject with the binding it stands in and the place where that binding
holds (`Holding`, `holdings`).  A binding that holds nowhere has none.  For each of them the
listing looks up whom it has to, and adds the grants of those who were found before it goes
on.  So it can be read off the lookups, one after another and each with its answer, and it ends
where a lookup fails (`bindingGrants_ok_iff`, `bindingGrants_error_iff`).

Nothing is asked of a lookup.  It is a program like any other: it may make calls, answer the
same question differently the next time, or fail.
-/
import ClusterAccess.Proofs.Gathering
import ClusterAccess.Proofs.RoleListing

namespace ClusterAccess

open Program (After History)

/-! ### Whom a grant is for -/

/-- The grant of an entitlement to a principal.  Those who may assume the principal hold it too, if
that is a role. -/
def grantTo (id : EntitlementId) (principal : ResourceId) : Grant where
  entitlement := toString id
  principal
  expandable :=
    if principal.type = ResourceType.iamRole.id then
      [toString (EntitlementId.assumes ResourceType.iamRole.id principal.resource)]
    else []

theorem principalGrant_eq (id : EntitlementId) (arn : String) :
    principalGrant id arn = (ResourceId.ofArn? arn).map (grantTo id) := by
  unfold principalGrant ResourceId.ofArn?
  cases Arn.classify arn with
  | role => rfl
  | user => rfl
  | unsupported => rfl

theorem filterMap_principalGrant (id : EntitlementId) (arns : List String) :
    arns.filterMap (principalGrant id) = (arns.filterMap ResourceId.ofArn?).map (grantTo id) := by
  rw [List.map_filterMap]
  exact congrArg (arns.filterMap ·) (funext (principalGrant_eq id))

/-! ### Subjects -/

namespace Subject

/-- Who a user or a group is looked up as. -/
inductive Named (s : Subject) : Identity → Prop
  | user (h : s.kind = userKind) : s.Named (.username s.name)
  | group (h : s.kind = "Group") : s.Named (.group s.name)

variable {s : Subject} {identity : Identity}

theorem Named.not_isServiceAccount (h : s.Named identity) : s.isServiceAccount = false := by
  unfold isServiceAccount
  cases h with
  | user h => rw [h]; decide
  | group h => rw [h]; decide

theorem Named.identity?_eq (h : s.Named identity) :
    s.identity? = if s.isLookedUp = true then some identity else none := by
  have haccount : s.isServiceAccount = false := h.not_isServiceAccount
  unfold identity? isLookedUp
  rw [haccount]
  cases h with
  | user h => rw [h]; cases s.inRbacGroup <;> cases s.isBuiltIn <;> rfl
  | group h => rw [h]; cases s.inRbacGroup <;> cases s.isBuiltIn <;> rfl

/-- Only users and groups are looked up, each by its name. -/
theorem identity?_eq_some_iff :
    s.identity? = some identity ↔ s.Named identity ∧ s.isLookedUp = true := by
  refine ⟨fun h => ?_, fun h => ?_⟩
  · have hnamed : s.Named identity := by
      unfold identity? at h
      split at h
      · cases h
      · split at h
        · cases h
          exact .user ‹_›
        · split at h
          · cases h
            exact .group ‹_›
          · cases h
    refine ⟨hnamed, ?_⟩
    by_contra hlooked
    rw [hnamed.identity?_eq, if_neg hlooked] at h
    cases h
  · rw [h.1.identity?_eq, if_pos h.2]

/-- The principals that are found for a subject.  Nobody is, unless it is looked up. -/
def find {m : Type → Type} [Monad m] (lookup : Identity → m (List String)) (s : Subject) :
    m (List String) :=
  match s.identity? with
  | some identity => lookup identity
  | none => pure []

end Subject

/-! ### Holdings -/

/-- A subject of a binding, with the place where it holds the role. -/
structure Holding where
  binding : Binding
  place : Scope
  subject : Subject

namespace Holding

variable {m : Type → Type} [Monad m]

/-- The membership that is held. -/
def entitlement (type : ResourceType) (resource : String) (held : Holding) : EntitlementId :=
  .assigned type.id resource held.place

/-- Those that a holding stands for: a service account, or the users and roles among the principals
that were found. -/
def holders (held : Holding) (found : List String) : List ResourceId :=
  if held.subject.isServiceAccount then
    [ResourceType.serviceAccount.resourceId (held.subject.accountId held.binding.ns?)]
  else found.filterMap ResourceId.ofArn?

/-- The grants of a holding. -/
def grants (type : ResourceType) (resource : String) (held : Holding) (found : List String) :
    List Grant :=
  (held.holders found).map (grantTo (held.entitlement type resource))

/-- A listing looks a subject up, and gives the grants of those who were found. -/
theorem subjectGrants_eq [LawfulMonad m] (lookup : Identity → m (List String))
    (type : ResourceType) (resource : String) (held : Holding) :
    subjectGrants lookup (held.entitlement type resource) held.binding.ns? held.subject =
      held.subject.find lookup >>= fun found => pure (held.grants type resource found) := by
  unfold subjectGrants Subject.find grants holders
  by_cases haccount : held.subject.isServiceAccount = true
  · have hnobody : held.subject.identity? = none := by
      unfold Subject.identity?
      rw [haccount]
      rfl
    simp only [haccount, if_true, hnobody, pure_bind]
    rfl
  · simp only [haccount]
    cases held.subject.identity? with
    | none => simp
    | some identity => simp only [filterMap_principalGrant]; rfl

end Holding

/-- The subjects of a binding hold its role where the binding holds, if it does. -/
def Binding.holdings (b : Binding) : List Holding :=
  match b.scope? with
  | some place => b.subjects.map fun subject => ⟨b, place, subject⟩
  | none => []

/-- Everything that is held through bindings, in the order of the bindings and their subjects. -/
def holdings (bindings : List Binding) : List Holding :=
  bindings.flatMap Binding.holdings

theorem mem_holdings_iff {bindings : List Binding} {held : Holding} :
    held ∈ holdings bindings ↔ held.binding ∈ bindings ∧
      held.binding.isAt held.place = true ∧ held.subject ∈ held.binding.subjects := by
  unfold holdings Binding.holdings
  rw [List.mem_flatMap]
  refine ⟨fun h => ?_, fun h => ?_⟩
  · obtain ⟨b, hb, hheld⟩ := h
    cases hscope : b.scope? with
    | none => simp [hscope] at hheld
    | some place =>
        simp only [hscope, List.mem_map] at hheld
        obtain ⟨s, hs, rfl⟩ := hheld
        exact ⟨hb, RoleTarget.scope?_eq_some_iff.1 hscope, hs⟩
  · obtain ⟨hb, hat, hs⟩ := h
    refine ⟨held.binding, hb, ?_⟩
    simp only [RoleTarget.scope?_eq_some_iff.2 hat, List.mem_map]
    exact ⟨held.subject, hs, rfl⟩

section

variable {m : Type → Type} [Monad m] [LawfulMonad m]

/-- A listing goes through all that is held. -/
theorem bindingGrants_eq (lookup : Identity → m (List String)) (type : ResourceType)
    (resource : String) (bindings : List Binding) :
    bindingGrants lookup type resource bindings =
      gather (fun held : Holding => held.subject.find lookup >>= fun found =>
        pure (held.grants type resource found)) (holdings bindings) := by
  unfold bindingGrants holdings
  rw [← gather_flatMap]
  refine congrArg (gather · bindings) (funext fun b => ?_)
  unfold grantsOfBinding Binding.holdings
  cases b.scope? with
  | none => rfl
  | some place =>
      dsimp only
      rw [gather_map]
      refine congrArg (gather · b.subjects) (funext fun s => ?_)
      exact Holding.subjectGrants_eq lookup type resource ⟨b, place, s⟩

end

/-! ### Listings -/

section

variable {Op : Type} {Reply : Op → Type}
  {lookup : Identity → ExceptT Fault (Program Op Reply) (List String)} {type : ResourceType}
  {resource : String} {bindings : List Binding} {history : History Op Reply}
  {grants : List Grant} {fault : Fault}

/-- The lookup for a holding. -/
abbrev Holding.find (lookup : Identity → ExceptT Fault (Program Op Reply) (List String))
    (held : Holding) : ExceptT Fault (Program Op Reply) (List String) :=
  held.subject.find lookup

/-- **A listing that succeeds gives the grants of every holding, for those who were found.** -/
theorem bindingGrants_ok_iff :
    After (bindingGrants lookup type resource bindings).run history (.done (.ok grants)) ↔
      ∃ visits : List (Visit Holding (List String) Op Reply),
        visits.map Visit.member = holdings bindings ∧
        (∀ visit ∈ visits, visit.Follows (Holding.find lookup)) ∧
        history = visits.flatMap Visit.history ∧
        grants = visits.flatMap fun visit => visit.member.grants type resource visit.found := by
  rw [bindingGrants_eq]
  exact gather_ok_iff

/-- **A listing fails with the first lookup that does**, and makes no call after it. -/
theorem bindingGrants_error_iff :
    After (bindingGrants lookup type resource bindings).run history (.done (.error fault)) ↔
      ∃ (visits : List (Visit Holding (List String) Op Reply)) (held : Holding)
        (rest : List Holding) (last : History Op Reply),
        holdings bindings = visits.map Visit.member ++ held :: rest ∧
        (∀ visit ∈ visits, visit.Follows (Holding.find lookup)) ∧
        After (held.find lookup).run last (.done (.error fault)) ∧
        history = visits.flatMap Visit.history ++ last := by
  rw [bindingGrants_eq]
  exact gather_error_iff

/-! ### What is behind a grant -/

/-- The identity was looked up somewhere in the history, and the principal was found. -/
def Found (lookup : Identity → ExceptT Fault (Program Op Reply) (List String))
    (history : History Op Reply) (identity : Identity) (arn : String) : Prop :=
  ∃ before own later arns, history = before ++ own ++ later ∧
    After (lookup identity).run own (.done (.ok arns)) ∧ arn ∈ arns

/-- Whom a subject of a binding stands for: itself if it is a service account, in the namespace of
the binding unless it names another one, or else a user or a role that was found for its name. -/
inductive Subject.StandsFor (found : Identity → String → Prop) (bindingNs : Option String)
    (s : Subject) : ResourceId → Prop
  | account (h : s.kind = "ServiceAccount") : s.StandsFor found bindingNs
      (ResourceType.serviceAccount.resourceId ((s.ns.or bindingNs).getD "" ++ "/" ++ s.name))
  | principal {identity : Identity} {arn : String} {principal : ResourceId}
      (hnamed : s.Named identity) (hfound : found identity arn)
      (hprincipal : ResourceId.ofArn? arn = some principal) : s.StandsFor found bindingNs principal

/-- The grant is backed by one subject of one binding.  It is for the place of that binding, also as
it is written, and for somebody the subject stands for. -/
def Grant.Backed (found : Identity → String → Prop) (type : ResourceType) (resource : String)
    (bindings : List Binding) (g : Grant) : Prop :=
  ∃ b ∈ bindings, ∃ place, b.isAt place = true ∧ ∃ s ∈ b.subjects, ∃ principal,
    s.StandsFor found b.ns? principal ∧ g = grantTo (.assigned type.id resource place) principal ∧
    (g.entitlement = toString (EntitlementId.assigned type.id resource .cluster) ↔
      b.reach = .clusterWide)

/-- No namespace is written like the whole cluster. -/
theorem Scope.toString_eq_cluster_iff {place : Scope} :
    toString place = toString Scope.cluster ↔ place = .cluster := by
  refine ⟨fun h => ?_, fun h => h ▸ rfl⟩
  have hchars : place.toChars = clusterWord := String.ofList_injective h
  cases place with
  | cluster => rfl
  | inNamespace name =>
      simp only [toChars] at hchars
      split at hchars
      · exact absurd hchars (by decide)
      · exact absurd hchars ‹_›

theorem Binding.isAt_cluster_iff {b : Binding} {place : Scope} (hat : b.isAt place = true) :
    place = .cluster ↔ b.reach = .clusterWide := by
  unfold isAt at hat
  cases place with
  | cluster => simpa using hat
  | inNamespace ns =>
      have hreach : b.reach = .namespaced := by
        simp only [Bool.and_eq_true, decide_eq_true_eq] at hat
        exact hat.1
      simp [hreach]

/-- Those a holding stands for are those its subject stands for. -/
theorem Visit.standsFor {visit : Visit Holding (List String) Op Reply} {found : Identity → String → Prop}
    {principal : ResourceId} (hfollows : visit.Follows (Holding.find lookup))
    (hfound : ∀ identity arns, After (lookup identity).run visit.history (.done (.ok arns)) →
      ∀ arn ∈ arns, found identity arn)
    (h : principal ∈ visit.member.holders visit.found) :
    visit.member.subject.StandsFor found visit.member.binding.ns? principal := by
  unfold Holding.holders at h
  split at h
  · obtain rfl := List.mem_singleton.1 h
    exact .account (of_decide_eq_true ‹_›)
  · obtain ⟨arn, harn, hprincipal⟩ := List.mem_filterMap.1 h
    unfold Follows Holding.find Subject.find at hfollows
    cases hidentity : visit.member.subject.identity? with
    | none =>
        rw [hidentity] at hfollows
        obtain ⟨-, hnobody⟩ := Program.after_done_iff.1 hfollows
        rw [Except.ok.inj (Program.done.inj hnobody)] at harn
        cases harn
    | some identity =>
        rw [hidentity] at hfollows
        exact .principal (Subject.identity?_eq_some_iff.1 hidentity).1
          (hfound identity _ hfollows arn harn) hprincipal

/-- Every grant of a listing is backed. -/
theorem backed_of_visits {visits : List (Visit Holding (List String) Op Reply)}
    (hmembers : visits.map Visit.member = holdings bindings)
    (hfollows : ∀ visit ∈ visits, visit.Follows (Holding.find lookup)) {g : Grant}
    (hg : g ∈ visits.flatMap fun visit => visit.member.grants type resource visit.found) :
    g.Backed (Found lookup (visits.flatMap Visit.history)) type resource bindings := by
  obtain ⟨visit, hvisit, hg⟩ := List.mem_flatMap.1 hg
  obtain ⟨principal, hprincipal, rfl⟩ := List.mem_map.1 hg
  have hheld : visit.member ∈ holdings bindings :=
    hmembers ▸ List.mem_map_of_mem hvisit
  obtain ⟨hb, hat, hs⟩ := mem_holdings_iff.1 hheld
  refine ⟨visit.member.binding, hb, visit.member.place, hat, visit.member.subject, hs, principal,
    ?_, rfl, ?_⟩
  · refine visit.standsFor (hfollows visit hvisit) (fun identity arns hlook arn harn => ?_) hprincipal
    obtain ⟨before, later, rfl⟩ := List.append_of_mem hvisit
    exact ⟨before.flatMap Visit.history, visit.history, later.flatMap Visit.history, arns,
      by simp, hlook, harn⟩
  · refine (EntitlementId.toString_assigned_inj).trans ?_
    exact Scope.toString_eq_cluster_iff.trans (Binding.isAt_cluster_iff hat)

/-- **No grant is invented or widened.**  A listing that succeeds gives, in the order of the bindings
and their subjects, the grants of everybody who was found, and each of them is backed.  It fails
exactly with the first lookup that fails. -/
theorem bindingGrants_done_iff {outcome : Outcome (List Grant)} :
    After (bindingGrants lookup type resource bindings).run history (.done outcome) ↔
      (∃ (visits : List (Visit Holding (List String) Op Reply)) (grants : List Grant),
        outcome = .ok grants ∧ visits.map Visit.member = holdings bindings ∧
        (∀ visit ∈ visits, visit.Follows (Holding.find lookup)) ∧
        history = visits.flatMap Visit.history ∧
        (grants = visits.flatMap fun visit => visit.member.grants type resource visit.found) ∧
        ∀ g ∈ grants, g.Backed (Found lookup history) type resource bindings) ∨
      ∃ (visits : List (Visit Holding (List String) Op Reply)) (held : Holding)
        (rest : List Holding) (last : History Op Reply) (fault : Fault),
        outcome = .error fault ∧ holdings bindings = visits.map Visit.member ++ held :: rest ∧
        (∀ visit ∈ visits, visit.Follows (Holding.find lookup)) ∧
        After (held.find lookup).run last (.done (.error fault)) ∧
        history = visits.flatMap Visit.history ++ last := by
  refine ⟨fun h => ?_, fun h => ?_⟩
  · cases outcome with
    | ok grants =>
        obtain ⟨visits, hmembers, hfollows, rfl, rfl⟩ := bindingGrants_ok_iff.1 h
        exact Or.inl ⟨visits, _, rfl, hmembers, hfollows, rfl, rfl,
          fun g hg => backed_of_visits hmembers hfollows hg⟩
    | error fault =>
        obtain ⟨visits, held, rest, last, hitems, hfollows, hfails, rfl⟩ :=
          bindingGrants_error_iff.1 h
        exact Or.inr ⟨visits, held, rest, last, fault, rfl, hitems, hfollows, hfails, rfl⟩
  · rcases h with ⟨visits, grants, rfl, hmembers, hfollows, rfl, rfl, -⟩ |
      ⟨visits, held, rest, last, fault, rfl, hitems, hfollows, hfails, rfl⟩
    · exact bindingGrants_ok_iff.2 ⟨visits, hmembers, hfollows, rfl, rfl⟩
    · exact bindingGrants_error_iff.2 ⟨visits, held, rest, last, hitems, hfollows, hfails, rfl⟩

end

end ClusterAccess
