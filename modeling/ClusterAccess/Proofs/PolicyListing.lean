/-
Who is listed for a policy.

Who holds a policy is listed page by page.  For each principal on the page its associations are
read, and what they say of the policy becomes one grant for every scope that they cover.  So a
listing is told by the page and by one reply for every principal on it (`Survey`,
`policyGrants_ok_iff`).

A principal that cannot be read, is not associated with the policy or is nobody who can hold one
adds nothing to the listing, and takes nothing from the others (`Survey.grants_eq_filter`).  Only
a page that cannot be read makes a listing fail (`policyGrants_error_iff`).
-/
import ClusterAccess.Proofs.Holdings
import ClusterAccess.Proofs.PolicyRegistry

namespace ClusterAccess

open Catalog
open Program (After History)

/-! ### What is read of a principal -/

namespace Policy

/-- The scopes that a principal holds a policy at, by what was told of its associations. -/
def heldScopes (policy : String) (reply : Outcome (List Association)) : List Scope :=
  match reply with
  | .ok associations => ((ControlPlane.scopeIn associations policy).map coveredScopes).getD []
  | .error _ => []

/-- What is listed for a principal, by what was told of its associations. -/
def listedFor (policy principal : String) (reply : Outcome (List Association)) : List Grant :=
  (heldScopes policy reply).filterMap fun scope => principalGrant (policyId policy scope) principal

theorem listedFor_eq_of_principal {policy arn : String} {principal : ResourceId}
    (h : ResourceId.ofArn? arn = some principal) (reply : Outcome (List Association)) :
    listedFor policy arn reply =
      (heldScopes policy reply).map fun scope => grantTo (policyId policy scope) principal := by
  unfold listedFor
  rw [← List.filterMap_eq_map]
  refine congrArg (List.filterMap · _) (funext fun scope => ?_)
  rw [principalGrant_eq, h]
  rfl

theorem listedFor_eq_nil {policy arn : String} (h : ResourceId.ofArn? arn = none)
    (reply : Outcome (List Association)) : listedFor policy arn reply = [] := by
  unfold listedFor
  refine List.filterMap_eq_nil_iff.2 fun scope _ => ?_
  rw [principalGrant_eq, h]
  rfl

/-- The scope of a pair, by what was told of the principal. -/
def toldScope (policy : String) (reply : Outcome (List Association)) :
    Outcome (Option PolicyScope) :=
  match reply with
  | .ok associations => .ok (ControlPlane.scopeIn associations policy)
  | .error fault => if fault.isNotFound then .ok none else .error fault

/-- What was told of a principal, as an event. -/
def told (reply : String × Outcome (List Association)) : (call : Call) × call.Reply :=
  ⟨.associatedPolicies reply.1, reply.2⟩

/-- Asks for the associations of a principal. -/
def ask (principal : String) : Request (Outcome (List Association)) :=
  attempt (send (.associatedPolicies principal))

theorem after_ask_iff {principal : String} {reply : Outcome (List Association)}
    {history : History Call Call.Reply} :
    After (ask principal).run history (.done (.ok reply)) ↔
      history = [told (principal, reply)] := by
  refine Request.after_attempt_done_iff.trans ⟨fun h => ?_, fun h => ?_⟩
  · obtain ⟨answer, hreply, hsend⟩ := h
    rw [Except.ok.inj hreply]
    exact Request.after_send_done_iff.1 hsend
  · exact ⟨reply, rfl, Request.after_send_done_iff.2 h⟩

theorem not_after_ask_error {principal : String} {fault : Fault}
    {history : History Call Call.Reply} :
    ¬After (ask principal).run history (.done (.error fault)) := by
  intro h
  obtain ⟨answer, hreply, -⟩ := Request.after_attempt_done_iff.1 h
  cases hreply

theorem scopeOf_eq (principal policy : String) :
    scopeOf principal policy =
      ask principal >>= fun reply => ofOutcome (toldScope policy reply) := by
  unfold scopeOf toldScope
  refine congrArg (ask principal >>= ·) (funext fun reply => ?_)
  cases reply with
  | ok associations => rfl
  | error fault =>
      dsimp only
      split
      · rfl
      · rfl

/-- A listing asks once for a principal, and lists what it is told. -/
theorem holderGrants_eq (policy principal : String) :
    holderGrants policy principal =
      ask principal >>= fun reply => pure (listedFor policy principal reply) := by
  unfold holderGrants
  rw [scopeOf_eq]
  apply ExceptT.ext
  show Program.call _ _ = Program.call _ _
  refine congrArg _ (funext fun reply => ?_)
  unfold listedFor heldScopes toldScope
  dsimp only [Program.bind, ExceptT.bindCont, pure, ExceptT.pure, ExceptT.mk]
  cases reply with
  | ok associations =>
      dsimp only [ofOutcome]
      cases ControlPlane.scopeIn associations policy with
      | none => rfl
      | some held => rfl
  | error fault =>
      dsimp only [ofOutcome]
      cases fault.isNotFound with
      | true => rfl
      | false => rfl

/-- The principals of a page are asked one after another, and what they were told of is listed. -/
theorem gather_holderGrants_iff {policy : String} {items : List String}
    {history : History Call Call.Reply} {grants : List Grant} :
    After (gather (holderGrants policy) items).run history (.done (.ok grants)) ↔
      ∃ replies : List (String × Outcome (List Association)), replies.map Prod.fst = items ∧
        history = replies.map told ∧
        grants = replies.flatMap fun reply => listedFor policy reply.1 reply.2 := by
  rw [funext (holderGrants_eq policy), gather_ok_iff]
  refine ⟨fun h => ?_, fun h => ?_⟩
  · obtain ⟨visits, hmembers, hfollows, rfl, rfl⟩ := h
    refine ⟨visits.map fun visit => (visit.member, visit.found), ?_, ?_, ?_⟩
    · rw [List.map_map]
      exact hmembers
    · rw [List.map_map, List.map_eq_flatMap]
      exact List.flatMap_congr fun visit hvisit => after_ask_iff.1 (hfollows visit hvisit)
    · rw [List.flatMap_map]
  · obtain ⟨replies, hitems, rfl, rfl⟩ := h
    refine ⟨replies.map fun reply => ⟨reply.1, [told reply], reply.2⟩, ?_, ?_, ?_, ?_⟩
    · rw [List.map_map]
      exact hitems
    · intro visit hvisit
      obtain ⟨reply, -, rfl⟩ := List.mem_map.1 hvisit
      exact after_ask_iff.2 rfl
    · rw [List.flatMap_map, List.map_eq_flatMap]
    · rw [List.flatMap_map]

/-- It does not matter to a listing that a principal cannot be read. -/
theorem not_gather_holderGrants_error {policy : String} {items : List String}
    {history : History Call Call.Reply} {fault : Fault} :
    ¬After (gather (holderGrants policy) items).run history (.done (.error fault)) := by
  intro h
  rw [funext (holderGrants_eq policy)] at h
  obtain ⟨visits, principal, rest, last, -, -, hfails, -⟩ := gather_error_iff.1 h
  exact not_after_ask_error hfails

/-- A principal counts when it can hold policies and was read to hold this one. -/
def isHolder (policy : String) (reply : String × Outcome (List Association)) : Bool :=
  Arn.isUserOrRole reply.1 &&
    match reply.2 with
    | .ok associations => (ControlPlane.scopeIn associations policy).isSome
    | .error _ => false

/-- Nothing is listed for one that does not count. -/
theorem listedFor_of_not_isHolder {policy : String} {reply : String × Outcome (List Association)}
    (h : ¬isHolder policy reply = true) : listedFor policy reply.1 reply.2 = [] := by
  obtain ⟨arn, told⟩ := reply
  unfold isHolder Arn.isUserOrRole at h
  cases hclass : Arn.classify arn with
  | unsupported =>
      refine listedFor_eq_nil ?_ told
      unfold ResourceId.ofArn?
      rw [hclass]
  | _ =>
      rw [hclass] at h
      unfold listedFor heldScopes
      cases told with
      | error fault => rfl
      | ok associations =>
          dsimp only at h ⊢
          cases hscope : ControlPlane.scopeIn associations policy with
          | none => rfl
          | some held =>
              rw [hscope] at h
              exact absurd rfl h

end Policy

/-! ### Surveys -/

/-- What a listing of a policy was told: one page of principals, and then one reply about the
associations of each. -/
structure Survey where
  page : Page String
  replies : List (String × Outcome (List Association))
  asked : replies.map Prod.fst = page.items

namespace Survey

variable {survey later : Survey} {policy : String} {token : Option String}

/-- The calls of the listing. -/
def history (policy : String) (token : Option String) (survey : Survey) :
    History Call Call.Reply :=
  ⟨.listPrincipals policy token, .ok survey.page⟩ :: survey.replies.map Policy.told

/-- The grants that are listed. -/
def grants (policy : String) (survey : Survey) : List Grant :=
  survey.replies.flatMap fun reply => Policy.listedFor policy reply.1 reply.2

/-- The listing. -/
def listing (policy : String) (survey : Survey) : Page Grant :=
  ⟨survey.grants policy, survey.page.next⟩

/-- The grants that are listed for a principal. -/
def grantsOf (policy : String) (principal : ResourceId) (survey : Survey) : List Grant :=
  (survey.grants policy).filter fun g => g.principal = principal

/-- Those who do not count add nothing to a listing. -/
theorem grants_eq_filter (policy : String) (survey : Survey) :
    survey.grants policy = (survey.replies.filter (Policy.isHolder policy)).flatMap fun reply =>
      Policy.listedFor policy reply.1 reply.2 := by
  unfold grants
  induction survey.replies with
  | nil => rfl
  | cons reply rest ih =>
      rw [List.flatMap_cons, ih, List.filter_cons]
      by_cases hholder : Policy.isHolder policy reply = true
      · rw [if_pos hholder, List.flatMap_cons]
      · rw [if_neg hholder, Policy.listedFor_of_not_isHolder hholder, List.nil_append]

theorem told_inj {reply other : String × Outcome (List Association)}
    (h : Policy.told reply = Policy.told other) : reply = other := by
  obtain ⟨arn, answer⟩ := reply
  obtain ⟨arn', answer'⟩ := other
  obtain ⟨hcall, hanswer⟩ := Sigma.mk.inj h
  obtain rfl : arn = arn' := Call.associatedPolicies.inj hcall
  obtain rfl : answer = answer' := eq_of_heq hanswer
  rfl

/-- A survey can be told from the calls of the listing. -/
theorem history_inj (h : survey.history policy token = later.history policy token) :
    survey = later := by
  obtain ⟨page, replies, hasked⟩ := survey
  obtain ⟨page', replies', hasked'⟩ := later
  obtain ⟨hpage, hreplies⟩ := List.cons.inj h
  obtain rfl := List.map_injective_iff.2 (fun _ _ => told_inj) hreplies
  obtain rfl := Except.ok.inj (eq_of_heq (Sigma.mk.inj hpage).2)
  rfl

end Survey

variable {resource : Resource} {token : Option String} {history : History Call Call.Reply}

/-- A listing only reads, and always comes to an end. -/
theorem policyGrants_reads (resource : Resource) (token : Option String) :
    (policyGrants resource token).run.Makes fun call => call.isWrite = false := by
  unfold policyGrants
  refine Request.makes_bind ⟨rfl, fun _ => trivial⟩ fun page => ?_
  rw [funext (Policy.holderGrants_eq resource.id.resource)]
  refine Request.makes_bind (makes_gather fun principal _ => ?_) fun _ => trivial
  exact Request.makes_bind ⟨rfl, fun _ => trivial⟩ fun _ => trivial

/-- **A listing is told by a survey.** -/
theorem policyGrants_ok_iff {listing : Page Grant} :
    After (policyGrants resource token).run history (.done (.ok listing)) ↔
      ∃ survey : Survey, history = survey.history resource.id.resource token ∧
        listing = survey.listing resource.id.resource := by
  unfold policyGrants
  rw [Request.after_bind_ok_iff]
  refine ⟨fun h => ?_, fun h => ?_⟩
  · obtain ⟨page, before, rest, rfl, hpage, hrest⟩ := h
    obtain rfl := Request.after_send_done_iff.1 hpage
    obtain ⟨grants, own, last, rfl, hgrants, hlast⟩ := Request.after_bind_ok_iff.1 hrest
    obtain ⟨rfl, hlisting⟩ := Program.after_done_iff.1 hlast
    obtain ⟨replies, hitems, rfl, rfl⟩ := Policy.gather_holderGrants_iff.1 hgrants
    refine ⟨⟨page, replies, hitems⟩, ?_, Except.ok.inj (Program.done.inj hlisting)⟩
    rw [List.append_nil]
    rfl
  · obtain ⟨survey, rfl, rfl⟩ := h
    refine ⟨survey.page, _, survey.replies.map Policy.told, rfl, Request.after_send_done_iff.2 rfl,
      Request.after_bind_ok_iff.2 ⟨survey.grants resource.id.resource, _, [],
        (List.append_nil _).symm, ?_, .start _⟩⟩
    exact Policy.gather_holderGrants_iff.2 ⟨survey.replies, survey.asked, rfl, rfl⟩

/-- A listing fails only when the page cannot be read. -/
theorem policyGrants_error_iff {fault : Fault} :
    After (policyGrants resource token).run history (.done (.error fault)) ↔
      history = [⟨.listPrincipals resource.id.resource token, .error fault⟩] := by
  unfold policyGrants
  rw [Request.after_bind_error_iff]
  refine ⟨fun h => ?_, fun h => Or.inl (Request.after_send_done_iff.2 h)⟩
  rcases h with hpage | ⟨page, before, rest, -, -, hrest⟩
  · exact Request.after_send_done_iff.1 hpage
  · rcases Request.after_bind_error_iff.1 hrest with hgrants | ⟨grants, own, last, -, -, hlast⟩
    · exact (Policy.not_gather_holderGrants_error hgrants).elim
    · cases (Program.after_done_iff.1 hlast).2

/-! ### What is listed for one principal -/

namespace Survey

variable {survey : Survey} {policy arn : String} {principal : ResourceId}

/-- What is listed for an ARN is for the principal of that ARN. -/
theorem principal_of_listedFor {other : String} {reply : Outcome (List Association)} {g : Grant}
    (h : g ∈ Policy.listedFor policy other reply) : ResourceId.ofArn? other = some g.principal := by
  obtain ⟨scope, -, hg⟩ := List.mem_filterMap.1 h
  rw [principalGrant_eq] at hg
  obtain ⟨holder, hholder, rfl⟩ := Option.map_eq_some_iff.1 hg
  exact hholder

theorem filter_listedFor (hprincipal : ResourceId.ofArn? arn = some principal) (other : String)
    (reply : Outcome (List Association)) :
    (Policy.listedFor policy other reply).filter (fun g => g.principal = principal) =
      if other = arn then Policy.listedFor policy arn reply else [] := by
  by_cases hother : other = arn
  · rw [if_pos hother, hother]
    refine List.filter_eq_self.2 fun g hg => decide_eq_true ?_
    exact Option.some.inj ((principal_of_listedFor hg).symm.trans hprincipal)
  · rw [if_neg hother]
    refine List.filter_eq_nil_iff.2 fun g hg hsame => hother ?_
    have hholder : ResourceId.ofArn? other = some principal :=
      of_decide_eq_true hsame ▸ principal_of_listedFor hg
    exact (ResourceId.resource_of_ofArn? hholder).symm.trans
      (ResourceId.resource_of_ofArn? hprincipal)

/-- All that was told of the principal says that it holds the policy at these scopes. -/
def Tells (policy arn : String) (scopes : List Scope) (survey : Survey) : Prop :=
  ∀ reply, (arn, reply) ∈ survey.replies → Policy.heldScopes policy reply = scopes

/-- A principal is listed with its scopes, each time it is on the page. -/
theorem grantsOf_eq {scopes : List Scope} (hprincipal : ResourceId.ofArn? arn = some principal)
    (h : survey.Tells policy arn scopes) :
    survey.grantsOf policy principal =
      (List.replicate (survey.page.items.count arn)
        (scopes.map fun scope => grantTo (policyId policy scope) principal)).flatten := by
  obtain ⟨page, replies, hasked⟩ := survey
  unfold grantsOf grants
  dsimp only
  rw [← hasked]
  unfold Tells at h
  dsimp only at h
  clear hasked
  induction replies with
  | nil => rfl
  | cons reply rest ih =>
      obtain ⟨other, told⟩ := reply
      rw [List.flatMap_cons, List.filter_append, filter_listedFor hprincipal,
        ih fun reply hreply => h reply (List.mem_cons_of_mem _ hreply), List.map_cons]
      by_cases hother : other = arn
      · subst hother
        rw [if_pos rfl, Policy.listedFor_eq_of_principal hprincipal, h told List.mem_cons_self,
          List.count_cons_self, List.replicate_succ, List.flatten_cons]
      · rw [if_neg hother, List.count_cons_of_ne hother, List.nil_append]

end Survey

end ClusterAccess
