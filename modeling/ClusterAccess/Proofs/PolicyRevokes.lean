/-
The listing of a policy and its revokes agree.

A listing goes from the associations of a principal to the written ids of entitlements.  A
revoke goes the other way: it reads a scope out of an id, and takes that scope out of the
association.  The two have nothing but the written ids in common.

Take a principal whose association is read as the registry holds it, and whose scopes have ids
that read back (`Survey.Reads`).  Every grant that is listed for it can be taken away, and then
the listing is the old one without it (`Connector.takesAway_of_listed`).  A revoke of any other
id of the policy finds nothing or is refused, and writes nothing
(`Connector.leavesAlone_of_not_listed`).
-/
import ClusterAccess.Proofs.PolicyListing
import ClusterAccess.Proofs.PolicyScopes

namespace ClusterAccess

open Catalog
open Policy (told)
open Program (After History)

/-! ### What a revoke does -/

namespace Policy

variable {plane : ControlPlane} {principal policy : String} {requested scope : Scope}
  {held : PolicyScope} {associations : List Association}

/-- A scope that is covered is taken out, and the association with the last one. -/
theorem revokeChange_of_covered (h : scope ∈ coveredScopes held) :
    (∃ rest, revokeChange (some held) scope = .associate rest ∧
      coveredScopes rest = (coveredScopes held).filter (· ≠ scope)) ∨
    revokeChange (some held) scope = .disassociate ∧
      (coveredScopes held).filter (· ≠ scope) = [] := by
  cases held with
  | cluster =>
      obtain rfl := List.mem_singleton.1 h
      exact Or.inr ⟨rfl, by simp [coveredScopes]⟩
  | namespaces names =>
      obtain ⟨ns, hns, rfl⟩ := List.mem_map.1 h
      have hscopes : (coveredScopes (.namespaces names)).filter (· ≠ Scope.inNamespace ns) =
          coveredScopes (.namespaces (names.filter (· ≠ ns))) := by
        simp only [coveredScopes, List.filter_map]
        refine congrArg (List.map Scope.inNamespace) (List.filter_congr fun name _ => ?_)
        simp
      rw [hscopes]
      by_cases hrest : names.filter (· ≠ ns) = []
      · have hthere : ¬ns ∉ names := fun hnot => hnot hns
        refine Or.inr ⟨?_, by rw [hrest]; rfl⟩
        unfold revokeChange
        simp only [if_neg hthere, hrest]
      · exact Or.inl ⟨_, revokeChange_of_rest hns hrest, rfl⟩

/-- One that is not covered is not there, or the cluster is in its way. -/
theorem revokeChange_of_not_covered (h : scope ∉ coveredScopes held) :
    revokeChange (some held) scope = .nothing ∨ revokeChange (some held) scope = .conflict := by
  cases held with
  | cluster =>
      cases scope with
      | cluster => exact absurd (List.mem_singleton_self _) h
      | inNamespace ns => exact Or.inr rfl
  | namespaces names =>
      cases scope with
      | cluster => exact Or.inl rfl
      | inNamespace ns =>
          have hns : ns ∉ names := fun hns => h (List.mem_map_of_mem hns)
          exact Or.inl (by simp [revokeChange, hns])

/-- The calls that carry a change out. -/
def Change.calls (principal policy : String) : Change → History Call Call.Reply
  | .associate scope => [⟨.associatePolicy principal policy scope, .ok ()⟩]
  | .disassociate => [⟨.disassociatePolicy principal policy, .ok ()⟩]
  | .nothing => []
  | .conflict => []

/-- The control plane after a change. -/
def Change.after (plane : ControlPlane) (principal policy : String) : Change → ControlPlane
  | .associate scope => plane.associate principal policy scope
  | .disassociate => plane.disassociate principal policy
  | .nothing => plane
  | .conflict => plane

/-- What a revoke answers when it comes down to a change. -/
def Change.answer (principal policy : String) (requested : Scope) : Change → Outcome RevokeResult
  | .associate _ => .ok .applied
  | .disassociate => .ok .applied
  | .nothing => .ok .alreadyRevoked
  | .conflict => .error (Policy.conflict principal policy requested false)

/-- A revoke reads the associations of the principal, and carries its change out. -/
theorem after_revoke (principal policy : String) (requested : Scope)
    (associations : List Association) :
    After (revoke principal policy requested).run
      (told (principal, .ok associations) ::
        (revokeChange (ControlPlane.scopeIn associations policy) requested).calls principal policy)
      (.done ((revokeChange (ControlPlane.scopeIn associations policy) requested).answer
        principal policy requested)) := by
  have hread : After (scopeOf principal policy).run [told (principal, .ok associations)]
      (.done (.ok (ControlPlane.scopeIn associations policy))) := .reply (.start _)
  unfold revoke
  refine Request.after_bind_done_iff.2 (Or.inr ⟨_, [_], _, rfl, hread, ?_⟩)
  cases revokeChange (ControlPlane.scopeIn associations policy) requested with
  | associate scope => exact .reply (.start _)
  | disassociate => exact .reply (.start _)
  | nothing => exact .start _
  | conflict => exact .start _

theorem acts_revoke (change : Change)
    (hread : (plane.act (.associatedPolicies principal)).1 = .ok associations) :
    plane.Acts (fun _ => False) (told (principal, .ok associations) :: change.calls principal policy)
      (change.after plane principal policy) := by
  refine ControlPlane.acts_cons_iff.2 (Or.inl ⟨hread.symm, ?_⟩)
  cases change with
  | associate scope => exact .acted (.associatePolicy principal policy scope) (.nil _)
  | disassociate => exact .acted (.disassociatePolicy principal policy) (.nil _)
  | nothing => exact .nil _
  | conflict => exact .nil _

end Policy

/-! ### Registries -/

namespace ControlPlane

variable {plane : ControlPlane} {principal policy : String} {scope : PolicyScope}

theorem act_associatedPolicies (h : plane.entry? principal ≠ none) :
    (plane.act (.associatedPolicies principal)).1 = .ok (plane.policiesOf principal) := by
  obtain ⟨entry, hentry⟩ := Option.ne_none_iff_exists'.1 h
  simp only [act, hentry, orMissing]
  rfl

theorem entry?_after (change : Policy.Change) :
    ControlPlane.entry? (change.after plane principal policy) principal = plane.entry? principal := by
  cases change with
  | associate scope => rfl
  | disassociate => rfl
  | nothing => rfl
  | conflict => rfl

/-- Changing the policies of a principal leaves the holders of a policy as they are, if the principal
has it before and after. -/
theorem holders_changePolicies {change : List Association → List Association}
    (hchange : ∀ policies, (change policies).any (fun a => a.policy = policy) = true)
    {records : List HeldAssociations}
    (h : ∀ held, records.find? (fun held => held.principal = principal) = some held →
      held.policies.any (fun a => a.policy = policy) = true) :
    ((changePolicies change principal records).filter fun held =>
        held.policies.any fun a => a.policy = policy).map HeldAssociations.principal =
      (records.filter fun held => held.policies.any fun a => a.policy = policy).map
        HeldAssociations.principal := by
  induction records with
  | nil => rfl
  | cons held rest ih =>
      unfold changePolicies
      by_cases hheld : held.principal = principal
      · have hhas := h held (List.find?_cons_of_pos (decide_eq_true hheld))
        rw [if_pos hheld]
        simp only [List.filter_cons, hhas, hchange, if_true, List.map_cons]
      · have hrest := ih fun found hfound =>
          h found ((List.find?_cons_of_neg (by simpa using hheld)).trans hfound)
        rw [if_neg hheld, List.filter_cons, List.filter_cons]
        split
        · rw [List.map_cons, List.map_cons, hrest]
        · exact hrest

/-- An association that is written anew leaves the holders of the policy as they are. -/
theorem holders_associate (h : plane.scopeAt principal policy ≠ none) :
    (plane.associate principal policy scope).holders policy = plane.holders policy := by
  have hhas : ∀ held, plane.associations.find? (fun held => held.principal = principal) = some held →
      held.policies.any (fun a => a.policy = policy) = true := by
    intro held hheld
    unfold scopeAt scopeIn policiesOf at h
    rw [hheld] at h
    obtain ⟨a, ha⟩ := Option.ne_none_iff_exists'.1 fun hnone => h (congrArg _ hnone)
    have hpolicy := List.find?_some (p := fun a : Association => decide (a.policy = policy)) ha
    exact List.any_eq_true.2 ⟨a, List.mem_of_find?_eq_some ha, hpolicy⟩
  have hany : plane.associations.any (fun held => held.principal = principal) = true := by
    unfold scopeAt policiesOf at h
    by_contra hnot
    rw [List.find?_eq_none.2 (by simpa using hnot)] at h
    exact h rfl
  unfold holders associate
  rw [if_pos hany]
  exact holders_changePolicies (fun policies => by simp) hhas

theorem page_associate (h : plane.scopeAt principal policy ≠ none) (token : Option String) :
    ((plane.associate principal policy scope).act (.listPrincipals policy token)).1 =
      (plane.act (.listPrincipals policy token)).1 := by
  show (plane.associate principal policy scope).page .principals
    ((plane.associate principal policy scope).holders policy) token = _
  rw [holders_associate h]
  rfl

end ControlPlane

/-! ### Requests of a connector -/

theorem principalArn_of_ofArn? {arn : String} {principal : ResourceId}
    (h : ResourceId.ofArn? arn = some principal) : principalArn principal = .ok arn := by
  rcases ResourceId.eq_of_ofArn? h with rfl | rfl <;> rfl

/-- When the checks pass, what is requested is done. -/
theorem Provisioning.Names.checked_eq {β : Type} {principal : ResourceId} {arn entitlement : String}
    {target : Provisioning.Target} {next : Provisioning.Target → String → Request β}
    (hnames : Provisioning.Names entitlement target) (harn : principalArn principal = .ok arn) :
    Provisioning.checked principal entitlement next = next target arn := by
  obtain ⟨through, hthrough, htarget⟩ := hnames.exists_channel
  unfold Provisioning.checked
  rw [hthrough, harn]
  show (ofOutcome (through.target entitlement) >>= fun target => next target arn) = _
  rw [htarget]
  rfl

namespace Connector

variable {plane : ControlPlane} {policy arn : String} {principal : ResourceId} {entitlement : String}
  {scope : Scope}

/-- A revoke of a policy reads the associations of the principal and carries its change out. -/
theorem runTimed_revoke (connector : Connector) (hprincipal : ResourceId.ofArn? arn = some principal)
    (hentry : plane.entry? arn ≠ none)
    (hnames : EntitlementId.decode entitlement = .ok (policyId policy scope)) :
    ∃ after : Trial, (Trial.runTimed (connector.revoke principal entitlement)).run { plane } =
        (some ((Policy.revokeChange (plane.scopeAt arn policy) scope).answer arn policy scope), after) ∧
      after.plane = (Policy.revokeChange (plane.scopeAt arn policy) scope).after plane arn policy ∧
      ((Policy.revokeChange (plane.scopeAt arn policy) scope).calls arn policy = [] →
        after.writes = []) := by
  have hrequest : (connector.revoke principal entitlement).request =
      Policy.revoke arn policy scope := by
    rw [request_revoke]
    exact (Provisioning.Names.policy hnames).checked_eq (principalArn_of_ofArn? hprincipal)
  have hquiet : Trial.Undisturbed { plane } := ⟨rfl, rfl, rfl⟩
  have hafter := Policy.after_revoke arn policy scope (plane.policiesOf arn)
  rw [← hrequest] at hafter
  obtain ⟨after, hrun, hplane, hwrites⟩ := hquiet.runTimed_of_acts hafter (fun _ => id)
    (Policy.acts_revoke _ (ControlPlane.act_associatedPolicies hentry))
  refine ⟨after, hrun, hplane, fun hnone => hwrites fun event hevent => ?_⟩
  have hcalls : (Policy.revokeChange (ControlPlane.scopeIn (plane.policiesOf arn) policy)
      scope).calls arn policy = [] := hnone
  rw [hcalls, List.mem_singleton] at hevent
  rw [hevent]
  rfl

end Connector

/-! ### Listings and revokes -/

namespace Survey

variable {plane : ControlPlane} {survey : Survey} {policy arn : String} {principal : ResourceId}
  {held : PolicyScope} {scope : Scope} {g : Grant}

/-- What was told of the principal is what the control plane holds. -/
def TellsOf (plane : ControlPlane) (arn : String) (survey : Survey) : Prop :=
  ∀ reply, (arn, reply) ∈ survey.replies → reply = (plane.act (.associatedPolicies arn)).1

/-- The scopes that an association covers. -/
def scopesOf (held : Option PolicyScope) : List Scope :=
  (held.map coveredScopes).getD []

theorem TellsOf.tells (h : survey.TellsOf plane arn) (hentry : plane.entry? arn ≠ none)
    (policy : String) : survey.Tells policy arn (scopesOf (plane.scopeAt arn policy)) := by
  intro reply hreply
  rw [h reply hreply, ControlPlane.act_associatedPolicies hentry]
  rfl

/-- What is told of a page when nothing goes wrong. -/
def truthful (plane : ControlPlane) (page : Page String) : Survey where
  page
  replies := page.items.map fun arn => (arn, (plane.act (.associatedPolicies arn)).1)
  asked := by rw [List.map_map]; exact List.map_id _

theorem tellsOf_truthful (plane : ControlPlane) (page : Page String) (arn : String) :
    (truthful plane page).TellsOf plane arn := by
  intro reply hreply
  obtain ⟨other, -, heq⟩ := List.mem_map.1 hreply
  cases heq
  rfl

theorem acts_truthful {page : Page String} {token : Option String}
    (hpage : (plane.act (.listPrincipals policy token)).1 = .ok page) :
    plane.Acts (fun _ => False) ((truthful plane page).history policy token) plane := by
  refine ControlPlane.acts_cons_iff.2 (Or.inl ⟨hpage.symm, ?_⟩)
  unfold truthful
  dsimp only
  induction page.items with
  | nil => exact .nil _
  | cons arn rest ih => exact .acted (.associatedPolicies arn) ih

/-- A listing that nothing disturbs succeeds where there is a page, and changes nothing. -/
theorem run_policyGrants {resource : Resource} {page : Page String} {token : Option String}
    (hpage : (plane.act (.listPrincipals resource.id.resource token)).1 = .ok page) :
    ∃ after : Trial, (Trial.runRequest none (policyGrants resource token)).run { plane } =
        (some (.ok ((truthful plane page).listing resource.id.resource)), after) ∧
      after.plane = plane := by
  have hquiet : Trial.Undisturbed { plane } := ⟨rfl, rfl, rfl⟩
  obtain ⟨after, hrun, hplane, -⟩ := hquiet.run_of_acts none
    (policyGrants_ok_iff.2 ⟨truthful plane page, rfl, rfl⟩) (fun _ => id) (acts_truthful hpage)
  exact ⟨after, hrun, hplane⟩

/-- A user or a role is on the page, and its association with the policy was read as it is. -/
structure Reads (survey : Survey) (plane : ControlPlane) (policy arn : String)
    (principal : ResourceId) (held : PolicyScope) : Prop where
  listed : arn ∈ survey.page.items
  isPrincipal : ResourceId.ofArn? arn = some principal
  entry : plane.entry? arn ≠ none
  scope : plane.scopeAt arn policy = some held
  told : survey.TellsOf plane arn
  /-- The ids of its scopes read back. -/
  readsBack : ∀ scope ∈ coveredScopes held,
    EntitlementId.decode (toString (policyId policy scope)) = .ok (policyId policy scope)

namespace Reads

theorem grantsOf_eq (h : survey.Reads plane policy arn principal held) :
    survey.grantsOf policy principal =
      (List.replicate (survey.page.items.count arn)
        ((coveredScopes held).map fun scope => grantTo (policyId policy scope) principal)).flatten := by
  have htells := h.told.tells h.entry policy
  rw [h.scope] at htells
  exact Survey.grantsOf_eq h.isPrincipal htells

/-- The principal is listed with the scopes that are covered, and with no others. -/
theorem mem_grantsOf_iff (h : survey.Reads plane policy arn principal held) :
    g ∈ survey.grantsOf policy principal ↔
      ∃ scope ∈ coveredScopes held, g = grantTo (policyId policy scope) principal := by
  have hcount : survey.page.items.count arn ≠ 0 := by
    simpa [List.count_eq_zero] using h.listed
  rw [h.grantsOf_eq]
  simp [hcount, eq_comm]

/-- Scopes that read back are written differently. -/
theorem toString_policyId_inj (h : survey.Reads plane policy arn principal held) {other : Scope}
    (hscope : scope ∈ coveredScopes held) (hother : other ∈ coveredScopes held) :
    toString (policyId policy other) = toString (policyId policy scope) ↔ other = scope := by
  refine ⟨fun heq => ?_, fun heq => heq ▸ rfl⟩
  have hread := h.readsBack other hother
  rw [heq, h.readsBack scope hscope] at hread
  cases hread
  rfl

/-- Taking one id out of the listing takes out its scope. -/
theorem filter_grants (h : survey.Reads plane policy arn principal held)
    (hscope : scope ∈ coveredScopes held) :
    ((coveredScopes held).map fun scope => grantTo (policyId policy scope) principal).filter
        (fun g => g.entitlement ≠ toString (policyId policy scope)) =
      ((coveredScopes held).filter (· ≠ scope)).map fun scope =>
        grantTo (policyId policy scope) principal := by
  rw [List.filter_map]
  refine congrArg (List.map _) (List.filter_congr fun other hother => ?_)
  refine decide_eq_decide.2 (not_congr ?_)
  exact h.toString_policyId_inj hscope hother

/-- When a scope is left out, what is listed for the principal is what was listed without its id. -/
theorem grantsOf_later (h : survey.Reads plane policy arn principal held)
    (hscope : scope ∈ coveredScopes held) {after : ControlPlane} (hentry : after.entry? arn ≠ none)
    (hleft : scopesOf (after.scopeAt arn policy) = (coveredScopes held).filter (· ≠ scope))
    {later : Survey} (htold : later.TellsOf after arn)
    (hcount : after.scopeAt arn policy ≠ none →
      later.page.items.count arn = survey.page.items.count arn) :
    later.grantsOf policy principal = (survey.grantsOf policy principal).filter
      fun g => g.entitlement ≠ toString (policyId policy scope) := by
  rw [Survey.grantsOf_eq h.isPrincipal (htold.tells hentry policy), h.grantsOf_eq,
    List.filter_flatten, List.map_replicate, h.filter_grants hscope, hleft]
  cases hnow : after.scopeAt arn policy with
  | some rest => rw [hcount (by rw [hnow]; exact Option.some_ne_none rest)]
  | none =>
      -- Nothing is left, however often the principal is on the page.
      rw [hnow] at hleft
      rw [← hleft]
      simp [scopesOf]

end Reads

end Survey

namespace Connector

variable {plane : ControlPlane} {survey : Survey} {policy arn : String} {principal : ResourceId}
  {entitlement : String} {scope : Scope} {held : PolicyScope} {g : Grant}

/-- A revoke takes one grant of a listing away.  It succeeds, and the pages of holders are what they
were as long as the principal is one.  What is then listed for the principal, on a page that holds
it as often, is what was listed without the grant. -/
def TakesAway (connector : Connector) (plane : ControlPlane) (survey : Survey)
    (policy arn : String) (principal : ResourceId) (entitlement : String) : Prop :=
  ∃ after : Trial, (Trial.runTimed (connector.revoke principal entitlement)).run { plane } =
      (some (.ok .applied), after) ∧
    (after.plane.scopeAt arn policy ≠ none → ∀ token,
      (after.plane.act (.listPrincipals policy token)).1 =
        (plane.act (.listPrincipals policy token)).1) ∧
    ∀ later : Survey, later.TellsOf after.plane arn →
      (after.plane.scopeAt arn policy ≠ none →
        later.page.items.count arn = survey.page.items.count arn) →
      later.grantsOf policy principal =
        (survey.grantsOf policy principal).filter fun g => g.entitlement ≠ entitlement

/-- A revoke finds nothing to take away, or is refused, and writes nothing. -/
def LeavesAlone (connector : Connector) (plane : ControlPlane) (policy arn : String)
    (principal : ResourceId) (entitlement : String) : Prop :=
  ∃ (outcome : Outcome RevokeResult) (after : Trial),
    (Trial.runTimed (connector.revoke principal entitlement)).run { plane } =
      (some outcome, after) ∧
    (outcome = .ok .alreadyRevoked ∨
      ∃ message, outcome = .error (.scopeConflict arn policy message)) ∧
    after.plane = plane ∧ after.writes = []

/-- What is listed can be taken away. -/
theorem takesAway_of_listed (connector : Connector)
    (h : survey.Reads plane policy arn principal held) (hg : g ∈ survey.grantsOf policy principal) :
    connector.TakesAway plane survey policy arn principal g.entitlement := by
  obtain ⟨scope, hscope, rfl⟩ := h.mem_grantsOf_iff.1 hg
  obtain ⟨after, hrun, hplane, -⟩ := connector.runTimed_revoke h.isPrincipal h.entry
    (h.readsBack scope hscope)
  have hentry : after.plane.entry? arn ≠ none := by
    rw [hplane, ControlPlane.entry?_after]
    exact h.entry
  rw [h.scope] at hrun hplane
  rcases Policy.revokeChange_of_covered hscope with ⟨rest, hchange, hrest⟩ | ⟨hchange, hrest⟩
  · rw [hchange] at hrun hplane
    have hplane : after.plane = plane.associate arn policy rest := hplane
    have hnow : after.plane.scopeAt arn policy = some rest := by
      rw [hplane, ControlPlane.scopeAt_associate, if_pos ⟨rfl, rfl⟩]
    refine ⟨after, hrun, fun _ token => ?_, fun later htold hcount => ?_⟩
    · rw [hplane]
      exact ControlPlane.page_associate (by rw [h.scope]; exact Option.some_ne_none held) token
    · exact h.grantsOf_later hscope hentry (by rw [hnow]; exact hrest) htold hcount
  · rw [hchange] at hrun hplane
    have hplane : after.plane = plane.disassociate arn policy := hplane
    have hnow : after.plane.scopeAt arn policy = none := by
      rw [hplane, ControlPlane.scopeAt_disassociate, if_pos ⟨rfl, rfl⟩]
    refine ⟨after, hrun, fun hsome => absurd hnow hsome, fun later htold hcount => ?_⟩
    exact h.grantsOf_later hscope hentry (by rw [hnow]; exact hrest.symm) htold hcount

/-- What is not listed is left alone. -/
theorem leavesAlone_of_not_listed (connector : Connector)
    (h : survey.Reads plane policy arn principal held)
    (hnames : EntitlementId.decode entitlement = .ok (policyId policy scope))
    (hnot : ∀ g ∈ survey.grantsOf policy principal, g.entitlement ≠ entitlement) :
    connector.LeavesAlone plane policy arn principal entitlement := by
  have hscope : scope ∉ coveredScopes held := fun hscope =>
    hnot _ (h.mem_grantsOf_iff.2 ⟨scope, hscope, rfl⟩) (EntitlementId.toString_of_decode hnames)
  obtain ⟨after, hrun, hplane, hwrites⟩ := connector.runTimed_revoke h.isPrincipal h.entry hnames
  rw [h.scope] at hrun hplane hwrites
  rcases Policy.revokeChange_of_not_covered hscope with hchange | hchange
  · rw [hchange] at hrun hplane hwrites
    exact ⟨_, after, hrun, Or.inl rfl, hplane, hwrites rfl⟩
  · rw [hchange] at hrun hplane hwrites
    exact ⟨_, after, hrun, Or.inr ⟨_, rfl⟩, hplane, hwrites rfl⟩

end Connector

/-- **What is listed for a policy is what can be taken away.**  A listing only reads, and always
comes to an end.  It fails only when the page cannot be read, and when nothing disturbs it, it is
told what the control plane holds.  It lists what was told of those who count, and everybody else
might as well not be on the page.  A user or a role whose association was read, and whose scopes
have ids that read back, is listed with exactly the ids that can be revoked; every other id of the
policy is left alone. -/
theorem listing_matches_revokes (connector : Connector) (resource : Resource) (token : Option String) :
    ((policyGrants resource token).run.Makes fun call => call.isWrite = false) ∧
      (∀ plane page, (plane.act (.listPrincipals resource.id.resource token)).1 = .ok page →
        (∃ after : Trial, (Trial.runRequest none (policyGrants resource token)).run { plane } =
            (some (.ok ((Survey.truthful plane page).listing resource.id.resource)), after) ∧
          after.plane = plane) ∧
        ∀ arn, (Survey.truthful plane page).TellsOf plane arn) ∧
      ∀ history outcome, After (policyGrants resource token).run history (.done outcome) →
        (∃ fault, outcome = .error fault ∧
          history = [⟨.listPrincipals resource.id.resource token, .error fault⟩]) ∨
        ∃ survey : Survey, outcome = .ok (survey.listing resource.id.resource) ∧
          history = survey.history resource.id.resource token ∧
          (survey.grants resource.id.resource =
            (survey.replies.filter (Policy.isHolder resource.id.resource)).flatMap fun reply =>
              Policy.listedFor resource.id.resource reply.1 reply.2) ∧
          ∀ plane arn principal held,
            survey.Reads plane resource.id.resource arn principal held →
            (∀ g ∈ survey.grantsOf resource.id.resource principal,
              connector.TakesAway plane survey resource.id.resource arn principal g.entitlement) ∧
            ∀ entitlement scope,
              EntitlementId.decode entitlement = .ok (policyId resource.id.resource scope) →
              (∀ g ∈ survey.grantsOf resource.id.resource principal,
                g.entitlement ≠ entitlement) →
              connector.LeavesAlone plane resource.id.resource arn principal entitlement := by
  refine ⟨policyGrants_reads resource token, fun plane page hpage =>
    ⟨Survey.run_policyGrants hpage, Survey.tellsOf_truthful plane page⟩, fun history outcome h => ?_⟩
  cases outcome with
  | error fault => exact Or.inl ⟨fault, rfl, policyGrants_error_iff.1 h⟩
  | ok listing =>
      obtain ⟨survey, rfl, rfl⟩ := policyGrants_ok_iff.1 h
      refine Or.inr ⟨survey, rfl, rfl, survey.grants_eq_filter _, ?_⟩
      intro plane arn principal held hreads
      refine ⟨fun g hg => connector.takesAway_of_listed hreads hg, ?_⟩
      intro entitlement scope hnames hnot
      exact connector.leavesAlone_of_not_listed hreads hnames hnot

/-! ### A policy in one namespace -/

/-- The policy `view` as a resource. -/
def viewPolicy : Resource := ⟨ResourceType.accessPolicy.resourceId "view", "view", []⟩

/-- Alice is read to hold the policy in one namespace, and Bob cannot be read. -/
def halfRead : Survey where
  page := ⟨["arn:aws:iam::111122223333:user/alice", "arn:aws:iam::111122223333:user/bob"], none⟩
  replies := [("arn:aws:iam::111122223333:user/alice", .ok [⟨"view", .namespaces ["dev"]⟩]),
    ("arn:aws:iam::111122223333:user/bob", .error (.timeout "associated policies"))]
  asked := rfl

theorem reads_halfRead : halfRead.Reads Policy.devRegistry "view"
    "arn:aws:iam::111122223333:user/alice" Connector.alice (.namespaces ["dev"]) where
  listed := by decide
  isPrincipal := by decide
  entry := by decide
  scope := by decide
  told := by
    intro reply hreply
    have hheard : reply = .ok [⟨"view", .namespaces ["dev"]⟩] := by
      simpa [halfRead] using hreply
    rw [hheard]
    rfl
  readsBack := by
    intro scope hscope
    obtain rfl := List.mem_singleton.1 hscope
    decide +kernel

/-- Alice's access in the namespace can be taken away, and there is nothing else to take away. -/
theorem revocable_dev :
    After (policyGrants viewPolicy none).run (halfRead.history "view" none)
        (.done (.ok (halfRead.listing "view"))) ∧
      Connector.prod.TakesAway Policy.devRegistry halfRead "view"
        "arn:aws:iam::111122223333:user/alice" Connector.alice "access_policy:view:assigned:dev" ∧
      Connector.prod.LeavesAlone Policy.devRegistry "view"
        "arn:aws:iam::111122223333:user/alice" Connector.alice
        "access_policy:view:assigned:cluster" := by
  have hafter : After (policyGrants viewPolicy none).run (halfRead.history "view" none)
      (.done (.ok (halfRead.listing "view"))) := policyGrants_ok_iff.2 ⟨halfRead, rfl, rfl⟩
  refine ⟨hafter, ?_⟩
  rcases (listing_matches_revokes Connector.prod viewPolicy none).2.2 _ _ hafter with
    ⟨fault, hne, -⟩ | ⟨survey, -, hhistory, -, hrevokes⟩
  · cases hne
  · obtain rfl := Survey.history_inj hhistory
    obtain ⟨hlisted, hothers⟩ := hrevokes _ _ _ _ reads_halfRead
    refine ⟨hlisted ⟨"access_policy:view:assigned:dev", Connector.alice, []⟩ ?_, ?_⟩
    · decide +kernel
    · exact hothers _ .cluster (by decide +kernel) (by decide +kernel)

end ClusterAccess
