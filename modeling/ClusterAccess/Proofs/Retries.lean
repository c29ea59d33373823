/-
Interrupted requests converge when they are made again.

A grant of a policy makes an access entry, which is found the next time, and writes one
association, which is found or is written again as it is (`resumes_grant`).  A revoke of a policy
makes one write, and then finds nothing to do (`resumes_revoke`).  With what holds of the requests
about roles, every request about an entitlement converges.  So after any number of attempts that
were cut short, one that succeeds leaves what it would have left at once
(`Connector.converges_of_retried`).
-/
import ClusterAccess.Proofs.ListedGrants
import ClusterAccess.Proofs.PolicyCalls
import ClusterAccess.Proofs.RoleRetries

namespace ClusterAccess

open Program (Makes)
open Provisioning (Channel Target)
open Upstream
open World (carry carry_send carry_attempt carry_bind_ok)

/-! ### Policies -/

namespace Policy

variable {up mid : Upstream} {principal policy : String} {requested : Scope}
  {held : Option PolicyScope} {scope : PolicyScope}

/-- The upstream with an access entry for the principal, made if there is none. -/
def withEntry (up : Upstream) (principal : String) : Upstream :=
  { up with plane := up.plane.withEntry principal }

theorem ensureEntry_off : (ensureEntry principal).run.Makes
    fun call => call.isAboutBindings = false :=
  makes_ensureEntry.mono fun _ hcall => by rw [hcall]; rfl

theorem carry_ensureEntry (up : Upstream) (principal : String) :
    carry up (ensureEntry principal) = (some (.ok ()), withEntry up principal) :=
  carry_of_off ensureEntry_off ControlPlane.carry_ensureEntry

theorem passes_ensureEntry (h : Passes (ensureEntry principal).run up mid) :
    mid = up ∨ mid = withEntry up principal := by
  have hplane : (up.plane.act (.createAccessEntry principal)).2 = up.plane.withEntry principal := by
    show (up.plane.changed (up.plane.createEntry principal)).2 = _
    unfold ControlPlane.changed ControlPlane.withEntry
    cases up.plane.createEntry principal <;> rfl
  have hact : up.act (.createAccessEntry principal) =
      ((up.plane.act (.createAccessEntry principal)).1, withEntry up principal) := by
    rw [act_of_off rfl, hplane]
    rfl
  unfold ensureEntry at h
  refine h.of_attempt hact fun reply => ?_
  cases reply with
  | ok answer => trivial
  | error fault => exact Request.makes_pardon

/-- Where there is an access entry nothing is made. -/
theorem recovers_entry (h : up.plane.entry? principal ≠ none) :
    Recovers (ensureEntry principal) (· = .ok ()) (· = up) up := by
  have hsame : withEntry up principal = up := by
    rw [withEntry, ControlPlane.withEntry_of_entry h]
  have hcarry := carry_ensureEntry up principal
  rw [hsame] at hcarry
  refine recovers_of_still hcarry fun mid hpasses => ?_
  have hstates := passes_ensureEntry hpasses
  rw [hsame] at hstates
  exact or_self_iff.1 hstates

theorem scopeOf_reads :
    (scopeOf principal policy).run.Makes fun call => call.isWrite = false :=
  makes_scopeOf.mono fun _ hcall => by rw [hcall]; rfl

/-- The scope that is read is the one there is, and none if there is no access entry. -/
theorem carry_scopeOf (up : Upstream) (principal policy : String) :
    ∃ held, carry up (scopeOf principal policy) = (some (.ok held), up) ∧
      (up.plane.entry? principal ≠ none → held = up.plane.scopeAt principal policy) ∧
      (up.plane.entry? principal = none → held = none) := by
  have hact : up.act (.associatedPolicies principal) =
      ((ControlPlane.orMissing (ControlPlane.entryName principal)
        (up.plane.entry? principal)).map fun _ => up.plane.policiesOf principal, up) :=
    act_of_off rfl
  unfold scopeOf
  rw [carry_bind_ok (carry_attempt (carry_send hact))]
  cases hentry : up.plane.entry? principal with
  | none => exact ⟨none, rfl, fun h => absurd rfl h, fun _ => rfl⟩
  | some entry => exact ⟨_, rfl, fun _ => rfl, fun h => by cases h⟩

/-! ### Grants of policies -/

/-- The upstream with a policy associated with a principal. -/
def associated (up : Upstream) (principal policy : String) (scope : PolicyScope) : Upstream :=
  { up with plane := up.plane.associate principal policy scope }

theorem act_associatePolicy (up : Upstream) (principal policy : String) (scope : PolicyScope) :
    up.act (.associatePolicy principal policy scope) =
      (.ok (), associated up principal policy scope) := rfl

theorem scopeAt_associated :
    (associated up principal policy scope).plane.scopeAt principal policy = some scope := by
  show (up.plane.associate principal policy scope).scopeAt principal policy = some scope
  rw [ControlPlane.scopeAt_associate, if_pos ⟨rfl, rfl⟩]

/-- A grant that has written finds what it wants, or wants the same again. -/
theorem grantChange_again (h : grantChange held requested = .associate scope) :
    grantChange (some scope) requested = .nothing ∨
      grantChange (some scope) requested = .associate scope := by
  cases requested with
  | cluster =>
      have hscope : scope = .cluster := by
        cases held with
        | none => exact (Change.associate.inj h).symm
        | some old => cases old <;> exact (Change.associate.inj h).symm
      subst hscope
      exact Or.inr rfl
  | inNamespace ns =>
      have hin : ∃ names, scope = .namespaces names ∧ ns ∈ names := by
        cases held with
        | none => exact ⟨[ns], (Change.associate.inj h).symm, List.mem_singleton_self ns⟩
        | some old =>
            cases old with
            | cluster => cases h
            | namespaces names =>
                by_cases hns : ns ∈ names
                · simp [grantChange, hns] at h
                · simp only [grantChange, if_neg hns] at h
                  exact ⟨names ++ [ns], (Change.associate.inj h).symm, by simp⟩
      obtain ⟨names, rfl, hns⟩ := hin
      exact Or.inl (if_pos hns)

/-- What a grant does with the scope that it has read. -/
def grantWith (principal policy : String) (requested : Scope) (held : Option PolicyScope) :
    Request GrantResult :=
  match grantChange held requested with
  | .associate scope => send (.associatePolicy principal policy scope) >>= fun _ => pure .applied
  | .conflict => throw (conflict principal policy requested true)
  | _ => pure .alreadySatisfied

theorem grantRest_eq :
    grantRest principal policy requested =
      (scopeOf principal policy >>= grantWith principal policy requested) := rfl

/-- Where there is an access entry, a grant that has nothing to write stays where it is. -/
theorem recovers_grantRest_still {outcome : Outcome GrantResult}
    (hentry : up.plane.entry? principal ≠ none)
    (hrest : grantWith principal policy requested (up.plane.scopeAt principal policy) =
      ofOutcome outcome) :
    Recovers (grantRest principal policy requested) (· = outcome) (· = up) up := by
  obtain ⟨held, hlook, hheld, -⟩ := carry_scopeOf up principal policy
  rw [← hheld hentry] at hrest
  rw [grantRest_eq]
  exact recovers_of_look scopeOf_reads hlook hrest

/-- A grant that writes the association writes it once. -/
theorem carry_grantWith (up : Upstream) (principal policy : String)
    (hchange : grantChange held requested = .associate scope) :
    carry up (grantWith principal policy requested held) =
        (some (.ok .applied), associated up principal policy scope) ∧
      ∀ mid, Passes (grantWith principal policy requested held).run up mid →
        mid = up ∨ mid = associated up principal policy scope := by
  have hact := act_associatePolicy up principal policy scope
  have hrest : grantWith principal policy requested held =
      (send (.associatePolicy principal policy scope) >>= fun _ => pure .applied) := by
    unfold grantWith
    rw [hchange]
  rw [hrest]
  exact ⟨carry_bind_ok (carry_send hact),
    fun mid hpasses => hpasses.of_once hact fun reply => by cases reply <;> trivial⟩

/-- After the association has been written, a grant finds it or writes the same again. -/
theorem recovers_associated (hentry : up.plane.entry? principal ≠ none)
    (hchange : grantChange held requested = .associate scope) :
    Recovers (grantRest principal policy requested) (fun outcome => outcome.isOk = true)
      (· = associated up principal policy scope) (associated up principal policy scope) := by
  let after := associated up principal policy scope
  have hentryAfter : after.plane.entry? principal ≠ none := hentry
  rcases grantChange_again hchange with hnothing | hagain
  · have hrest : grantWith principal policy requested (after.plane.scopeAt principal policy) =
        ofOutcome (.ok .alreadySatisfied) := by
      unfold grantWith
      rw [scopeAt_associated, hnothing]
      rfl
    refine (recovers_grantRest_still hentryAfter hrest).mono fun outcome houtcome => ?_
    rw [houtcome]
    rfl
  · have hsame : associated after principal policy scope = after := by
      show associated (associated up principal policy scope) principal policy scope =
        associated up principal policy scope
      unfold associated
      rw [ControlPlane.associate_associate]
    obtain ⟨held, hlook, hheld, -⟩ := carry_scopeOf after principal policy
    rw [hheld hentryAfter, scopeAt_associated] at hlook
    obtain ⟨hcarry, hpasses⟩ := carry_grantWith after principal policy hagain
    rw [hsame] at hcarry hpasses
    rw [grantRest_eq]
    have hstill := recovers_of_still ((carry_bind_ok hlook).trans hcarry) fun mid hin =>
      or_self_iff.1 (hpasses mid (hin.bind_of_reads scopeOf_reads hlook))
    refine hstill.mono fun outcome houtcome => ?_
    rw [houtcome]
    rfl

/-- Once there is an access entry, a grant recovers at states that have one too. -/
theorem recovers_grantRest (hentry : up.plane.entry? principal ≠ none) :
    ∃ Checkpoint final succeeds, Checkpoint up ∧
      (∀ other, Checkpoint other → other.plane.entry? principal ≠ none) ∧
        Recovers (grantRest principal policy requested) (fun outcome => outcome.isOk = succeeds)
          Checkpoint final := by
  cases hchange : grantChange (up.plane.scopeAt principal policy) requested with
  | disassociate => exact absurd hchange grantChange_ne_disassociate
  | associate scope =>
      obtain ⟨held, hlook, hheld, -⟩ := carry_scopeOf up principal policy
      rw [← hheld hentry] at hchange
      obtain ⟨hcarry, hpasses⟩ := carry_grantWith up principal policy hchange
      refine ⟨_, associated up principal policy scope, true, Or.inl rfl, ?_,
        .of_look scopeOf_reads hlook hcarry rfl hpasses (recovers_associated hentry hchange)⟩
      intro other hother
      rcases hother with rfl | rfl
      · exact hentry
      · exact hentry
  | _ =>
      have hrest : ∃ outcome, grantWith principal policy requested
          (up.plane.scopeAt principal policy) = ofOutcome outcome := by
        unfold grantWith
        rw [hchange]
        exact ⟨_, rfl⟩
      obtain ⟨outcome, hrest⟩ := hrest
      refine ⟨(· = up), up, outcome.isOk, rfl, fun other hother => hother ▸ hentry, ?_⟩
      refine (recovers_grantRest_still hentry hrest).mono fun found hfound => ?_
      rw [hfound]

/-- **A grant of a policy resumes.** -/
theorem resumes_grant (principal policy : String) (requested : Scope) (up : Upstream) :
    Resumes (grant principal policy requested) up := by
  by_cases hprincipal : Arn.isUserOrRole principal = true
  swap
  · rw [grant_of_unsupported (eq_false_of_ne_true hprincipal)]
    exact resumes_of_throw _
  rw [grant_eq hprincipal]
  have hentry : (withEntry up principal).plane.entry? principal ≠ none :=
    ControlPlane.entry?_withEntry up.plane principal
  obtain ⟨Second, final, succeeds, hmid, hentries, hrest⟩ := recovers_grantRest hentry
  have hfirst : Recovers (ensureEntry principal) (· = .ok ())
      (fun mid => mid = up ∨ mid = withEntry up principal) (withEntry up principal) :=
    .of_write (carry_ensureEntry up principal) rfl (fun _ hpasses => passes_ensureEntry hpasses)
      (recovers_entry hentry)
  exact ⟨_, final, succeeds, Or.inl (Or.inl rfl),
    hfirst.bind hmid (fun other hother => recovers_entry (hentries other hother)) hrest⟩

/-! ### Revokes of policies -/

/-- A revoke that has written the rest finds that the namespace is gone. -/
theorem revokeChange_again (h : revokeChange held requested = .associate scope) :
    revokeChange (some scope) requested = .nothing := by
  cases held with
  | none => cases h
  | some old =>
      cases old with
      | cluster => cases requested <;> cases h
      | namespaces names =>
          cases requested with
          | cluster => cases h
          | inNamespace ns =>
              by_cases hns : ns ∈ names
              · have hscope : scope = .namespaces (names.filter (· ≠ ns)) := by
                  have hthere : ¬ns ∉ names := fun hnot => hnot hns
                  unfold revokeChange at h
                  simp only [if_neg hthere] at h
                  split at h
                  · cases h
                  · exact (Change.associate.inj h).symm
                subst hscope
                exact if_pos (by simp)
              · simp [revokeChange, hns] at h

/-- What a revoke does with the scope that it has read. -/
def revokeWith (principal policy : String) (requested : Scope) (held : Option PolicyScope) :
    Request RevokeResult :=
  match revokeChange held requested with
  | .associate scope => send (.associatePolicy principal policy scope) >>= fun _ => pure .applied
  | .disassociate => disassociate principal policy >>= fun _ => pure .applied
  | .conflict => throw (conflict principal policy requested false)
  | .nothing => pure .alreadyRevoked

theorem revoke_eq : revoke principal policy requested =
    (scopeOf principal policy >>= revokeWith principal policy requested) := rfl

/-- A revoke that finds nothing to do stays where it is. -/
theorem recovers_revoke_nothing
    (hlook : carry up (scopeOf principal policy) = (some (.ok held), up))
    (hnothing : revokeChange held requested = .nothing) :
    Recovers (revoke principal policy requested) (fun outcome => outcome.isOk = true)
      (· = up) up := by
  have hrest : revokeWith principal policy requested held = ofOutcome (.ok .alreadyRevoked) := by
    unfold revokeWith
    rw [hnothing]
    rfl
  rw [revoke_eq]
  refine (recovers_of_look scopeOf_reads hlook hrest).mono fun outcome houtcome => ?_
  rw [houtcome]
  rfl

/-- The upstream without an association of a policy with a principal. -/
def withoutPolicy (up : Upstream) (principal policy : String) : Upstream :=
  { up with plane := up.plane.disassociate principal policy }

/-- What is left without the association reads as none. -/
theorem carry_scopeOf_withoutPolicy (up : Upstream) (principal policy : String) :
    carry (withoutPolicy up principal policy) (scopeOf principal policy) =
      (some (.ok none), withoutPolicy up principal policy) := by
  obtain ⟨held, hlook, hheld, hnone⟩ :=
    carry_scopeOf (withoutPolicy up principal policy) principal policy
  have hgone : (withoutPolicy up principal policy).plane.scopeAt principal policy = none := by
    show (up.plane.disassociate principal policy).scopeAt principal policy = none
    rw [ControlPlane.scopeAt_disassociate, if_pos ⟨rfl, rfl⟩]
  rw [hgone] at hheld
  by_cases hentry : (withoutPolicy up principal policy).plane.entry? principal = none
  · rwa [hnone hentry] at hlook
  · rwa [hheld hentry] at hlook

/-- **A revoke of a policy resumes.** -/
theorem resumes_revoke (principal policy : String) (requested : Scope) (up : Upstream) :
    Resumes (revoke principal policy requested) up := by
  obtain ⟨held, hlook, hheld, hnone⟩ := carry_scopeOf up principal policy
  cases hchange : revokeChange held requested with
  | nothing => exact ⟨(· = up), up, true, rfl, recovers_revoke_nothing hlook hchange⟩
  | conflict =>
      have hrest : revokeWith principal policy requested held =
          ofOutcome (.error (conflict principal policy requested false)) := by
        unfold revokeWith
        rw [hchange]
        rfl
      exact (recovers_of_look scopeOf_reads hlook hrest).resumesInStore.resumes
  | associate scope =>
      have hact := act_associatePolicy up principal policy scope
      have hrest : revokeWith principal policy requested held =
          (send (.associatePolicy principal policy scope) >>= fun _ => pure .applied) := by
        unfold revokeWith
        rw [hchange]
      -- Something is associated, so there is an access entry, and what is written is read back.
      have hentry : up.plane.entry? principal ≠ none := by
        intro habsent
        rw [hnone habsent] at hchange
        cases hchange
      obtain ⟨again, hlookAgain, hagain, -⟩ :=
        carry_scopeOf (associated up principal policy scope) principal policy
      rw [hagain hentry, scopeAt_associated] at hlookAgain
      have hcarry : carry up (revokeWith principal policy requested held) =
          (some (.ok .applied), associated up principal policy scope) := by
        rw [hrest]
        exact carry_bind_ok (carry_send hact)
      have hdone := recovers_revoke_nothing hlookAgain (revokeChange_again hchange)
      rw [revoke_eq] at hdone ⊢
      refine ⟨_, associated up principal policy scope, true, Or.inl rfl,
        .of_look scopeOf_reads hlook hcarry rfl (fun mid hpasses => ?_) hdone⟩
      rw [hrest] at hpasses
      exact hpasses.of_once hact fun reply => by cases reply <;> trivial
  | disassociate =>
      have hact : up.act (.disassociatePolicy principal policy) =
          (.ok (), withoutPolicy up principal policy) := rfl
      have hrest : revokeWith principal policy requested held =
          (disassociate principal policy >>= fun _ => pure .applied) := by
        unfold revokeWith
        rw [hchange]
      have hremove : carry up (disassociate principal policy) =
          (some (.ok ()), withoutPolicy up principal policy) :=
        carry_bind_ok (carry_attempt (carry_send hact))
      have hcarry : carry up (revokeWith principal policy requested held) =
          (some (.ok .applied), withoutPolicy up principal policy) := by
        rw [hrest]
        exact carry_bind_ok hremove
      have hnothing : revokeChange none requested = .nothing := rfl
      have hdone := recovers_revoke_nothing (carry_scopeOf_withoutPolicy up principal policy)
        hnothing
      rw [revoke_eq] at hdone ⊢
      refine ⟨_, withoutPolicy up principal policy, true, Or.inl rfl,
        .of_look scopeOf_reads hlook hcarry rfl (fun mid hpasses => ?_) hdone⟩
      rw [hrest] at hpasses
      rcases hpasses.request_bind_cases with hin | ⟨answer, after, hafter, hin⟩
      · unfold disassociate at hin
        refine hin.of_attempt hact fun reply => ?_
        cases reply with
        | ok answer => trivial
        | error fault => exact Request.makes_pardon
      · obtain ⟨-, rfl⟩ := Prod.mk.inj (hremove.symm.trans hafter)
        exact Or.inr (passes_done_iff.1 hin)

end Policy

/-! ### Requests of a connector -/

namespace Provisioning

variable {β : Type} {principal : ResourceId} {entitlement : String}

/-- The checks fail, or what is requested is done for the principal. -/
theorem checked_cases (principal : ResourceId) (entitlement : String)
    (next : Target → String → Request β) :
    (∃ fault, checked principal entitlement next = throw fault) ∨
      ∃ (through : Channel) (target : Target), through.target entitlement = .ok target ∧
        checked principal entitlement next = next target principal.resource := by
  cases hchannel : channel entitlement with
  | error fault =>
      refine Or.inl ⟨fault, ?_⟩
      unfold checked
      rw [hchannel]
      rfl
  | ok through =>
  have hrest : checked principal entitlement next =
      (ofOutcome (through.target entitlement) >>= fun target =>
        ofOutcome (principalArn principal) >>= fun arn => next target arn) := by
    unfold checked
    rw [hchannel]
    rfl
  cases htarget : through.target entitlement with
  | error fault =>
      refine Or.inl ⟨fault, ?_⟩
      rw [hrest, htarget]
      rfl
  | ok target =>
      rw [htarget] at hrest
      cases harn : principalArn principal with
      | error fault =>
          refine Or.inl ⟨fault, ?_⟩
          rw [hrest, harn]
          rfl
      | ok arn =>
          obtain ⟨-, rfl⟩ := principalArn_eq_ok harn
          refine Or.inr ⟨through, target, htarget, ?_⟩
          rw [hrest, harn]
          rfl

end Provisioning

namespace Connector

variable {connector : Connector} {action : Action} {principal : ResourceId} {entitlement : String}
  {start mid final : Upstream}

/-- A request about an entitlement, with the result of a grant or of a revoke. -/
def provision (connector : Connector) (action : Action) (principal : ResourceId)
    (entitlement : String) : Request Errand.Result :=
  match action with
  | .grant =>
    (connector.grant principal entitlement).request >>= fun result => pure (.granted result)
  | .revoke =>
    (connector.revoke principal entitlement).request >>= fun result => pure (.revoked result)

/-- If the request gives the principal a row in the mapping document, then the document has it
when it is read again, if it can be. -/
def RowReadsBack (action : Action) (principal : ResourceId) (entitlement : String)
    (up : Upstream) : Prop :=
  action = .grant → ∀ role scope, Provisioning.Names entitlement (.membership role scope) →
    ∀ document, up.plane.awsAuth = some document →
      document.findUsername? principal.resource = none → document.KeepsRow principal.resource

/-- Every request about an entitlement converges. -/
theorem converges_provision (hback : RowReadsBack action principal entitlement start) :
    Converges (connector.provision action principal entitlement) start := by
  cases action with
  | grant =>
      unfold provision
      rw [request_grant]
      rcases Provisioning.checked_cases principal entitlement
          fun target arn => target.grant arn with
        ⟨fault, hchecked⟩ | ⟨through, target, htarget, hchecked⟩
      · rw [hchecked]
        exact ((resumes_of_throw fault).map Errand.Result.granted).converges
      rw [hchecked]
      cases target with
      | membership role scope =>
          refine Errand.converges_request (e := ⟨.grant, principal.resource, role, scope⟩) ?_
          intro haction hadmits
          refine hback haction role scope (Provisioning.names_of_target htarget ?_)
          intro role' scope' heq
          cases heq
          exact hadmits
      | policy arn scope =>
          have hresumes := Policy.resumes_grant principal.resource arn scope start
          exact (hresumes.map Errand.Result.granted).converges
  | revoke =>
      unfold provision
      rw [request_revoke]
      rcases Provisioning.checked_cases principal entitlement
        fun target arn => target.revoke arn with ⟨fault, hchecked⟩ | ⟨-, target, -, hchecked⟩
      · rw [hchecked]
        exact ((resumes_of_throw fault).map Errand.Result.revoked).converges
      rw [hchecked]
      cases target with
      | membership role scope =>
          refine Errand.converges_request (e := ⟨.revoke, principal.resource, role, scope⟩) ?_
          intro haction
          cases haction
      | policy arn scope =>
          have hresumes := Policy.resumes_revoke principal.resource arn scope start
          exact (hresumes.map Errand.Result.revoked).converges

/-- **Interrupted requests converge.**  Say a request about an entitlement is cut short any number
of times, each time at any of its calls, which may have taken effect or not, and then succeeds,
and nobody else writes.  Then it would have succeeded at once, and all it leaves is the same. -/
theorem converges_of_retried {result : Errand.Result}
    (hback : RowReadsBack action principal entitlement start)
    (hretried : Retried (connector.provision action principal entitlement) start mid)
    (hlast : carry mid (connector.provision action principal entitlement) =
      (some (.ok result), final)) :
    ∃ first, carry start (connector.provision action principal entitlement) =
      (some (.ok first), final) :=
  converges_provision hback mid result final hretried hlast

/-- The grant of the cluster role view to alice. -/
def grantView : Request Errand.Result :=
  prod.provision .grant alice "cluster_role:view:assigned:cluster"

/-- An upstream with an empty mapping document and without bindings. -/
def emptyUpstream : Upstream := ⟨{}, .empty⟩

/-- The first attempt ends with the row of alice, and the second one before its first call. -/
theorem retried_grantView : ∃ mid, Retried grantView emptyUpstream mid ∧
    (carry mid grantView).1 = some (.ok (.granted .applied)) :=
  ⟨_, .again (.again .never (.answered (.landed _ _ _))) (.lost _ _ _), by decide +kernel⟩

/-- What alice is granted in three attempts she is granted in one, and all that is left is the
same. -/
theorem converges_grantView : ∃ mid final, Retried grantView emptyUpstream mid ∧
    carry mid grantView = (some (.ok (.granted .applied)), final) ∧
    ∃ first, carry emptyUpstream grantView = (some (.ok first), final) := by
  obtain ⟨mid, hretried, hlast⟩ := retried_grantView
  have hcarry : carry mid grantView =
      (some (.ok (.granted .applied)), (carry mid grantView).2) := Prod.ext hlast rfl
  have hback : RowReadsBack .grant alice "cluster_role:view:assigned:cluster" emptyUpstream := by
    intro _ role scope _ document hdocument hfind
    obtain rfl := Option.some.inj hdocument
    exact AwsAuth.keepsRow_of_readsBack hfind readsBack_alice
  exact ⟨mid, _, hretried, hcarry, converges_of_retried hback hretried hcarry⟩

end Connector

end ClusterAccess
