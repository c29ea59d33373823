/-
What a grant or a revoke of a policy asks the registry for.

A grant makes sure that there is an access entry.  Then a request of either kind reads the
associations of its principal, once, and works out from that reading what it writes, if it
writes at all.  What is said here holds whoever replies.

  * The call that is due is one of these, about the pair of the request, and what it writes
    is the change that its reading comes down to (`Due`).
  * A grant that succeeds has read that its scope is covered, or has written so (`Shows`).
-/
import ClusterAccess.Proofs.History
import ClusterAccess.Proofs.PolicyScopes

namespace ClusterAccess.Policy

open Program (After History)
open Request

variable {principal policy : String} {requested place : Scope} {held : Option PolicyScope}
  {history : History Call Call.Reply}

/-! ### The reading -/

/-- What a call and its reply tell about the scope of a pair. -/
inductive Reading (principal policy : String) :
    (call : Call) × call.Reply → Option PolicyScope → Prop
  | listed (policies : List Association) :
      Reading principal policy ⟨.associatedPolicies principal, .ok policies⟩
        (ControlPlane.scopeIn policies policy)
  /-- The principal has no access entry. -/
  | missing {fault : Fault} (h : fault.isNotFound = true) :
      Reading principal policy ⟨.associatedPolicies principal, .error fault⟩ none

theorem makes_scopeOf :
    (scopeOf principal policy).run.Makes (· = .associatedPolicies principal) := by
  unfold scopeOf
  refine makes_bind ⟨rfl, fun _ => trivial⟩ fun reply => ?_
  cases reply with
  | ok policies => trivial
  | error fault => exact makes_pardon

theorem scopeOf_ok (h : After (scopeOf principal policy).run history (.done (.ok held))) :
    ∃ event, history = [event] ∧ Reading principal policy event held := by
  unfold scopeOf at h
  obtain ⟨reply, before, rest, rfl, hattempt, hend⟩ := after_bind_ok_iff.1 h
  obtain ⟨attempted, heq, hsend⟩ := after_attempt_done_iff.1 hattempt
  obtain rfl := Except.ok.inj heq
  obtain rfl := after_send_done_iff.1 hsend
  cases reply with
  | ok policies =>
      obtain ⟨rfl, hheld⟩ := after_pure_iff.1 hend
      cases hheld
      exact ⟨_, rfl, .listed policies⟩
  | error fault =>
      by_cases hfault : fault.isNotFound = true
      · simp only [hfault, if_true] at hend
        obtain ⟨rfl, hheld⟩ := after_pure_iff.1 hend
        cases hheld
        exact ⟨_, rfl, .missing hfault⟩
      · simp only [hfault] at hend
        cases (Program.after_done_iff.1 hend).2

/-- A request that goes by the scope has its reading due first. -/
theorem after_scopeOf_call {β : Type} {f : Option PolicyScope → Request β} {call : Call}
    {next : call.Reply → Program Call Call.Reply (Outcome β)}
    (h : After (scopeOf principal policy >>= f).run history (.call call next)) :
    call = .associatedPolicies principal ∨ ∃ event held rest, history = event :: rest ∧
      Reading principal policy event held ∧ After (f held).run rest (.call call next) := by
  rcases Request.after_bind_call h with ⟨_, hread⟩ | ⟨held, before, rest, rfl, hread, hrest⟩
  · exact Or.inl (makes_scopeOf.call hread)
  · obtain ⟨event, rfl, hreading⟩ := scopeOf_ok hread
    exact Or.inr ⟨event, held, rest, rfl, hreading, hrest⟩

/-! ### The entry -/

theorem makes_ensureEntry :
    (ensureEntry principal).run.Makes (· = .createAccessEntry principal) := by
  unfold ensureEntry
  refine makes_bind ⟨rfl, fun _ => trivial⟩ fun reply => ?_
  cases reply with
  | ok answer => trivial
  | error fault => exact makes_pardon

/-! ### What comes of the reading -/

/-- What a wish comes down to, given the scope of the association. -/
def Wish.change (wish : Wish) (held : Option PolicyScope) : Change :=
  match wish with
  | .grant scope => grantChange held scope
  | .revoke scope => revokeChange held scope

/-- The calls that a request may have due. -/
inductive Due (c : Command) (history : History Call Call.Reply) : Call → Prop
  | entry {scope : Scope} (hwish : c.wish = .grant scope) :
      Due c history (.createAccessEntry c.principal)
  | reading : Due c history (.associatedPolicies c.principal)
  | associate {event : (call : Call) × call.Reply} {held : Option PolicyScope}
      {scope : PolicyScope} (hevent : event ∈ history)
      (hread : Reading c.principal c.policy event held)
      (hchange : c.wish.change held = .associate scope) :
      Due c history (.associatePolicy c.principal c.policy scope)
  | disassociate {scope : Scope} (hwish : c.wish = .revoke scope) :
      Due c history (.disassociatePolicy c.principal c.policy)

variable {c : Command} {call : Call}

/-- A longer history gives a request more to go by. -/
theorem Due.append (h : Due c history call) (earlier : History Call Call.Reply) :
    Due c (earlier ++ history) call := by
  cases h with
  | entry hwish => exact .entry hwish
  | reading => exact .reading
  | associate hevent hread hchange =>
      exact .associate (List.mem_append_right _ hevent) hread hchange
  | disassociate hwish => exact .disassociate hwish

theorem makes_disassociate :
    (disassociate principal policy).run.Makes (· = .disassociatePolicy principal policy) := by
  unfold disassociate
  refine makes_bind ⟨rfl, fun _ => trivial⟩ fun reply => ?_
  cases reply with
  | ok answer => trivial
  | error fault => exact makes_pardon

theorem grantRest_call {next : call.Reply → Program Call Call.Reply (Outcome GrantResult)}
    (hwish : c.wish = .grant requested)
    (h : After (grantRest c.principal c.policy requested).run history (.call call next)) :
    Due c history call := by
  unfold grantRest at h
  rcases after_scopeOf_call h with rfl | ⟨event, held, rest, rfl, hreading, hwrite⟩
  · exact .reading
  have hwished : c.wish.change held = grantChange held requested := by
    rw [hwish]
    rfl
  cases hchange : grantChange held requested with
  | associate scope =>
      simp only [hchange] at hwrite
      obtain ⟨_, hsend⟩ := after_bind_pure_call hwrite
      obtain ⟨rfl, rfl⟩ := after_send_call hsend
      exact .associate (by simp) hreading (hwished.trans hchange)
  | _ =>
      simp only [hchange] at hwrite
      cases (Program.after_done_iff.1 hwrite).2

theorem revoke_call {next : call.Reply → Program Call Call.Reply (Outcome RevokeResult)}
    (hwish : c.wish = .revoke requested)
    (h : After (revoke c.principal c.policy requested).run history (.call call next)) :
    Due c history call := by
  unfold revoke at h
  rcases after_scopeOf_call h with rfl | ⟨event, held, rest, rfl, hreading, hwrite⟩
  · exact .reading
  have hwished : c.wish.change held = revokeChange held requested := by
    rw [hwish]
    rfl
  cases hchange : revokeChange held requested with
  | associate scope =>
      simp only [hchange] at hwrite
      obtain ⟨_, hsend⟩ := after_bind_pure_call hwrite
      obtain ⟨rfl, rfl⟩ := after_send_call hsend
      exact .associate (by simp) hreading (hwished.trans hchange)
  | disassociate =>
      simp only [hchange] at hwrite
      obtain ⟨_, hdrop⟩ := after_bind_pure_call hwrite
      rw [makes_disassociate.call hdrop]
      exact .disassociate hwish
  | _ =>
      simp only [hchange] at hwrite
      cases (Program.after_done_iff.1 hwrite).2

theorem grant_of_unsupported (h : Arn.isUserOrRole principal = false) :
    grant principal policy requested = throw (AwsAuth.unsupportedPrincipal principal) := by
  unfold grant
  rw [h]
  rfl

theorem grant_call {next : call.Reply → Program Call Call.Reply (Outcome GrantResult)}
    (hwish : c.wish = .grant requested)
    (h : After (grant c.principal c.policy requested).run history (.call call next)) :
    Due c history call := by
  by_cases hprincipal : Arn.isUserOrRole c.principal = true
  · rw [grant_eq hprincipal] at h
    rcases Request.after_bind_call h with ⟨_, hentry⟩ | ⟨_, before, rest, rfl, -, hrest⟩
    · rw [makes_ensureEntry.call hentry]
      exact .entry hwish
    · exact (grantRest_call hwish hrest).append before
  · rw [grant_of_unsupported (by simpa using hprincipal)] at h
    cases (Program.after_done_iff.1 h).2

/-- **What is due is about the pair, and is written from what was read.** -/
theorem due_of_after {next : call.Reply → Program Call Call.Reply (Outcome Result)}
    (h : After c.request.run history (.call call next)) : Due c history call := by
  unfold Command.request at h
  cases hwish : c.wish with
  | grant scope =>
      simp only [hwish] at h
      obtain ⟨_, hgrant⟩ := after_bind_pure_call h
      exact grant_call hwish hgrant
  | revoke scope =>
      simp only [hwish] at h
      obtain ⟨_, hrevoke⟩ := after_bind_pure_call h
      exact revoke_call hwish hrevoke

/-! ### Grants that succeed -/

/-- What is written for a grant covers what was asked for. -/
theorem covers_of_grantChange {scope : PolicyScope}
    (h : grantChange held requested = .associate scope) : Covers (some scope) requested := by
  unfold grantChange at h
  split at h
  · cases h
    trivial
  · cases h
    exact List.mem_singleton_self _
  · cases h
  · split at h
    · cases h
    · cases h
      exact List.mem_append_right _ (List.mem_singleton_self _)
  · cases h
    trivial

/-- What needs no write is covered. -/
theorem covers_of_grantChange_nothing (h : grantChange held requested = .nothing) :
    Covers held requested := by
  unfold grantChange at h
  split at h
  · cases h
  · cases h
  · cases h
  · split at h
    case isTrue hin => exact hin
    case isFalse => cases h
  · cases h

/-- What is written for a grant covers what was read. -/
theorem covers_grantChange_of_covers {scope : PolicyScope}
    (h : grantChange held requested = .associate scope) (hcovers : Covers held place) :
    Covers (some scope) place := by
  unfold grantChange at h
  split at h
  · exact hcovers.elim
  · exact hcovers.elim
  · cases h
  · split at h
    · cases h
    · cases h
      cases place with
      | cluster => exact hcovers
      | inNamespace ns => exact List.mem_append_left _ hcovers
  · cases h
    cases place <;> trivial

theorem grantChange_ne_disassociate : grantChange held requested ≠ .disassociate := by
  unfold grantChange
  split
  · simp
  · simp
  · simp
  · split <;> simp
  · simp

/-- A call and its reply that show that a pair covers a place: it was read, or it was written. -/
inductive Shows (principal policy : String) (place : Scope) : (call : Call) × call.Reply → Prop
  | read {event : (call : Call) × call.Reply} {held : Option PolicyScope}
      (hread : Reading principal policy event held) (hcovers : Covers held place) :
      Shows principal policy place event
  | written {scope : PolicyScope} (hcovers : Covers (some scope) place) :
      Shows principal policy place ⟨.associatePolicy principal policy scope, .ok ()⟩

theorem grantRest_ok {result : GrantResult}
    (h : After (grantRest principal policy requested).run history (.done (.ok result))) :
    ∃ event ∈ history, Shows principal policy requested event := by
  unfold grantRest at h
  obtain ⟨held, before, rest, rfl, hread, hwrite⟩ := after_bind_ok_iff.1 h
  obtain ⟨event, rfl, hreading⟩ := scopeOf_ok hread
  cases hchange : grantChange held requested with
  | associate scope =>
      simp only [hchange] at hwrite
      obtain ⟨_, sent, last, rfl, hsend, -⟩ := after_bind_ok_iff.1 hwrite
      obtain rfl := after_send_done_iff.1 hsend
      refine ⟨_, List.mem_append_right _ (List.mem_append_left _ ?_),
        .written (covers_of_grantChange hchange)⟩
      exact List.mem_singleton_self _
  | nothing => exact ⟨event, by simp, .read hreading (covers_of_grantChange_nothing hchange)⟩
  | disassociate => exact absurd hchange grantChange_ne_disassociate
  | conflict =>
      simp only [hchange] at hwrite
      cases (Program.after_done_iff.1 hwrite).2

/-- **A grant that succeeded has shown that its scope is covered.** -/
theorem shows_of_granted {result : Result} (hwish : c.wish = .grant requested)
    (h : After c.request.run history (.done (.ok result))) :
    ∃ event ∈ history, Shows c.principal c.policy requested event := by
  unfold Command.request at h
  simp only [hwish] at h
  obtain ⟨_, before, rest, rfl, hgrant, -⟩ := after_bind_ok_iff.1 h
  by_cases hprincipal : Arn.isUserOrRole c.principal = true
  · rw [grant_eq hprincipal] at hgrant
    obtain ⟨_, entry, mid, rfl, -, hrest⟩ := after_bind_ok_iff.1 hgrant
    obtain ⟨event, hevent, hshows⟩ := grantRest_ok hrest
    exact ⟨event, by simp [hevent], hshows⟩
  · rw [grant_of_unsupported (by simpa using hprincipal)] at hgrant
    cases (Program.after_done_iff.1 hgrant).2

end ClusterAccess.Policy
