/-
Grants and revokes of policies, as moves of one scope.

To the pair of a principal and a policy a registry gives one scope or none, and a request
about the pair moves it by a small table (`ScopeStep`).  A grant of the cluster supersedes
whatever was held, a grant of a namespace adds it to the list, a revoke of a namespace takes
it out and the association with the last one, and a request about a namespace is refused
while the association is for the whole cluster.

The code gets there by reading the association and writing all of it anew.  What is shown is
that this amounts to the table, in every state that requests can lead to, and that nothing
else is touched: `Obeys` says so of one request, and `works` proves it of every request on
every registry in shape, which is then in shape again.  That a grant never narrows and a
revoke never widens is read off the table.
-/
import ClusterAccess.Proofs.PolicyRegistry

namespace ClusterAccess.Policy

open World (carry carry_bind_ok carry_bind_error)

/-- What a request wants for its pair. -/
inductive Wish where
  | grant (scope : Scope)
  | revoke (scope : Scope)
  deriving DecidableEq, Repr

/-- A request about the pair of a principal and a policy. -/
structure Command where
  principal : String
  policy : String
  wish : Wish
  deriving DecidableEq, Repr

/-- The result of a request that succeeded. -/
inductive Result where
  | granted (result : GrantResult)
  | revoked (result : RevokeResult)
  deriving DecidableEq, Repr

/-- What the request runs. -/
def Command.request (c : Command) : Request Result :=
  match c.wish with
  | .grant scope => grant c.principal c.policy scope >>= fun result => pure (.granted result)
  | .revoke scope => revoke c.principal c.policy scope >>= fun result => pure (.revoked result)

/-! ### The table -/

/-- How a request moves the scope of its pair, and what it answers. -/
inductive ScopeStep (c : Command) :
    Option PolicyScope → Outcome Result → Option PolicyScope → Prop
  /-- Nobody but users and roles can be granted a policy. -/
  | unsupported {held : Option PolicyScope} {scope : Scope} (h : c.wish = .grant scope)
      (hprincipal : Arn.isUserOrRole c.principal = false) :
      ScopeStep c held (.error (AwsAuth.unsupportedPrincipal c.principal)) held
  | clusterGranted {held : Option PolicyScope} (h : c.wish = .grant .cluster) :
      ScopeStep c held (.ok (.granted .applied)) (some .cluster)
  | firstGranted {ns : String} (h : c.wish = .grant (.inNamespace ns)) :
      ScopeStep c none (.ok (.granted .applied)) (some (.namespaces [ns]))
  | added {ns : String} {names : List String} (h : c.wish = .grant (.inNamespace ns))
      (hnew : ns ∉ names) :
      ScopeStep c (some (.namespaces names)) (.ok (.granted .applied))
        (some (.namespaces (names ++ [ns])))
  | held {ns : String} {names : List String} (h : c.wish = .grant (.inNamespace ns))
      (hheld : ns ∈ names) :
      ScopeStep c (some (.namespaces names)) (.ok (.granted .alreadySatisfied))
        (some (.namespaces names))
  | grantConflict {ns : String} (h : c.wish = .grant (.inNamespace ns)) :
      ScopeStep c (some .cluster)
        (.error (.scopeConflict c.principal c.policy
          ("cannot grant namespace " ++ ns ++ ": policy is already associated at cluster scope")))
        (some .cluster)
  | clusterRevoked (h : c.wish = .revoke .cluster) :
      ScopeStep c (some .cluster) (.ok (.revoked .applied)) none
  /-- The namespaces are not the cluster, and stay. -/
  | clusterAbsent {names : List String} (h : c.wish = .revoke .cluster) :
      ScopeStep c (some (.namespaces names)) (.ok (.revoked .alreadyRevoked))
        (some (.namespaces names))
  | absent {scope : Scope} (h : c.wish = .revoke scope) :
      ScopeStep c none (.ok (.revoked .alreadyRevoked)) none
  | otherAbsent {ns : String} {names : List String} (h : c.wish = .revoke (.inNamespace ns))
      (hnot : ns ∉ names) :
      ScopeStep c (some (.namespaces names)) (.ok (.revoked .alreadyRevoked))
        (some (.namespaces names))
  | removed {ns : String} {names : List String} (h : c.wish = .revoke (.inNamespace ns))
      (hheld : ns ∈ names) (hrest : names ≠ [ns]) :
      ScopeStep c (some (.namespaces names)) (.ok (.revoked .applied))
        (some (.namespaces (names.filter (· ≠ ns))))
  | lastRemoved {ns : String} (h : c.wish = .revoke (.inNamespace ns)) :
      ScopeStep c (some (.namespaces [ns])) (.ok (.revoked .applied)) none
  | revokeConflict {ns : String} (h : c.wish = .revoke (.inNamespace ns)) :
      ScopeStep c (some .cluster)
        (.error (.scopeConflict c.principal c.policy
          ("cannot revoke namespace " ++ ns ++ ": policy is associated at cluster scope")))
        (some .cluster)

/-- Does an association at the scope, if there is one, cover a place? -/
def Covers (held : Option PolicyScope) (place : Scope) : Prop :=
  match held, place with
  | none, _ => False
  | some .cluster, _ => True
  | some (.namespaces names), .inNamespace ns => ns ∈ names
  | some (.namespaces _), .cluster => False

variable {c : Command} {held after : Option PolicyScope} {outcome : Outcome Result}
  {scope place : Scope}

/-- No grant narrows what its pair covers. -/
theorem ScopeStep.covers_of_grant (h : ScopeStep c held outcome after)
    (hwish : c.wish = .grant scope) (hcovers : Covers held place) : Covers after place := by
  cases h with
  | unsupported => exact hcovers
  | clusterGranted => trivial
  | firstGranted => exact hcovers.elim
  | added h hnew =>
      cases place with
      | cluster => exact hcovers
      | inNamespace ns => exact List.mem_append_left _ hcovers
  | held => exact hcovers
  | grantConflict => exact hcovers
  | _ h =>
      rw [h] at hwish
      cases hwish

/-- No revoke widens what its pair covers. -/
theorem ScopeStep.covers_of_revoke (h : ScopeStep c held outcome after)
    (hwish : c.wish = .revoke scope) (hcovers : Covers after place) : Covers held place := by
  cases h with
  | clusterRevoked => exact hcovers.elim
  | clusterAbsent => exact hcovers
  | absent => exact hcovers
  | otherAbsent => exact hcovers
  | removed h hheld hrest =>
      cases place with
      | cluster => exact hcovers
      | inNamespace ns => exact (List.mem_filter.1 hcovers).1
  | lastRemoved => exact hcovers.elim
  | revokeConflict => exact hcovers
  | _ h =>
      rw [h] at hwish
      cases hwish

/-! ### What the requests do to a registry -/

variable {plane : ControlPlane} {principal policy : String} {requested : Scope}

/-- What a grant does once there is an access entry. -/
def grantRest (principal policy : String) (requested : Scope) : Request GrantResult := do
  match grantChange (← scopeOf principal policy) requested with
  | .associate scope =>
    send (.associatePolicy principal policy scope)
    pure .applied
  | .conflict => throw (conflict principal policy requested true)
  | _ => pure .alreadySatisfied

theorem grant_eq (h : Arn.isUserOrRole principal = true) :
    grant principal policy requested =
      (ensureEntry principal >>= fun _ => grantRest principal policy requested) := by
  unfold grant
  rw [h]
  rfl

theorem carry_grant (plane : ControlPlane) (policy : String) (requested : Scope)
    (h : Arn.isUserOrRole principal = true) :
    carry plane (grant principal policy requested) =
      match grantChange (plane.scopeAt principal policy) requested with
      | .associate scope =>
        (some (.ok .applied), (plane.withEntry principal).associate principal policy scope)
      | .conflict =>
        (some (.error (conflict principal policy requested true)), plane.withEntry principal)
      | _ => (some (.ok .alreadySatisfied), plane.withEntry principal) := by
  have hlookup := ControlPlane.carry_scopeOf policy
    fun _ => ControlPlane.entry?_withEntry plane principal
  rw [ControlPlane.scopeAt_withEntry] at hlookup
  rw [grant_eq h, carry_bind_ok ControlPlane.carry_ensureEntry, grantRest,
    carry_bind_ok hlookup]
  cases grantChange (plane.scopeAt principal policy) requested with
  | associate scope => rfl
  | nothing => rfl
  | disassociate => rfl
  | conflict => rfl

theorem carry_revoke (principal policy : String) (requested : Scope) (hshape : plane.Shaped) :
    carry plane (revoke principal policy requested) =
      match revokeChange (plane.scopeAt principal policy) requested with
      | .associate scope => (some (.ok .applied), plane.associate principal policy scope)
      | .disassociate => (some (.ok .applied), plane.disassociate principal policy)
      | .conflict => (some (.error (conflict principal policy requested false)), plane)
      | .nothing => (some (.ok .alreadyRevoked), plane) := by
  have hlookup := ControlPlane.carry_scopeOf policy (hshape.entry principal)
  rw [revoke, carry_bind_ok hlookup]
  cases revokeChange (plane.scopeAt principal policy) requested with
  | associate scope => rfl
  | nothing => rfl
  | disassociate => rfl
  | conflict => rfl

theorem carry_request_of_grant {outcome : Outcome GrantResult} {after : ControlPlane}
    (hwish : c.wish = .grant requested)
    (h : carry plane (grant c.principal c.policy requested) = (some outcome, after)) :
    carry plane c.request = (some (outcome.map .granted), after) := by
  rw [Command.request, hwish]
  cases outcome with
  | ok result => exact carry_bind_ok h
  | error fault => exact carry_bind_error h

theorem carry_request_of_revoke {outcome : Outcome RevokeResult} {after : ControlPlane}
    (hwish : c.wish = .revoke requested)
    (h : carry plane (revoke c.principal c.policy requested) = (some outcome, after)) :
    carry plane c.request = (some (outcome.map .revoked), after) := by
  rw [Command.request, hwish]
  cases outcome with
  | ok result => exact carry_bind_ok h
  | error fault => exact carry_bind_error h

/-- What a request does to the registry. -/
structure Obeys (before : ControlPlane) (c : Command) (outcome : Outcome Result)
    (after : ControlPlane) : Prop where
  shaped : after.Shaped
  /-- The scope of the pair moves by the table. -/
  moves : ScopeStep c (before.scopeAt c.principal c.policy) outcome
    (after.scopeAt c.principal c.policy)
  /-- Every other pair has the scope that it had. -/
  others : ∀ principal policy, ¬(principal = c.principal ∧ policy = c.policy) →
    after.scopeAt principal policy = before.scopeAt principal policy
  /-- A request that fails leaves the registry as it was. -/
  refused : outcome.isOk = false → after = before
  /-- A request that succeeded succeeds again, and leaves the registry as it is. -/
  again : outcome.isOk = true →
    ∃ second, carry after c.request = (some second, after) ∧ second.isOk = true
  widens : (∃ scope, c.wish = .grant scope) → ∀ place,
    Covers (before.scopeAt c.principal c.policy) place →
      Covers (after.scopeAt c.principal c.policy) place
  narrows : (∃ scope, c.wish = .revoke scope) → ∀ place,
    Covers (after.scopeAt c.principal c.policy) place →
      Covers (before.scopeAt c.principal c.policy) place

/-- The request is carried out, and does what it is to do. -/
def Works (plane : ControlPlane) (c : Command) : Prop :=
  ∃ outcome after, carry plane c.request = (some outcome, after) ∧ Obeys plane c outcome after

namespace Obeys

variable {after : ControlPlane}

/-- What a request covers follows from how it moves the scope. -/
theorem of_moves {outcome : Outcome Result} (hshape : after.Shaped)
    (hmoves : ScopeStep c (plane.scopeAt c.principal c.policy) outcome
      (after.scopeAt c.principal c.policy))
    (hothers : ∀ principal policy, ¬(principal = c.principal ∧ policy = c.policy) →
      after.scopeAt principal policy = plane.scopeAt principal policy)
    (hrefused : outcome.isOk = false → after = plane)
    (hagain : outcome.isOk = true →
      ∃ second, carry after c.request = (some second, after) ∧ second.isOk = true) :
    Obeys plane c outcome after where
  shaped := hshape
  moves := hmoves
  others := hothers
  refused := hrefused
  again := hagain
  widens hwish place hcovers := by
    obtain ⟨scope, hwish⟩ := hwish
    exact hmoves.covers_of_grant hwish hcovers
  narrows hwish place hcovers := by
    obtain ⟨scope, hwish⟩ := hwish
    exact hmoves.covers_of_revoke hwish hcovers

/-- A request that leaves the registry as it is needs only its row of the table. -/
theorem of_same {outcome : Outcome Result} (h : plane.Shaped)
    (hmoves : ScopeStep c (plane.scopeAt c.principal c.policy) outcome
      (plane.scopeAt c.principal c.policy))
    (hcarry : carry plane c.request = (some outcome, plane)) : Obeys plane c outcome plane :=
  of_moves h hmoves (fun _ _ _ => rfl) (fun _ => rfl) fun hok => ⟨outcome, hcarry, hok⟩

end Obeys

/-! ### Grants -/

section Grant

variable (h : plane.Shaped) (hprincipal : Arn.isUserOrRole c.principal = true)
  (hwish : c.wish = .grant requested)

include h hprincipal hwish

omit hprincipal in
/-- A grant that finds the namespace, or the cluster in its way, writes nothing. -/
theorem works_of_grant_same {outcome : Outcome GrantResult}
    (hheld : plane.scopeAt c.principal c.policy ≠ none)
    (hcarry : carry plane (grant c.principal c.policy requested) =
      (some outcome, plane.withEntry c.principal))
    (hmoves : ScopeStep c (plane.scopeAt c.principal c.policy) (outcome.map .granted)
      (plane.scopeAt c.principal c.policy)) : Works plane c := by
  rw [ControlPlane.withEntry_of_entry (h.entry_of_scopeAt hheld)] at hcarry
  have hrequest := carry_request_of_grant hwish hcarry
  exact ⟨_, _, hrequest, .of_same h hmoves hrequest⟩

/-- A grant that writes finds what it has written, or writes the same again. -/
theorem works_of_grant_associate (result : PolicyScope)
    (hchange : grantChange (plane.scopeAt c.principal c.policy) requested = .associate result)
    (hresult : result.WellFormed)
    (hmoves : ScopeStep c (plane.scopeAt c.principal c.policy) (.ok (.granted .applied))
      (some result))
    (hagain : grantChange (some result) requested = .nothing ∨
      grantChange (some result) requested = .associate result) : Works plane c := by
  have hcarry := carry_grant plane c.policy requested hprincipal
  simp only [hchange] at hcarry
  have hentry := ControlPlane.entry?_withEntry plane c.principal
  have hshape := (h.withEntry c.principal).associate c.policy hentry hresult
  have hscope : ((plane.withEntry c.principal).associate c.principal c.policy result).scopeAt
      c.principal c.policy = some result := by
    rw [ControlPlane.scopeAt_associate, if_pos ⟨rfl, rfl⟩]
  refine ⟨_, _, carry_request_of_grant hwish hcarry, .of_moves hshape ?_ ?_ ?_ ?_⟩
  · rw [hscope]
    exact hmoves
  · intro principal policy hother
    rw [ControlPlane.scopeAt_associate, if_neg hother, ControlPlane.scopeAt_withEntry]
  · intro hok
    cases hok
  · intro _
    have hthere := hshape.entry_of_scopeAt (by rw [hscope]; exact Option.some_ne_none _)
    have hsecond := carry_grant
      ((plane.withEntry c.principal).associate c.principal c.policy result) c.policy requested
      hprincipal
    rw [hscope, ControlPlane.withEntry_of_entry hthere] at hsecond
    rcases hagain with hnothing | hassociate
    · simp only [hnothing] at hsecond
      exact ⟨_, carry_request_of_grant hwish hsecond, rfl⟩
    · simp only [hassociate, ControlPlane.associate_associate] at hsecond
      exact ⟨_, carry_request_of_grant hwish hsecond, rfl⟩

end Grant

/-- A grant of the cluster takes the place of whatever was held. -/
theorem works_of_grant_cluster (h : plane.Shaped) (hprincipal : Arn.isUserOrRole c.principal = true)
    (hwish : c.wish = .grant .cluster) : Works plane c := by
  refine works_of_grant_associate h hprincipal hwish .cluster ?_ trivial
    (.clusterGranted hwish) (Or.inr rfl)
  cases plane.scopeAt c.principal c.policy with
  | none => rfl
  | some held => cases held <;> rfl

/-- A grant of a namespace is added to those that are held. -/
theorem works_of_grant_namespaces (h : plane.Shaped)
    (hprincipal : Arn.isUserOrRole c.principal = true) {ns : String} {names : List String}
    (hwish : c.wish = .grant (.inNamespace ns))
    (hheld : plane.scopeAt c.principal c.policy = some (.namespaces names)) : Works plane c := by
  have hsome : plane.scopeAt c.principal c.policy ≠ none := by
    rw [hheld]
    exact Option.some_ne_none _
  have hwell := h.scopeAt_wellFormed hheld
  have hcarry := carry_grant plane c.policy (.inNamespace ns) hprincipal
  by_cases hin : ns ∈ names
  · have hchange : grantChange (plane.scopeAt c.principal c.policy) (.inNamespace ns) =
        .nothing := by simp [hheld, grantChange, hin]
    simp only [hchange] at hcarry
    refine works_of_grant_same h hwish hsome hcarry ?_
    rw [hheld]
    exact .held hwish hin
  · have hchange : grantChange (plane.scopeAt c.principal c.policy) (.inNamespace ns) =
        .associate (.namespaces (names ++ [ns])) := by simp [hheld, grantChange, hin]
    have hnodup : (names ++ [ns]).Nodup := by
      rw [List.nodup_append]
      refine ⟨hwell.2, by simp, ?_⟩
      intro name hname other hother heq
      rw [heq, List.mem_singleton.1 hother] at hname
      exact hin hname
    refine works_of_grant_associate h hprincipal hwish (.namespaces (names ++ [ns])) hchange
      ⟨by simp, hnodup⟩ ?_ (Or.inl (by simp [grantChange]))
    rw [hheld]
    exact .added hwish hin

theorem works_of_grant_namespace (h : plane.Shaped)
    (hprincipal : Arn.isUserOrRole c.principal = true) {ns : String}
    (hwish : c.wish = .grant (.inNamespace ns)) : Works plane c := by
  cases hheld : plane.scopeAt c.principal c.policy with
  | none =>
      refine works_of_grant_associate h hprincipal hwish (.namespaces [ns])
        (by rw [hheld]; rfl) ⟨by simp, by simp⟩ ?_ (Or.inl (by simp [grantChange]))
      rw [hheld]
      exact .firstGranted hwish
  | some held =>
      cases held with
      | cluster =>
          have hcarry := carry_grant plane c.policy (.inNamespace ns) hprincipal
          rw [hheld] at hcarry
          refine works_of_grant_same h hwish (by rw [hheld]; exact Option.some_ne_none _) hcarry ?_
          rw [hheld]
          exact .grantConflict hwish
      | namespaces names => exact works_of_grant_namespaces h hprincipal hwish hheld

/-- **A grant works.** -/
theorem works_of_grant (h : plane.Shaped) (hwish : c.wish = .grant requested) : Works plane c := by
  by_cases hprincipal : Arn.isUserOrRole c.principal = true
  · cases requested with
    | cluster => exact works_of_grant_cluster h hprincipal hwish
    | inNamespace ns => exact works_of_grant_namespace h hprincipal hwish
  · have hfalse : Arn.isUserOrRole c.principal = false := by simpa using hprincipal
    have hgrant : grant c.principal c.policy requested =
        throw (AwsAuth.unsupportedPrincipal c.principal) := by
      unfold grant
      rw [hfalse]
      rfl
    have hcarry : carry plane (grant c.principal c.policy requested) =
        (some (.error (AwsAuth.unsupportedPrincipal c.principal)), plane) := by
      rw [hgrant]
      rfl
    have hrequest := carry_request_of_grant hwish hcarry
    exact ⟨_, _, hrequest, .of_same h (.unsupported hwish hfalse) hrequest⟩

/-! ### Revokes -/

/-- Unless the namespace is the only one, others are left. -/
theorem filter_ne_nil {ns : String} {names : List String} (hnodup : names.Nodup)
    (hin : ns ∈ names) (hne : names ≠ [ns]) : names.filter (· ≠ ns) ≠ [] := by
  intro hnil
  have hall : ∀ name ∈ names, name = ns := by
    simpa [List.filter_eq_nil_iff] using hnil
  cases names with
  | nil => cases hin
  | cons first rest =>
      have hfirst := hall first List.mem_cons_self
      cases rest with
      | nil => exact hne (by rw [hfirst])
      | cons second rest =>
          have hsecond := hall second (List.mem_cons_of_mem _ List.mem_cons_self)
          have hnot := (List.nodup_cons.1 hnodup).1
          rw [hfirst, hsecond] at hnot
          exact hnot List.mem_cons_self

theorem revokeChange_of_rest {ns : String} {names : List String} (hin : ns ∈ names)
    (hrest : names.filter (· ≠ ns) ≠ []) :
    revokeChange (some (.namespaces names)) (.inNamespace ns) =
      .associate (.namespaces (names.filter (· ≠ ns))) := by
  unfold revokeChange
  cases hleft : names.filter (· ≠ ns) with
  | nil => exact absurd hleft hrest
  | cons first rest =>
      have hthere : ¬ns ∉ names := fun hnot => hnot hin
      simp only [if_neg hthere, hleft]

section Revoke

variable (h : plane.Shaped) (hwish : c.wish = .revoke requested)

include h hwish

/-- A revoke that finds nothing to take away, or the cluster in its way, writes nothing. -/
theorem works_of_revoke_same {outcome : Outcome RevokeResult}
    (hcarry : carry plane (revoke c.principal c.policy requested) = (some outcome, plane))
    (hmoves : ScopeStep c (plane.scopeAt c.principal c.policy) (outcome.map .revoked)
      (plane.scopeAt c.principal c.policy)) : Works plane c := by
  have hrequest := carry_request_of_revoke hwish hcarry
  exact ⟨_, _, hrequest, .of_same h hmoves hrequest⟩

omit h in
/-- A revoke that writes leaves nothing to be taken away by a second one. -/
theorem works_of_revoke_changed {after : ControlPlane} {result : Option PolicyScope}
    (hcarry : carry plane (revoke c.principal c.policy requested) = (some (.ok .applied), after))
    (hshape : after.Shaped)
    (hscope : ∀ p q, after.scopeAt p q =
      if p = c.principal ∧ q = c.policy then result else plane.scopeAt p q)
    (hmoves : ScopeStep c (plane.scopeAt c.principal c.policy) (.ok (.revoked .applied)) result)
    (hagain : revokeChange result requested = .nothing) : Works plane c := by
  have hresult : after.scopeAt c.principal c.policy = result := by
    rw [hscope, if_pos ⟨rfl, rfl⟩]
  refine ⟨_, _, carry_request_of_revoke hwish hcarry, .of_moves hshape ?_ ?_ ?_ ?_⟩
  · rw [hresult]
    exact hmoves
  · intro principal policy hother
    rw [hscope, if_neg hother]
  · intro hok
    cases hok
  · intro _
    have hsecond := carry_revoke c.principal c.policy requested hshape
    rw [hresult] at hsecond
    simp only [hagain] at hsecond
    exact ⟨_, carry_request_of_revoke hwish hsecond, rfl⟩

end Revoke

/-- A revoke of a namespace takes it out of those that are held, and the association with the last
of them. -/
theorem works_of_revoke_namespaces (h : plane.Shaped) {ns : String} {names : List String}
    (hwish : c.wish = .revoke (.inNamespace ns))
    (hheld : plane.scopeAt c.principal c.policy = some (.namespaces names)) : Works plane c := by
  have hwell := h.scopeAt_wellFormed hheld
  have hcarry := carry_revoke c.principal c.policy (.inNamespace ns) h
  rw [hheld] at hcarry
  by_cases hin : ns ∈ names
  · by_cases hlast : names = [ns]
    · subst hlast
      have hchange : revokeChange (some (.namespaces [ns])) (.inNamespace ns) =
          .disassociate := by simp [revokeChange]
      simp only [hchange] at hcarry
      refine works_of_revoke_changed hwish hcarry (h.disassociate _ _)
        ControlPlane.scopeAt_disassociate ?_ rfl
      rw [hheld]
      exact .lastRemoved hwish
    · have hrest := filter_ne_nil hwell.2 hin hlast
      have hchange := revokeChange_of_rest hin hrest
      simp only [hchange] at hcarry
      have hsome : plane.scopeAt c.principal c.policy ≠ none := by
        rw [hheld]
        exact Option.some_ne_none _
      have hscope : (PolicyScope.namespaces (names.filter (· ≠ ns))).WellFormed :=
        ⟨hrest, hwell.2.filter _⟩
      have hshape := h.associate c.policy (h.entry_of_scopeAt hsome) hscope
      refine works_of_revoke_changed hwish hcarry hshape ControlPlane.scopeAt_associate ?_
        (by simp [revokeChange])
      rw [hheld]
      exact .removed hwish hin hlast
  · have hchange : revokeChange (some (.namespaces names)) (.inNamespace ns) =
        .nothing := by simp [revokeChange, hin]
    simp only [hchange] at hcarry
    refine works_of_revoke_same h hwish hcarry ?_
    rw [hheld]
    exact .otherAbsent hwish hin

/-- **A revoke works.** -/
theorem works_of_revoke (h : plane.Shaped) (hwish : c.wish = .revoke requested) :
    Works plane c := by
  have hcarry := carry_revoke c.principal c.policy requested h
  cases hheld : plane.scopeAt c.principal c.policy with
  | none =>
      rw [hheld] at hcarry
      refine works_of_revoke_same h hwish hcarry ?_
      rw [hheld]
      exact .absent hwish
  | some held =>
      rw [hheld] at hcarry
      cases held with
      | cluster =>
          cases requested with
          | cluster =>
              refine works_of_revoke_changed hwish hcarry (h.disassociate _ _)
                ControlPlane.scopeAt_disassociate ?_ rfl
              rw [hheld]
              exact .clusterRevoked hwish
          | inNamespace ns =>
              refine works_of_revoke_same h hwish hcarry ?_
              rw [hheld]
              exact .revokeConflict hwish
      | namespaces names =>
          cases requested with
          | cluster =>
              refine works_of_revoke_same h hwish hcarry ?_
              rw [hheld]
              exact .clusterAbsent hwish
          | inNamespace ns => exact works_of_revoke_namespaces h hwish hheld

/-! ### Sequences -/

theorem works (h : plane.Shaped) (c : Command) : Works plane c := by
  cases hwish : c.wish with
  | grant scope => exact works_of_grant h hwish
  | revoke scope => exact works_of_revoke h hwish

/-- The control plane after requests that are carried out one after another. -/
def afterAll (plane : ControlPlane) : List Command → ControlPlane
  | [] => plane
  | c :: rest => afterAll (carry plane c.request).2 rest

theorem shaped_afterAll (h : plane.Shaped) (commands : List Command) :
    (afterAll plane commands).Shaped := by
  induction commands generalizing plane with
  | nil => exact h
  | cons c rest ih =>
      obtain ⟨outcome, after, hcarry, hobeys⟩ := works h c
      rw [afterAll, hcarry]
      exact ih hobeys.shaped

/-- **Every request of a sequence obeys the table.**  Whatever grants and revokes came before it,
it finds a registry in shape, comes to an outcome, and moves its own pair as the table says
and no other pair at all. -/
theorem obeys_afterAll (h : plane.Shaped) (earlier : List Command) (c : Command) :
    (afterAll plane earlier).Shaped ∧ ∃ outcome after,
      carry (afterAll plane earlier) c.request = (some outcome, after) ∧
        Obeys (afterAll plane earlier) c outcome after :=
  ⟨shaped_afterAll h earlier, works (shaped_afterAll h earlier) c⟩

/-- A registry in which alice has a policy in one namespace. -/
def devRegistry : ControlPlane where
  entries := [⟨"arn:aws:iam::111122223333:user/alice", none⟩]
  associations := [⟨"arn:aws:iam::111122223333:user/alice", [⟨"view", .namespaces ["dev"]⟩]⟩]

theorem policiesOf_devRegistry (principal : String) :
    devRegistry.policiesOf principal = [] ∨
      principal = "arn:aws:iam::111122223333:user/alice" ∧
        devRegistry.policiesOf principal = [⟨"view", .namespaces ["dev"]⟩] := by
  by_cases halice : principal = "arn:aws:iam::111122223333:user/alice"
  · exact Or.inr ⟨halice, by simp [devRegistry, ControlPlane.policiesOf, halice]⟩
  · have hne : ¬"arn:aws:iam::111122223333:user/alice" = principal := fun h => halice h.symm
    exact Or.inl (by simp [devRegistry, ControlPlane.policiesOf, hne])

theorem shaped_devRegistry : devRegistry.Shaped where
  single principal := by
    rcases policiesOf_devRegistry principal with hnil | ⟨-, hone⟩
    · simp [hnil]
    · simp [hone]
  wellFormed principal a ha := by
    rcases policiesOf_devRegistry principal with hnil | ⟨-, hone⟩
    · rw [hnil] at ha
      cases ha
    · rw [hone, List.mem_singleton] at ha
      rw [ha]
      exact ⟨by simp, by simp⟩
  entry principal hne := by
    rcases policiesOf_devRegistry principal with hnil | ⟨rfl, -⟩
    · exact absurd hnil hne
    · simp [devRegistry, ControlPlane.entry?]

/-- The policy is granted in a second namespace, and then revoked in the first. -/
theorem obeys_dev_prod : ∃ outcome after,
    carry (afterAll devRegistry
        [⟨"arn:aws:iam::111122223333:user/alice", "view", .grant (.inNamespace "prod")⟩])
      (Command.request
        ⟨"arn:aws:iam::111122223333:user/alice", "view", .revoke (.inNamespace "dev")⟩) =
      (some outcome, after) ∧
    Obeys (afterAll devRegistry
        [⟨"arn:aws:iam::111122223333:user/alice", "view", .grant (.inNamespace "prod")⟩])
      ⟨"arn:aws:iam::111122223333:user/alice", "view", .revoke (.inNamespace "dev")⟩
      outcome after :=
  (obeys_afterAll shaped_devRegistry
    [⟨"arn:aws:iam::111122223333:user/alice", "view", .grant (.inNamespace "prod")⟩]
    ⟨"arn:aws:iam::111122223333:user/alice", "view", .revoke (.inNamespace "dev")⟩).2

end ClusterAccess.Policy
