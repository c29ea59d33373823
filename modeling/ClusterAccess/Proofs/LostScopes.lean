/-
Whether the scope of a policy survives grants that run at once.

A grant reads the scope of its pair in one call and writes all of it anew in another, and
nothing ties the two together: the registry takes a write whatever has been written since.
A grant that was carried out alone never narrows what its pair covers, because what it
writes covers what it has read (`covers_grantChange_of_covers`).  But what it has read may
no longer be what is there.

So a place that was covered at some time is uncovered in the end exactly if a grant of a
namespace has overwritten it from a reading that was out of date (`Overwrites`), and nobody
has written it back.  That happens: two grants of a pair that has no association yet, one
of the cluster and one of a namespace, both succeed, and the namespace is all that is left.
-/
import ClusterAccess.Proofs.Crowd
import ClusterAccess.Proofs.PolicyCalls

namespace ClusterAccess

open Program (After History)

namespace ControlPlane

variable {plane after : ControlPlane} {call : Call} {principal policy : String}

/-! ### Serving one call -/

/-- A call is carried out, or it fails, before it has taken effect or after. -/
inductive Serves (plane : ControlPlane) : (call : Call) → call.Reply → ControlPlane → Prop
  | answered (call : Call) : Serves plane call (plane.act call).1 (plane.act call).2
  | failed (call : Call) (fault : Fault) : Serves plane call (.error fault) plane
  | cut (call : Call) (fault : Fault) : Serves plane call (.error fault) (plane.act call).2

/-- A call that has succeeded was carried out. -/
theorem Serves.act_eq {reply : call.Reply} (h : plane.Serves call reply after)
    (hok : reply.isOk = true) : plane.act call = (reply, after) := by
  cases h with
  | answered => rfl
  | failed => cases hok
  | cut => cases hok

theorem Serves.eq_or_acted {reply : call.Reply} (h : plane.Serves call reply after) :
    after = plane ∨ after = (plane.act call).2 := by
  cases h with
  | answered => exact Or.inr rfl
  | failed => exact Or.inl rfl
  | cut => exact Or.inr rfl

theorem scopeAt_congr (h : after.associations = plane.associations) :
    after.scopeAt principal policy = plane.scopeAt principal policy := by
  unfold scopeAt policiesOf
  rw [h]

theorem associations_changed {outcome : Outcome ControlPlane}
    (h : ∀ next, outcome = .ok next → next.associations = plane.associations) :
    (plane.changed outcome).2.associations = plane.associations := by
  cases outcome with
  | ok next => exact h next rfl
  | error fault => rfl

/-- Only a call about the association of a pair moves the scope of that pair. -/
theorem scopeAt_act (plane : ControlPlane) (call : Call) (principal policy : String) :
    (∃ scope, call = .associatePolicy principal policy scope) ∨
      call = .disassociatePolicy principal policy ∨
        (plane.act call).2.scopeAt principal policy = plane.scopeAt principal policy := by
  cases call with
  | associatePolicy p q scope =>
      by_cases hpair : principal = p ∧ policy = q
      · obtain ⟨rfl, rfl⟩ := hpair
        exact Or.inl ⟨scope, rfl⟩
      · refine Or.inr (Or.inr ?_)
        show (plane.associate p q scope).scopeAt principal policy = _
        rw [scopeAt_associate, if_neg hpair]
  | disassociatePolicy p q =>
      by_cases hpair : principal = p ∧ policy = q
      · obtain ⟨rfl, rfl⟩ := hpair
        exact Or.inr (Or.inl rfl)
      · refine Or.inr (Or.inr ?_)
        show (plane.disassociate p q).scopeAt principal policy = _
        rw [scopeAt_disassociate, if_neg hpair]
  | updateAwsAuth | createAccessEntry | createBinding | updateBinding | deleteBinding =>
      refine Or.inr (Or.inr (scopeAt_congr (associations_changed fun next hnext => ?_)))
      simp only [updateAwsAuth, createEntry, createBinding, updateBinding, deleteBinding] at hnext
      split at hnext
      all_goals
        cases hnext
        try rfl
  | _ => exact Or.inr (Or.inr rfl)

end ControlPlane

namespace Policy

open ControlPlane (Serves)

/-- The pair covers a place. -/
def Holds (principal policy : String) (place : Scope) (crowd : Crowd ControlPlane Command Result) :
    Prop :=
  Covers (crowd.state.scopeAt principal policy) place

/-- A grant of a namespace writes a scope that does not cover the place, from a reading of the
pair that is not what is there. -/
def Overwrites (principal policy : String) (place : Scope)
    (m : Crowd.Move ControlPlane Command Result) : Prop :=
  ∃ ns event held scope, m.event.runner.errand = ⟨principal, policy, .grant (.inNamespace ns)⟩ ∧
    event ∈ m.event.runner.history ∧ Reading principal policy event held ∧
      held ≠ m.before.state.scopeAt principal policy ∧
        grantChange held (.inNamespace ns) = .associate scope ∧
          m.event.call = .associatePolicy principal policy scope ∧ ¬Covers (some scope) place

variable {principal policy : String} {place : Scope} {plane : ControlPlane}
  {commands : List Command} {final : Crowd ControlPlane Command Result}
  {moves : List (Crowd.Move ControlPlane Command Result)}

/-! ### One move -/

/-- What has been shown is so, once the call that shows it has been served. -/
theorem holds_of_shows {m : Crowd.Move ControlPlane Command Result}
    (hs : Serves m.before.state m.event.call m.event.reply m.after.state)
    (hshows : Shows principal policy place ⟨m.event.call, m.event.reply⟩) :
    Holds principal policy place m.after := by
  obtain ⟨⟨before, _⟩, ⟨runner, call, reply⟩, ⟨after, _⟩⟩ := m
  unfold Holds
  cases hshows with
  | @read _ held hread hcovers =>
      cases hread with
      | missing => exact hcovers.elim
      | listed policies =>
          have hact := hs.act_eq rfl
          cases hentry : before.entry? principal with
          | none => simp [ControlPlane.act, ControlPlane.orMissing, hentry, Except.map] at hact
          | some entry =>
              simp only [ControlPlane.act, ControlPlane.orMissing, hentry, Except.map,
                Prod.mk.injEq] at hact
              obtain ⟨hpolicies, rfl⟩ := hact
              obtain rfl := Except.ok.inj hpolicies
              exact hcovers
  | @written scope hcovers =>
      have hact := hs.act_eq rfl
      have hafter : before.associate principal policy scope = after := congrArg Prod.snd hact
      rw [← hafter, ControlPlane.scopeAt_associate, if_pos ⟨rfl, rfl⟩]
      exact hcovers

/-- A request that is no revoke of the pair leaves covered what is covered, unless it overwrites
it. -/
theorem overwrites_of_ended {c : Command} {m : Crowd.Move ControlPlane Command Result}
    (hc : m.event.runner.errand = c)
    (hgrant : c.principal = principal → c.policy = policy → ∃ requested, c.wish = .grant requested)
    (hdue : Due c m.event.runner.history m.event.call)
    (hs : Serves m.before.state m.event.call m.event.reply m.after.state)
    (hbefore : Holds principal policy place m.before)
    (hafter : ¬Holds principal policy place m.after) : Overwrites principal policy place m := by
  unfold Holds at hbefore hafter
  -- The scope of the pair has moved, so the call is about its association.
  have hmoved : m.after.state.scopeAt principal policy ≠
      m.before.state.scopeAt principal policy := by
    intro hsame
    rw [hsame] at hafter
    exact hafter hbefore
  have hacted : m.after.state = (m.before.state.act m.event.call).2 := by
    rcases hs.eq_or_acted with hsame | hacted
    · exact absurd (by rw [hsame]) hmoved
    · exact hacted
  rw [hacted] at hmoved hafter
  obtain ⟨⟨before, _⟩, ⟨⟨errand, history, program⟩, call, reply⟩, ⟨after, _⟩⟩ := m
  obtain rfl : errand = c := hc
  simp only at hdue hmoved hafter hbefore hgrant
  rcases before.scopeAt_act call principal policy with ⟨scope, rfl⟩ | rfl | hstill
  · have hscope : ((before.act (.associatePolicy principal policy scope)).2).scopeAt
        principal policy = some scope := by
      show (before.associate principal policy scope).scopeAt principal policy = some scope
      rw [ControlPlane.scopeAt_associate, if_pos ⟨rfl, rfl⟩]
    rw [hscope] at hafter
    obtain ⟨p, q, wish⟩ := errand
    cases hdue with
    | @associate event held _ hevent hread hchange =>
        obtain ⟨requested, rfl⟩ := hgrant rfl rfl
        cases requested with
        | cluster =>
            -- A grant of the cluster writes the cluster.
            have hcluster := covers_of_grantChange hchange
            cases scope with
            | cluster => exact absurd (by cases place <;> trivial) hafter
            | namespaces names => exact hcluster.elim
        | inNamespace ns =>
            refine ⟨ns, event, held, scope, rfl, hevent, hread, ?_, hchange, rfl, hafter⟩
            intro hsame
            rw [← hsame] at hbefore
            exact hafter (covers_grantChange_of_covers hchange hbefore)
  · obtain ⟨p, q, wish⟩ := errand
    cases hdue with
    | disassociate hwish =>
        obtain ⟨requested, hgranted⟩ := hgrant rfl rfl
        rw [hgranted] at hwish
        cases hwish
  · exact absurd hstill hmoved

/-! ### Whole runs -/

/-- A grant that has succeeded has had its scope covered at some time. -/
theorem once_of_granted {result : Result} {r : Runner Command Result}
    (hrun : Crowd.Run Serves (.start Command.request plane commands) moves final)
    (hr : r ∈ final.runners) (herrand : r.errand = ⟨principal, policy, .grant place⟩)
    (hdone : r.program = .done (.ok result)) :
    Once (Holds principal policy place) (.start Command.request plane commands) moves := by
  have hafter := (hrun.after_of_mem r hr).2
  rw [hdone, herrand] at hafter
  obtain ⟨event, hevent, hshows⟩ := shows_of_granted rfl hafter
  obtain ⟨m, hm, -, rfl⟩ := hrun.move_of_event r hr event hevent
  obtain ⟨-, -, hs⟩ := hrun.served_of_mem m hm
  exact Or.inr ⟨m, hm, holds_of_shows hs hshows⟩

/-- **A scope is lost by grants that overwrite it only.**  In a run without a revoke of the pair,
a place that was covered at some time, be it that a grant of it has succeeded, is uncovered
in the end exactly if a grant of a namespace of the same pair has written a scope without
the place over one with it, from a reading that was not what was there, and no later state
covers the place. -/
theorem not_covers_iff_overwritten
    (hrun : Crowd.Run Serves (.start Command.request plane commands) moves final)
    (hgrants : ∀ c ∈ commands, c.principal = principal → c.policy = policy →
      ∃ requested, c.wish = .grant requested)
    (hcovered : Once (Holds principal policy place)
        (.start Command.request plane commands) moves ∨
      ∃ r ∈ final.runners, r.errand = ⟨principal, policy, .grant place⟩ ∧
        ∃ result, r.program = .done (.ok result)) :
    ¬Covers (final.state.scopeAt principal policy) place ↔
      Ended (Holds principal policy place) (Overwrites principal policy place) moves := by
  have honce : Once (Holds principal policy place)
      (.start Command.request plane commands) moves := by
    rcases hcovered with honce | ⟨r, hr, herrand, result, hdone⟩
    · exact honce
    · exact once_of_granted hrun hr herrand hdone
  refine Trace.not_holds_iff_ended hrun honce fun m hm hbefore hafter => ?_
  obtain ⟨herrand, ⟨next, hdue⟩, hs⟩ := hrun.served_of_mem m hm
  exact overwrites_of_ended rfl (hgrants _ herrand) (due_of_after hdue) hs hbefore hafter

/-! ### A race -/

/-- A user without a policy is granted it in the whole cluster and in a namespace. -/
def race : Crowd ControlPlane Command Result :=
  .start Command.request { entries := [⟨"arn:aws:iam::111122223333:user/alice", none⟩] }
    [⟨"arn:aws:iam::111122223333:user/alice", "view", .grant .cluster⟩,
      ⟨"arn:aws:iam::111122223333:user/alice", "view", .grant (.inNamespace "dev")⟩]

/-- Both read that there is no association, then the cluster is written, and then the namespace. -/
theorem run_race : ∃ moves state wide narrow, Crowd.Run Serves race moves ⟨state, [wide, narrow]⟩ ∧
    wide.errand = ⟨"arn:aws:iam::111122223333:user/alice", "view", .grant .cluster⟩ ∧
    wide.program = .done (.ok (.granted .applied)) ∧
    narrow.errand = ⟨"arn:aws:iam::111122223333:user/alice", "view", .grant (.inNamespace "dev")⟩ ∧
    narrow.program = .done (.ok (.granted .applied)) ∧
    state.scopeAt "arn:aws:iam::111122223333:user/alice" "view" =
      some (.namespaces ["dev"]) := by
  have h1 : Crowd.Run Serves race _ _ := .snoc .nil (.served [] [_] rfl (.answered _))
  have h2 := Trace.snoc h1 (.served [_] [] rfl (.answered _))
  have h3 := Trace.snoc h2 (.served [] [_] rfl (.answered _))
  have h4 := Trace.snoc h3 (.served [_] [] rfl (.answered _))
  have h5 := Trace.snoc h4 (.served [] [_] rfl (.answered _))
  have h6 := Trace.snoc h5 (.served [_] [] rfl (.answered _))
  exact ⟨_, _, _, _, h6, rfl, rfl, rfl, rfl, rfl⟩

/-- Both grants succeed, there is no revoke, and the policy is not held in the cluster. -/
theorem cluster_lost_in_race : ∃ moves state wide narrow,
    Crowd.Run Serves race moves ⟨state, [wide, narrow]⟩ ∧
    wide.errand = ⟨"arn:aws:iam::111122223333:user/alice", "view", .grant .cluster⟩ ∧
    wide.program = .done (.ok (.granted .applied)) ∧
    narrow.errand = ⟨"arn:aws:iam::111122223333:user/alice", "view", .grant (.inNamespace "dev")⟩ ∧
    narrow.program = .done (.ok (.granted .applied)) ∧
    ¬Covers (state.scopeAt "arn:aws:iam::111122223333:user/alice" "view") .cluster := by
  obtain ⟨moves, state, wide, narrow, hrun, hwide, hwidened, hnarrow, hnarrowed, hscope⟩ := run_race
  refine ⟨moves, state, wide, narrow, hrun, hwide, hwidened, hnarrow, hnarrowed, ?_⟩
  rw [hscope]
  exact id

/-- The grant of the namespace has overwritten the cluster. -/
theorem overwritten_in_race : ∃ moves final, Crowd.Run Serves race moves final ∧
    Ended (Holds "arn:aws:iam::111122223333:user/alice" "view" .cluster)
      (Overwrites "arn:aws:iam::111122223333:user/alice" "view" .cluster) moves := by
  obtain ⟨moves, state, wide, narrow, hrun, hwide, hwidened, -, -, hscope⟩ := run_race
  have hgrants : ∀ c ∈ ([⟨"arn:aws:iam::111122223333:user/alice", "view", .grant .cluster⟩,
      ⟨"arn:aws:iam::111122223333:user/alice", "view", .grant (.inNamespace "dev")⟩] :
        List Command), c.principal = "arn:aws:iam::111122223333:user/alice" →
      c.policy = "view" → ∃ requested, c.wish = .grant requested := by
    simp
  have hlost := not_covers_iff_overwritten hrun hgrants
    (Or.inr ⟨wide, by simp, hwide, _, hwidened⟩)
  refine ⟨moves, _, hrun, hlost.1 ?_⟩
  rw [hscope]
  exact id

end Policy

end ClusterAccess
