/-
A revoke that succeeded lasts.

A request for another user may have read a binding before a revoke takes its user out, and
write it back afterwards.  The store refuses that, because the binding has another version by
then, even if it was deleted and created again under the same name.  So nothing but a grant of
the very access lists the user again.

The argument follows the places of bindings.  What the revoke has listed names every place where
its user is listed (`Covers`), now as much as when it was read.  Each of these the revoke has
gone to: a replacement without the user, or a deletion, has cleared the place (`Clears`), and
what is cleared stays clear.

A revoke takes it for a success when it is told that a binding which it wanted to delete is not
there.  That has to be true.  The store only says so when it is, so the runs here are those in
which no broken call says so either (`TruthfulRun`).
-/
import ClusterAccess.Proofs.ListedPlaces

namespace ClusterAccess

open Program (After History)
open RoleTarget (SaysGone removeFrom removeFromAll holding)

/-- A call and its reply that show that a place is without the user. -/
inductive Clears (username : String) :
    (call : Call) × call.Reply → Reach × Option String × String → Prop
  /-- A binding without the user was stored in the place. -/
  | replaced {b : Binding} (hu : b.hasUser username = false) :
      Clears username ⟨.updateBinding b, .ok ()⟩ b.place
  /-- The binding in the place was deleted, or there was none. -/
  | deleted {ns : Option String} {name : String} {reply : Outcome Unit} (hgone : SaysGone reply) :
      Clears username ⟨.deleteBinding ns name, reply⟩ (BindingStore.placeNamed ns name)

/-! ### What a revoke clears -/

namespace RoleTarget

variable {scope : Scope} {username : String} {history : History Call Call.Reply}

/-- A user that was taken out of a binding is not listed in its place. -/
theorem clears_of_removeFrom {b : Binding} (hat : b.isAt scope = true)
    (h : After (removeFrom username b).run history (.done (.ok ()))) :
    ∃ event ∈ history, Clears username event b.place := by
  rcases removeFrom_done hat h with ⟨hne, rfl⟩ | ⟨hnil, reply, rfl, hgone⟩
  · refine ⟨_, List.mem_singleton_self _, ?_⟩
    show Clears username _ (b.removeUser username).place
    refine .replaced ?_
    rw [← Bool.not_eq_true]
    intro hu
    exact (Binding.hasUser_removeUser.1 hu).2 rfl
  · refine ⟨_, List.mem_singleton_self _, ?_⟩
    rw [← BindingStore.placeNamed_eq hat]
    exact .deleted (hgone.1 rfl)

/-- The loop has cleared the places of all its bindings. -/
theorem clears_of_removeFromAll {bindings : List Binding}
    (hat : ∀ b ∈ bindings, b.isAt scope = true)
    (h : After (removeFromAll username bindings).run history (.done (.ok ()))) :
    ∀ b ∈ bindings, ∃ event ∈ history, Clears username event b.place := by
  induction bindings generalizing history with
  | nil =>
      intro b hb
      cases hb
  | cons c rest ih =>
      obtain ⟨_, before, later, rfl, hfirst, hrest⟩ := Request.after_bind_ok_iff.1 h
      intro b hb
      rcases List.mem_cons.1 hb with rfl | hb
      · obtain ⟨event, hevent, hclears⟩ := clears_of_removeFrom (hat b List.mem_cons_self) hfirst
        exact ⟨event, List.mem_append_left _ hevent, hclears⟩
      · obtain ⟨event, hevent, hclears⟩ :=
          ih (fun d hd => hat d (List.mem_cons_of_mem _ hd)) hrest b hb
        exact ⟨event, List.mem_append_right _ hevent, hclears⟩

end RoleTarget

namespace Task

variable {directory : Directory} {store after : BindingStore} {t t' : Task} {role : RoleTarget}
  {scope : Scope} {username : String} {place : Reach × Option String × String}

/-! ### Cleared places -/

/-- A turn in which nobody is told that a binding is gone while it is there. -/
structure TruthfulTurn (store : BindingStore) (t : Task) (after : BindingStore) (t' : Task) :
    Prop where
  turn : Turn store t after t'
  gone : ∀ ns name fault, t'.history = t.history ++ [⟨.deleteBinding ns name, .error fault⟩] →
    fault.isNotFound = true → after.at? (BindingStore.placeNamed ns name) = none

theorem truthful_of_half
    {next : Outcome RoleBindings → Program Call Call.Reply (Outcome Errand.Result)}
    (hdue : t.program = .call (.matchingBindings role) next) (hnone : t.half = none) :
    TruthfulTurn store t store { t with half := some (store.namespacedOf role) } where
  turn := .half hdue hnone
  gone ns name fault hhistory _ := by simp at hhistory

theorem truthful_of_listed {first : List Binding}
    {next : Outcome RoleBindings → Program Call Call.Reply (Outcome Errand.Result)}
    (hdue : t.program = .call (.matchingBindings role) next) (hhalf : t.half = some first) :
    TruthfulTurn store t store (t.proceed (.matchingBindings role)
      (.ok ⟨first, store.clusterWideOf role⟩) (next (.ok ⟨first, store.clusterWideOf role⟩))) where
  turn := .listed hdue hhalf
  gone ns name fault hhistory _ := by simp [proceed, Runner.proceed] at hhistory

/-- The store is truthful, so only a call that breaks can tell anything else. -/
theorem truthful_of_served {call : Call} {reply : call.Reply}
    {next : call.Reply → Program Call Call.Reply (Outcome Errand.Result)}
    (hdue : t.program = .call call next) (hlisting : ∀ role, call ≠ .matchingBindings role)
    (hs : store.Serves call reply after) :
    TruthfulTurn store t after (t.proceed call reply (next reply)) where
  turn := .served hdue hlisting hs
  gone ns name fault hhistory _ := by
    cases List.append_cancel_left hhistory
    cases hfound : store.at? (BindingStore.placeNamed ns name) with
    | none =>
        rcases hs.eq_or_wrote with rfl | ⟨-, hok⟩
        · exact hfound
        · cases hok
    | some b =>
        obtain ⟨hb, hplace⟩ := BindingStore.at?_eq_some_iff.1 hfound
        have hanswer : store.answer (.deleteBinding ns name) = some (.ok (), store.drop b.place) :=
          congrArg some (BindingStore.delete_of_mem hb hplace.symm)
        cases ((BindingStore.serves_iff_of_answer hanswer).1 hs).1

/-- What the task has cleared is still clear of the user. -/
def Cleared (store : BindingStore) (t : Task) (role : RoleTarget) (scope : Scope)
    (username : String) : Prop :=
  ∀ event ∈ t.history, ∀ place, Clears username event place →
    ¬store.ListedAt role scope username place

/-- The user comes to be listed nowhere where it was not. -/
theorem Cleared.mono (h : t.Cleared store role scope username)
    (hgrows : ∀ place, after.ListedAt role scope username place →
      store.ListedAt role scope username place) : t.Cleared after role scope username := by
  intro event hevent place hclears hat
  exact h event hevent place hclears (hgrows place hat)

/-- What a call clears is clear once the call has been made. -/
theorem not_listedAt_of_clears {call : Call} {reply : call.Reply}
    {program : Program Call Call.Reply (Outcome Errand.Result)}
    (hturn : TruthfulTurn store t after (t.proceed call reply program))
    (hclears : Clears username ⟨call, reply⟩ place) :
    ¬after.ListedAt role scope username place := by
  have hserved : reply.isOk = true → store.Serves call reply after := by
    intro hok
    generalize hnext : t.proceed call reply program = t' at hturn
    have hhistory : t.history ++ [⟨call, reply⟩] = t'.history := by
      rw [← hnext]
      rfl
    cases hturn.turn with
    | half => simp at hhistory
    | listed =>
        cases List.append_cancel_left hhistory
        cases hclears
    | served _ _ hs =>
        cases List.append_cancel_left hhistory
        exact hs
    | broken =>
        cases List.append_cancel_left hhistory
        cases hok
  cases hclears with
  | replaced hu =>
      obtain ⟨-, rfl⟩ := (hserved rfl).update_ok
      intro hat
      rcases BindingStore.listedAt_put.1 hat with ⟨-, -, hu'⟩ | ⟨hne, -⟩
      · rw [hu] at hu'
        cases hu'
      · exact hne rfl
  | deleted hgone =>
      refine BindingStore.not_listedAt_of_free ?_
      rcases hgone with rfl | ⟨fault, rfl, hfault⟩
      · obtain ⟨-, rfl⟩ := (hserved rfl).delete_ok
        exact BindingStore.at?_drop
      · exact hturn.gone _ _ fault rfl hfault

theorem TruthfulTurn.cleared (hturn : TruthfulTurn store t after t')
    (hgrows : ∀ place, after.ListedAt role scope username place →
      store.ListedAt role scope username place)
    (h : t.Cleared store role scope username) : t'.Cleared after role scope username := by
  have hafter := h.mono hgrows
  -- A turn leaves the history as it is, or it adds the call that was made.
  have hproceed : ∀ {call : Call} {reply : call.Reply}
      {program : Program Call Call.Reply (Outcome Errand.Result)},
      TruthfulTurn store t after (t.proceed call reply program) →
        (t.proceed call reply program).Cleared after role scope username := by
    intro call reply program hturn event hevent place hclears
    rcases List.mem_append.1 hevent with hold | hnew
    · exact hafter event hold place hclears
    · rw [List.mem_singleton.1 hnew] at hclears
      exact not_listedAt_of_clears hturn hclears
  cases hturn.turn with
  | half => exact hafter
  | listed => exact hproceed hturn
  | served => exact hproceed hturn
  | broken => exact hproceed hturn

end Task

namespace Scene

variable {directory : Directory} {start s s' final : Scene} {t : Task} {role : RoleTarget}
  {scope : Scope} {username : String}

/-- Any number of truthful turns. -/
inductive TruthfulRun (start : Scene) : Scene → Prop
  | nil : TruthfulRun start start
  | snoc {store after : BindingStore} {t t' : Task} (before rest : List Task)
      (h : TruthfulRun start ⟨store, before ++ t :: rest⟩)
      (hturn : Task.TruthfulTurn store t after t') :
      TruthfulRun start ⟨after, before ++ t' :: rest⟩

theorem TruthfulRun.run (h : TruthfulRun start final) : ∃ moves, Run start moves final := by
  induction h with
  | nil => exact ⟨[], .nil⟩
  | snoc before rest _ hturn ih =>
      obtain ⟨moves, hrun⟩ := ih
      exact ⟨_, .snoc hrun (.turn before rest hturn.turn)⟩

/-- No request of the scene gives the user the role at the scope. -/
abbrev NoGrant (directory : Directory) (s : Scene) (role : RoleTarget) (scope : Scope)
    (username : String) : Prop :=
  s.Without directory .grant role scope username

/-- What the requests for a role know about a user whom nobody grants it: where it can be listed at
all, and where it is not any more. -/
structure Settled (s : Scene) (role : RoleTarget) (scope : Scope) (username : String) : Prop where
  covered : ∀ t ∈ s.tasks, t.errand.role = role →
    t.Covered s.store scope username fun _ => False
  cleared : ∀ t ∈ s.tasks, t.Cleared s.store role scope username

theorem settled_start {store : BindingStore} {errands : List Errand} :
    (Scene.start directory store errands).Settled role scope username where
  covered t ht _ := by
    obtain ⟨e, -, rfl⟩ := List.mem_map.1 ht
    exact Task.covered_start
  cleared t ht event hevent := by
    obtain ⟨e, -, rfl⟩ := List.mem_map.1 ht
    cases hevent

theorem Settled.turn {store after : BindingStore} {t t' : Task} {before rest : List Task}
    (hoff : directory.OffBindings) (hsound : t.Sound directory store)
    (hturn : Task.TruthfulTurn store t after t') (ha : role.admits scope = true)
    (hnone : ¬t.Grants directory role scope username)
    (h : (⟨store, before ++ t :: rest⟩ : Scene).Settled role scope username) :
    (⟨after, before ++ t' :: rest⟩ : Scene).Settled role scope username := by
  have hgrows : ∀ place, after.ListedAt role scope username place →
      store.ListedAt role scope username place := by
    intro place hat
    rcases hturn.turn.listedAt hoff hsound ha hat with hbefore | ⟨hgrants, -⟩
    · exact hbefore
    · exact absurd hgrants hnone
  have ht : t ∈ before ++ t :: rest := by simp
  have hcases : ∀ u ∈ before ++ t' :: rest, u ∈ before ++ t :: rest ∨ u = t' := by
    intro u hu
    rw [List.mem_append, List.mem_cons] at hu ⊢
    tauto
  refine ⟨?_, ?_⟩
  · intro u hu hrole
    rcases hcases u hu with hold | rfl
    · refine (h.covered u hold hrole).mono ?_
      intro place hat
      rw [hrole] at hat ⊢
      exact Or.inr (hgrows place hat)
    · obtain ⟨herrand, -⟩ := hturn.turn.history
      rw [herrand] at hrole
      refine hturn.turn.covered hoff hsound (hrole ▸ ha) ?_ (h.covered t ht hrole)
      intro place hat
      rw [hrole] at hat ⊢
      exact Or.inr (hgrows place hat)
  · intro u hu
    rcases hcases u hu with hold | rfl
    · exact (h.cleared u hold).mono hgrows
    · exact hturn.cleared hgrows (h.cleared t ht)

theorem TruthfulRun.settled {store : BindingStore} {errands : List Errand}
    (hoff : directory.OffBindings) (ha : role.admits scope = true)
    (hrun : TruthfulRun (.start directory store errands) final)
    (hnone : final.NoGrant directory role scope username) :
    final.Settled role scope username := by
  induction hrun with
  | nil => exact settled_start
  | @snoc store after t t' before rest hrun hturn ih =>
      obtain ⟨moves, hmoves⟩ := hrun.run
      have hsound := hmoves.sound hoff sound_start t (by simp)
      have hmid := (Step.turn before rest hturn.turn).without hnone
      exact (ih hmid).turn hoff hsound hturn ha (hmid t (by simp))

/-- A revoke that has succeeded has listed the bindings and cleared the places of those that list
its user. -/
theorem cleared_of_ends {store : BindingStore} {e : Errand} {history : History Call Call.Reply}
    {outcome : Outcome Errand.Result} (h : e.Ends directory history outcome)
    (haction : e.action = .revoke) (hok : outcome.isOk = true)
    (hname : e.Resolves directory history (some username))
    (hread : ∀ listed, ⟨.matchingBindings e.role, .ok listed⟩ ∈ history →
      store.Read e.role listed) :
    e.role.admits e.scope = true ∧ ∃ listed,
      ⟨.matchingBindings e.role, .ok listed⟩ ∈ history ∧
      ∀ b ∈ listed.narrow e.scope, b.hasUser username = true →
        ∃ event ∈ history, Clears username event b.place := by
  cases h with
  | failed _ fault => cases hok
  | granted hgrant =>
      rw [haction] at hgrant
      cases hgrant
  | unmapped _ hnobody =>
      have hnone := hname.unique ⟨history, [], (List.append_nil _).symm, hnobody⟩
      cases hnone
  | @revoked before rest other listed outcome _ ha hother hrevoked =>
      obtain rfl : username = other := Option.some_inj.1 (hname.unique ⟨before, _, rfl, hother⟩)
      refine ⟨ha, listed, by simp, ?_⟩
      intro b hb hu
      have hin : b ∈ holding username (listed.narrow e.scope) := List.mem_filter.2 ⟨hb, hu⟩
      cases hrevoked with
      | absent hnil =>
          rw [hnil] at hin
          cases hin
      | taken hne hloop =>
          have hat : ∀ c ∈ holding username (listed.narrow e.scope), c.isAt e.scope = true := by
            intro c hc
            have hread := hread listed (by simp)
            exact Binding.isAt_of_isOf (hread.narrow (List.mem_filter.1 hc).1).1
          obtain ⟨event, hevent, hclears⟩ := RoleTarget.clears_of_removeFromAll hat hloop b hin
          exact ⟨event, by simp [hevent], hclears⟩
      | stuck => cases hok

/-- **A revoke that succeeded is not undone.**  When it has succeeded for a user, and no grant of
the same access is under way, no binding of the role at the scope lists the user, whatever
the requests for others have read before and written since. -/
theorem not_lists_of_revoked {store : BindingStore} {errands : List Errand}
    {result : Errand.Result} (hoff : directory.OffBindings)
    (hrun : TruthfulRun (.start directory store errands) final) (ht : t ∈ final.tasks)
    (haction : t.errand.action = .revoke) (hdone : t.program = .done (.ok result))
    (hname : t.errand.Resolves directory t.history (some username))
    (hnone : final.NoGrant directory t.errand.role t.errand.scope username) :
    ¬final.store.Lists t.errand.role t.errand.scope username := by
  obtain ⟨moves, hmoves⟩ := hrun.run
  have hsound := hmoves.sound hoff sound_start t ht
  have hended := hsound.run
  rw [hdone] at hended
  obtain ⟨ha, listed, hevent, hclears⟩ :=
    cleared_of_ends (Errand.ends_of_after hoff hended) haction rfl hname hsound.listed
  have hsettled := hrun.settled hoff ha hnone
  intro hlists
  obtain ⟨place, hat⟩ := BindingStore.lists_iff_listedAt.1 hlists
  -- The listing has the place, and so the revoke has been there.
  have hcovers := (hsettled.covered t ht rfl).listed listed hevent place hat
  rcases hcovers with hfalse | ⟨b, hb, rfl, hu⟩
  · exact hfalse
  · obtain ⟨event, hin, hclear⟩ := hclears b hb hu
    exact hsettled.cleared t ht event hin b.place hclear hat

/-- A user is to lose a role while another is to get it, and a third one keeps it. -/
def standoff : Scene :=
  .start .plain
    (BindingStore.empty.put ((Binding.newForUser (.clusterRole "view") .cluster "alice").addUser
      "bob"))
    [⟨.revoke, "alice", .clusterRole "view", .cluster⟩,
      ⟨.grant, "carol", .clusterRole "view", .cluster⟩]

/-- Both requests list the binding, then the revoke takes its user out, and then the grant tries to
write all three back. -/
theorem run_standoff : ∃ store revoke grant, TruthfulRun standoff ⟨store, [revoke, grant]⟩ ∧
    revoke.errand = ⟨.revoke, "alice", .clusterRole "view", .cluster⟩ ∧
    revoke.program = .done (.ok (.revoked .applied)) ∧
    grant.errand = ⟨.grant, "carol", .clusterRole "view", .cluster⟩ ∧
    grant.program = .done (.error (.api "update ClusterRoleBinding eksbridge-view-binding"
      (.status 409 "Conflict" "the object has been modified"))) ∧
    store.Lists (.clusterRole "view") .cluster "bob" := by
  have h1 : TruthfulRun standoff _ := .snoc [] [_] .nil (Task.truthful_of_half rfl rfl)
  have h2 := TruthfulRun.snoc [] [_] h1 (Task.truthful_of_listed rfl rfl)
  have h3 := TruthfulRun.snoc [_] [] h2 (Task.truthful_of_half rfl rfl)
  have h4 := TruthfulRun.snoc [_] [] h3 (Task.truthful_of_listed rfl rfl)
  have h5 := TruthfulRun.snoc [] [_] h4 (Task.truthful_of_served rfl (by simp) (.answered rfl))
  have h6 := TruthfulRun.snoc [_] [] h5 (Task.truthful_of_served rfl (by simp) (.answered rfl))
  exact ⟨_, _, _, h6, rfl, rfl, rfl, rfl, _, List.mem_cons_self, rfl, rfl⟩

/-- Alice has lost the role for good. -/
theorem not_lists_of_revoked_standoff : ∃ store revoke grant,
    TruthfulRun standoff ⟨store, [revoke, grant]⟩ ∧
    revoke.program = .done (.ok (.revoked .applied)) ∧
    (⟨store, [revoke, grant]⟩ : Scene).NoGrant .plain (.clusterRole "view") .cluster "alice" ∧
    store.Lists (.clusterRole "view") .cluster "bob" ∧
    ¬store.Lists (.clusterRole "view") .cluster "alice" := by
  obtain ⟨store, revoke, grant, hrun, hrevoke, hrevoked, hgrant, -, hbob⟩ := run_standoff
  have hnone : (⟨store, [revoke, grant]⟩ : Scene).NoGrant .plain (.clusterRole "view") .cluster
      "alice" := by
    intro t ht hgrants
    obtain ⟨haction, -, -, hname⟩ := hgrants
    rcases List.mem_cons.1 ht with rfl | ht
    · rw [hrevoke] at haction
      cases haction
    · rw [List.mem_singleton.1 ht, hgrant] at hname
      have hcarol := hname.unique (Errand.resolves_plain _ _)
      exact absurd (Option.some_inj.1 hcarol) (by decide)
  have hnot := not_lists_of_revoked Directory.plain_offBindings hrun (t := revoke) (by simp)
    (by rw [hrevoke]) hrevoked (Errand.resolves_plain _ _) (by rw [hrevoke]; exact hnone)
  rw [hrevoke] at hnot
  exact ⟨store, revoke, grant, hrun, hrevoked, hnone, hbob, hnot⟩

end Scene

end ClusterAccess
