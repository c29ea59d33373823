/-
Whether a grant can be lost to a request that runs at the same time.

A write that was made from an older reading is refused when it creates or replaces a
binding: the loser gets a conflict and may try again.  So what a grant has put down, or has
found, stays there through every creation and replacement, unless a revoke takes out the
very user.

A deletion is not refused.  It goes by name, and takes away whatever has the name when it
comes.  A revoke that has listed a binding with one subject deletes it even if a grant has
added another in between, and the grant, which was told that it succeeded, is gone.

That is the only way.  A grant is lost exactly if a deletion takes away a binding that has
changed since the deleting request read it, and nobody lists the user again.
-/
import ClusterAccess.Proofs.Interleaving

namespace ClusterAccess

open Program (After History)
open RoleTarget (Intends Granted)

/-- A call and its reply that show that a user has a role at a scope. -/
inductive Shows (role : RoleTarget) (scope : Scope) (username : String) :
    (call : Call) × call.Reply → Prop
  /-- A binding that lists the user was read. -/
  | listed {listed : RoleBindings} {b : Binding} (hb : b ∈ listed.narrow scope)
      (hu : b.hasUser username = true) :
      Shows role scope username ⟨.matchingBindings role, .ok listed⟩
  /-- Such a binding was created. -/
  | created {b : Binding} (hof : b.isOf role scope = true) (hu : b.hasUser username = true) :
      Shows role scope username ⟨.createBinding b, .ok ()⟩
  /-- A binding was replaced by such a one. -/
  | updated {b : Binding} (hof : b.isOf role scope = true) (hu : b.hasUser username = true) :
      Shows role scope username ⟨.updateBinding b, .ok ()⟩

namespace Task

variable {directory : Directory} {store after : BindingStore} {t t' : Task} {role : RoleTarget}
  {scope : Scope} {username : String}

/-- The task has seen that a user has a role at a scope, or has brought it about. -/
def HasShown (t : Task) (role : RoleTarget) (scope : Scope) (username : String) : Prop :=
  (∃ event ∈ t.history, Shows role scope username event) ∨
    ∃ first, t.half = some first ∧ t.errand.role = role ∧
      ∃ b ∈ (⟨first, []⟩ : RoleBindings).narrow scope, b.hasUser username = true

/-- The next call of the task deletes a binding that lists the user, and the binding is not what
the task has read: it has another version. -/
def DeletesStale (t : Task) (store : BindingStore) (role : RoleTarget) (scope : Scope)
    (username : String) : Prop :=
  ∃ ns name next, t.program = .call (.deleteBinding ns name) next ∧
    ∃ c ∈ store.bindings, c.place = BindingStore.placeNamed ns name ∧
      c.isOf role scope = true ∧ c.hasUser username = true ∧
      ∃ listed, ⟨.matchingBindings t.errand.role, .ok listed⟩ ∈ t.history ∧
        ∃ b ∈ listed.narrow t.errand.scope, b.place = c.place ∧ b.version ≠ c.version

/-- The task takes away the very access that it is asked about. -/
def Revokes (directory : Directory) (t : Task) (role : RoleTarget) (scope : Scope)
    (username : String) : Prop :=
  t.IsFor directory .revoke role scope username

/-! ### What a task has seen -/

/-- What a task has shown once it has gone on, it had shown before, or the reply shows it. -/
theorem HasShown.of_proceed {call : Call} {reply : call.Reply}
    {program : Program Call Call.Reply (Outcome Errand.Result)}
    (h : (t.proceed call reply program).HasShown role scope username) :
    t.HasShown role scope username ∨ Shows role scope username ⟨call, reply⟩ := by
  rcases h with ⟨event, hevent, hshows⟩ | ⟨first, hhalf, -⟩
  · rcases List.mem_append.1 hevent with hold | hnew
    · exact Or.inl (Or.inl ⟨event, hold, hshows⟩)
    · rw [List.mem_singleton.1 hnew] at hshows
      exact Or.inr hshows
  · cases hhalf

/-- What is shown in a turn was shown before, or it is so now. -/
theorem Turn.hasShown (hoff : directory.OffBindings) (h : t.Sound directory store)
    (hturn : Turn store t after t') (hshown : t'.HasShown role scope username) :
    t.HasShown role scope username ∨ after.Lists role scope username := by
  cases hturn with
  | @half role' next hdue hnone =>
      obtain rfl := h.role_eq hoff hdue
      rcases hshown with hevent | ⟨first, hfirst, hrole, b, hb, hu⟩
      · exact Or.inl (Or.inl hevent)
      · obtain rfl := Option.some_inj.1 hfirst
        obtain rfl : t.errand.role = role := hrole
        refine Or.inr ⟨b, ?_, ((BindingStore.read_namespacedOf store _).narrow hb).1, hu⟩
        -- There are role bindings only so far, and so nothing at the scope of the cluster.
        cases scope with
        | cluster => cases hb
        | inNamespace ns => exact (List.mem_filter.1 (List.mem_filter.1 hb).1).1
  | @listed role' first next hdue hhalf =>
      obtain rfl := h.role_eq hoff hdue
      rcases hshown.of_proceed with hold | hshows
      · exact Or.inl hold
      cases hshows with
      | @listed _ b hb hu =>
          cases scope with
          | cluster =>
              refine Or.inr ⟨b, (List.mem_filter.1 hb).1, ?_, hu⟩
              exact ((h.half _ hhalf).complete.narrow hb).1
          | inNamespace ns => exact Or.inl (Or.inr ⟨first, hhalf, rfl, b, hb, hu⟩)
  | @served call reply _ next hdue hlisting hs =>
      rcases hshown.of_proceed with hold | hshows
      · exact Or.inl hold
      cases hshows with
      | listed => exact absurd rfl (hlisting _)
      | @created b hof hu =>
          obtain ⟨-, rfl⟩ := hs.create_ok
          exact Or.inr (BindingStore.lists_put.2 (Or.inl ⟨hof, hu⟩))
      | @updated b hof hu =>
          obtain ⟨-, rfl⟩ := hs.update_ok
          exact Or.inr (BindingStore.lists_put.2 (Or.inl ⟨hof, hu⟩))
  | broken hdue hs =>
      rcases hshown.of_proceed with hold | hshows
      · exact Or.inl hold
      · cases hshows

/-! ### What a task leaves to others -/

/-- A write that is served takes nothing from a user, unless it is meant to, or it is a deletion of
what the task has not read. -/
theorem lists_of_serves (hoff : directory.OffBindings) (h : t.Sound directory store) {call : Call}
    {reply : call.Reply} {next : call.Reply → Program Call Call.Reply (Outcome Errand.Result)}
    (hdue : t.program = .call call next) (hs : store.Serves call reply after)
    (ha : role.admits scope = true) (hlists : store.Lists role scope username)
    (hrevokes : ¬t.Revokes directory role scope username) :
    after.Lists role scope username ∨ t.DeletesStale store role scope username := by
  rcases hs.eq_or_wrote with rfl | ⟨hwrites, hok⟩
  · exact Or.inl hlists
  cases reply with
  | error fault => cases hok
  | ok answer =>
  obtain ⟨hadmits, other, listed, hname, hevent, hread, hintends⟩ := h.intends hoff hdue hwrites
  -- The access that the task is about is another one, if it is a revoke.
  have hother : ∀ b ∈ listed.narrow t.errand.scope, b.isOf role scope = true →
      t.errand.action = .revoke → username ≠ other := by
    intro b hb hof haction hsame
    subst hsame
    obtain ⟨hrole, hscope⟩ := Binding.isOf_inj hof (hread.narrow hb).1 ha hadmits
    exact hrevokes ⟨haction, hrole, hscope, hname⟩
  generalize haction : t.errand.action = action at hintends hother
  cases hintends with
  | @add b hb =>
      obtain ⟨⟨c, hc, hplace, hversion⟩, rfl⟩ := hs.update_ok
      obtain rfl := (hread.narrow hb).2.eq_of_version c hc hplace hversion
      exact Or.inl ((BindingStore.lists_put_addUser hc).2 (Or.inl hlists))
  | create =>
      obtain ⟨hfree, rfl⟩ := hs.create_ok
      exact Or.inl ((BindingStore.lists_put_of_free hfree).2 (Or.inl hlists))
  | @remove b hb hne =>
      obtain ⟨⟨c, hc, hplace, hversion⟩, rfl⟩ := hs.update_ok
      obtain rfl := (hread.narrow hb).2.eq_of_version c hc hplace hversion
      obtain ⟨d, hd, hof, hu⟩ := hlists
      refine Or.inl ((BindingStore.lists_put_removeUser hc).2 ⟨d, hd, hof, hu, ?_⟩)
      intro hin
      obtain ⟨rfl, hsame⟩ := hin
      exact hother d hb hof rfl hsame
  | @delete b hb hnil =>
      obtain ⟨⟨c, hc, hplace⟩, rfl⟩ := hs.delete_ok
      have hat : b.isAt t.errand.scope = true :=
        (Bool.and_eq_true _ _ ▸ (hread.narrow hb).1).1
      have hsameplace : c.place = b.place := hplace.trans (BindingStore.placeNamed_eq hat)
      rw [← hplace]
      have hkept := (hread.narrow hb).2.lists_drop hc hsameplace hnil
        (fun hof => hother b hb hof rfl) hlists
      rcases hkept with hstill | ⟨hof, hu, hstale⟩
      · exact Or.inl hstill
      · exact Or.inr ⟨_, _, _, hdue, c, hc, hplace, hof, hu, listed, hevent, b, hb,
          hsameplace.symm, hstale⟩

/-- A turn takes nothing from a user, unless it is meant to, or it is the deletion of a binding
that has changed. -/
theorem Turn.lists (hoff : directory.OffBindings) (h : t.Sound directory store)
    (hturn : Turn store t after t') (ha : role.admits scope = true)
    (hlists : store.Lists role scope username)
    (hrevokes : ¬t.Revokes directory role scope username) :
    after.Lists role scope username ∨ t.DeletesStale store role scope username := by
  cases hturn with
  | half => exact Or.inl hlists
  | listed => exact Or.inl hlists
  | served hdue _ hs => exact lists_of_serves hoff h hdue hs ha hlists hrevokes
  | broken hdue hs =>
      rcases hs with rfl | ⟨reply, hs⟩
      · exact Or.inl hlists
      · exact lists_of_serves hoff h hdue hs ha hlists hrevokes

end Task

/-- A grant that has succeeded has seen its access, or has written it. -/
theorem shows_of_ends {directory : Directory} {store : BindingStore} {e : Errand}
    {history : History Call Call.Reply} {outcome : Outcome Errand.Result} {username : String}
    (h : e.Ends directory history outcome) (haction : e.action = .grant)
    (hok : outcome.isOk = true) (hname : e.Resolves directory history (some username))
    (hread : ∀ listed, ⟨.matchingBindings e.role, .ok listed⟩ ∈ history →
      store.Read e.role listed) :
    e.role.admits e.scope = true ∧ ∃ event ∈ history, Shows e.role e.scope username event := by
  cases h with
  | failed _ fault => cases hok
  | unmapped hrevoke =>
      rw [haction] at hrevoke
      cases hrevoke
  | revoked hrevoke =>
      rw [haction] at hrevoke
      cases hrevoke
  | @granted before rest other listed result _ ha hother hgranted =>
      refine ⟨ha, ?_⟩
      obtain rfl : username = other := Option.some_inj.1 (hname.unique ⟨before, _, rfl, hother⟩)
      have hlisted := hread listed (by simp)
      cases hgranted with
      | held hb hu => exact ⟨_, by simp, .listed hb hu⟩
      | @added b _ hb =>
          refine ⟨⟨.updateBinding (b.addUser username), .ok ()⟩, by simp, ?_⟩
          exact .updated (hlisted.narrow hb).1 (Binding.hasUser_addUser.2 (Or.inr rfl))
      | created =>
          refine ⟨⟨.createBinding (.newForUser e.role e.scope username), .ok ()⟩, by simp, ?_⟩
          exact .created Binding.isOf_newForUser (Binding.newForUser_hasUser.2 rfl)

namespace Scene

/-- The turn is a deletion that takes away a binding which lists the user and which has changed
since it was read. -/
def IsStaleDeletion (m : Move) (role : RoleTarget) (scope : Scope) (username : String) :
    Prop :=
  m.event.DeletesStale m.before.store role scope username

/-- Some binding of the role lists the user at the scope. -/
def Lists (role : RoleTarget) (scope : Scope) (username : String) (s : Scene) : Prop :=
  s.store.Lists role scope username

/-- No request of the scene takes the access away from the user. -/
abbrev NoRevoke (directory : Directory) (s : Scene) (role : RoleTarget) (scope : Scope)
    (username : String) : Prop :=
  s.Without directory .revoke role scope username

/-- Since some stale deletion the user has not been listed any more. -/
def Lost (moves : List Move) (role : RoleTarget) (scope : Scope) (username : String) : Prop :=
  Ended (Lists role scope username) (IsStaleDeletion · role scope username) moves

variable {directory : Directory} {s s' start final : Scene} {t : Task} {moves : List Move}
  {role : RoleTarget} {scope : Scope} {username : String}

/-- What is shown after a step was shown before it, or it is so now. -/
theorem Step.hasShown (hoff : directory.OffBindings) (h : s.Sound directory)
    (hstep : Step s t s') (hshown : ∃ u ∈ s'.tasks, u.HasShown role scope username) :
    (∃ u ∈ s.tasks, u.HasShown role scope username) ∨ s'.store.Lists role scope username := by
  obtain ⟨u, hu, hshown⟩ := hshown
  cases hstep with
  | @turn store after t t' before rest hturn =>
      rcases List.mem_append.1 hu with hbefore | hu
      · exact Or.inl ⟨u, List.mem_append_left _ hbefore, hshown⟩
      rcases List.mem_cons.1 hu with rfl | hrest
      · rcases hturn.hasShown hoff (h t (by simp)) hshown with hold | hnew
        · exact Or.inl ⟨t, by simp, hold⟩
        · exact Or.inr hnew
      · exact Or.inl ⟨u, by simp [hrest], hshown⟩

/-- A step takes nothing from a user whom nobody is to take it from, unless it is a deletion of a
binding that has changed. -/
theorem Step.lists (hoff : directory.OffBindings) (h : s.Sound directory) (hstep : Step s t s')
    (ha : role.admits scope = true) (hnone : s.NoRevoke directory role scope username)
    (hlists : s.store.Lists role scope username) :
    s'.store.Lists role scope username ∨ t.DeletesStale s.store role scope username := by
  cases hstep with
  | turn before rest hturn => exact hturn.lists hoff (h t (by simp)) ha hlists (hnone t (by simp))

theorem Run.noRevoke (hrun : Run start moves final)
    (h : final.NoRevoke directory role scope username) :
    start.NoRevoke directory role scope username := by
  induction hrun with
  | nil => exact h
  | snoc _ hstep ih => exact ih (hstep.without h)

/-- What a request has shown was so at some time. -/
theorem Run.once_of_shown {store : BindingStore} {errands : List Errand}
    (hoff : directory.OffBindings) (hrun : Run (.start directory store errands) moves final)
    (hshown : ∃ t ∈ final.tasks, t.HasShown role scope username) :
    Once (Lists role scope username) (.start directory store errands) moves := by
  induction hrun with
  | nil =>
      obtain ⟨t, ht, hshown⟩ := hshown
      obtain ⟨e, -, rfl⟩ := List.mem_map.1 ht
      rcases hshown with ⟨event, hevent, -⟩ | ⟨first, hhalf, -⟩
      · cases hevent
      · cases hhalf
  | @snoc moves mid after t hrun hstep ih =>
      by_cases hafter : after.Lists role scope username
      · exact Or.inr ⟨⟨mid, t, after⟩, by simp, hafter⟩
      · have hsound := Run.sound hoff sound_start hrun
        have hearlier := (hstep.hasShown hoff hsound hshown).resolve_right hafter
        exact (ih hearlier).snoc _

/-- **Only a stale deletion takes a user away whom nobody is to take away.** -/
theorem Run.isStaleDeletion {store : BindingStore} {errands : List Errand}
    (hoff : directory.OffBindings) (ha : role.admits scope = true)
    (hrun : Run (.start directory store errands) moves final)
    (hnone : final.NoRevoke directory role scope username) :
    ∀ m ∈ moves, m.before.Lists role scope username → ¬m.after.Lists role scope username →
      IsStaleDeletion m role scope username := by
  intro m hm hbefore hafter
  obtain ⟨earlier, later, rfl⟩ := List.append_of_mem hm
  obtain ⟨hearlier, hstep, hlater⟩ := Trace.split hrun
  have hsound := Run.sound hoff sound_start hearlier
  have hmid := hstep.without (Run.noRevoke hlater hnone)
  exact (hstep.lists hoff hsound ha hmid hbefore).resolve_left hafter

/-- **A grant that succeeded is lost by stale deletions only.**  When it has succeeded, and no
revoke of its access is under way, then the user is not listed exactly if a request has
deleted a binding that lists the user, by name, after the binding had changed since that
request read it, and no binding of the role at the scope has listed the user since. -/
theorem not_lists_iff_lost {store : BindingStore} {errands : List Errand} {result : Errand.Result}
    (hoff : directory.OffBindings) (hrun : Run (.start directory store errands) moves final)
    (ht : t ∈ final.tasks) (haction : t.errand.action = .grant)
    (hdone : t.program = .done (.ok result))
    (hname : t.errand.Resolves directory t.history (some username))
    (hnone : final.NoRevoke directory t.errand.role t.errand.scope username) :
    ¬final.store.Lists t.errand.role t.errand.scope username ↔
      Lost moves t.errand.role t.errand.scope username := by
  have hsound := hrun.sound hoff sound_start t ht
  have hended := hsound.run
  rw [hdone] at hended
  obtain ⟨ha, hshows⟩ :=
    shows_of_ends (Errand.ends_of_after hoff hended) haction rfl hname hsound.listed
  exact Trace.not_holds_iff_ended hrun
    (Run.once_of_shown hoff hrun ⟨t, ht, Or.inl hshows⟩)
    (Run.isStaleDeletion hoff ha hrun hnone)

/-! ### A race -/

/-- The only user of a role is to lose it while another is to get it. -/
def race : Scene :=
  .start .plain (BindingStore.empty.put (.newForUser (.clusterRole "view") .cluster "bob"))
    [⟨.revoke, "bob", .clusterRole "view", .cluster⟩,
      ⟨.grant, "alice", .clusterRole "view", .cluster⟩]

/-- Both requests list the binding, then the grant adds its user, and then the revoke deletes the
binding by its name. -/
theorem run_race : ∃ moves store revoke grant, Run race moves ⟨store, [revoke, grant]⟩ ∧
    revoke.errand = ⟨.revoke, "bob", .clusterRole "view", .cluster⟩ ∧
    revoke.program = .done (.ok (.revoked .applied)) ∧
    grant.errand = ⟨.grant, "alice", .clusterRole "view", .cluster⟩ ∧
    grant.program = .done (.ok (.granted .applied)) ∧ store.bindings = [] := by
  have h1 : Run race _ _ := .snoc .nil (.turn [] [_] (.half rfl rfl))
  have h2 := Trace.snoc h1 (.turn [] [_] (.listed rfl rfl))
  have h3 := Trace.snoc h2 (.turn [_] [] (.half rfl rfl))
  have h4 := Trace.snoc h3 (.turn [_] [] (.listed rfl rfl))
  have h5 := Trace.snoc h4 (.turn [_] [] (.served rfl (by simp) (.answered rfl)))
  have h6 := Trace.snoc h5 (.turn [] [_] (.served rfl (by simp) (.answered rfl)))
  exact ⟨_, _, _, _, h6, rfl, rfl, rfl, rfl, rfl⟩

theorem noRevoke_race {store : BindingStore} {revoke grant : Task}
    (hrevoke : revoke.errand = ⟨.revoke, "bob", .clusterRole "view", .cluster⟩)
    (hgrant : grant.errand = ⟨.grant, "alice", .clusterRole "view", .cluster⟩) :
    (⟨store, [revoke, grant]⟩ : Scene).NoRevoke .plain (.clusterRole "view") .cluster "alice" := by
  intro t ht hrevokes
  obtain ⟨haction, -, -, hname⟩ := hrevokes
  rcases List.mem_cons.1 ht with rfl | ht
  · rw [hrevoke] at hname
    have hbob := hname.unique (Errand.resolves_plain _ _)
    exact absurd (Option.some_inj.1 hbob) (by decide)
  · rw [List.mem_singleton.1 ht, hgrant] at haction
    cases haction

/-- Both requests succeed, and nobody was asked to take anything from alice, who has nothing. -/
theorem grant_lost_in_race : ∃ moves store revoke grant, Run race moves ⟨store, [revoke, grant]⟩ ∧
    revoke.program = .done (.ok (.revoked .applied)) ∧
    grant.errand = ⟨.grant, "alice", .clusterRole "view", .cluster⟩ ∧
    grant.program = .done (.ok (.granted .applied)) ∧
    (⟨store, [revoke, grant]⟩ : Scene).NoRevoke .plain (.clusterRole "view") .cluster "alice" ∧
    ¬store.Lists (.clusterRole "view") .cluster "alice" := by
  obtain ⟨moves, store, revoke, grant, hrun, hrevoke, hrevoked, hgrant, hgranted, hnil⟩ := run_race
  refine ⟨moves, store, revoke, grant, hrun, hrevoked, hgrant, hgranted,
    noRevoke_race hrevoke hgrant, ?_⟩
  intro hin
  obtain ⟨b, hb, -⟩ := hin
  rw [hnil] at hb
  cases hb

/-- The deletion of the race was stale. -/
theorem lost_in_race : ∃ moves final, Run race moves final ∧
    Lost moves (.clusterRole "view") .cluster "alice" := by
  obtain ⟨moves, store, revoke, grant, hrun, hrevoke, -, hgrant, hgranted, hnil⟩ := run_race
  have hlost := not_lists_iff_lost Directory.plain_offBindings hrun (by simp)
    (by rw [hgrant]) hgranted (Errand.resolves_plain _ _)
    (by rw [hgrant]; exact noRevoke_race hrevoke hgrant)
  rw [hgrant] at hlost
  refine ⟨moves, ⟨store, [revoke, grant]⟩, hrun, hlost.1 ?_⟩
  intro hin
  obtain ⟨b, hb, -⟩ := hin
  rw [hnil] at hb
  cases hb

end Scene

end ClusterAccess
