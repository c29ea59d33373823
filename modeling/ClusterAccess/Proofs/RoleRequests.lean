/-
What a grant or a revoke of a role leaves behind in a control plane.

A request that succeeds has had answers from the control plane and from nobody else, so what
it has done can be read off the calls it made.

  * The username of a principal is what the mapping document says.  Only a grant changes the
    document, by a row of the principal's own (`maps_of_resolveOrCreate`).
  * After a grant some binding of the role at the scope has the user among its subjects
    (`lists_of_grant`).
  * After a revoke the bindings are as before, but for the subjects that are this user in
    bindings of the role at the scope (`binds_of_revoke`).

A control plane keeps its bindings in a list.  It tells them apart by their places, as a
store does, and the places have to be distinct for a revoke to find what it has listed.
-/
import ClusterAccess.Proofs.RequestBounds
import ClusterAccess.Proofs.SelfMappings
import ClusterAccess.Proofs.Snapshots

namespace ClusterAccess

open Program (After History)
open Request

variable {plane after : ControlPlane} {mayFail : Call → Prop} {history : History Call Call.Reply}
  {principal username : String}

/-! ### Usernames -/

/-- The username of a principal, as the mapping document of a control plane says. -/
def ControlPlane.username? (plane : ControlPlane) (principal : String) : Option String :=
  plane.awsAuth.bind fun document => document.findUsername? principal

/-- A document that was written is there afterwards, under a version of its own. -/
theorem ControlPlane.act_updateAwsAuth_ok {document : AwsAuth}
    (h : (plane.act (.updateAwsAuth document)).1 = .ok ()) :
    (plane.act (.updateAwsAuth document)).2.bindings = plane.bindings ∧
      (plane.act (.updateAwsAuth document)).2.awsAuth =
        some { document with resourceVersion := nextVersion document.resourceVersion } := by
  unfold act updateAwsAuth at *
  by_cases hversion : document.resourceVersion = plane.awsAuth.bind AwsAuth.resourceVersion
  · simp only [if_pos hversion]
    exact ⟨rfl, rfl⟩
  · simp only [if_neg hversion] at h
    cases h

namespace AwsAuth

/-- The document is read in one call, and has to be there. -/
theorem load_done {outcome : Outcome AwsAuth} (h : After load.run history (.done outcome)) :
    ∃ reply : Outcome (Option AwsAuth), history = [⟨.getAwsAuth, reply⟩] ∧
      outcome = reply.bind (ControlPlane.orMissing "aws-auth ConfigMap") := by
  rcases after_bind_done_iff.1 h with ⟨fault, rfl, hsend⟩ | ⟨found, before, rest, rfl, hsend, hend⟩
  · exact ⟨.error fault, after_send_done_iff.1 hsend, rfl⟩
  · rw [after_send_done_iff.1 hsend]
    cases found with
    | none =>
        obtain ⟨rfl, hvalue⟩ := Program.after_done_iff.1 hend
        exact ⟨.ok none, rfl, Program.done.inj hvalue⟩
    | some found =>
        obtain ⟨rfl, hvalue⟩ := after_pure_iff.1 hend
        exact ⟨.ok (some found), rfl, Program.done.inj hvalue⟩

/-- The document that was read is the one there is. -/
theorem acts_load {document : AwsAuth} (h : After load.run history (.done (.ok document)))
    (hacts : plane.Acts mayFail history after) : plane.awsAuth = some document ∧ after = plane := by
  obtain rfl := load_ok h
  obtain ⟨hread, hend⟩ := hacts.of_ok
  exact ⟨Except.ok.inj hread, ControlPlane.acts_nil_iff.1 hend⟩

/-- When it can be read, the mappings of the document are those that are read. -/
theorem answers_readMappings {document : AwsAuth} {outcome : Outcome Mappings}
    (hsure : ¬mayFail .getAwsAuth) (hdocument : plane.awsAuth = some document)
    (h : plane.Answers mayFail readMappings outcome) : outcome = .ok document.mappings := by
  obtain ⟨history, hafter, hacts⟩ := h
  have hread : ∀ found : Outcome AwsAuth, After load.run history (.done found) →
      found = .ok document := by
    intro found hload
    obtain ⟨reply, rfl, rfl⟩ := load_done hload
    rw [(hacts.of_sure hsure).1, show (plane.act .getAwsAuth).1 = .ok plane.awsAuth from rfl,
      hdocument]
    rfl
  rcases after_bind_done_iff.1 hafter with ⟨fault, rfl, hload⟩ | ⟨found, before, rest, rfl, hload,
    hend⟩
  · cases hread _ hload
  · obtain ⟨rfl, houtcome⟩ := after_pure_iff.1 hend
    rw [List.append_nil] at hread
    rw [Program.done.inj houtcome, Except.ok.inj (hread _ hload)]

/-- A username that was looked up is that of the document. -/
theorem acts_resolve {name? : Option String}
    (h : After (directory.resolve principal).run history (.done (.ok name?)))
    (hacts : plane.Acts mayFail history after) :
    name? = plane.username? principal ∧ after = plane := by
  obtain ⟨document, before, rest, rfl, hload, hend⟩ := after_bind_ok_iff.1 h
  obtain ⟨mid, hbefore, hrest⟩ := ControlPlane.acts_append_iff.1 hacts
  obtain ⟨hdocument, rfl⟩ := acts_load hload hbefore
  obtain ⟨rfl, hname⟩ := after_pure_iff.1 hend
  cases hname
  refine ⟨?_, ControlPlane.acts_nil_iff.1 hrest⟩
  rw [ControlPlane.username?, hdocument]
  rfl

/-- A username that was looked up or made is one that the document has afterwards, and the
bindings are as before. -/
theorem maps_of_resolveOrCreate {resolved : Resolved}
    (h : After (directory.resolveOrCreate principal).run history (.done (.ok resolved)))
    (hacts : plane.Acts mayFail history after)
    (hback : ∀ document, plane.awsAuth = some document → document.ReadsBack principal) :
    Arn.isUserOrRole principal = true ∧
      resolved.username = (plane.username? principal).getD principal ∧
      after.bindings = plane.bindings ∧
      ∃ document, after.awsAuth = some document ∧
        principal ∈ document.mappings.forUsername resolved.username := by
  obtain ⟨hprincipal, hcases⟩ := resolveOrCreate_ok h
  refine ⟨hprincipal, ?_⟩
  rcases hcases with ⟨document, rfl, hfind, -⟩ | ⟨document, changed, rfl, hfind, happend, rfl⟩
  · obtain ⟨hread, hend⟩ := hacts.of_ok
    have hdocument : plane.awsAuth = some document := Except.ok.inj hread
    rw [ControlPlane.acts_nil_iff.1 hend, ControlPlane.username?, hdocument, Option.bind_some, hfind]
    exact ⟨rfl, rfl, document, hdocument, mem_forUsername_of_find hfind⟩
  · obtain ⟨hread, hrest⟩ := hacts.of_ok
    have hdocument : plane.awsAuth = some document := Except.ok.inj hread
    obtain ⟨hwritten, hend⟩ := hrest.of_ok
    obtain ⟨hbindings, hafter⟩ := ControlPlane.act_updateAwsAuth_ok hwritten
    rw [ControlPlane.acts_nil_iff.1 hend, ControlPlane.username?, hdocument, Option.bind_some, hfind]
    -- The version of a document does not matter for what it says.
    have hmem : principal ∈ changed.mappings.forUsername principal :=
      mem_forUsername_of_find (findUsername?_appendSelf happend hfind (hback document hdocument))
    exact ⟨rfl, hbindings, _, hafter, hmem⟩

end AwsAuth

/-! ### Bindings in a list -/

namespace ControlPlane

variable {bindings : List Binding} {b c : Binding} {role : RoleTarget} {scope place : Scope}

theorem sameObject_iff : sameObject b c = true ↔ c.place = b.place := by
  simp only [sameObject, Binding.place, Bool.and_eq_true, decide_eq_true_eq, Prod.mk.injEq,
    and_assoc]
  exact ⟨fun h => ⟨h.1.symm, h.2.1.symm, h.2.2.symm⟩, fun h => ⟨h.1.symm, h.2.1.symm, h.2.2.symm⟩⟩

/-- What is replaced is replaced in its place. -/
theorem replaceFirst_eq_putList (h : ∃ c ∈ bindings, c.place = b.place) :
    replaceFirst b (sameObject b) bindings = BindingStore.putList b bindings := by
  induction bindings with
  | nil =>
      obtain ⟨c, hc, -⟩ := h
      cases hc
  | cons d rest ih =>
      unfold replaceFirst BindingStore.putList
      by_cases hplace : d.place = b.place
      · rw [if_pos hplace, if_pos (sameObject_iff.2 hplace)]
      · rw [if_neg hplace, if_neg fun hsame => hplace (sameObject_iff.1 hsame), ih]
        obtain ⟨c, hc, hcplace⟩ := h
        rcases List.mem_cons.1 hc with rfl | hrest
        · exact absurd hcplace hplace
        · exact ⟨c, hrest, hcplace⟩

theorem isNamed_iff {ns : Option String} {name : String} :
    isNamed ns name b = true ↔ b.place = BindingStore.placeNamed ns name := by
  unfold isNamed BindingStore.placeNamed Binding.place
  cases ns with
  | none => cases hreach : b.reach <;> simp [Binding.ns?, hreach]
  | some ns => simp [and_assoc]

/-- In distinct places, a deletion by name takes away what is in the place and nothing else. -/
theorem mem_eraseP_isNamed {ns : Option String} {name : String}
    (h : bindings.Pairwise fun a b => a.place ≠ b.place) :
    c ∈ bindings.eraseP (isNamed ns name) ↔
      c ∈ bindings ∧ c.place ≠ BindingStore.placeNamed ns name := by
  induction bindings with
  | nil => simp
  | cons d rest ih =>
      obtain ⟨hd, hrest⟩ := List.pairwise_cons.1 h
      rw [List.eraseP_cons]
      cases hnamed : isNamed ns name d with
      | true =>
          have hplace := isNamed_iff.1 hnamed
          rw [cond_true, List.mem_cons]
          refine ⟨fun hc => ⟨Or.inr hc, hplace ▸ (hd c hc).symm⟩, ?_⟩
          intro hin
          obtain ⟨rfl | hc, hne⟩ := hin
          · exact absurd hplace hne
          · exact hc
      | false =>
          have hplace : d.place ≠ BindingStore.placeNamed ns name := by
            intro hplace
            rw [isNamed_iff.2 hplace] at hnamed
            cases hnamed
          rw [cond_false, List.mem_cons, List.mem_cons, ih hrest]
          refine ⟨?_, ?_⟩
          · intro hin
            rcases hin with rfl | ⟨hc, hne⟩
            · exact ⟨Or.inl rfl, hplace⟩
            · exact ⟨Or.inr hc, hne⟩
          · intro hin
            obtain ⟨rfl | hc, hne⟩ := hin
            · exact Or.inl rfl
            · exact Or.inr ⟨hc, hne⟩

/-! ### Writes -/

theorem act_createBinding_ok (h : (plane.act (.createBinding b)).1 = .ok ()) :
    (plane.act (.createBinding b)).2 = { plane with bindings := plane.bindings ++ [b] } := by
  unfold act createBinding at *
  by_cases hany : plane.bindings.any (sameObject b) = true
  · simp only [if_pos hany] at h
    cases h
  · simp only [if_neg hany]
    rfl

theorem act_updateBinding_ok (h : (plane.act (.updateBinding b)).1 = .ok ()) :
    (∃ c ∈ plane.bindings, c.place = b.place) ∧
      (plane.act (.updateBinding b)).2 =
        { plane with bindings := BindingStore.putList b plane.bindings } := by
  unfold act updateBinding at *
  by_cases hany : plane.bindings.any (sameObject b) = true
  · obtain ⟨c, hc, hsame⟩ := List.any_eq_true.1 hany
    have hthere : ∃ c ∈ plane.bindings, c.place = b.place := ⟨c, hc, sameObject_iff.1 hsame⟩
    refine ⟨hthere, ?_⟩
    simp only [if_pos hany]
    rw [← replaceFirst_eq_putList hthere]
    rfl
  · simp only [if_neg hany] at h
    cases h

/-- What is there can be deleted. -/
theorem act_deleteBinding {ns : Option String} {name : String} (hb : b ∈ plane.bindings)
    (hplace : BindingStore.placeNamed ns name = b.place) :
    plane.act (.deleteBinding ns name) =
      (.ok (), { plane with bindings := plane.bindings.eraseP (isNamed ns name) }) := by
  have hany : plane.bindings.any (isNamed ns name) = true :=
    List.any_eq_true.2 ⟨b, hb, isNamed_iff.2 hplace.symm⟩
  unfold act deleteBinding
  simp only [if_pos hany]
  rfl

/-- A listing that was answered gives the bindings of the role at the scope. -/
theorem Acts.listing {listed : RoleBindings} (scope : Scope)
    (h : plane.Acts mayFail (⟨.matchingBindings role, .ok listed⟩ :: history) after) :
    listed.narrow scope = plane.bindings.filter (fun b => b.isOf role scope) ∧
      plane.Acts mayFail history after := by
  obtain ⟨hlisted, hacts⟩ := h.of_ok
  rw [← Except.ok.inj hlisted, RoleBindings.narrow_ofList]
  exact ⟨rfl, hacts⟩

end ControlPlane

/-! ### Grants -/

section Grant

variable {role : RoleTarget} {scope : Scope}

/-- A grant that got its listing leaves the user listed. -/
theorem RoleTarget.lists_of_granted {listed : RoleBindings} {result : GrantResult}
    (h : Granted role scope username (listed.narrow scope) history result)
    (hacts : plane.Acts mayFail (⟨.matchingBindings role, .ok listed⟩ :: history) after)
    (hgroups : ∀ b ∈ plane.bindings, ∀ s ∈ b.subjects, s.kind = Subject.userKind →
      s.inRbacGroup = true) :
    after.awsAuth = plane.awsAuth ∧
      ∃ b ∈ after.bindings, b.isOf role scope = true ∧
        ∃ s ∈ b.subjects, s.isUser username = true ∧ s.inRbacGroup = true := by
  obtain ⟨hlisted, hacts⟩ := hacts.listing scope
  rw [hlisted] at h
  cases h with
  | @held b hb hu =>
      obtain rfl := ControlPlane.acts_nil_iff.1 hacts
      obtain ⟨hmem, hof⟩ := List.mem_filter.1 hb
      obtain ⟨s, hs, huser⟩ := Binding.hasUser_iff.1 hu
      exact ⟨rfl, b, hmem, hof, s, hs, huser, hgroups b hmem s hs (Binding.isUser_iff.1 huser).1⟩
  | @added b hnone hb =>
      obtain ⟨hanswer, hend⟩ := hacts.of_ok
      obtain ⟨-, hafter⟩ := ControlPlane.act_updateBinding_ok hanswer
      rw [ControlPlane.acts_nil_iff.1 hend, hafter]
      refine ⟨rfl, b.addUser username, BindingStore.mem_putList_self, (List.mem_filter.1 hb).2,
        .user username, ?_, Binding.isUser_user.2 rfl, rfl⟩
      rw [Binding.subjects_addUser]
      exact List.mem_append_right _ (List.mem_singleton_self _)
  | created hnone =>
      obtain ⟨hanswer, hend⟩ := hacts.of_ok
      rw [ControlPlane.acts_nil_iff.1 hend, ControlPlane.act_createBinding_ok hanswer]
      refine ⟨rfl, _, List.mem_append_right _ (List.mem_singleton_self _),
        Binding.isOf_newForUser, .user username, List.mem_singleton_self _, ?_, rfl⟩
      exact Binding.isUser_user.2 rfl

/-- **A grant that succeeded leaves the principal behind a username that a binding of the role at
the scope lists.** -/
theorem Errand.lists_of_grant {result : Errand.Result}
    (h : After ((⟨.grant, principal, role, scope⟩ : Errand).request AwsAuth.directory).run history
      (.done (.ok result)))
    (hacts : plane.Acts mayFail history after)
    (hback : ∀ document, plane.awsAuth = some document → document.ReadsBack principal)
    (hgroups : ∀ b ∈ plane.bindings, ∀ s ∈ b.subjects, s.kind = Subject.userKind →
      s.inRbacGroup = true) :
    Arn.isUserOrRole principal = true ∧
      (∃ document, after.awsAuth = some document ∧
        principal ∈ document.mappings.forUsername ((plane.username? principal).getD principal)) ∧
      ∃ b ∈ after.bindings, b.isOf role scope = true ∧
        ∃ s ∈ b.subjects, s.isUser ((plane.username? principal).getD principal) = true ∧
          s.inRbacGroup = true := by
  have hends := Errand.ends_of_after AwsAuth.directory_offBindings h
  generalize houtcome : (.ok result : Outcome Errand.Result) = outcome at hends
  cases hends with
  | failed => cases houtcome
  | unmapped haction => cases haction
  | revoked haction => cases haction
  | @granted before rest username listed result haction ha hname hgranted =>
      rw [Errand.lookup_of_grant rfl] at hname
      obtain ⟨resolved, first, last, rfl, hresolve, hpure⟩ := after_bind_ok_iff.1 hname
      obtain ⟨rfl, heq⟩ := after_pure_iff.1 hpure
      cases heq
      rw [List.append_nil] at hacts
      obtain ⟨mid, hfirst, hrest⟩ := ControlPlane.acts_append_iff.1 hacts
      obtain ⟨hclass, husername, hbindings, document, hdocument, hmem⟩ :=
        AwsAuth.maps_of_resolveOrCreate hresolve hfirst hback
      rw [← hbindings] at hgroups
      obtain ⟨hsame, b, hb, hof, s, hs, huser, hgroup⟩ :=
        RoleTarget.lists_of_granted hgranted hrest hgroups
      rw [← husername]
      exact ⟨hclass, ⟨document, hsame.trans hdocument, hmem⟩, b, hb, hof, s, hs, huser, hgroup⟩

end Grant

/-! ### Revokes -/

section Revoke

variable {role target : RoleTarget} {scope place : Scope} {b c : Binding} {s : Subject}
  {before left holding : List Binding}

/-- The bindings are as before, but for one that a user was taken out of. -/
structure Removed (username : String) (b : Binding) (before left : List Binding) : Prop where
  distinct : left.Pairwise fun a b => a.place ≠ b.place
  mem_iff : ∀ c, c ∈ left ↔
    c ∈ before ∧ c.place ≠ b.place ∨ c = b.removeUser username ∧ c.subjects ≠ []

theorem removed_of_removeFrom (hsure : ∀ ns name, ¬mayFail (.deleteBinding ns name))
    (hdistinct : plane.bindings.Pairwise fun a b => a.place ≠ b.place) (hb : b ∈ plane.bindings)
    (hat : b.isAt scope = true)
    (h : After (RoleTarget.removeFrom username b).run history (.done (.ok ())))
    (hacts : plane.Acts mayFail history after) :
    Removed username b plane.bindings after.bindings := by
  rcases RoleTarget.removeFrom_done hat h with ⟨hne, rfl⟩ | ⟨hnil, reply, rfl, -⟩
  · obtain ⟨hanswer, hend⟩ := hacts.of_ok
    obtain ⟨-, hafter⟩ := ControlPlane.act_updateBinding_ok hanswer
    rw [ControlPlane.acts_nil_iff.1 hend, hafter]
    refine ⟨BindingStore.distinct_putList hdistinct, fun c => ?_⟩
    rw [BindingStore.mem_putList hdistinct, Binding.place_removeUser, or_comm]
    refine or_congr_right ⟨fun hc => ⟨hc, hc ▸ hne⟩, fun hc => hc.1⟩
  · have hplace := BindingStore.placeNamed_eq hat
    obtain ⟨-, hend⟩ := hacts.of_sure (hsure _ _)
    rw [ControlPlane.act_deleteBinding hb hplace] at hend
    rw [ControlPlane.acts_nil_iff.1 hend]
    refine ⟨hdistinct.sublist List.eraseP_sublist, fun c => ?_⟩
    rw [ControlPlane.mem_eraseP_isNamed hdistinct, hplace]
    refine ⟨Or.inl, fun hc => hc.resolve_right ?_⟩
    intro hin
    obtain ⟨rfl, hne⟩ := hin
    exact hne hnil

/-- With one more binding gone through, what is bound is what is left of the bindings before. -/
theorem Removed.exists_iff (h : Removed username b before left)
    (hdistinct : before.Pairwise fun a b => a.place ≠ b.place) (hb : b ∈ before)
    (rest : List Binding) :
    (∃ c ∈ left, c.isOf role place = true ∧ s ∈ c.subjects ∧
        ¬(c ∈ rest ∧ s.isUser username = true)) ↔
      ∃ c ∈ before, c.isOf role place = true ∧ s ∈ c.subjects ∧
        ¬(c ∈ b :: rest ∧ s.isUser username = true) := by
  refine ⟨?_, ?_⟩
  · intro hin
    obtain ⟨c, hc, hof, hs, hnot⟩ := hin
    rcases (h.mem_iff c).1 hc with ⟨hbefore, hplace⟩ | ⟨rfl, -⟩
    · refine ⟨c, hbefore, hof, hs, fun hboth => ?_⟩
      rcases List.mem_cons.1 hboth.1 with rfl | hrest
      · exact hplace rfl
      · exact hnot ⟨hrest, hboth.2⟩
    · rw [Binding.subjects_removeUser, List.mem_filter] at hs
      refine ⟨b, hb, hof, hs.1, fun hboth => ?_⟩
      rw [hboth.2] at hs
      cases hs.2
  · intro hin
    obtain ⟨c, hc, hof, hs, hnot⟩ := hin
    by_cases hplace : c.place = b.place
    · -- In its place there is only the binding that the user was taken out of.
      have hsymm : Std.Symm fun a b : Binding => a.place ≠ b.place := ⟨fun _ _ h => Ne.symm h⟩
      have hcb : c = b := by
        by_contra hne
        exact hdistinct.forall hc hb hne hplace
      subst hcb
      have huser : s.isUser username = false := by
        rw [← Bool.not_eq_true]
        exact fun huser => hnot ⟨List.mem_cons_self, huser⟩
      have hleft : s ∈ (c.removeUser username).subjects := by
        rw [Binding.subjects_removeUser, List.mem_filter, huser]
        exact ⟨hs, rfl⟩
      refine ⟨c.removeUser username, (h.mem_iff _).2 (Or.inr ⟨rfl, List.ne_nil_of_mem hleft⟩),
        hof, hleft, fun hboth => ?_⟩
      rw [huser] at hboth
      cases hboth.2
    · refine ⟨c, (h.mem_iff c).2 (Or.inl ⟨hc, hplace⟩), hof, hs, fun hboth => ?_⟩
      exact hnot ⟨List.mem_cons_of_mem _ hboth.1, hboth.2⟩

theorem binds_of_removeFromAll (hsure : ∀ ns name, ¬mayFail (.deleteBinding ns name))
    (hdistinct : plane.bindings.Pairwise fun a b => a.place ≠ b.place)
    (hholding : holding.Pairwise fun a b => a.place ≠ b.place)
    (hin : ∀ b ∈ holding, b ∈ plane.bindings ∧ b.isAt scope = true)
    (h : After (RoleTarget.removeFromAll username holding).run history (.done (.ok ())))
    (hacts : plane.Acts mayFail history after) :
    Binds after.bindings role place s ↔
      ∃ c ∈ plane.bindings, c.isOf role place = true ∧ s ∈ c.subjects ∧
        ¬(c ∈ holding ∧ s.isUser username = true) := by
  induction holding generalizing plane history with
  | nil =>
      obtain ⟨rfl, -⟩ := after_pure_iff.1 h
      rw [ControlPlane.acts_nil_iff.1 hacts]
      simp [Binds]
  | cons b rest ih =>
      obtain ⟨_, first, last, rfl, hfirst, hlast⟩ := after_bind_ok_iff.1 h
      obtain ⟨mid, hmid, hrest⟩ := ControlPlane.acts_append_iff.1 hacts
      obtain ⟨hb, hpairs⟩ := List.pairwise_cons.1 hholding
      obtain ⟨hmem, hat⟩ := hin b List.mem_cons_self
      have hremoved := removed_of_removeFrom hsure hdistinct hmem hat hfirst hmid
      have hstill : ∀ c ∈ rest, c ∈ mid.bindings ∧ c.isAt scope = true := by
        intro c hc
        obtain ⟨hbefore, hcat⟩ := hin c (List.mem_cons_of_mem _ hc)
        exact ⟨(hremoved.mem_iff c).2 (Or.inl ⟨hbefore, (hb c hc).symm⟩), hcat⟩
      rw [ih hremoved.distinct hpairs hstill hlast hrest]
      exact hremoved.exists_iff hdistinct hmem rest

/-- A subject of a binding that is gone through is taken out if it is the user. -/
theorem mem_holding_iff {bindings : List Binding} (hb : b ∈ bindings)
    (hof : b.isOf role place = true) (hs : s ∈ b.subjects) :
    b ∈ RoleTarget.holding username (bindings.filter fun b => b.isOf role scope) ∧
        s.isUser username = true ↔
      place = scope ∧ s.kind = Subject.userKind ∧ username = s.name := by
  rw [Binding.isUser_iff, RoleTarget.holding, List.mem_filter, List.mem_filter]
  refine ⟨?_, ?_⟩
  · intro hin
    obtain ⟨⟨⟨-, hscope⟩, -⟩, hkind, hname⟩ := hin
    exact ⟨Binding.isAt_inj (Bool.and_eq_true _ _ ▸ hscope).1 (Bool.and_eq_true _ _ ▸ hof).1,
      hkind, hname.symm⟩
  · intro hin
    obtain ⟨rfl, hkind, rfl⟩ := hin
    exact ⟨⟨⟨hb, hof⟩, Binding.hasUser_iff.2 ⟨s, hs, Binding.isUser_iff.2 ⟨hkind, rfl⟩⟩⟩, hkind, rfl⟩

/-- A revoke that got its listing takes the user out of the bindings of the role at the scope. -/
theorem RoleTarget.binds_of_revoked {listed : RoleBindings} {result : RevokeResult}
    (hsure : ∀ ns name, ¬mayFail (.deleteBinding ns name))
    (hdistinct : plane.bindings.Pairwise fun a b => a.place ≠ b.place)
    (h : Revoked username (listed.narrow scope) history (.ok result))
    (hacts : plane.Acts mayFail (⟨.matchingBindings role, .ok listed⟩ :: history) after) :
    Binds after.bindings role place s ↔
      Binds plane.bindings role place s ∧
        ¬(place = scope ∧ s.kind = Subject.userKind ∧ username = s.name) := by
  obtain ⟨hlisted, hacts⟩ := hacts.listing scope
  rw [hlisted] at h
  have hbinds : Binds after.bindings role place s ↔
      ∃ b ∈ plane.bindings, b.isOf role place = true ∧ s ∈ b.subjects ∧
        ¬(b ∈ RoleTarget.holding username (plane.bindings.filter fun b => b.isOf role scope) ∧
          s.isUser username = true) := by
    cases h with
    | absent hnil =>
        rw [ControlPlane.acts_nil_iff.1 hacts, hnil]
        simp [Binds]
    | taken _ hloop =>
        have hin : ∀ b ∈ RoleTarget.holding username
            (plane.bindings.filter fun b => b.isOf role scope),
            b ∈ plane.bindings ∧ b.isAt scope = true := by
          intro b hb
          obtain ⟨hb, hof⟩ := List.mem_filter.1 (List.mem_filter.1 hb).1
          exact ⟨hb, (Bool.and_eq_true _ _ ▸ hof).1⟩
        exact binds_of_removeFromAll hsure hdistinct ((hdistinct.filter _).filter _) hin hloop hacts
  rw [hbinds]
  refine ⟨?_, ?_⟩
  · intro hin
    obtain ⟨b, hb, hof, hs, hnot⟩ := hin
    exact ⟨⟨b, hb, hof, hs⟩, fun h => hnot ((mem_holding_iff hb hof hs).2 h)⟩
  · intro hin
    obtain ⟨⟨b, hb, hof, hs⟩, hnot⟩ := hin
    exact ⟨b, hb, hof, hs, fun h => hnot ((mem_holding_iff hb hof hs).1 h)⟩

/-- **After a revoke that succeeded the same subjects are bound as before**, but for those at the
scope that are the user that the principal has.  A deletion must not fail, because one that
finds nothing to delete counts as done. -/
theorem Errand.binds_of_revoke {result : Errand.Result}
    (hsure : ∀ ns name, ¬mayFail (.deleteBinding ns name))
    (hdistinct : plane.bindings.Pairwise fun a b => a.place ≠ b.place)
    (h : After ((⟨.revoke, principal, role, scope⟩ : Errand).request AwsAuth.directory).run history
      (.done (.ok result)))
    (hacts : plane.Acts mayFail history after) :
    Binds after.bindings role place s ↔
      Binds plane.bindings role place s ∧
        ¬(place = scope ∧ s.kind = Subject.userKind ∧
          plane.username? principal = some s.name) := by
  have hends := Errand.ends_of_after AwsAuth.directory_offBindings h
  generalize houtcome : (.ok result : Outcome Errand.Result) = outcome at hends
  cases hends with
  | failed => cases houtcome
  | granted haction => cases haction
  | unmapped haction hname =>
      rw [Errand.lookup_of_revoke rfl] at hname
      obtain ⟨husername, rfl⟩ := AwsAuth.acts_resolve hname hacts
      rw [← husername]
      simp [Binds]
  | @revoked first rest username listed outcome haction ha hname hrevoked =>
      rw [Errand.lookup_of_revoke rfl] at hname
      obtain ⟨mid, hfirst, hrest⟩ := ControlPlane.acts_append_iff.1 hacts
      obtain ⟨husername, rfl⟩ := AwsAuth.acts_resolve hname hfirst
      rw [← husername, Option.some_inj]
      cases outcome with
      | error fault => cases houtcome
      | ok result => exact RoleTarget.binds_of_revoked hsure hdistinct hrevoked hrest

end Revoke

/-! ### Requests of a connector -/

namespace Connector

variable {connector : Connector} {holder : ResourceId} {entitlement : String} {role : RoleTarget}
  {scope : Scope}

/-- A grant of the membership that an id names is one of the role at the scope. -/
theorem errand_of_grant {result : GrantResult}
    (hnames : Provisioning.Names entitlement (.membership role scope))
    (h : After (connector.grant holder entitlement).request.run history (.done (.ok result))) :
    After ((⟨.grant, holder.resource, role, scope⟩ : Errand).request AwsAuth.directory).run history
      (.done (.ok (.granted result))) := by
  rw [connector.request_grant] at h
  have hdone := hnames.done_of_checked h
  exact after_bind_ok_iff.2 ⟨result, history, [], (List.append_nil _).symm, hdone, .start _⟩

/-- So is a revoke. -/
theorem errand_of_revoke {result : RevokeResult}
    (hnames : Provisioning.Names entitlement (.membership role scope))
    (h : After (connector.revoke holder entitlement).request.run history (.done (.ok result))) :
    After ((⟨.revoke, holder.resource, role, scope⟩ : Errand).request AwsAuth.directory).run history
      (.done (.ok (.revoked result))) := by
  rw [connector.request_revoke] at h
  have hdone := hnames.done_of_checked h
  exact after_bind_ok_iff.2 ⟨result, history, [], (List.append_nil _).symm, hdone, .start _⟩

end Connector

end ClusterAccess
