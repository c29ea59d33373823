/-
Grants and revokes one after another, as operations on a plain set.

The bindings of a store may overlap in every way: several of one role at one scope, made by
hand or by the library, with subjects listed twice or not at all.  What counts is who is
listed, and that is a set: an `Access` is in it when some binding of the role at the scope
lists the user.  It is the namespace of a binding that says which role of a name is meant,
so there are accesses only where the role can be bound.

While nobody else writes, a grant that succeeds puts one access into the set, and a revoke
that succeeds takes one out.  Each tells by its result whether the access was there before,
and has written something only if it says so.  A request that fails changes nothing.

Two things carry this.  A revoke goes through its bindings one by one, and `TakesOut` says
what is left after any number of them.  And what was listed is still what is stored when the
write comes, so that no write is refused.
-/
import ClusterAccess.Proofs.Errands

namespace ClusterAccess

open Program (After History)
open RoleTarget (removeFrom removeFromAll holding Granted Revoked)

namespace BindingStore

variable {store mid after : BindingStore} {b : Binding} {bindings : List Binding}
  {role : RoleTarget} {scope : Scope} {username other : String}
  {history : History Call Call.Reply}

/-! ### Taking a user out of bindings -/

/-- A user has been taken out of bindings: it is listed in the others only, and everybody else
is listed where they were. -/
structure TakesOut (username : String) (taken : List Binding) (store after : BindingStore) :
    Prop where
  user : ∀ c, c.hasUser username = true →
    (c ∈ after.bindings ↔ c ∈ store.bindings ∧ c ∉ taken)
  others : ∀ role scope other, other ≠ username →
    (after.Lists role scope other ↔ store.Lists role scope other)

theorem TakesOut.refl : TakesOut username [] store store where
  user c _ := by simp
  others _ _ _ _ := Iff.rfl

theorem TakesOut.cons (h : TakesOut username [b] store mid)
    (hrest : TakesOut username bindings mid after) :
    TakesOut username (b :: bindings) store after where
  user c hu := by
    rw [hrest.user c hu, h.user c hu, List.mem_singleton, List.mem_cons, not_or, and_assoc]
  others role scope other hne :=
    (hrest.others role scope other hne).trans (h.others role scope other hne)

theorem takesOut_put (hb : b ∈ store.bindings) :
    TakesOut username [b] store (store.put (b.removeUser username)) where
  user c hu := by
    rw [mem_put, List.mem_singleton]
    refine ⟨fun h => ?_, fun h => Or.inr ⟨h.1, fun hplace => h.2 (eq_of_place_eq h.1 hb hplace)⟩⟩
    rcases h with rfl | ⟨hc, hplace⟩
    · exact absurd rfl (Binding.hasUser_removeUser.1 hu).2
    · refine ⟨hc, fun heq => hplace ?_⟩
      rw [heq, Binding.place_removeUser]
  others role scope other hne := by
    rw [lists_put_removeUser hb]
    simp [Lists, hne]

theorem takesOut_drop (hb : b ∈ store.bindings) (hnil : (b.removeUser username).subjects = []) :
    TakesOut username [b] store (store.drop b.place) where
  user c _ := by
    rw [mem_drop, List.mem_singleton]
    refine and_congr_right fun hc => not_congr ⟨eq_of_place_eq hc hb, fun heq => by rw [heq]⟩
  others role scope other hne := by
    rw [lists_drop hb hnil]
    simp [Lists, hne]

/-- A binding that is as it was read loses the user. -/
theorem takesOut_of_removeFrom (hb : b ∈ store.bindings) (hat : b.isAt scope = true)
    {outcome : Outcome Unit} (h : After (removeFrom username b).run history (.done outcome))
    (hs : ServesAll store history after) :
    outcome = .ok () ∧ TakesOut username [b] store after := by
  rcases RoleTarget.removeFrom_done hat h with ⟨-, rfl⟩ | ⟨hnil, reply, rfl, houtcome⟩
  · obtain ⟨mid, hserve, hend⟩ := servesAll_cons_iff.1 hs
    obtain rfl := servesAll_nil_iff.1 hend
    have hanswer : store.answer (.updateBinding (b.removeUser username)) =
        some (.ok (), store.put (b.removeUser username)) :=
      congrArg some (replace_of_mem hb rfl rfl)
    obtain ⟨rfl, rfl⟩ := (serves_iff_of_answer hanswer).1 hserve
    exact ⟨rfl, takesOut_put hb⟩
  · obtain ⟨mid, hserve, hend⟩ := servesAll_cons_iff.1 hs
    obtain rfl := servesAll_nil_iff.1 hend
    have hanswer : store.answer (.deleteBinding b.ns? b.name) =
        some (.ok (), store.drop b.place) :=
      congrArg some (delete_of_mem hb (placeNamed_eq hat))
    obtain ⟨rfl, rfl⟩ := (serves_iff_of_answer hanswer).1 hserve
    exact ⟨houtcome.2 (Or.inl rfl), takesOut_drop hb hnil⟩

/-- The loop of a revoke: each binding is still as it was listed when its turn comes. -/
theorem takesOut_of_removeFromAll {outcome : Outcome Unit}
    (hmem : ∀ b ∈ bindings, b ∈ store.bindings ∧ b.hasUser username = true ∧ b.isAt scope = true)
    (hnodup : bindings.Nodup)
    (h : After (removeFromAll username bindings).run history (.done outcome))
    (hs : ServesAll store history after) :
    outcome = .ok () ∧ TakesOut username bindings store after := by
  induction bindings generalizing store history with
  | nil =>
      obtain ⟨rfl, houtcome⟩ := Request.after_pure_iff.1 h
      obtain rfl := servesAll_nil_iff.1 hs
      exact ⟨Program.done.inj houtcome, .refl⟩
  | cons b rest ih =>
      obtain ⟨hb, -, hat⟩ := hmem b List.mem_cons_self
      obtain ⟨hnot, hrest⟩ := List.nodup_cons.1 hnodup
      rcases Request.after_bind_done_iff.1 h with
        ⟨fault, -, hfirst⟩ | ⟨_, before, later, rfl, hfirst, hloop⟩
      · cases (takesOut_of_removeFrom hb hat hfirst hs).1
      obtain ⟨mid, hmid, hafter⟩ := servesAll_append_iff.1 hs
      have hout := (takesOut_of_removeFrom hb hat hfirst hmid).2
      have hstill : ∀ c ∈ rest,
          c ∈ mid.bindings ∧ c.hasUser username = true ∧ c.isAt scope = true := by
        intro c hc
        obtain ⟨hcs, hu, hcat⟩ := hmem c (List.mem_cons_of_mem _ hc)
        refine ⟨(hout.user c hu).2 ⟨hcs, fun hcb => hnot ?_⟩, hu, hcat⟩
        rwa [← List.mem_singleton.1 hcb]
      obtain ⟨houtcome, hlater⟩ := ih hstill hrest hloop hafter
      exact ⟨houtcome, hout.cons hlater⟩

end BindingStore

/-! ### The set -/

/-- That a user has a role at a scope. -/
structure Access where
  role : RoleTarget
  scope : Scope
  username : String
  deriving DecidableEq, Repr

namespace BindingStore

variable {store after : BindingStore} {b : Binding} {role : RoleTarget} {scope : Scope}
  {username : String}

/-- What the bindings of a store give. -/
def access (store : BindingStore) : Set Access :=
  { a | a.role.admits a.scope = true ∧ store.Lists a.role a.scope a.username }

theorem access_eq_insert (ha : role.admits scope = true) (hof : b.isOf role scope = true)
    (h : ∀ r s v, after.Lists r s v ↔ store.Lists r s v ∨ b.isOf r s = true ∧ v = username) :
    after.access = insert ⟨role, scope, username⟩ store.access := by
  ext ⟨r, s, v⟩
  rw [Set.mem_insert_iff]
  show (r.admits s = true ∧ after.Lists r s v) ↔
    (⟨r, s, v⟩ : Access) = ⟨role, scope, username⟩ ∨ r.admits s = true ∧ store.Lists r s v
  rw [h, Access.mk.injEq]
  refine ⟨fun hin => ?_, fun hin => ?_⟩
  · obtain ⟨har, hlists | ⟨hofr, hv⟩⟩ := hin
    · exact Or.inr ⟨har, hlists⟩
    · obtain ⟨hr, hs⟩ := Binding.isOf_inj hof hofr ha har
      exact Or.inl ⟨hr, hs, hv⟩
  · rcases hin with ⟨rfl, rfl, rfl⟩ | ⟨har, hlists⟩
    · exact ⟨ha, Or.inr ⟨hof, rfl⟩⟩
    · exact ⟨har, Or.inl hlists⟩

/-- Taken out of all the bindings of a role at a scope, a user loses that access and no other. -/
theorem TakesOut.access (ha : role.admits scope = true)
    (h : TakesOut username (holding username ((store.matching role).narrow scope)) store after) :
    after.access = store.access \ {⟨role, scope, username⟩} := by
  ext ⟨r, s, v⟩
  rw [Set.mem_sdiff, Set.mem_singleton_iff, Access.mk.injEq]
  show (r.admits s = true ∧ after.Lists r s v) ↔
    (r.admits s = true ∧ store.Lists r s v) ∧ ¬(r = role ∧ s = scope ∧ v = username)
  rw [and_assoc]
  refine and_congr_right fun har => ?_
  by_cases hv : v = username
  · subst hv
    have htaken : ∀ c ∈ store.bindings, c.hasUser v = true →
        (c ∈ holding v ((store.matching role).narrow scope) ↔ c.isOf role scope = true) := by
      intro c hc hu
      rw [holding, narrow_matching ha, List.mem_filter, List.mem_filter]
      simp [hc, hu]
    refine ⟨fun hafter => ?_, fun hstore => ?_⟩
    · obtain ⟨c, hc, hof, hu⟩ := hafter
      obtain ⟨hcs, hnot⟩ := (h.user c hu).1 hc
      refine ⟨⟨c, hcs, hof, hu⟩, fun heq => hnot ((htaken c hcs hu).2 ?_)⟩
      rwa [← heq.1, ← heq.2.1]
    · obtain ⟨⟨c, hcs, hof, hu⟩, hne⟩ := hstore
      refine ⟨c, (h.user c hu).2 ⟨hcs, fun hin => hne ?_⟩, hof, hu⟩
      obtain ⟨hr, hs⟩ := Binding.isOf_inj ((htaken c hcs hu).1 hin) hof ha har
      exact ⟨hr, hs, rfl⟩
  · rw [h.others r s v hv]
    exact ⟨fun hlists => ⟨hlists, fun heq => hv heq.2.2⟩, fun hin => hin.1⟩

end BindingStore

/-! ### Requests on the set -/

/-- A request that was carried out: the calls that it made with their replies, and the outcome. -/
structure Served where
  errand : Errand
  history : History Call Call.Reply
  outcome : Outcome Errand.Result

namespace Served

/-- The access that the request was about, once its username is known. -/
def access (served : Served) (username : String) : Access :=
  ⟨served.errand.role, served.errand.scope, username⟩

/-- Some call of the request was a write of a binding. -/
def Wrote (served : Served) : Prop :=
  ∃ event ∈ served.history, event.1.writesBinding = true

end Served

theorem not_wrote_iff {e : Errand} {history : History Call Call.Reply}
    {outcome : Outcome Errand.Result} :
    ¬(⟨e, history, outcome⟩ : Served).Wrote ↔ ∀ event ∈ history, event.1.writesBinding = false := by
  refine ⟨?_, ?_⟩
  · intro hnot event hevent
    by_contra hwrites
    exact hnot ⟨event, hevent, by simpa using hwrites⟩
  · intro hnone hwrote
    obtain ⟨event, hevent, hwrites⟩ := hwrote
    rw [hnone event hevent] at hwrites
    cases hwrites

theorem not_wrote_append {e : Errand} {before : History Call Call.Reply} {role : RoleTarget}
    {listed : RoleBindings} {outcome : Outcome Errand.Result}
    (h : ∀ event ∈ before, event.1.writesBinding = false) :
    ¬(⟨e, before ++ [⟨.matchingBindings role, .ok listed⟩], outcome⟩ : Served).Wrote := by
  rw [not_wrote_iff]
  intro event hevent
  rcases List.mem_append.1 hevent with hevent | hevent
  · exact h event hevent
  · rw [List.mem_singleton.1 hevent]
    rfl

theorem wrote_append {e : Errand} {before rest : History Call Call.Reply} {role : RoleTarget}
    {listed : RoleBindings} {outcome : Outcome Errand.Result}
    (h : ∃ event ∈ rest, event.1.writesBinding = true) :
    (⟨e, before ++ ⟨.matchingBindings role, .ok listed⟩ :: rest, outcome⟩ : Served).Wrote := by
  obtain ⟨event, hevent, hwrites⟩ := h
  exact ⟨event, List.mem_append_right _ (List.mem_cons_of_mem _ hevent), hwrites⟩

/-- What a request does to the set, by its outcome. -/
inductive SetStep (directory : Directory) (set : Set Access) (served : Served) : Set Access → Prop
  /-- A request that failed changes nothing. -/
  | failed {fault : Fault} (h : served.outcome = .error fault) : SetStep directory set served set
  /-- A grant that was applied puts the access in, which was not there. -/
  | granted {username : String} (h : served.outcome = .ok (.granted .applied))
      (hname : served.errand.Resolves directory served.history (some username))
      (hnew : served.access username ∉ set) (hwrote : served.Wrote) :
      SetStep directory set served (insert (served.access username) set)
  /-- A grant that was satisfied already has written nothing. -/
  | held {username : String} (h : served.outcome = .ok (.granted .alreadySatisfied))
      (hname : served.errand.Resolves directory served.history (some username))
      (hheld : served.access username ∈ set) (hwrote : ¬served.Wrote) :
      SetStep directory set served set
  /-- A revoke that was applied takes the access out, which was there. -/
  | revoked {username : String} (h : served.outcome = .ok (.revoked .applied))
      (hname : served.errand.Resolves directory served.history (some username))
      (hheld : served.access username ∈ set) (hwrote : served.Wrote) :
      SetStep directory set served (set \ {served.access username})
  /-- A revoke of an access that is not there has written nothing. -/
  | absent {username : String} (h : served.outcome = .ok (.revoked .alreadyRevoked))
      (hname : served.errand.Resolves directory served.history (some username))
      (hnot : served.access username ∉ set) (hwrote : ¬served.Wrote) :
      SetStep directory set served set
  /-- Nor has the revoke of a principal without a username. -/
  | unmapped (h : served.outcome = .ok (.revoked .alreadyRevoked))
      (hname : served.errand.Resolves directory served.history none) (hwrote : ¬served.Wrote) :
      SetStep directory set served set

/-- One request after another, on the set. -/
inductive SetRun (directory : Directory) : Set Access → List Served → Set Access → Prop
  | nil (set : Set Access) : SetRun directory set [] set
  | cons {set mid after : Set Access} {served : Served} {rest : List Served}
      (h : SetStep directory set served mid) (hrest : SetRun directory mid rest after) :
      SetRun directory set (served :: rest) after

/-- One request after another, on a store: each of them runs to its end, and the store serves its
calls before the next one begins. -/
inductive SerialRun (directory : Directory) :
    BindingStore → List Served → BindingStore → Prop
  | nil (store : BindingStore) : SerialRun directory store [] store
  | cons {store mid after : BindingStore} {served : Served} {rest : List Served}
      (h : After (served.errand.request directory).run served.history (.done served.outcome))
      (hs : BindingStore.ServesAll store served.history mid)
      (hrest : SerialRun directory mid rest after) :
      SerialRun directory store (served :: rest) after

/-! ### The simulation -/

variable {directory : Directory} {store mid after : BindingStore} {role : RoleTarget}
  {scope : Scope} {username : String} {served : Served}

namespace BindingStore

/-- What a request lists is what is stored, whatever its directory did before. -/
theorem ServesAll.listing {before rest : History Call Call.Reply} {listed : RoleBindings}
    (hs : ServesAll store (before ++ ⟨.matchingBindings role, .ok listed⟩ :: rest) after)
    (hquiet : Quiet before) : listed = store.matching role ∧ ServesAll store rest after := by
  obtain ⟨mid, hbefore, hlater⟩ := servesAll_append_iff.1 hs
  obtain rfl := hbefore.eq_of_quiet hquiet
  obtain ⟨mid', hserve, hrest⟩ := servesAll_cons_iff.1 hlater
  obtain ⟨hlisted, rfl⟩ := serves_matching_iff.1 hserve
  exact ⟨Except.ok.inj hlisted, hrest⟩

theorem mem_access_iff (ha : role.admits scope = true) :
    (⟨role, scope, username⟩ : Access) ∈ store.access ↔
      ∃ b ∈ (store.matching role).narrow scope, b.hasUser username = true := by
  rw [← lists_iff_narrow ha]
  exact and_iff_right ha

theorem not_mem_access (ha : role.admits scope = true)
    (hnone : ∀ b ∈ (store.matching role).narrow scope, b.hasUser username = false) :
    (⟨role, scope, username⟩ : Access) ∉ store.access := by
  intro hmem
  obtain ⟨b, hb, hu⟩ := (mem_access_iff ha).1 hmem
  rw [hnone b hb] at hu
  cases hu

theorem mem_narrow_iff (ha : role.admits scope = true) {b : Binding} :
    b ∈ (store.matching role).narrow scope ↔ b ∈ store.bindings ∧ b.isOf role scope = true := by
  rw [narrow_matching ha, List.mem_filter]

/-- A grant that succeeded has put the access into the set, or found it there. -/
theorem access_of_granted {result : GrantResult} {history : History Call Call.Reply}
    (ha : role.admits scope = true)
    (h : Granted role scope username ((store.matching role).narrow scope) history result)
    (hs : ServesAll store history after) :
    result = .alreadySatisfied ∧ history = [] ∧ ⟨role, scope, username⟩ ∈ store.access ∧
        after.access = store.access ∨
      result = .applied ∧ (∃ event ∈ history, event.1.writesBinding = true) ∧
        ⟨role, scope, username⟩ ∉ store.access ∧
        after.access = insert ⟨role, scope, username⟩ store.access := by
  cases h with
  | held hb hu =>
      obtain rfl := servesAll_nil_iff.1 hs
      exact Or.inl ⟨rfl, rfl, (mem_access_iff ha).2 ⟨_, hb, hu⟩, rfl⟩
  | @added b hnone hb =>
      obtain ⟨hbs, hof⟩ := (mem_narrow_iff ha).1 hb
      obtain ⟨mid, hserve, hend⟩ := servesAll_cons_iff.1 hs
      obtain rfl := servesAll_nil_iff.1 hend
      obtain ⟨-, rfl⟩ := hserve.update_ok
      refine Or.inr
        ⟨rfl, ⟨_, List.mem_singleton_self _, rfl⟩, not_mem_access ha hnone, ?_⟩
      exact access_eq_insert ha hof fun _ _ _ => lists_put_addUser hbs
  | created hnone =>
      obtain ⟨mid, hserve, hend⟩ := servesAll_cons_iff.1 hs
      obtain rfl := servesAll_nil_iff.1 hend
      obtain ⟨hfree, rfl⟩ := hserve.create_ok
      refine Or.inr
        ⟨rfl, ⟨_, List.mem_singleton_self _, rfl⟩, not_mem_access ha hnone, ?_⟩
      refine access_eq_insert ha (@Binding.isOf_newForUser role scope username) fun r s v => ?_
      rw [lists_put_of_free hfree, Binding.newForUser_hasUser]

/-- A revoke that has listed the bindings succeeds.  It has taken the access out of the set, or
found it missing. -/
theorem access_of_revoked {outcome : Outcome RevokeResult} {history : History Call Call.Reply}
    (ha : role.admits scope = true)
    (h : Revoked username ((store.matching role).narrow scope) history outcome)
    (hs : ServesAll store history after) :
    outcome = .ok .alreadyRevoked ∧ history = [] ∧ ⟨role, scope, username⟩ ∉ store.access ∧
        after.access = store.access ∨
      outcome = .ok .applied ∧ (∃ event ∈ history, event.1.writesBinding = true) ∧
        ⟨role, scope, username⟩ ∈ store.access ∧
        after.access = store.access \ {⟨role, scope, username⟩} := by
  have hmem : ∀ b ∈ holding username ((store.matching role).narrow scope),
      b ∈ store.bindings ∧ b.hasUser username = true ∧ b.isAt scope = true := by
    intro b hb
    obtain ⟨hnarrow, hu⟩ := List.mem_filter.1 hb
    obtain ⟨hbs, hof⟩ := (mem_narrow_iff ha).1 hnarrow
    exact ⟨hbs, hu, (Bool.and_eq_true _ _ ▸ hof).1⟩
  have hnodup : (holding username ((store.matching role).narrow scope)).Nodup := by
    rw [narrow_matching ha]
    exact ((store.distinct.imp fun hplace heq => hplace (by rw [heq])).filter _).filter _
  cases h with
  | absent hnil =>
      obtain rfl := servesAll_nil_iff.1 hs
      refine Or.inl ⟨rfl, rfl, ?_, rfl⟩
      rw [mem_access_iff ha]
      intro hin
      obtain ⟨c, hc, hu⟩ := hin
      exact List.ne_nil_of_mem (List.mem_filter.2 ⟨hc, hu⟩) hnil
  | taken hne hloop =>
      have hout := (takesOut_of_removeFromAll hmem hnodup hloop hs).2
      obtain ⟨b, hb⟩ := List.exists_mem_of_ne_nil _ hne
      refine Or.inr ⟨rfl, ?_, ?_, hout.access ha⟩
      · -- Without a write the binding would still be there.
        by_contra hnone
        have hquiet : Quiet history := fun event hevent hwrites =>
          absurd ⟨event, hevent, hwrites⟩ hnone
        obtain rfl := hs.eq_of_quiet hquiet
        obtain ⟨hbs, hu, -⟩ := hmem b hb
        exact ((hout.user b hu).1 hbs).2 hb
      · rw [mem_access_iff ha]
        exact ⟨b, (List.mem_filter.1 hb).1, (hmem b hb).2.1⟩
  | stuck hloop => cases (takesOut_of_removeFromAll hmem hnodup hloop hs).1

end BindingStore

/-- What one request does to the store is what it does to the set. -/
theorem setStep_of_ends {e : Errand} {history : History Call Call.Reply}
    {outcome : Outcome Errand.Result} (hoff : directory.OffBindings)
    (h : e.Ends directory history outcome) (hs : BindingStore.ServesAll store history after) :
    SetStep directory store.access ⟨e, history, outcome⟩ after.access := by
  cases h with
  | failed hquiet fault =>
      obtain rfl := hs.eq_of_quiet hquiet
      exact .failed rfl
  | unmapped haction hname =>
      obtain rfl := hs.eq_of_quiet (Errand.quiet_of_off (Errand.makes_lookup hoff) hname)
      refine .unmapped rfl ⟨history, [], (List.append_nil _).symm, hname⟩ ?_
      exact not_wrote_iff.2 (Errand.not_writes_of_off (Errand.makes_lookup hoff) hname)
  | granted haction ha hname hgranted =>
      have hoffname := Errand.not_writes_of_off (Errand.makes_lookup hoff) hname
      obtain ⟨rfl, hrest⟩ :=
        hs.listing (Errand.quiet_of_off (Errand.makes_lookup hoff) hname)
      rcases BindingStore.access_of_granted ha hgranted hrest with
        ⟨rfl, rfl, hheld, heq⟩ | ⟨rfl, hwrote, hnew, heq⟩
      · rw [heq]
        exact .held rfl ⟨_, _, rfl, hname⟩ hheld (not_wrote_append hoffname)
      · rw [heq]
        exact .granted rfl ⟨_, _, rfl, hname⟩ hnew (wrote_append hwrote)
  | revoked haction ha hname hrevoked =>
      have hoffname := Errand.not_writes_of_off (Errand.makes_lookup hoff) hname
      obtain ⟨rfl, hrest⟩ :=
        hs.listing (Errand.quiet_of_off (Errand.makes_lookup hoff) hname)
      rcases BindingStore.access_of_revoked ha hrevoked hrest with
        ⟨rfl, rfl, hnot, heq⟩ | ⟨rfl, hwrote, hheld, heq⟩
      · rw [heq]
        exact .absent rfl ⟨_, _, rfl, hname⟩ hnot (not_wrote_append hoffname)
      · rw [heq]
        exact .revoked rfl ⟨_, _, rfl, hname⟩ hheld (wrote_append hwrote)

/-- Any requests can be carried out one after another, from any bindings. -/
theorem exists_serialRun (hoff : directory.OffBindings) (errands : List Errand)
    (store : BindingStore) : ∃ run after, run.map Served.errand = errands ∧
      SerialRun directory store run after := by
  induction errands generalizing store with
  | nil => exact ⟨[], store, rfl, .nil store⟩
  | cons e errands ih =>
      obtain ⟨history, outcome, mid, hrun, hserves⟩ :=
        BindingStore.exists_servesAll (Errand.makes_request hoff e) store
      obtain ⟨run, after, hmap, hrest⟩ := ih mid
      exact ⟨⟨e, history, outcome⟩ :: run, after, congrArg (e :: ·) hmap, .cons hrun hserves hrest⟩

/-- **Grants and revokes that run one after another refine a plain set.**  From any bindings, with
any directory that leaves the bindings alone, whatever usernames it gives. -/
theorem setRun_of_serialRun {run : List Served} (hoff : directory.OffBindings)
    (h : SerialRun directory store run after) :
    SetRun directory store.access run after.access := by
  induction h with
  | nil => exact .nil _
  | cons h hs _ ih => exact .cons (setStep_of_ends hoff (Errand.ends_of_after hoff h) hs) ih

/-- Alice is granted a role and it is revoked again, where there were no bindings. -/
theorem setRun_grant_revoke : ∃ run after,
    run.map Served.outcome = [.ok (.granted .applied), .ok (.revoked .applied)] ∧
      SetRun .plain BindingStore.empty.access run (BindingStore.access after) := by
  let role : RoleTarget := .clusterRole "view"
  let given := BindingStore.empty.put (.newForUser role .cluster "alice")
  let place := BindingStore.placeNamed none "eksbridge-view-binding"
  refine ⟨[⟨⟨.grant, "alice", role, .cluster⟩,
      [⟨.matchingBindings role, .ok (BindingStore.empty.matching role)⟩,
        ⟨.createBinding (.newForUser role .cluster "alice"), .ok ()⟩], .ok (.granted .applied)⟩,
    ⟨⟨.revoke, "alice", role, .cluster⟩,
      [⟨.matchingBindings role, .ok (given.matching role)⟩,
        ⟨.deleteBinding none "eksbridge-view-binding", .ok ()⟩], .ok (.revoked .applied)⟩],
    given.drop place, rfl, setRun_of_serialRun Directory.plain_offBindings ?_⟩
  have hgrant : BindingStore.ServesAll BindingStore.empty
      [⟨.matchingBindings role, .ok (BindingStore.empty.matching role)⟩,
        ⟨.createBinding (.newForUser role .cluster "alice"), .ok ()⟩] given :=
    .cons (.answered rfl) (.cons (.answered rfl) (.nil _))
  have hrevoke : BindingStore.ServesAll given
      [⟨.matchingBindings role, .ok (given.matching role)⟩,
        ⟨.deleteBinding none "eksbridge-view-binding", .ok ()⟩] (given.drop place) :=
    .cons (.answered rfl) (.cons (.answered rfl) (.nil _))
  exact .cons (.reply (.reply (.start _))) hgrant
    (.cons (.reply (.reply (.start _))) hrevoke (.nil _))

end ClusterAccess
