/-
Grants and revokes of roles that are made again.

A request about a role can be cut short anywhere and made again.

  * A grant maps the principal, and then has one binding list it.  Once the row is written the
    document gives the username, and once the binding is written it is found
    (`recovers_enroll`, `resumes_grantTo`).
  * A revoke takes the user out of one binding after another.  What the store lists of the user
    is what is left to do, so the work that is left always leads to the same store
    (`resumes_revokeFrom`).

Reading a text that was written is the business of the YAML library.  If it cannot read the
document again to which a row was added, a grant that was cut short can only fail from then on
(`Errand.converges_unreadable`).  If it can, the row has to be in it (`KeepsRow`).
-/
import ClusterAccess.Proofs.Recovery
import ClusterAccess.Proofs.RoleRequests

namespace ClusterAccess

open Program (Makes)
open Upstream
open World (carry carry_send carry_attempt carry_bind_ok carry_bind_error)

variable {up mid other : Upstream} {principal username : String} {role : RoleTarget} {scope : Scope}

/-! ### Usernames -/

/-- The upstream with another mapping document, which gets a version of its own. -/
def Upstream.withDocument (up : Upstream) (document : AwsAuth) : Upstream :=
  { up with
    plane := { up.plane with
      awsAuth := some { document with
        resourceVersion := ControlPlane.nextVersion document.resourceVersion } } }

namespace AwsAuth

variable {document changed : AwsAuth} {part : Section}

/-- A document that a row of the principal's own is added to has that row if it can be read. -/
def KeepsRow (document : AwsAuth) (principal : String) : Prop :=
  ∀ part changed values, Section.ofPrincipal? principal = some part →
    document.appendSelf principal = .ok changed → changed.values part = .ok values →
      changed.findUsername? principal = some principal

theorem keepsRow_of_readsBack (hfind : document.findUsername? principal = none)
    (hback : document.ReadsBack principal) : document.KeepsRow principal := by
  intro part changed values _ happend _
  exact findUsername?_appendSelf happend hfind hback

/-- The document has no row for a principal, and the list that it belongs in cannot be read. -/
structure Unreadable (document : AwsAuth) (principal : String) : Prop where
  unnamed : document.findUsername? principal = none
  unread : ∃ part fault, Section.ofPrincipal? principal = some part ∧
    document.values part = .error fault

theorem Unreadable.isUserOrRole (h : document.Unreadable principal) :
    Arn.isUserOrRole principal = true := by
  obtain ⟨part, fault, hpart, -⟩ := h.unread
  unfold Section.ofPrincipal? at hpart
  unfold Arn.isUserOrRole
  cases hkind : Arn.classify principal with
  | user => rfl
  | role => rfl
  | unsupported =>
      rw [hkind] at hpart
      cases hpart

theorem Unreadable.appendSelf (h : document.Unreadable principal) :
    ∃ fault, document.appendSelf principal = .error fault := by
  obtain ⟨part, fault, hpart, hvalues⟩ := h.unread
  refine ⟨fault, ?_⟩
  simp only [AwsAuth.appendSelf, hpart, hvalues]
  rfl

/-- A document that a row was added to has it, or cannot be read. -/
theorem KeepsRow.cases (h : document.KeepsRow principal)
    (hfind : document.findUsername? principal = none)
    (happend : document.appendSelf principal = .ok changed) :
    changed.findUsername? principal = some principal ∨ changed.Unreadable principal := by
  obtain ⟨part, values, hpart, hvalues, hchanged⟩ := appendSelf_eq_ok_iff.1 happend
  cases hread : changed.values part with
  | ok read => exact Or.inl (h part changed read hpart happend hread)
  | error fault =>
      refine Or.inr ⟨findUsername?_eq_none_iff.2 ?_, part, fault, hpart, hread⟩
      have hlost : changed.rowsOf part = [] := by
        unfold rowsOf
        rw [hread]
      have hrows : ∀ part' row, row ∈ changed.rowsOf part' → row.principal ≠ principal := by
        intro part' row hrow
        by_cases hsame : part' = part
        · rw [hsame, hlost] at hrow
          cases hrow
        · rw [hchanged, rowsOf_withSelf hsame] at hrow
          exact findUsername?_eq_none_iff.1 hfind row (mem_rows_of_mem_rowsOf hrow)
      intro row hrow
      rcases List.mem_append.1 hrow with hrow | hrow
      · exact hrows .users row hrow
      · exact hrows .roles row hrow

theorem carry_load :
    carry up load = (some (ControlPlane.orMissing "aws-auth ConfigMap" up.plane.awsAuth), up) := by
  have hsend : carry up (send .getAwsAuth) = (some (.ok up.plane.awsAuth), up) := rfl
  unfold load
  rw [carry_bind_ok hsend]
  cases up.plane.awsAuth <;> rfl

theorem load_reads : load.run.Makes fun call => call.isWrite = false :=
  makes_load rfl

/-- A document that was changed since it was read a moment ago can be written. -/
theorem act_updateAwsAuth (hdocument : up.plane.awsAuth = some document)
    (hversion : changed.resourceVersion = document.resourceVersion) :
    up.act (.updateAwsAuth changed) = (.ok (), up.withDocument changed) := by
  have hread : changed.resourceVersion = up.plane.awsAuth.bind AwsAuth.resourceVersion := by
    rw [hversion, hdocument]
    rfl
  rw [act_of_off rfl]
  unfold ControlPlane.act ControlPlane.updateAwsAuth
  simp only [if_pos hread]
  rfl

/-- A row that can be added is added. -/
theorem carry_enroll (hdocument : up.plane.awsAuth = some document)
    (hfind : document.findUsername? principal = none)
    (happend : document.appendSelf principal = .ok changed) :
    carry up (enroll principal document) =
      (some (.ok ⟨principal, true⟩), up.withDocument changed) ∧
    ∀ mid, Passes (enroll principal document).run up mid →
      mid = up ∨ mid = up.withDocument changed := by
  have hact := act_updateAwsAuth hdocument (resourceVersion_of_appendSelf happend)
  have henroll : enroll principal document =
      (send (.updateAwsAuth changed) >>= fun _ => pure ⟨principal, true⟩) := by
    unfold enroll
    rw [hfind, happend]
    rfl
  rw [henroll]
  refine ⟨carry_bind_ok (carry_send hact), ?_⟩
  intro mid hpasses
  exact hpasses.of_once hact fun reply => by cases reply <;> trivial

/-- Nothing is written when no row can be added. -/
theorem recovers_refused {fault : Fault} (hprincipal : Arn.isUserOrRole principal = true)
    (hdocument : up.plane.awsAuth = some document)
    (hfind : document.findUsername? principal = none)
    (happend : document.appendSelf principal = .error fault) :
    Recovers (resolveOrCreate principal) (· = .error fault) (· = up) up := by
  have hload : carry up load = (some (.ok document), up) := by
    rw [carry_load, hdocument]
    rfl
  have henroll : enroll principal document = ofOutcome (.error fault) := by
    unfold enroll
    rw [hfind, happend]
    rfl
  rw [resolveOrCreate_eq hprincipal]
  exact recovers_of_look load_reads hload henroll

/-- The request gives the username, made just now or not. -/
def Names (username : String) (outcome : Outcome Resolved) : Prop :=
  outcome.map Resolved.username = .ok username

theorem Names.map_some {outcome : Outcome Resolved} (h : Names username outcome) :
    (outcome.map fun resolved => some resolved.username) = .ok (some username) := by
  cases outcome with
  | ok resolved => exact congrArg (fun name => Except.ok (some name)) (Except.ok.inj h)
  | error fault => cases h

/-- Once the document gives a username, it is found and nothing is written. -/
theorem recovers_found (hprincipal : Arn.isUserOrRole principal = true)
    (h : up.plane.username? principal = some username) :
    Recovers (resolveOrCreate principal) (Names username) (· = up) up := by
  obtain ⟨document, hdocument, hfind⟩ := Option.bind_eq_some_iff.1 h
  have hload : carry up load = (some (.ok document), up) := by
    rw [carry_load, hdocument]
    rfl
  have henroll : enroll principal document = ofOutcome (.ok ⟨username, false⟩) := by
    unfold enroll
    rw [hfind]
    rfl
  rw [resolveOrCreate_eq hprincipal]
  refine (recovers_of_look load_reads hload henroll).mono fun outcome houtcome => ?_
  rw [houtcome]
  rfl

/-- **The username of a grant recovers**: a row that was written is found, and gives the username
that it would have given at once. -/
theorem recovers_enroll (hadded : ∀ document changed, up.plane.awsAuth = some document →
      document.findUsername? principal = none → document.appendSelf principal = .ok changed →
        changed.findUsername? principal = some principal) :
    (∃ fault, Recovers (resolveOrCreate principal) (· = .error fault) (· = up) up) ∨
      Arn.isUserOrRole principal = true ∧ ∃ username Checkpoint mid, Checkpoint up ∧
        mid.plane.username? principal = some username ∧
          Recovers (resolveOrCreate principal) (Names username) Checkpoint mid := by
  by_cases hprincipal : Arn.isUserOrRole principal = true
  swap
  · refine Or.inl ⟨unsupportedPrincipal principal, ?_⟩
    have hrefused : resolveOrCreate principal = throw (unsupportedPrincipal principal) := by
      unfold resolveOrCreate
      rw [eq_false_of_ne_true hprincipal]
      rfl
    rw [hrefused]
    exact recovers_of_reads rfl trivial
  cases hdocument : up.plane.awsAuth with
  | none =>
      refine Or.inl ⟨.notFound "aws-auth ConfigMap", ?_⟩
      have hload : carry up load = (some (.error (.notFound "aws-auth ConfigMap")), up) := by
        rw [carry_load, hdocument]
        rfl
      rw [resolveOrCreate_eq hprincipal]
      exact (recovers_of_reads hload load_reads).bind_error rfl
  | some document =>
      have hload : carry up load = (some (.ok document), up) := by
        rw [carry_load, hdocument]
        rfl
      cases hfind : document.findUsername? principal with
      | some username =>
          have hname : up.plane.username? principal = some username := by
            rw [ControlPlane.username?, hdocument]
            exact hfind
          exact Or.inr ⟨hprincipal, username, (· = up), up, rfl, hname,
            recovers_found hprincipal hname⟩
      | none =>
          cases happend : document.appendSelf principal with
          | error fault => exact Or.inl ⟨fault, recovers_refused hprincipal hdocument hfind happend⟩
          | ok changed =>
              obtain ⟨hcarry, hstates⟩ := carry_enroll hdocument hfind happend
              have hname : (up.withDocument changed).plane.username? principal = some principal :=
                hadded document changed hdocument hfind happend
              have hagain := recovers_found hprincipal hname
              refine Or.inr ⟨hprincipal, principal,
                fun mid => mid = up ∨ mid = up.withDocument changed, up.withDocument changed,
                Or.inl rfl, hname, ?_⟩
              rw [resolveOrCreate_eq hprincipal] at hagain ⊢
              exact .of_look load_reads hload hcarry rfl hstates hagain

end AwsAuth

/-! ### Memberships -/

namespace RoleTarget

theorem carry_bindingsAt (h : role.admits scope = true) (up : Upstream) :
    carry up (role.bindingsAt scope) =
      (some (.ok (up.store.bindings.filter fun b => b.isOf role scope)), up) := by
  have hsend : carry up (send (.matchingBindings role)) =
      (some (.ok (up.store.matching role)), up) := rfl
  unfold bindingsAt
  rw [carry_bind_ok hsend, BindingStore.narrow_matching h]
  rfl

theorem bindingsAt_reads : (role.bindingsAt scope).run.Makes fun call => call.isWrite = false :=
  Request.makes_bind ⟨rfl, fun _ => trivial⟩ fun _ => trivial

/-- Somebody who is listed is granted nothing more. -/
theorem recovers_listed (h : role.admits scope = true)
    (hlists : up.store.Lists role scope username) :
    Recovers (role.grantTo scope username) (· = .ok .alreadySatisfied) (· = up) up := by
  have hany : (up.store.bindings.filter fun b => b.isOf role scope).any
      (fun b => b.hasUser username) = true := by
    obtain ⟨b, hb, hof, hu⟩ := hlists
    exact List.any_eq_true.2 ⟨b, List.mem_filter.2 ⟨hb, hof⟩, hu⟩
  exact recovers_of_look bindingsAt_reads (carry_bindingsAt h up) (if_pos hany)

/-- The write of a grant is one call.  If it succeeds the user is listed, and if it does not the
upstream is as it was. -/
theorem carry_writeGrant (up : Upstream) (role : RoleTarget) (scope : Scope) (username : String) :
    ∃ outcome after,
      carry up (writeGrant role scope username
        (up.store.bindings.filter fun b => b.isOf role scope)) = (some outcome, after) ∧
      (∀ mid, Passes (writeGrant role scope username
        (up.store.bindings.filter fun b => b.isOf role scope)).run up mid →
          mid = up ∨ mid = after) ∧
      ((∃ fault, outcome = .error fault) ∧ after = up ∨
        outcome = .ok () ∧ after.plane = up.plane ∧ after.store.Lists role scope username) := by
  rcases writeGrant_cases role scope username
    (up.store.bindings.filter fun b => b.isOf role scope) with ⟨b, hb, hwrite⟩ | hwrite
  · obtain ⟨hmem, hof⟩ := List.mem_filter.1 hb
    have hreplace : up.store.replace (b.addUser username) =
        (.ok (), up.store.put (b.addUser username)) :=
      BindingStore.replace_of_mem hmem Binding.place_addUser rfl
    have hact : up.act (.updateBinding (b.addUser username)) =
        (.ok (), { up with store := up.store.put (b.addUser username) }) :=
      act_of_answer (congrArg some hreplace)
    rw [hwrite]
    refine ⟨_, _, carry_send hact, fun mid hpasses => hpasses.of_once hact fun _ => trivial,
      Or.inr ⟨rfl, rfl, ?_⟩⟩
    exact (BindingStore.lists_put_addUser hmem).2 (Or.inr ⟨hof, rfl⟩)
  · let fresh := Binding.newForUser role scope username
    rw [hwrite]
    rcases BindingStore.create_cases up.store fresh with ⟨fault, hcreate⟩ | ⟨hfree, hcreate⟩
    · have hact : up.act (.createBinding fresh) = (.error fault, up) :=
        act_of_answer (congrArg some hcreate)
      exact ⟨_, _, carry_send hact, fun mid hpasses => hpasses.of_once hact fun _ => trivial,
        Or.inl ⟨⟨fault, rfl⟩, rfl⟩⟩
    · have hact : up.act (.createBinding fresh) =
          (.ok (), { up with store := up.store.put fresh }) := act_of_answer (congrArg some hcreate)
      refine ⟨_, _, carry_send hact, fun mid hpasses => hpasses.of_once hact fun _ => trivial,
        Or.inr ⟨rfl, rfl, ?_⟩⟩
      exact (BindingStore.lists_put_of_free hfree).2
        (Or.inr ⟨Binding.isOf_newForUser, Binding.newForUser_hasUser.2 rfl⟩)

/-- **The write of a grant recovers**: a binding that was written lists the user. -/
theorem resumes_grantTo (h : role.admits scope = true) (username : String) (up : Upstream) :
    ResumesInStore (role.grantTo scope username) up := by
  have hlist := carry_bindingsAt h up
  by_cases hany : (up.store.bindings.filter fun b => b.isOf role scope).any
      (fun b => b.hasUser username) = true
  · obtain ⟨b, hb, hu⟩ := List.any_eq_true.1 hany
    obtain ⟨hmem, hof⟩ := List.mem_filter.1 hb
    exact (recovers_listed h ⟨b, hmem, hof, hu⟩).resumesInStore
  obtain ⟨outcome, after, hwrite, hstates, hend⟩ := carry_writeGrant up role scope username
  let rest (candidates : List Binding) : Request GrantResult :=
    if candidates.any fun b => b.hasUser username then pure .alreadySatisfied
    else writeGrant role scope username candidates >>= fun _ => pure .applied
  have hrest : rest (up.store.bindings.filter fun b => b.isOf role scope) =
      (writeGrant role scope username (up.store.bindings.filter fun b => b.isOf role scope) >>=
        fun _ => pure .applied) := if_neg hany
  have hcarry : carry up (rest (up.store.bindings.filter fun b => b.isOf role scope)) =
      (some (outcome.map fun _ => .applied), after) := by
    rw [hrest]
    cases outcome with
    | ok answer => exact carry_bind_ok hwrite
    | error fault => exact carry_bind_error hwrite
  have hpasses : ∀ mid, Passes (rest (up.store.bindings.filter fun b => b.isOf role scope)).run
      up mid → mid = up ∨ mid = after := by
    intro mid hin
    rw [hrest] at hin
    rcases hin.request_bind_cases with hin | ⟨answer, done, hdone, hin⟩
    · exact hstates mid hin
    · obtain ⟨-, rfl⟩ := Prod.mk.inj (hwrite.symm.trans hdone)
      exact Or.inr (passes_done_iff.1 hin)
  have hgrant : role.grantTo scope username = (role.bindingsAt scope >>= rest) := rfl
  rcases hend with ⟨⟨fault, rfl⟩, rfl⟩ | ⟨rfl, hplane, hlists⟩
  · rw [hgrant]
    have hstill := recovers_of_still ((carry_bind_ok hlist).trans hcarry) fun mid hin =>
      or_self_iff.1 (hpasses mid (hin.bind_of_reads bindingsAt_reads hlist))
    exact hstill.resumesInStore
  · refine ⟨_, after, true, Or.inl rfl, ?_, .of_look bindingsAt_reads hlist hcarry rfl hpasses ?_⟩
    · intro other hother
      rcases hother with rfl | rfl
      · rfl
      · exact hplane
    · refine (recovers_listed h hlists).mono fun outcome houtcome => ?_
      rw [houtcome]
      rfl

end RoleTarget

/-! ### Users that are taken out of bindings -/

namespace BindingStore

variable {store : BindingStore} {b : Binding} {rest : List Binding}

/-- The store with a user taken out of a binding, and the binding gone when nobody is left. -/
def without (store : BindingStore) (username : String) (b : Binding) : BindingStore :=
  if (b.removeUser username).subjects = [] then store.drop b.place
  else store.put (b.removeUser username)

/-- The store with a user taken out of one binding after another. -/
def withoutAll (username : String) : List Binding → BindingStore → BindingStore
  | [], store => store
  | b :: rest, store => withoutAll username rest (store.without username b)

/-- The bindings of the role at the scope that list the user. -/
def listing (store : BindingStore) (role : RoleTarget) (scope : Scope) (username : String) :
    List Binding :=
  RoleTarget.holding username (store.bindings.filter fun b => b.isOf role scope)

theorem listing_eq : store.listing role scope username =
    store.bindings.filter fun b => b.hasUser username && b.isOf role scope :=
  List.filter_filter

theorem of_mem_listing (h : b ∈ store.listing role scope username) :
    b ∈ store.bindings ∧ b.isAt scope = true := by
  obtain ⟨hmem, hof⟩ := List.mem_filter.1 (List.mem_filter.1 h).1
  exact ⟨hmem, (Bool.and_eq_true _ _ ▸ hof).1⟩

/-- A binding that is put among others and is not asked for only hides what was in its place. -/
theorem filter_putList {isAsked : Binding → Bool} {bindings : List Binding}
    (h : bindings.Pairwise fun a b => a.place ≠ b.place) (hb : isAsked b = false) :
    (putList b bindings).filter isAsked =
      (bindings.filter isAsked).filter fun c => c.place ≠ b.place := by
  induction bindings with
  | nil => simp [putList, hb]
  | cons d rest ih =>
      obtain ⟨hd, hrest⟩ := List.pairwise_cons.1 h
      rw [putList]
      by_cases hplace : d.place = b.place
      · have helse : ∀ c ∈ rest.filter isAsked, decide (c.place ≠ b.place) = true := by
          intro c hc
          have hne := hd c (List.mem_filter.1 hc).1
          rw [hplace] at hne
          simpa using hne.symm
        rw [if_pos hplace, List.filter_cons_of_neg (by simp [hb]), List.filter_cons]
        split
        · rw [List.filter_cons_of_neg (by simp [hplace]), List.filter_eq_self.2 helse]
        · rw [List.filter_eq_self.2 helse]
      · rw [if_neg hplace, List.filter_cons, List.filter_cons, ih hrest]
        split
        · rw [List.filter_cons_of_pos (by simp [hplace])]
        · rfl

/-- Taken out of the first binding that lists it, a user is listed by the others. -/
theorem listing_without (h : store.listing role scope username = b :: rest) :
    (store.without username b).listing role scope username = rest := by
  have hhidden : (store.without username b).listing role scope username =
      (store.listing role scope username).filter fun c => c.place ≠ b.place := by
    have hgone : (b.removeUser username).hasUser username = false := by
      rw [← Bool.not_eq_true]
      exact fun hu => (Binding.hasUser_removeUser.1 hu).2 rfl
    unfold without
    split
    · rw [listing_eq, listing_eq, drop, List.filter_filter, List.filter_filter]
      refine List.filter_congr fun c _ => ?_
      rw [Bool.and_comm]
    · rw [listing_eq, listing_eq]
      have hasked : (fun c : Binding => c.hasUser username && c.isOf role scope)
          ((b.removeUser username).stamped store.nextWrite) = false := by
        show ((b.removeUser username).hasUser username && _) = false
        rw [hgone, Bool.false_and]
      exact filter_putList store.distinct hasked
  have hdistinct : (b :: rest).Pairwise fun a b => a.place ≠ b.place := by
    rw [← h, listing_eq]
    exact store.distinct.filter _
  have helse : ∀ c ∈ rest, decide (c.place ≠ b.place) = true := by
    intro c hc
    simpa using ((List.pairwise_cons.1 hdistinct).1 c hc).symm
  rw [hhidden, h, List.filter_cons_of_neg (by simp), List.filter_eq_self.2 helse]

end BindingStore

namespace RoleTarget

open BindingStore

/-- A user is taken out of a binding that is there by one call. -/
theorem carry_removeFrom {b : Binding} (hb : b ∈ up.store.bindings) (hat : b.isAt scope = true)
    (username : String) :
    carry up (removeFrom username b) =
      (some (.ok ()), { up with store := up.store.without username b }) ∧
    ∀ mid, Passes (removeFrom username b).run up mid →
      mid = up ∨ mid = { up with store := up.store.without username b } := by
  unfold without
  by_cases hnil : (b.removeUser username).subjects = []
  · have hleft : (b.removeUser username).isAt scope = true := hat
    have hact : up.act (.deleteBinding b.ns? b.name) =
        (.ok (), { up with store := up.store.drop b.place }) :=
      act_of_answer (congrArg some (delete_of_mem hb (placeNamed_eq hat)))
    rw [if_pos hnil, removeFrom_of_nil hnil, deleteBinding_eq (ns?_ne_none_of_isAt hleft)]
    exact ⟨carry_bind_ok (carry_attempt (carry_send hact)),
      fun mid hpasses => hpasses.of_attempt hact makes_afterDelete⟩
  · have hreplace := replace_of_mem hb Binding.place_removeUser
      (rfl : (b.removeUser username).version = b.version)
    have hact : up.act (.updateBinding (b.removeUser username)) =
        (.ok (), { up with store := up.store.put (b.removeUser username) }) :=
      act_of_answer (congrArg some hreplace)
    rw [if_neg hnil, removeFrom_of_ne_nil hnil]
    exact ⟨carry_send hact, fun mid hpasses => hpasses.of_once hact fun _ => trivial⟩

/-- The user is taken out of all the bindings that list it.  Wherever that stops, taking it out of
those that list it then leads to the same store. -/
theorem carry_removeFromAll {holding : List Binding} (up : Upstream)
    (h : up.store.listing role scope username = holding) :
    carry up (removeFromAll username holding) =
      (some (.ok ()), { up with store := withoutAll username holding up.store }) ∧
    ∀ mid, Passes (removeFromAll username holding).run up mid →
      mid.plane = up.plane ∧
        withoutAll username (mid.store.listing role scope username) mid.store =
          withoutAll username holding up.store := by
  induction holding generalizing up with
  | nil =>
      refine ⟨rfl, fun mid hpasses => ?_⟩
      rw [passes_done_iff.1 hpasses, h]
      exact ⟨rfl, rfl⟩
  | cons b rest ih =>
      have hb : b ∈ up.store.listing role scope username := h ▸ List.mem_cons_self
      obtain ⟨hmem, hat⟩ := of_mem_listing hb
      obtain ⟨hfirst, hstates⟩ := carry_removeFrom hmem hat username
      let next : Upstream := { up with store := up.store.without username b }
      obtain ⟨hrest, hlater⟩ := ih next (listing_without h)
      refine ⟨?_, fun mid hpasses => ?_⟩
      · unfold removeFromAll
        rw [carry_bind_ok hfirst]
        exact hrest
      unfold removeFromAll at hpasses
      rcases hpasses.request_bind_cases with hin | ⟨answer, after, hafter, hin⟩
      · rcases hstates mid hin with rfl | rfl
        · rw [h]
          exact ⟨rfl, rfl⟩
        · rw [listing_without h]
          exact ⟨rfl, rfl⟩
      · obtain ⟨-, rfl⟩ := Prod.mk.inj (hfirst.symm.trans hafter)
        exact hlater mid hin

/-- **A revoke recovers**: what it has left to do is what the store says it has. -/
theorem resumes_revokeFrom (h : role.admits scope = true) (username : String) (up : Upstream) :
    ResumesInStore (role.revokeFrom scope username) up := by
  let left (other : Upstream) : BindingStore :=
    withoutAll username (other.store.listing role scope username) other.store
  refine ⟨fun other => other.plane = up.plane ∧ left other = left up, { up with store := left up },
    true, ⟨rfl, rfl⟩, fun other hother => hother.1, ?_, ?_⟩
  · intro other hother
    obtain ⟨hplane, hleft⟩ := hother
    have hlist := carry_bindingsAt h other
    obtain ⟨hall, -⟩ := carry_removeFromAll other
      (rfl : other.store.listing role scope username = _)
    have hend : ({ other with store := left other } : Upstream) = { up with store := left up } := by
      rw [hplane, hleft]
    rw [revokeFrom_eq, carry_bind_ok hlist]
    by_cases hnil : holding username (other.store.bindings.filter fun b => b.isOf role scope) = []
    · refine ⟨.ok .alreadyRevoked, ?_, rfl⟩
      have hsame : left other = other.store := by
        show withoutAll username (holding username _) other.store = other.store
        rw [hnil]
        rfl
      rw [if_pos hnil, ← hend, hsame]
      rfl
    · refine ⟨.ok .applied, ?_, rfl⟩
      rw [if_neg hnil, ← hend]
      exact carry_bind_ok hall
  · intro other mid hother hpasses
    obtain ⟨hplane, hleft⟩ := hother
    have hlist := carry_bindingsAt h other
    obtain ⟨hall, hstates⟩ := carry_removeFromAll other
      (rfl : other.store.listing role scope username = _)
    rw [revokeFrom_eq] at hpasses
    have hrest := hpasses.bind_of_reads bindingsAt_reads hlist
    by_cases hnil : holding username (other.store.bindings.filter fun b => b.isOf role scope) = []
    · rw [if_pos hnil] at hrest
      rw [passes_done_iff.1 hrest]
      exact ⟨hplane, hleft⟩
    · rw [if_neg hnil] at hrest
      have hin : Passes (removeFromAll username (other.store.listing role scope username)).run
          other mid := by
        rcases hrest.request_bind_cases with hin | ⟨answer, after, hafter, hin⟩
        · exact hin
        · rw [passes_done_iff.1 hin]
          exact passes_of_serve hafter
      obtain ⟨hsame, hwork⟩ := hstates mid hin
      exact ⟨hsame.trans hplane, hwork.trans hleft⟩

end RoleTarget

/-! ### Requests about a role -/

namespace Errand

variable {e : Errand}

/-- What is done with a username resumes. -/
theorem resumes_act (h : e.role.admits e.scope = true) (username? : Option String)
    (up : Upstream) : ResumesInStore (e.act username?) up := by
  cases username? with
  | none =>
      have hcarry : carry up (e.act none) = (some (.ok (.revoked .alreadyRevoked)), up) := rfl
      exact (recovers_of_reads hcarry trivial).resumesInStore
  | some username =>
      cases haction : e.action with
      | grant =>
          rw [act_of_grant haction]
          exact (RoleTarget.resumes_grantTo h username up).map Result.granted
      | revoke =>
          rw [act_of_revoke haction]
          exact (RoleTarget.resumes_revokeFrom h username up).map Result.revoked

/-- The username recovers, and is the same as long as the document is. -/
theorem recovers_lookup (hadded : e.action = .grant → ∀ document changed,
      up.plane.awsAuth = some document → document.findUsername? e.principal = none →
        document.appendSelf e.principal = .ok changed →
          changed.findUsername? e.principal = some e.principal) :
    (∃ fault, Recovers (e.lookup AwsAuth.directory) (· = .error fault) (· = up) up) ∨
      ∃ username? Checkpoint mid, Checkpoint up ∧
        Recovers (e.lookup AwsAuth.directory) (· = .ok username?) Checkpoint mid ∧
        ∀ other : Upstream, other.plane = mid.plane →
          Recovers (e.lookup AwsAuth.directory) (· = .ok username?) (· = other) other := by
  cases haction : e.action with
  | grant =>
      rw [lookup_of_grant haction]
      rcases AwsAuth.recovers_enroll (hadded haction) with
        ⟨fault, hfault⟩ | ⟨hprincipal, username, Checkpoint, mid, hup, hname, henroll⟩
      · exact Or.inl ⟨fault, hfault.bind_error rfl⟩
      refine Or.inr ⟨some username, Checkpoint, mid, hup, ?_, fun other hplane => ?_⟩
      · exact henroll.map _ fun outcome hnames => hnames.map_some
      · rw [← hplane] at hname
        exact (AwsAuth.recovers_found hprincipal hname).map _ fun outcome hnames => hnames.map_some
  | revoke =>
      rw [lookup_of_revoke haction]
      have hreads : (AwsAuth.directory.resolve e.principal).run.Makes
          fun call => call.isWrite = false := AwsAuth.makes_resolve rfl
      cases hdocument : up.plane.awsAuth with
      | none =>
          have hload : carry up AwsAuth.load =
              (some (.error (.notFound "aws-auth ConfigMap")), up) := by
            rw [AwsAuth.carry_load, hdocument]
            rfl
          exact Or.inl ⟨_, recovers_of_reads (carry_bind_error hload) hreads⟩
      | some document =>
          have hstays : ∀ other : Upstream, other.plane = up.plane →
              Recovers (AwsAuth.directory.resolve e.principal)
                (· = .ok (document.findUsername? e.principal)) (· = other) other := by
            intro other hplane
            have hload : carry other AwsAuth.load = (some (.ok document), other) := by
              rw [AwsAuth.carry_load, hplane, hdocument]
              rfl
            exact recovers_of_reads (carry_bind_ok hload) hreads
          exact Or.inr ⟨_, (· = up), up, rfl, hstays up rfl, hstays⟩

theorem request_of_admits (h : e.role.admits e.scope = true) :
    e.request AwsAuth.directory = (e.lookup AwsAuth.directory >>= e.act) := by
  rw [request_eq, RoleTarget.checkScope_eq_ok_iff.2 h]
  rfl

/-- A request about a role resumes, unless it adds a row that is not found again. -/
theorem resumes_request (hadded : e.action = .grant → e.role.admits e.scope = true →
      ∀ document changed, up.plane.awsAuth = some document →
        document.findUsername? e.principal = none →
          document.appendSelf e.principal = .ok changed →
            changed.findUsername? e.principal = some e.principal) :
    Resumes (e.request AwsAuth.directory) up := by
  by_cases hadmits : e.role.admits e.scope = true
  swap
  · rw [request_eq]
    cases hscope : e.role.checkScope e.scope with
    | ok answer => exact absurd (RoleTarget.checkScope_eq_ok_iff.1 hscope) hadmits
    | error fault => exact resumes_of_throw fault
  rw [request_of_admits hadmits]
  rcases recovers_lookup fun haction => hadded haction hadmits with
    ⟨fault, hfault⟩ | ⟨username?, First, mid, hup, hlookup, hstays⟩
  · have herror : Recovers (e.lookup AwsAuth.directory >>= e.act) (· = .error fault) (· = up) up :=
      hfault.bind_error rfl
    exact herror.resumesInStore.resumes
  obtain ⟨Second, final, succeeds, hmid, hplane, hact⟩ := resumes_act hadmits username? mid
  exact ⟨_, final, succeeds, Or.inl hup,
    hlookup.bind hmid (fun other hother => hstays other (hplane other hother)) hact⟩

/-- The list that the principal's row belongs in cannot be read. -/
def Blocked (e : Errand) (up : Upstream) : Prop :=
  ∃ document, up.plane.awsAuth = some document ∧ document.Unreadable e.principal

/-- Where that is so, a grant only fails. -/
theorem Blocked.recovers (h : e.Blocked up) (haction : e.action = .grant)
    (hadmits : e.role.admits e.scope = true) :
    ∃ fault, Recovers (e.request AwsAuth.directory) (· = .error fault) (· = up) up := by
  obtain ⟨document, hdocument, hunread⟩ := h
  obtain ⟨fault, happend⟩ := hunread.appendSelf
  have hrefused :=
    AwsAuth.recovers_refused hunread.isUserOrRole hdocument hunread.unnamed happend
  have hlookup : Recovers (e.lookup AwsAuth.directory) (· = .error fault) (· = up) up := by
    rw [lookup_of_grant haction]
    exact hrefused.bind_error rfl
  rw [request_of_admits hadmits]
  exact ⟨fault, hlookup.bind_error rfl⟩

/-- A grant whose row makes the document unreadable leaves its start with that document, and can
only fail then. -/
theorem converges_unreadable {document changed : AwsAuth} (haction : e.action = .grant)
    (hadmits : e.role.admits e.scope = true) (hdocument : up.plane.awsAuth = some document)
    (hfind : document.findUsername? e.principal = none)
    (happend : document.appendSelf e.principal = .ok changed)
    (hunread : changed.Unreadable e.principal) : Converges (e.request AwsAuth.directory) up := by
  have hwritten : ∀ mid : Upstream, mid.plane = (up.withDocument changed).plane →
      e.Blocked mid := by
    intro mid hplane
    exact ⟨_, congrArg ControlPlane.awsAuth hplane, hunread.unnamed, hunread.unread⟩
  have hload : carry up AwsAuth.load = (some (.ok document), up) := by
    rw [AwsAuth.carry_load, hdocument]
    rfl
  obtain ⟨henroll, hstates⟩ := AwsAuth.carry_enroll hdocument hfind happend
  have hlookup : carry up (e.lookup AwsAuth.directory) =
      (some (.ok (some e.principal)), up.withDocument changed) := by
    have hresolve : carry up (AwsAuth.resolveOrCreate e.principal) =
        (some (.ok ⟨e.principal, true⟩), up.withDocument changed) := by
      rw [AwsAuth.resolveOrCreate_eq hunread.isUserOrRole]
      exact (carry_bind_ok hload).trans henroll
    rw [lookup_of_grant haction]
    exact carry_bind_ok hresolve
  have hblocked : ∀ mid : Upstream, e.Blocked mid →
      ∃ fault, Recovers (e.request AwsAuth.directory) (· = .error fault) (· = mid) mid :=
    fun mid hmid => hmid.recovers haction hadmits
  refine converges_of_blocked ?_ hblocked
  intro mid hpasses
  rw [request_of_admits hadmits] at hpasses
  rcases hpasses.request_bind_cases with hin | ⟨username?, after, hafter, hin⟩
  · rw [lookup_of_grant haction] at hin
    have hresolve : Passes (AwsAuth.resolveOrCreate e.principal).run up mid := hin.of_map
    rw [AwsAuth.resolveOrCreate_eq hunread.isUserOrRole] at hresolve
    rcases hstates mid (hresolve.bind_of_reads AwsAuth.load_reads hload) with rfl | rfl
    · exact Or.inl rfl
    · exact Or.inr (hwritten _ rfl)
  · obtain ⟨-, rfl⟩ := Prod.mk.inj (hlookup.symm.trans hafter)
    obtain ⟨Checkpoint, final, succeeds, hstart, hplane, hact⟩ :=
      resumes_act hadmits username? (up.withDocument changed)
    exact Or.inr (hwritten mid (hplane mid (hact.closed _ mid hstart hin)))

/-- **Every request about a role converges.** -/
theorem converges_request (hkeeps : e.action = .grant → e.role.admits e.scope = true →
      ∀ document, up.plane.awsAuth = some document → document.findUsername? e.principal = none →
        document.KeepsRow e.principal) : Converges (e.request AwsAuth.directory) up := by
  by_cases hlost : ∃ document changed, e.action = .grant ∧ e.role.admits e.scope = true ∧
      up.plane.awsAuth = some document ∧ document.findUsername? e.principal = none ∧
        document.appendSelf e.principal = .ok changed ∧ changed.Unreadable e.principal
  · obtain ⟨document, changed, haction, hadmits, hdocument, hfind, happend, hunread⟩ := hlost
    exact converges_unreadable haction hadmits hdocument hfind happend hunread
  · refine (resumes_request ?_).converges
    intro haction hadmits document changed hdocument hfind happend
    rcases (hkeeps haction hadmits document hdocument hfind).cases hfind happend with
      hfound | hunread
    · exact hfound
    · exact absurd ⟨document, changed, haction, hadmits, hdocument, hfind, happend, hunread⟩ hlost

end Errand

end ClusterAccess
