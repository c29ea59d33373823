/-
What a request about an entitlement can touch.

The id of an entitlement says what a request is about (`Names`): membership of a cluster
role, of a role in its own namespace, or an access policy.  Nothing is called unless it
says so and the principal is a user or a role.  What is called then is little (`Permits`).
Bindings are written only if they give that role at that scope, policies only for that
pair, and a revoke maps nobody into the cluster.

A binding is written back from a listing, or deleted by its name, so it has to be shown that
what is in its place is of the same role at the same scope (`Bounded`).  That is so because
the request is the only one that writes: what it finds is what it has listed, or what it has
put there itself.  Any call may fail, before it has taken effect or after.
-/
import ClusterAccess.Connector
import ClusterAccess.Proofs.Errands
import ClusterAccess.Proofs.PolicyCalls

namespace ClusterAccess

open Program (After History Makes)
open Provisioning (Channel Target)
open Request

/-- A check that is followed by another one passes when both pass. -/
theorem Outcome.bind_eq_ok_iff {α β : Type} {first : Outcome α} {next : α → Outcome β}
    {value : β} : (first >>= next) = .ok value ↔ ∃ mid, first = .ok mid ∧ next mid = .ok value := by
  cases first with
  | ok mid =>
      refine ⟨fun h => ⟨mid, rfl, h⟩, ?_⟩
      intro hin
      obtain ⟨other, heq, h⟩ := hin
      obtain rfl := Except.ok.inj heq
      exact h
  | error fault =>
      refine ⟨?_, ?_⟩
      · intro h
        cases h
      · intro hin
        obtain ⟨other, heq, -⟩ := hin
        cases heq

/-- Only users and roles can be granted something. -/
theorem principalArn_eq_ok {principal : ResourceId} {arn : String}
    (h : principalArn principal = .ok arn) :
    (principal.type = "iam_user" ∨ principal.type = "iam_role") ∧ arn = principal.resource := by
  unfold principalArn at h
  split at h
  case isTrue htype =>
    cases h
    exact ⟨htype, rfl⟩
  case isFalse => cases h

/-! ### What an entitlement names -/

/-- What the id of an entitlement names, if it can be provisioned. -/
inductive Provisioning.Names (entitlement : String) : Target → Prop
  | clusterRole {name : String} {scope : Scope}
      (h : EntitlementId.decode entitlement = .ok (.assigned "cluster_role" name scope)) :
      Names entitlement (.membership (.clusterRole name) scope)
  | role {ns name : String}
      (h : EntitlementId.decode entitlement =
        .ok (.assigned "role" (ns ++ "/" ++ name) (.inNamespace ns)))
      (hns : ns ≠ "" ∧ '/' ∉ ns.toList) (hname : name ≠ "" ∧ '/' ∉ name.toList) :
      Names entitlement (.membership (.role ns name) (.inNamespace ns))
  | policy {arn : String} {scope : Scope}
      (h : EntitlementId.decode entitlement = .ok (.assigned "access_policy" arn scope)) :
      Names entitlement (.policy arn scope)

namespace EntitlementId

theorem decodeAssigned_of_decode {raw kind resource : String} {scope : Scope}
    (h : decode raw = .ok (.assigned kind resource scope)) :
    decodeAssigned raw kind = .ok (resource, scope) := by
  unfold decodeAssigned
  rw [h]
  simp [bind, Except.bind, assigned, expectAssigned]

/-- A membership of a kind is written as one. -/
theorem decode_of_decodeAssigned {raw kind resource : String} {scope : Scope}
    (h : decodeAssigned raw kind = .ok (resource, scope)) :
    decode raw = .ok (.assigned kind resource scope) := by
  unfold decodeAssigned at h
  obtain ⟨⟨kind', resource', form⟩, hdecode, h⟩ := Outcome.bind_eq_ok_iff.1 h
  rw [hdecode]
  by_cases hkind : kind' = kind
  · subst hkind
    simp only [ne_eq, not_true_eq_false, if_false] at h
    obtain ⟨found, hform, h⟩ := Outcome.bind_eq_ok_iff.1 h
    cases form with
    | assumes => cases hform
    | assigned scope' =>
        simp only [expectAssigned, and_self, if_true, Except.ok.injEq] at hform
        obtain rfl := hform
        cases h
        rfl
  · simp only [ne_eq, hkind, not_false_eq_true, if_true] at h
    cases h

end EntitlementId

namespace Catalog

/-- A role id is a namespace and a name with a slash between them. -/
theorem eq_of_splitRoleId? {id ns name : String} (h : splitRoleId? id = some (ns, name)) :
    id = ns ++ "/" ++ name ∧ (ns ≠ "" ∧ '/' ∉ ns.toList) ∧ name ≠ "" ∧ '/' ∉ name.toList := by
  unfold splitRoleId? at h
  cases hsplit : Text.splitOnce '/' id.toList with
  | none =>
      rw [hsplit] at h
      cases h
  | some parts =>
      obtain ⟨before, after⟩ := parts
      rw [hsplit] at h
      obtain ⟨hid, hslash⟩ := Text.splitOnce_eq_some_iff.1 hsplit
      by_cases hbad : before = [] ∨ after = [] ∨ '/' ∈ after
      · simp [hbad] at h
      · simp only [if_neg hbad, Option.some.injEq, Prod.mk.injEq] at h
        obtain ⟨rfl, rfl⟩ := h
        simp only [not_or] at hbad
        obtain ⟨hbefore, hafter, hlast⟩ := hbad
        refine ⟨?_, ⟨?_, ?_⟩, ?_, ?_⟩
        · rw [← String.toList_inj, hid]
          simp
        · simpa [← String.toList_inj] using hbefore
        · simpa using hslash
        · simpa [← String.toList_inj] using hafter
        · simpa using hlast

theorem splitRoleId?_join {ns name : String} (hns : ns ≠ "" ∧ '/' ∉ ns.toList)
    (hname : name ≠ "" ∧ '/' ∉ name.toList) :
    splitRoleId? (ns ++ "/" ++ name) = some (ns, name) := by
  have hsplit : Text.splitOnce '/' (ns ++ "/" ++ name).toList = some (ns.toList, name.toList) :=
    Text.splitOnce_eq_some_iff.2 ⟨by simp, hns.2⟩
  have hgood : ¬(ns.toList = [] ∨ name.toList = [] ∨ '/' ∈ name.toList) := by
    simp [hns.1, hname.1, hname.2]
  unfold splitRoleId?
  simp only [hsplit, if_neg hgood, String.ofList_toList]

/-- A membership of a role id is about the role of the id. -/
theorem roleTarget_of_decode {entitlement id ns name : String} {scope : Scope}
    (h : EntitlementId.decode entitlement = .ok (.assigned ResourceType.role.id id scope))
    (hsplit : splitRoleId? id = some (ns, name)) :
    roleTarget entitlement = .ok (.role ns name, scope) := by
  unfold roleTarget
  rw [EntitlementId.decodeAssigned_of_decode h]
  simp only [bind, Except.bind, hsplit]

end Catalog

namespace Provisioning

variable {entitlement : String} {channel : Channel} {target : Target}

/-- A channel's target is what the id names, unless it is a role that cannot be bound at the
scope. -/
theorem names_of_target (h : channel.target entitlement = .ok target)
    (hadmits : ∀ role scope, target = .membership role scope → role.admits scope = true) :
    Names entitlement target := by
  cases channel with
  | clusterRoles =>
      obtain ⟨⟨role, scope⟩, hrole, h⟩ := Outcome.bind_eq_ok_iff.1 h
      obtain ⟨⟨name, scope'⟩, hdecode, hrole⟩ := Outcome.bind_eq_ok_iff.1 hrole
      cases hrole
      cases h
      exact .clusterRole (EntitlementId.decode_of_decodeAssigned hdecode)
  | roles =>
      obtain ⟨⟨role, scope⟩, hrole, h⟩ := Outcome.bind_eq_ok_iff.1 h
      obtain ⟨⟨resource, scope'⟩, hdecode, hrole⟩ := Outcome.bind_eq_ok_iff.1 hrole
      cases hsplit : Catalog.splitRoleId? resource with
      | none =>
          simp only [hsplit] at hrole
          cases hrole
      | some parts =>
          obtain ⟨ns, name⟩ := parts
          simp only [hsplit] at hrole
          cases hrole
          cases h
          obtain rfl : scope = .inNamespace ns := of_decide_eq_true (hadmits _ _ rfl)
          obtain ⟨rfl, hns, hname⟩ := Catalog.eq_of_splitRoleId? hsplit
          exact .role (EntitlementId.decode_of_decodeAssigned hdecode) hns hname
  | accessPolicies =>
      obtain ⟨⟨arn, scope⟩, hdecode, h⟩ := Outcome.bind_eq_ok_iff.1 h
      cases h
      exact .policy (EntitlementId.decode_of_decodeAssigned hdecode)

/-- What an id names has a channel. -/
theorem Names.exists_channel (h : Names entitlement target) :
    ∃ through : Channel, Provisioning.channel entitlement = .ok through ∧
      through.target entitlement = .ok target := by
  cases h with
  | @clusterRole name scope h =>
      have hread : EntitlementId.decodeAssigned entitlement ResourceType.clusterRole.id =
          .ok (name, scope) := EntitlementId.decodeAssigned_of_decode h
      refine ⟨.clusterRoles, ?_, ?_⟩
      · rw [Provisioning.channel, h]
        rfl
      · rw [Channel.target, Catalog.clusterRoleTarget, hread]
        rfl
  | @role ns name h hns hname =>
      refine ⟨.roles, ?_, ?_⟩
      · rw [Provisioning.channel, h]
        rfl
      · rw [Channel.target,
          Catalog.roleTarget_of_decode h (Catalog.splitRoleId?_join hns hname)]
        rfl
  | @policy arn scope h =>
      have hread : EntitlementId.decodeAssigned entitlement ResourceType.accessPolicy.id =
          .ok (arn, scope) := EntitlementId.decodeAssigned_of_decode h
      refine ⟨.accessPolicies, ?_, ?_⟩
      · rw [Provisioning.channel, h]
        rfl
      · rw [Channel.target, Catalog.policyTarget, hread]
        rfl

end Provisioning

/-! ### The calls about a role -/

namespace Errand

variable {e : Errand} {history : History Call Call.Reply} {call : Call}

/-- What a request about a role calls. -/
inductive Calls (e : Errand) : Call → Prop
  | readDocument : Calls e .getAwsAuth
  | writeDocument (haction : e.action = .grant) (document : AwsAuth) :
      Calls e (.updateAwsAuth document)
  | bindings {call : Call} (habout : call.isAboutBindings = true) : Calls e call

/-- Only a grant writes the mapping document. -/
theorem makes_calls (e : Errand) : (e.request AwsAuth.directory).run.Makes e.Calls := by
  have hscope : (ofOutcome (e.role.checkScope e.scope) : Request Unit).run.Makes e.Calls :=
    trivial
  rw [request_eq]
  refine makes_bind hscope fun _ => makes_bind ?_ fun username? => ?_
  · cases haction : e.action with
    | grant =>
        rw [lookup_of_grant haction]
        refine makes_bind ?_ fun _ => trivial
        exact AwsAuth.makes_resolveOrCreate .readDocument (.writeDocument haction)
    | revoke =>
        rw [lookup_of_revoke haction]
        exact AwsAuth.makes_resolve .readDocument
  · exact (makes_act e username?).mono fun _ => .bindings

/-- Nothing is called for a role that cannot be bound at the scope. -/
theorem admits_of_call {directory : Directory}
    {next : call.Reply → Program Call Call.Reply (Outcome Result)}
    (h : After (e.request directory).run history (.call call next)) :
    e.role.admits e.scope = true := by
  rw [request_eq] at h
  obtain ⟨_, hscope, -⟩ := after_ofOutcome_bind_call h
  exact RoleTarget.checkScope_eq_ok_iff.1 hscope

end Errand

/-! ### Stores that fail -/

namespace BindingStore

/-- The calls of a history come to a store one after another, and any of them may fail, before it
has taken effect or after. -/
inductive Endures (start : BindingStore) : History Call Call.Reply → BindingStore → Prop
  | nil : Endures start [] start
  | served {history : History Call Call.Reply} {store after : BindingStore} {call : Call}
      {reply : call.Reply} (h : Endures start history store)
      (hs : store.Serves call reply after) : Endures start (history ++ [⟨call, reply⟩]) after
  | failed {history : History Call Call.Reply} {store : BindingStore}
      (h : Endures start history store) (call : Call) (fault : Fault) :
      Endures start (history ++ [⟨call, .error fault⟩]) store
  | cut {history : History Call Call.Reply} {store after : BindingStore} {call : Call}
      {reply : call.Reply} (h : Endures start history store)
      (hs : store.Serves call reply after) (fault : Fault) :
      Endures start (history ++ [⟨call, .error fault⟩]) after

/-- What has been listed is of the role at the scope, and so is what is in its place. -/
def Bounded (role : RoleTarget) (scope : Scope) (history : History Call Call.Reply)
    (store : BindingStore) : Prop :=
  ∀ listed, ⟨.matchingBindings role, .ok listed⟩ ∈ history → ∀ b ∈ listed.narrow scope,
    b.isOf role scope = true ∧ ∀ c ∈ store.bindings, c.place = b.place → c.isOf role scope = true

variable {role : RoleTarget} {scope : Scope} {username : String} {action : Action}
  {candidates : List Binding} {start store after : BindingStore} {call : Call}
  {history : History Call Call.Reply}

/-- A write that is meant for bindings of the role at the scope puts no other bindings there. -/
theorem mem_of_intends {reply : call.Reply} (hs : store.Serves call reply after)
    (hof : ∀ b ∈ candidates, b.isOf role scope = true)
    (hintends : RoleTarget.Intends role scope username candidates action call) :
    ∀ c ∈ after.bindings, c ∈ store.bindings ∨ c.isOf role scope = true := by
  intro c hc
  rcases hs.eq_or_wrote with rfl | ⟨-, hok⟩
  · exact Or.inl hc
  cases reply with
  | error fault => cases hok
  | ok answer =>
  cases hintends with
  | @add b hb =>
      obtain ⟨-, rfl⟩ := hs.update_ok
      rcases mem_put.1 hc with rfl | ⟨hold, -⟩
      · exact Or.inr (hof b hb)
      · exact Or.inl hold
  | create =>
      obtain ⟨-, rfl⟩ := hs.create_ok
      rcases mem_put.1 hc with rfl | ⟨hold, -⟩
      · have hof : (Binding.newForUser role scope username).isOf role scope = true :=
          Binding.isOf_newForUser
        exact Or.inr hof
      · exact Or.inl hold
  | @remove b hb =>
      obtain ⟨-, rfl⟩ := hs.update_ok
      rcases mem_put.1 hc with rfl | ⟨hold, -⟩
      · exact Or.inr (hof b hb)
      · exact Or.inl hold
  | delete =>
      obtain ⟨-, rfl⟩ := hs.delete_ok
      exact Or.inl (mem_drop.1 hc).1

theorem Bounded.mono (h : Bounded role scope history store)
    (hmem : ∀ c ∈ after.bindings, c ∈ store.bindings ∨ c.isOf role scope = true) :
    Bounded role scope history after := by
  intro listed hlisted b hb
  obtain ⟨hof, hplace⟩ := h listed hlisted b hb
  refine ⟨hof, fun c hc hsame => ?_⟩
  rcases hmem c hc with hold | hnew
  · exact hplace c hold hsame
  · exact hnew

/-- A reply that is no listing of the role adds nothing to be bounded. -/
theorem Bounded.snoc {reply : call.Reply} (h : Bounded role scope history store)
    (hreply : ∀ listed, (⟨call, reply⟩ : (call : Call) × call.Reply) =
      ⟨.matchingBindings role, .ok listed⟩ → ∀ b ∈ listed.narrow scope,
        b.isOf role scope = true ∧
          ∀ c ∈ store.bindings, c.place = b.place → c.isOf role scope = true) :
    Bounded role scope (history ++ [⟨call, reply⟩]) store := by
  intro listed hlisted
  rcases List.mem_append.1 hlisted with hold | hnew
  · exact h listed hold
  · exact hreply listed (List.mem_singleton.1 hnew).symm

/-- A listing is of the role at the scope, and nothing else is where it was read. -/
theorem bounded_matching (ha : role.admits scope = true) :
    ∀ b ∈ (store.matching role).narrow scope, b.isOf role scope = true ∧
      ∀ c ∈ store.bindings, c.place = b.place → c.isOf role scope = true := by
  intro b hb
  rw [narrow_matching ha] at hb
  obtain ⟨hmem, hof⟩ := List.mem_filter.1 hb
  refine ⟨hof, fun c hc hplace => ?_⟩
  rw [eq_of_place_eq hc hmem hplace]
  exact hof

variable {e : Errand}

/-- A call of a request leaves what it has listed bounded, whether it succeeds or not. -/
theorem Bounded.served {reply : call.Reply}
    {next : call.Reply → Program Call Call.Reply (Outcome Errand.Result)}
    (h : Bounded e.role e.scope history store)
    (hdue : After (e.request AwsAuth.directory).run history (.call call next))
    (hs : store.Serves call reply after) : Bounded e.role e.scope history after := by
  rcases Errand.due_of_after AwsAuth.directory_offBindings hdue with
    hoff | ⟨ha, rfl | ⟨username, listed, -, hlisted, hintends⟩⟩
  · have hquiet : call.writesBinding = true → reply.isOk = false := by
      intro hwrites
      rw [Call.isAboutBindings_of_writes hwrites] at hoff
      cases hoff
    rw [hs.eq_of_quiet hquiet]
    exact h
  · rw [(serves_matching_iff.1 hs).2]
    exact h
  · exact h.mono (mem_of_intends hs (fun b hb => (h listed hlisted b hb).1) hintends)

/-- **What a request has listed stays bounded**, whatever fails. -/
theorem bounded_of_endures (hends : start.Endures history store)
    {q : Program Call Call.Reply (Outcome Errand.Result)}
    (hrun : After (e.request AwsAuth.directory).run history q) :
    Bounded e.role e.scope history store := by
  induction hends generalizing q with
  | nil =>
      intro listed hlisted
      cases hlisted
  | @served history store after call reply h hs ih =>
      obtain ⟨next, hdue, -⟩ := hrun.of_snoc
      refine ((ih hdue).served hdue hs).snoc fun listed heq => ?_
      cases heq
      obtain ⟨hlisted, rfl⟩ := serves_matching_iff.1 hs
      obtain rfl := Except.ok.inj hlisted
      exact bounded_matching (Errand.admits_of_call hdue)
  | failed h call fault ih =>
      obtain ⟨next, hdue, -⟩ := hrun.of_snoc
      refine (ih hdue).snoc fun listed heq => ?_
      cases heq
  | cut h hs fault ih =>
      obtain ⟨next, hdue, -⟩ := hrun.of_snoc
      refine ((ih hdue).served hdue hs).snoc fun listed heq => ?_
      cases heq

end BindingStore

/-! ### What is permitted -/

/-- What a request may call, given what it is about and what the store holds. -/
inductive Permits (action : Action) (arn : String) (store : BindingStore) : Target → Call → Prop
  | readDocument {role : RoleTarget} {scope : Scope} :
      Permits action arn store (.membership role scope) .getAwsAuth
  /-- Only a grant maps a principal. -/
  | writeDocument {role : RoleTarget} {scope : Scope} (haction : action = .grant)
      (document : AwsAuth) : Permits action arn store (.membership role scope)
        (.updateAwsAuth document)
  | listBindings {role : RoleTarget} {scope : Scope} :
      Permits action arn store (.membership role scope) (.matchingBindings role)
  | createBinding {role : RoleTarget} {scope : Scope} {b : Binding} (haction : action = .grant)
      (hof : b.isOf role scope = true) :
      Permits action arn store (.membership role scope) (.createBinding b)
  /-- The binding is of the role at the scope, and so is what it replaces. -/
  | updateBinding {role : RoleTarget} {scope : Scope} {b : Binding}
      (hof : b.isOf role scope = true)
      (hplace : ∀ c ∈ store.bindings, c.place = b.place → c.isOf role scope = true) :
      Permits action arn store (.membership role scope) (.updateBinding b)
  /-- What has the name is of the role at the scope. -/
  | deleteBinding {role : RoleTarget} {scope : Scope} {name : String} (haction : action = .revoke)
      (hplace : ∀ c ∈ store.bindings, c.place = BindingStore.placeNamed scope.ns? name →
        c.isOf role scope = true) :
      Permits action arn store (.membership role scope) (.deleteBinding scope.ns? name)
  | readPolicies {policy : String} {scope : Scope} :
      Permits action arn store (.policy policy scope) (.associatedPolicies arn)
  /-- Only a grant makes an access entry. -/
  | createEntry {policy : String} {scope : Scope} (haction : action = .grant) :
      Permits action arn store (.policy policy scope) (.createAccessEntry arn)
  | associate {policy : String} {scope : Scope} (written : PolicyScope) :
      Permits action arn store (.policy policy scope) (.associatePolicy arn policy written)
  | disassociate {policy : String} {scope : Scope} (haction : action = .revoke) :
      Permits action arn store (.policy policy scope) (.disassociatePolicy arn policy)

section Permits

variable {action : Action} {arn : String} {store start : BindingStore} {call : Call}
  {history : History Call Call.Reply}

/-- A write that is meant for what has been listed is permitted. -/
theorem permits_of_intends {role : RoleTarget} {scope : Scope} {username : String}
    {candidates : List Binding}
    (h : ∀ b ∈ candidates, b.isOf role scope = true ∧
      ∀ c ∈ store.bindings, c.place = b.place → c.isOf role scope = true)
    (hintends : RoleTarget.Intends role scope username candidates action call) :
    Permits action arn store (.membership role scope) call := by
  cases hintends with
  | @add b hb => exact .updateBinding (h b hb).1 (h b hb).2
  | create => exact .createBinding rfl Binding.isOf_newForUser
  | @remove b hb => exact .updateBinding (h b hb).1 (h b hb).2
  | @delete b hb =>
      have hat : b.isAt scope = true := (Bool.and_eq_true _ _ ▸ (h b hb).1).1
      rw [Binding.ns?_eq_of_isAt hat]
      refine .deleteBinding rfl fun c hc hplace => (h b hb).2 c hc ?_
      rw [hplace, ← Binding.ns?_eq_of_isAt hat]
      exact BindingStore.placeNamed_eq hat

theorem permits_of_errand {e : Errand}
    {next : call.Reply → Program Call Call.Reply (Outcome Errand.Result)}
    (hdue : After (e.request AwsAuth.directory).run history (.call call next))
    (hends : start.Endures history store) :
    Permits e.action arn store (.membership e.role e.scope) call := by
  rcases Errand.due_of_after AwsAuth.directory_offBindings hdue with
    hoff | ⟨-, rfl | ⟨username, listed, -, hlisted, hintends⟩⟩
  · cases e.makes_calls.call hdue with
    | readDocument => exact .readDocument
    | writeDocument haction document => exact .writeDocument haction document
    | bindings habout =>
        rw [hoff] at habout
        cases habout
  · exact .listBindings
  · exact permits_of_intends (BindingStore.bounded_of_endures hends hdue listed hlisted) hintends

theorem permits_of_policy {policy : String} {scope : Scope} {wish : Policy.Wish}
    (haction : wish = .grant scope ∧ action = .grant ∨ wish = .revoke scope ∧ action = .revoke)
    (hdue : Policy.Due ⟨arn, policy, wish⟩ history call) :
    Permits action arn store (.policy policy scope) call := by
  cases hdue with
  | entry hwish =>
      rcases haction with ⟨-, rfl⟩ | ⟨hrevoke, -⟩
      · exact .createEntry rfl
      · cases hwish.symm.trans hrevoke
  | reading => exact .readPolicies
  | associate => exact .associate _
  | disassociate hwish =>
      rcases haction with ⟨hgrant, -⟩ | ⟨-, rfl⟩
      · cases hwish.symm.trans hgrant
      · exact .disassociate rfl

end Permits

/-! ### Checks -/

namespace Provisioning

variable {principal : ResourceId} {entitlement : String} {target : Target}
  {history : History Call Call.Reply} {β : Type} {next : Target → String → Request β}

/-- A grant and a revoke check the id and the principal before they do anything. -/
def checked (principal : ResourceId) (entitlement : String) (next : Target → String → Request β) :
    Request β := do
  let through ← ofOutcome (channel entitlement)
  let target ← ofOutcome (through.target entitlement)
  let arn ← ofOutcome (principalArn principal)
  next target arn

/-- What is called is called after the checks. -/
theorem checked_call {call : Call} {rest : call.Reply → Program Call Call.Reply (Outcome β)}
    (h : After (checked principal entitlement next).run history (.call call rest)) :
    ∃ (channel : Channel) (target : Target) (arn : String),
      channel.target entitlement = .ok target ∧ principalArn principal = .ok arn ∧
        After (next target arn).run history (.call call rest) := by
  obtain ⟨channel, -, h⟩ := after_ofOutcome_bind_call h
  obtain ⟨target, htarget, h⟩ := after_ofOutcome_bind_call h
  obtain ⟨arn, harn, h⟩ := after_ofOutcome_bind_call h
  exact ⟨channel, target, arn, htarget, harn, h⟩

/-- What succeeds is done for the principal and for what the id names. -/
theorem Names.done_of_checked {value : β} (hnames : Names entitlement target)
    (h : After (checked principal entitlement next).run history (.done (.ok value))) :
    After (next target principal.resource).run history (.done (.ok value)) := by
  obtain ⟨through, hthrough, htarget⟩ := hnames.exists_channel
  obtain ⟨found, hfound, h⟩ := after_ofOutcome_bind_ok h
  obtain rfl := Except.ok.inj (hthrough.symm.trans hfound)
  obtain ⟨target, hfound, h⟩ := after_ofOutcome_bind_ok h
  obtain rfl := Except.ok.inj (htarget.symm.trans hfound)
  obtain ⟨arn, harn, h⟩ := after_ofOutcome_bind_ok h
  obtain rfl := (principalArn_eq_ok harn).2
  exact h

end Provisioning

/-! ### Requests of a connector -/

namespace Connector

variable {connector : Connector} {action : Action} {principal : ResourceId} {entitlement : String}
  {history : History Call Call.Reply} {call : Call} {start store : BindingStore}

theorem request_grant (connector : Connector) :
    (connector.grant principal entitlement).request =
      Provisioning.checked principal entitlement fun target arn => target.grant arn := rfl

theorem request_revoke (connector : Connector) :
    (connector.revoke principal entitlement).request =
      Provisioning.checked principal entitlement fun target arn => target.revoke arn := rfl

/-- The call is the next one of a grant or a revoke with this history. -/
def IsDue (connector : Connector) (action : Action) (principal : ResourceId)
    (entitlement : String) (history : History Call Call.Reply) (call : Call) : Prop :=
  match action with
  | .grant => ∃ next, After (connector.grant principal entitlement).request.run history
      (.call call next)
  | .revoke => ∃ next, After (connector.revoke principal entitlement).request.run history
      (.call call next)

/-- A grant or a revoke of a target has a call due. -/
def IsDueFor (action : Action) (arn : String) (target : Target)
    (history : History Call Call.Reply) (call : Call) : Prop :=
  match action with
  | .grant => ∃ next, After (target.grant arn).run history (.call call next)
  | .revoke => ∃ next, After (target.revoke arn).run history (.call call next)

/-- Nothing is due before the id and the principal have been checked. -/
theorem checked_of_isDue (h : connector.IsDue action principal entitlement history call) :
    ∃ (channel : Channel) (target : Target) (arn : String),
      channel.target entitlement = .ok target ∧ principalArn principal = .ok arn ∧
        IsDueFor action arn target history call := by
  cases action with
  | grant =>
      obtain ⟨next, h⟩ := h
      obtain ⟨channel, target, arn, htarget, harn, h⟩ := Provisioning.checked_call h
      exact ⟨channel, target, arn, htarget, harn, next, h⟩
  | revoke =>
      obtain ⟨next, h⟩ := h
      obtain ⟨channel, target, arn, htarget, harn, h⟩ := Provisioning.checked_call h
      exact ⟨channel, target, arn, htarget, harn, next, h⟩

/-- Membership is requested like an errand. -/
theorem errand_of_isDueFor {arn : String} {role : RoleTarget} {scope : Scope}
    (h : IsDueFor action arn (.membership role scope) history call) :
    ∃ next, After ((⟨action, arn, role, scope⟩ : Errand).request AwsAuth.directory).run history
      (.call call next) := by
  cases action with
  | grant =>
      obtain ⟨next, h⟩ := h
      exact after_bind_of_call h _
  | revoke =>
      obtain ⟨next, h⟩ := h
      exact after_bind_of_call h _

/-- A policy is requested like a command. -/
theorem policyDue_of_isDueFor {arn policy : String} {scope : Scope}
    (h : IsDueFor action arn (.policy policy scope) history call) :
    ∃ wish, (wish = .grant scope ∧ action = .grant ∨ wish = .revoke scope ∧ action = .revoke) ∧
      Policy.Due ⟨arn, policy, wish⟩ history call := by
  cases action with
  | grant =>
      obtain ⟨next, h⟩ := h
      exact ⟨.grant scope, Or.inl ⟨rfl, rfl⟩,
        Policy.grant_call (c := ⟨arn, policy, .grant scope⟩) rfl h⟩
  | revoke =>
      obtain ⟨next, h⟩ := h
      exact ⟨.revoke scope, Or.inr ⟨rfl, rfl⟩,
        Policy.revoke_call (c := ⟨arn, policy, .revoke scope⟩) rfl h⟩

/-- **A request stays inside what its entitlement names.**  Whatever the principal, the text of the
entitlement and the state of the cluster are, and whatever has failed on the way: if a call is
next, then the principal is a user or a role, the text is the id of something that can be
provisioned, and the call is one of the few that are permitted for it. -/
theorem permits_of_isDue (hdue : connector.IsDue action principal entitlement history call)
    (hends : start.Endures history store) :
    (principal.type = "iam_user" ∨ principal.type = "iam_role") ∧
      ∃ target, Provisioning.Names entitlement target ∧
        Permits action principal.resource store target call := by
  obtain ⟨channel, target, arn, htarget, harn, hdue⟩ := checked_of_isDue hdue
  obtain ⟨htype, rfl⟩ := principalArn_eq_ok harn
  refine ⟨htype, target, ?_⟩
  cases target with
  | membership role scope =>
      obtain ⟨next, herrand⟩ := errand_of_isDueFor hdue
      refine ⟨Provisioning.names_of_target htarget fun role' scope' heq => ?_,
        permits_of_errand herrand hends⟩
      cases heq
      exact Errand.admits_of_call herrand
  | policy policy scope =>
      obtain ⟨wish, haction, hpolicy⟩ := policyDue_of_isDueFor hdue
      refine ⟨Provisioning.names_of_target htarget fun role scope heq => ?_,
        permits_of_policy haction hpolicy⟩
      cases heq

/-- A connector of the cluster prod. -/
def prod : Connector := ⟨{ clusterName := "prod" }, rfl⟩

/-- The user alice. -/
def alice : ResourceId := ⟨"iam_user", "arn:aws:iam::111122223333:user/alice"⟩

/-- The calls of a grant before it creates a binding: alice is mapped, and no binding is listed. -/
def mappedFirst (document : AwsAuth) : History Call Call.Reply :=
  [⟨.getAwsAuth, .ok (some ⟨"kube-system", "aws-auth", some "1", []⟩)⟩,
    ⟨.updateAwsAuth document, .ok ()⟩,
    ⟨.matchingBindings (.clusterRole "view"), .ok ⟨[], []⟩⟩]

theorem endures_mappedFirst (document : AwsAuth) :
    BindingStore.empty.Endures (mappedFirst document) .empty := by
  have hread : BindingStore.empty.Endures ((mappedFirst document).take 1) .empty :=
    .served .nil (.other rfl _)
  have hwrite : BindingStore.empty.Endures ((mappedFirst document).take 2) .empty :=
    .served hread (.other rfl _)
  have hlist : BindingStore.empty.Serves (.matchingBindings (.clusterRole "view"))
      (.ok ⟨[], []⟩) .empty := .answered rfl
  exact .served hwrite hlist

theorem isDue_mappedFirst : ∃ document,
    prod.IsDue .grant alice "cluster_role:view:assigned:ns:cluster" (mappedFirst document)
      (.createBinding (.newForUser (.clusterRole "view") (.inNamespace "cluster")
        alice.resource)) :=
  ⟨_, _, .reply (.reply (.reply (.start _)))⟩

/-- A user gets a role in the namespace that is called like the cluster, by a binding of that
namespace. -/
theorem permits_create_in_namespace_cluster : ∃ document,
    prod.IsDue .grant alice "cluster_role:view:assigned:ns:cluster" (mappedFirst document)
      (.createBinding (.newForUser (.clusterRole "view") (.inNamespace "cluster")
        alice.resource)) ∧
    (alice.type = "iam_user" ∨ alice.type = "iam_role") ∧
    ∃ target, Provisioning.Names "cluster_role:view:assigned:ns:cluster" target ∧
      Permits .grant alice.resource .empty target
        (.createBinding (.newForUser (.clusterRole "view") (.inNamespace "cluster")
          alice.resource)) := by
  obtain ⟨document, hdue⟩ := isDue_mappedFirst
  exact ⟨document, hdue, permits_of_isDue hdue (endures_mappedFirst document)⟩

end Connector

end ClusterAccess
