/-
What a grant or a revoke of a role asks for.

A request checks the scope, has its directory give the username, lists the bindings of the
role once, and then writes.  Everything that is said of it here is said of the calls it makes
and of the replies it gets, whoever gives them.

  * The call that is due is one of the directory's, the listing, or a write that is meant
    for what the request has listed (`Due`).
  * A grant that succeeds has seen the user listed, or has written it (`Granted`).
  * A revoke that succeeds has gone through the bindings that list the user (`Revoked`).
  * A request that fails has had no write before the one that failed it, but for a revoke
    that is in the middle of its bindings (`Ends`).
-/
import ClusterAccess.Proofs.BindingStore
import ClusterAccess.Rbac.Assignment

namespace ClusterAccess

open Program (After History Makes)
open Request

/-! ### Directories -/

/-- A directory that leaves the bindings alone. -/
structure Directory.OffBindings (directory : Directory) : Prop where
  resolve : ∀ principal,
    (directory.resolve principal).run.Makes fun call => call.isAboutBindings = false
  resolveOrCreate : ∀ principal,
    (directory.resolveOrCreate principal).run.Makes fun call => call.isAboutBindings = false

/-- A directory that has every principal under its own name. -/
def Directory.plain : Directory where
  resolve principal := pure (some principal)
  resolveOrCreate principal := pure ⟨principal, false⟩

theorem Directory.plain_offBindings : Directory.plain.OffBindings where
  resolve _ := trivial
  resolveOrCreate _ := trivial

namespace AwsAuth

variable {principal : String}

theorem makes_load {P : Call → Prop} (hread : P .getAwsAuth) : load.run.Makes P := by
  refine ⟨hread, fun reply => ?_⟩
  cases reply with
  | error fault => trivial
  | ok document => cases document <;> trivial

theorem makes_resolve {P : Call → Prop} (hread : P .getAwsAuth) :
    (directory.resolve principal).run.Makes P := by
  rw [show directory.resolve principal = resolve principal from rfl, resolve]
  exact makes_bind (makes_load hread) fun _ => trivial

theorem makes_resolveOrCreate {P : Call → Prop} (hread : P .getAwsAuth)
    (hwrite : ∀ document, P (.updateAwsAuth document)) :
    (directory.resolveOrCreate principal).run.Makes P := by
  rw [show directory.resolveOrCreate principal = resolveOrCreate principal from rfl,
    resolveOrCreate]
  split
  · trivial
  · refine makes_bind (makes_load hread) fun document => ?_
    split
    · trivial
    · refine makes_bind (by trivial) fun changed => ?_
      exact makes_bind ⟨hwrite changed, fun _ => trivial⟩ fun _ => trivial

/-- The mapping document is no binding. -/
theorem directory_offBindings : directory.OffBindings where
  resolve _ := makes_resolve rfl
  resolveOrCreate _ := makes_resolveOrCreate rfl fun _ => rfl

end AwsAuth

/-- What a request does about a role. -/
inductive Action where
  | grant
  | revoke
  deriving DecidableEq, Repr

namespace RoleTarget

variable {role : RoleTarget} {scope : Scope} {username : String}

/-! ### The parts of a request -/

/-- What a grant writes when the user is not listed. -/
def writeGrant (role : RoleTarget) (scope : Scope) (username : String)
    (candidates : List Binding) : Request Unit :=
  match candidates.find? fun b => b.name = canonicalBindingName role scope with
  | some b => send (.updateBinding (b.addUser username))
  | none => send (.createBinding (.newForUser role scope username))

/-- What a grant does once it has the username. -/
def grantTo (role : RoleTarget) (scope : Scope) (username : String) : Request GrantResult := do
  let candidates ← role.bindingsAt scope
  if candidates.any fun b => b.hasUser username then
    pure .alreadySatisfied
  else do
    writeGrant role scope username candidates
    pure .applied

/-- What a revoke does once it has the username. -/
def revokeFrom (role : RoleTarget) (scope : Scope) (username : String) : Request RevokeResult := do
  let bindings ← role.bindingsAt scope
  match bindings.filter fun b => b.hasUser username with
  | [] => pure .alreadyRevoked
  | holding => do
    removeFromAll username holding
    pure .applied

theorem grant_eq (directory : Directory) (principal : String) :
    role.grant directory principal scope =
      (ofOutcome (role.checkScope scope) >>= fun _ =>
        directory.resolveOrCreate principal >>= fun resolved =>
          role.grantTo scope resolved.username) := by
  unfold grant grantTo writeGrant
  refine congrArg (ofOutcome (role.checkScope scope) >>= ·) (funext fun _ => ?_)
  refine congrArg (directory.resolveOrCreate principal >>= ·) (funext fun resolved => ?_)
  refine congrArg (role.bindingsAt scope >>= ·) (funext fun candidates => ?_)
  -- The rest of the grant stands behind each of the writes there, and once here.
  cases candidates.find? fun b => b.name = canonicalBindingName role scope <;> rfl

theorem revoke_eq (directory : Directory) (principal : String) :
    role.revoke directory principal scope =
      (ofOutcome (role.checkScope scope) >>= fun _ =>
        directory.resolve principal >>= fun username? =>
          match username? with
          | none => pure .alreadyRevoked
          | some username => role.revokeFrom scope username) := rfl

/-! ### The listing -/

variable {directory : Directory} {principal : String} {history : History Call Call.Reply}

theorem checkScope_eq_ok_iff : role.checkScope scope = .ok () ↔ role.admits scope = true := by
  unfold checkScope
  by_cases h : role.admits scope = true
  · simp [h]
  · simp [h]

theorem bindingsAt_ok {bindings : List Binding}
    (h : After (role.bindingsAt scope).run history (.done (.ok bindings))) :
    ∃ listed, history = [⟨.matchingBindings role, .ok listed⟩] ∧
      bindings = listed.narrow scope := by
  obtain ⟨listed, before, rest, rfl, hsend, hpure⟩ := after_bind_ok_iff.1 h
  obtain ⟨rfl, hbindings⟩ := after_pure_iff.1 hpure
  cases hbindings
  exact ⟨listed, by rw [after_send_done_iff.1 hsend, List.append_nil], rfl⟩

theorem bindingsAt_error {fault : Fault}
    (h : After (role.bindingsAt scope).run history (.done (.error fault))) :
    history = [⟨.matchingBindings role, .error fault⟩] := by
  rcases after_bind_error_iff.1 h with hsend | ⟨listed, before, rest, -, -, hpure⟩
  · exact after_send_done_iff.1 hsend
  · cases (after_pure_iff.1 hpure).2

theorem bindingsAt_call {call : Call}
    {next : call.Reply → Program Call Call.Reply (Outcome (List Binding))}
    (h : After (role.bindingsAt scope).run history (.call call next)) :
    call = .matchingBindings role := by
  obtain ⟨_, hsend⟩ := after_bind_pure_call h
  exact (after_send_call hsend).1

/-- The writes that a request may ask for, given the bindings that it has listed. -/
inductive Intends (role : RoleTarget) (scope : Scope) (username : String)
    (candidates : List Binding) : Action → Call → Prop
  | add {b : Binding} (hb : b ∈ candidates) :
      Intends role scope username candidates .grant (.updateBinding (b.addUser username))
  | create : Intends role scope username candidates .grant
      (.createBinding (.newForUser role scope username))
  | remove {b : Binding} (hb : b ∈ candidates) (hne : (b.removeUser username).subjects ≠ []) :
      Intends role scope username candidates .revoke (.updateBinding (b.removeUser username))
  | delete {b : Binding} (hb : b ∈ candidates) (hnil : (b.removeUser username).subjects = []) :
      Intends role scope username candidates .revoke (.deleteBinding b.ns? b.name)

theorem writes_of_intends {candidates : List Binding} {action : Action} {call : Call}
    (h : Intends role scope username candidates action call) : call.writesBinding = true := by
  cases h with
  | add => rfl
  | create => rfl
  | remove => rfl
  | delete => rfl

/-! ### Grants -/

/-- What a grant does after its listing, and how it ends. -/
inductive Granted (role : RoleTarget) (scope : Scope) (username : String)
    (candidates : List Binding) : History Call Call.Reply → GrantResult → Prop
  /-- The user is listed. -/
  | held {b : Binding} (hb : b ∈ candidates) (hu : b.hasUser username = true) :
      Granted role scope username candidates [] .alreadySatisfied
  /-- The user is added to a binding that was listed. -/
  | added {b : Binding} (hnone : ∀ c ∈ candidates, c.hasUser username = false)
      (hb : b ∈ candidates) :
      Granted role scope username candidates
        [⟨.updateBinding (b.addUser username), .ok ()⟩] .applied
  /-- The user gets a binding. -/
  | created (hnone : ∀ c ∈ candidates, c.hasUser username = false) :
      Granted role scope username candidates
        [⟨.createBinding (.newForUser role scope username), .ok ()⟩] .applied

theorem writeGrant_cases (role : RoleTarget) (scope : Scope) (username : String)
    (candidates : List Binding) :
    (∃ b ∈ candidates,
      writeGrant role scope username candidates = send (.updateBinding (b.addUser username))) ∨
    writeGrant role scope username candidates =
      send (.createBinding (.newForUser role scope username)) := by
  unfold writeGrant
  cases hfind : candidates.find? fun b => b.name = canonicalBindingName role scope with
  | some b => exact Or.inl ⟨b, List.mem_of_find?_eq_some hfind, rfl⟩
  | none => exact Or.inr rfl

theorem grantTo_ok {result : GrantResult}
    (h : After (role.grantTo scope username).run history (.done (.ok result))) :
    ∃ listed rest, history = ⟨.matchingBindings role, .ok listed⟩ :: rest ∧
      Granted role scope username (listed.narrow scope) rest result := by
  obtain ⟨candidates, before, rest, rfl, hlist, hrest⟩ := after_bind_ok_iff.1 h
  obtain ⟨listed, rfl, rfl⟩ := bindingsAt_ok hlist
  refine ⟨listed, rest, rfl, ?_⟩
  by_cases hany : (listed.narrow scope).any (fun b => b.hasUser username) = true
  · rw [if_pos hany] at hrest
    obtain ⟨rfl, hresult⟩ := after_pure_iff.1 hrest
    cases hresult
    obtain ⟨b, hb, hu⟩ := List.any_eq_true.1 hany
    exact .held hb hu
  · rw [if_neg hany] at hrest
    have hnone : ∀ c ∈ listed.narrow scope, c.hasUser username = false := by
      simpa using hany
    obtain ⟨_, before, after, rfl, hwrite, hend⟩ := after_bind_ok_iff.1 hrest
    obtain ⟨rfl, hresult⟩ := after_pure_iff.1 hend
    cases hresult
    rw [List.append_nil]
    rcases writeGrant_cases role scope username (listed.narrow scope) with ⟨b, hb, heq⟩ | heq
    · rw [heq] at hwrite
      obtain rfl := after_send_done_iff.1 hwrite
      exact .added hnone hb
    · rw [heq] at hwrite
      obtain rfl := after_send_done_iff.1 hwrite
      exact .created hnone

theorem grantTo_call {call : Call}
    {next : call.Reply → Program Call Call.Reply (Outcome GrantResult)}
    (h : After (role.grantTo scope username).run history (.call call next)) :
    call = .matchingBindings role ∨
      ∃ listed, history = [⟨.matchingBindings role, .ok listed⟩] ∧
        Intends role scope username (listed.narrow scope) .grant call := by
  rcases Request.after_bind_call h with
    ⟨next', hlist⟩ | ⟨candidates, before, rest, rfl, hlist, hrest⟩
  · exact Or.inl (bindingsAt_call hlist)
  · obtain ⟨listed, rfl, rfl⟩ := bindingsAt_ok hlist
    by_cases hany : (listed.narrow scope).any (fun b => b.hasUser username) = true
    · rw [if_pos hany] at hrest
      cases (after_pure_iff.1 hrest).2
    · rw [if_neg hany] at hrest
      obtain ⟨_, hwrite⟩ := after_bind_pure_call hrest
      rcases writeGrant_cases role scope username (listed.narrow scope) with ⟨b, hb, heq⟩ | heq
      · rw [heq] at hwrite
        obtain ⟨rfl, rfl⟩ := after_send_call hwrite
        exact Or.inr ⟨listed, rfl, .add hb⟩
      · rw [heq] at hwrite
        obtain ⟨rfl, rfl⟩ := after_send_call hwrite
        exact Or.inr ⟨listed, rfl, .create⟩

/-- The write of a grant: the user goes into the library's own binding, or gets one. -/
inductive Adds (role : RoleTarget) (scope : Scope) (username : String)
    (candidates : List Binding) : Call → Prop
  | add {b : Binding} (hb : b ∈ candidates) (hname : b.name = canonicalBindingName role scope) :
      Adds role scope username candidates (.updateBinding (b.addUser username))
  | create : Adds role scope username candidates (.createBinding (.newForUser role scope username))

theorem writeGrant_call {candidates : List Binding} {call : Call}
    {next : call.Reply → Program Call Call.Reply (Outcome Unit)}
    (h : After (writeGrant role scope username candidates).run history (.call call next)) :
    Adds role scope username candidates call := by
  unfold writeGrant at h
  cases hfind : candidates.find? fun b => b.name = canonicalBindingName role scope with
  | some b =>
      simp only [hfind] at h
      obtain ⟨rfl, -⟩ := after_send_call h
      exact .add (List.mem_of_find?_eq_some hfind) (by simpa using List.find?_some hfind)
  | none =>
      simp only [hfind] at h
      obtain ⟨rfl, -⟩ := after_send_call h
      exact .create

/-- A grant writes only if nothing that it has listed lists the user. -/
theorem grantTo_adds {call : Call}
    {next : call.Reply → Program Call Call.Reply (Outcome GrantResult)}
    (h : After (role.grantTo scope username).run history (.call call next))
    (hwrites : call.writesBinding = true) :
    ∃ listed, ⟨.matchingBindings role, .ok listed⟩ ∈ history ∧
      (∀ c ∈ listed.narrow scope, c.hasUser username = false) ∧
      Adds role scope username (listed.narrow scope) call := by
  rcases Request.after_bind_call h with
    ⟨next', hlist⟩ | ⟨candidates, before, rest, rfl, hlist, hrest⟩
  · rw [bindingsAt_call hlist] at hwrites
    cases hwrites
  · obtain ⟨listed, rfl, rfl⟩ := bindingsAt_ok hlist
    refine ⟨listed, by simp, ?_⟩
    by_cases hany : (listed.narrow scope).any (fun b => b.hasUser username) = true
    · rw [if_pos hany] at hrest
      cases (after_pure_iff.1 hrest).2
    · rw [if_neg hany] at hrest
      obtain ⟨_, hwrite⟩ := after_bind_pure_call hrest
      exact ⟨by simpa using hany, writeGrant_call hwrite⟩

/-- A grant that fails has written nothing. -/
theorem grantTo_error {fault : Fault}
    (h : After (role.grantTo scope username).run history (.done (.error fault))) :
    BindingStore.Quiet history := by
  rcases after_bind_error_iff.1 h with hlist | ⟨candidates, before, rest, rfl, hlist, hrest⟩
  · rw [bindingsAt_error hlist]
    exact BindingStore.quiet_singleton (Or.inl rfl)
  · obtain ⟨listed, rfl, rfl⟩ := bindingsAt_ok hlist
    refine BindingStore.Quiet.append (BindingStore.quiet_singleton (Or.inl rfl)) ?_
    by_cases hany : (listed.narrow scope).any (fun b => b.hasUser username) = true
    · rw [if_pos hany] at hrest
      cases (after_pure_iff.1 hrest).2
    · rw [if_neg hany] at hrest
      rcases after_bind_error_iff.1 hrest with hwrite | ⟨_, _, _, -, -, hend⟩
      · rcases writeGrant_cases role scope username (listed.narrow scope) with ⟨b, -, heq⟩ | heq
        · rw [heq] at hwrite
          rw [after_send_done_iff.1 hwrite]
          exact BindingStore.quiet_singleton (Or.inr rfl)
        · rw [heq] at hwrite
          rw [after_send_done_iff.1 hwrite]
          exact BindingStore.quiet_singleton (Or.inr rfl)
      · cases (after_pure_iff.1 hend).2

/-! ### Revokes -/

/-- What a deletion makes of the reply. -/
def afterDelete (outcome : Outcome Unit) : Request Unit :=
  match outcome with
  | .ok _ => pure ()
  | .error fault => if fault.isNotFound then pure () else throw fault

/-- A binding is deleted by one call, unless it is a role binding without a namespace. -/
theorem deleteBinding_eq {b : Binding} (h : b.reach = .namespaced → b.ns? ≠ none) :
    deleteBinding b = (attempt (send (.deleteBinding b.ns? b.name)) >>= afterDelete) := by
  unfold deleteBinding
  cases hreach : b.reach with
  | clusterWide =>
      have hns : b.ns? = none := by rw [Binding.ns?, hreach]
      rw [hns]
      refine congrArg (attempt (send (.deleteBinding none b.name)) >>= ·) (funext fun outcome => ?_)
      cases outcome <;> rfl
  | namespaced =>
      obtain ⟨ns, hns⟩ := Option.ne_none_iff_exists'.1 (h hreach)
      rw [hns]
      refine congrArg (attempt (send (.deleteBinding (some ns) b.name)) >>= ·)
        (funext fun outcome => ?_)
      cases outcome <;> rfl

theorem ns?_ne_none_of_isAt {b : Binding} (h : b.isAt scope = true) :
    b.reach = .namespaced → b.ns? ≠ none := by
  intro hreach
  cases scope with
  | cluster => simp [Binding.isAt, hreach] at h
  | inNamespace ns => simp_all [Binding.isAt, Binding.ns?]

theorem makes_afterDelete {P : Call → Prop} (outcome : Outcome Unit) :
    (afterDelete outcome).run.Makes P := by
  cases outcome with
  | ok answer => trivial
  | error fault =>
      unfold afterDelete
      by_cases h : fault.isNotFound = true
      · simp only [h, if_true]
        trivial
      · simp only [h]
        trivial

theorem removeFrom_of_nil {b : Binding} (h : (b.removeUser username).subjects = []) :
    removeFrom username b = deleteBinding (b.removeUser username) :=
  if_pos h

theorem removeFrom_of_ne_nil {b : Binding} (h : (b.removeUser username).subjects ≠ []) :
    removeFrom username b = send (.updateBinding (b.removeUser username)) :=
  if_neg h

/-- The reply to a deletion says that nothing is there any more. -/
def SaysGone (reply : Outcome Unit) : Prop :=
  reply = .ok () ∨ ∃ fault : Fault, reply = .error fault ∧ fault.isNotFound = true

/-- A deletion is done once its reply says that nothing is there, and has failed if it does not. -/
theorem afterDelete_done {reply outcome : Outcome Unit}
    (h : After (afterDelete reply).run history (.done outcome)) :
    history = [] ∧ (outcome = .ok () ↔ SaysGone reply) := by
  cases reply with
  | ok answer =>
      obtain ⟨rfl, houtcome⟩ := after_pure_iff.1 h
      exact ⟨rfl, fun _ => Or.inl rfl, fun _ => Program.done.inj houtcome⟩
  | error fault =>
      unfold afterDelete at h
      by_cases hfault : fault.isNotFound = true
      · simp only [hfault, if_true] at h
        obtain ⟨rfl, houtcome⟩ := after_pure_iff.1 h
        exact ⟨rfl, fun _ => Or.inr ⟨fault, rfl, hfault⟩, fun _ => Program.done.inj houtcome⟩
      · simp only [hfault] at h
        obtain ⟨rfl, houtcome⟩ := Program.after_done_iff.1 h
        refine ⟨rfl, ?_, ?_⟩
        · intro hok
          rw [Program.done.inj houtcome] at hok
          cases hok
        · intro hgone
          rcases hgone with hok | ⟨other, heq, hother⟩
          · cases hok
          · exact absurd (Except.error.inj heq ▸ hother) hfault

/-- Taking a user out of a binding is one call.  What it replies is the outcome, but for a
deletion that finds nothing there. -/
theorem removeFrom_done {b : Binding} (hat : b.isAt scope = true) {outcome : Outcome Unit}
    (h : After (removeFrom username b).run history (.done outcome)) :
    (b.removeUser username).subjects ≠ [] ∧
        history = [⟨.updateBinding (b.removeUser username), outcome⟩] ∨
      (b.removeUser username).subjects = [] ∧
        ∃ reply : Outcome Unit, history = [⟨.deleteBinding b.ns? b.name, reply⟩] ∧
          (outcome = .ok () ↔ SaysGone reply) := by
  by_cases hnil : (b.removeUser username).subjects = []
  · refine Or.inr ⟨hnil, ?_⟩
    have hleft : (b.removeUser username).isAt scope = true := hat
    rw [removeFrom_of_nil hnil, deleteBinding_eq (ns?_ne_none_of_isAt hleft)] at h
    rcases Request.after_bind_done_iff.1 h with
      ⟨fault, -, hattempt⟩ | ⟨reply, before, rest, rfl, hattempt, hend⟩
    · obtain ⟨_, hne, -⟩ := after_attempt_done_iff.1 hattempt
      cases hne
    obtain ⟨_, heq, hsend⟩ := after_attempt_done_iff.1 hattempt
    obtain rfl := Except.ok.inj heq
    obtain rfl := after_send_done_iff.1 hsend
    obtain ⟨rfl, houtcome⟩ := afterDelete_done hend
    exact ⟨reply, rfl, houtcome⟩
  · rw [removeFrom_of_ne_nil hnil] at h
    exact Or.inl ⟨hnil, after_send_done_iff.1 h⟩

/-- Whatever a listing gave, taking a user out of a binding makes no other call. -/
theorem makes_removeFrom {candidates : List Binding} {b : Binding} (hb : b ∈ candidates) :
    (removeFrom username b).run.Makes (Intends role scope username candidates .revoke) := by
  by_cases hnil : (b.removeUser username).subjects = []
  · rw [removeFrom_of_nil hnil]
    by_cases hns : b.reach = .namespaced → b.ns? ≠ none
    · rw [deleteBinding_eq (b := b.removeUser username) hns]
      have hintends : Intends role scope username candidates .revoke
          (.deleteBinding b.ns? b.name) := .delete hb hnil
      exact makes_bind ⟨hintends, fun _ => trivial⟩ makes_afterDelete
    · have hreach : (b.removeUser username).reach = .namespaced := by tauto
      have hnone : (b.removeUser username).ns? = none := by tauto
      unfold deleteBinding
      rw [hreach, hnone]
      trivial
  · rw [removeFrom_of_ne_nil hnil]
    exact ⟨.remove hb hnil, fun _ => trivial⟩

theorem makes_removeFromAll (role : RoleTarget) (scope : Scope) (username : String)
    {candidates holding : List Binding} (h : ∀ b ∈ holding, b ∈ candidates) :
    (removeFromAll username holding).run.Makes
      (Intends role scope username candidates .revoke) := by
  induction holding with
  | nil => trivial
  | cons b rest ih =>
      refine makes_bind (makes_removeFrom (h b List.mem_cons_self)) fun _ => ih ?_
      exact fun c hc => h c (List.mem_cons_of_mem _ hc)

/-- The bindings that a revoke goes through. -/
def holding (username : String) (bindings : List Binding) : List Binding :=
  bindings.filter fun b => b.hasUser username

theorem revokeFrom_eq : role.revokeFrom scope username =
    (role.bindingsAt scope >>= fun bindings =>
      if holding username bindings = [] then pure .alreadyRevoked
      else removeFromAll username (holding username bindings) >>= fun _ => pure .applied) := by
  refine congrArg (role.bindingsAt scope >>= ·) (funext fun bindings => ?_)
  unfold holding
  cases bindings.filter fun b => b.hasUser username <;> rfl

/-- What a revoke does after its listing, and how it ends. -/
inductive Revoked (username : String) (candidates : List Binding) :
    History Call Call.Reply → Outcome RevokeResult → Prop
  /-- Nothing lists the user. -/
  | absent (h : holding username candidates = []) :
      Revoked username candidates [] (.ok .alreadyRevoked)
  /-- The user is taken out of all that list it. -/
  | taken {history : History Call Call.Reply} (hne : holding username candidates ≠ [])
      (h : After (removeFromAll username (holding username candidates)).run history
        (.done (.ok ()))) :
      Revoked username candidates history (.ok .applied)
  /-- One of the writes failed. -/
  | stuck {history : History Call Call.Reply} {fault : Fault}
      (h : After (removeFromAll username (holding username candidates)).run history
        (.done (.error fault))) :
      Revoked username candidates history (.error fault)

theorem revokeFrom_done {outcome : Outcome RevokeResult}
    (h : After (role.revokeFrom scope username).run history (.done outcome)) :
    (∃ fault : Fault, history = [⟨.matchingBindings role, .error fault⟩] ∧
        outcome = .error fault) ∨
      ∃ listed rest, history = ⟨.matchingBindings role, .ok listed⟩ :: rest ∧
        Revoked username (listed.narrow scope) rest outcome := by
  rw [revokeFrom_eq] at h
  rcases Request.after_bind_done_iff.1 h with
    ⟨fault, rfl, hlist⟩ | ⟨_, before, rest, rfl, hlist, hrest⟩
  · exact Or.inl ⟨fault, bindingsAt_error hlist, rfl⟩
  · obtain ⟨listed, rfl, rfl⟩ := bindingsAt_ok hlist
    refine Or.inr ⟨listed, rest, rfl, ?_⟩
    by_cases hnil : holding username (listed.narrow scope) = []
    · simp only [if_pos hnil] at hrest
      obtain ⟨rfl, houtcome⟩ := after_pure_iff.1 hrest
      obtain rfl := Program.done.inj houtcome
      exact .absent hnil
    · simp only [if_neg hnil] at hrest
      rcases Request.after_bind_done_iff.1 hrest with
        ⟨fault, rfl, hloop⟩ | ⟨_, before, after, rfl, hloop, hend⟩
      · exact .stuck hloop
      · obtain ⟨rfl, hresult⟩ := after_pure_iff.1 hend
        obtain rfl := Program.done.inj hresult
        rw [List.append_nil]
        exact .taken hnil hloop

theorem revokeFrom_call {call : Call}
    {next : call.Reply → Program Call Call.Reply (Outcome RevokeResult)}
    (h : After (role.revokeFrom scope username).run history (.call call next)) :
    call = .matchingBindings role ∨
      ∃ listed rest, history = ⟨.matchingBindings role, .ok listed⟩ :: rest ∧
        Intends role scope username (listed.narrow scope) .revoke call := by
  rw [revokeFrom_eq] at h
  rcases Request.after_bind_call h with ⟨next', hlist⟩ | ⟨bindings, before, rest, rfl, hlist, hrest⟩
  · exact Or.inl (bindingsAt_call hlist)
  · obtain ⟨listed, rfl, rfl⟩ := bindingsAt_ok hlist
    by_cases hnil : holding username (listed.narrow scope) = []
    · simp only [if_pos hnil] at hrest
      cases (after_pure_iff.1 hrest).2
    · simp only [if_neg hnil] at hrest
      obtain ⟨_, hloop⟩ := after_bind_pure_call hrest
      have hmakes := makes_removeFromAll role scope username
        fun b (hb : b ∈ holding username (listed.narrow scope)) => (List.mem_filter.1 hb).1
      exact Or.inr ⟨listed, rest, rfl, hmakes.call hloop⟩

end RoleTarget

/-! ### Whole requests -/

open RoleTarget

/-- A request about a role. -/
structure Errand where
  action : Action
  principal : String
  role : RoleTarget
  scope : Scope
  deriving DecidableEq, Repr

namespace Errand

/-- The result of a request that succeeded. -/
inductive Result where
  | granted (result : GrantResult)
  | revoked (result : RevokeResult)
  deriving DecidableEq, Repr

/-- What the request runs. -/
def request (directory : Directory) (e : Errand) : Request Result :=
  match e.action with
  | .grant => e.role.grant directory e.principal e.scope >>= fun result => pure (.granted result)
  | .revoke => e.role.revoke directory e.principal e.scope >>= fun result => pure (.revoked result)

/-- How the request gets the username of its principal.  Only a revoke can find none. -/
def lookup (directory : Directory) (e : Errand) : Request (Option String) :=
  match e.action with
  | .grant =>
    directory.resolveOrCreate e.principal >>= fun resolved => pure (some resolved.username)
  | .revoke => directory.resolve e.principal

/-- The directory has said what the username is. -/
def Resolves (directory : Directory) (e : Errand) (history : History Call Call.Reply)
    (username? : Option String) : Prop :=
  ∃ before rest, history = before ++ rest ∧
    After (e.lookup directory).run before (.done (.ok username?))

/-- How a request ends, and with what history. -/
inductive Ends (directory : Directory) (e : Errand) :
    History Call Call.Reply → Outcome Result → Prop
  /-- It failed before it wrote, or in its only write. -/
  | failed {history : History Call Call.Reply} (h : BindingStore.Quiet history) (fault : Fault) :
      Ends directory e history (.error fault)
  /-- The principal of a revoke has no username. -/
  | unmapped {history : History Call Call.Reply} (haction : e.action = .revoke)
      (hname : After (e.lookup directory).run history (.done (.ok none))) :
      Ends directory e history (.ok (.revoked .alreadyRevoked))
  | granted {before rest : History Call Call.Reply} {username : String} {listed : RoleBindings}
      {result : GrantResult} (haction : e.action = .grant) (ha : e.role.admits e.scope = true)
      (hname : After (e.lookup directory).run before (.done (.ok (some username))))
      (h : Granted e.role e.scope username (listed.narrow e.scope) rest result) :
      Ends directory e (before ++ ⟨.matchingBindings e.role, .ok listed⟩ :: rest)
        (.ok (.granted result))
  | revoked {before rest : History Call Call.Reply} {username : String} {listed : RoleBindings}
      {outcome : Outcome RevokeResult} (haction : e.action = .revoke)
      (ha : e.role.admits e.scope = true)
      (hname : After (e.lookup directory).run before (.done (.ok (some username))))
      (h : Revoked username (listed.narrow e.scope) rest outcome) :
      Ends directory e (before ++ ⟨.matchingBindings e.role, .ok listed⟩ :: rest)
        (outcome.map .revoked)

variable {directory : Directory} {e : Errand} {history : History Call Call.Reply}

/-- What the request does once it has the username, if there is one. -/
def act (e : Errand) : Option String → Request Result
  | none => pure (.revoked .alreadyRevoked)
  | some username =>
    match e.action with
    | .grant => e.role.grantTo e.scope username >>= fun result => pure (.granted result)
    | .revoke => e.role.revokeFrom e.scope username >>= fun result => pure (.revoked result)

theorem act_of_grant (haction : e.action = .grant) (username : String) :
    e.act (some username) =
      (e.role.grantTo e.scope username >>= fun result => pure (.granted result)) := by
  unfold act
  rw [haction]

theorem act_of_revoke (haction : e.action = .revoke) (username : String) :
    e.act (some username) =
      (e.role.revokeFrom e.scope username >>= fun result => pure (.revoked result)) := by
  unfold act
  rw [haction]

theorem lookup_of_grant (haction : e.action = .grant) :
    e.lookup directory =
      (directory.resolveOrCreate e.principal >>= fun resolved =>
        pure (some resolved.username)) := by
  unfold lookup
  rw [haction]

theorem lookup_of_revoke (haction : e.action = .revoke) :
    e.lookup directory = directory.resolve e.principal := by
  unfold lookup
  rw [haction]

/-- A request of either kind checks the scope, looks the username up, and acts. -/
theorem request_eq (directory : Directory) (e : Errand) :
    e.request directory =
      (ofOutcome (e.role.checkScope e.scope) >>= fun _ => e.lookup directory >>= e.act) := by
  cases haction : e.action with
  | grant =>
      have hrequest : e.request directory =
          (e.role.grant directory e.principal e.scope >>= fun result =>
            pure (.granted result)) := by
        unfold request
        rw [haction]
      rw [hrequest, grant_eq, bind_assoc, lookup_of_grant haction]
      refine congrArg (ofOutcome (e.role.checkScope e.scope) >>= ·) (funext fun _ => ?_)
      rw [bind_assoc, bind_assoc]
      refine congrArg (directory.resolveOrCreate e.principal >>= ·) (funext fun resolved => ?_)
      exact (act_of_grant haction resolved.username).symm
  | revoke =>
      have hrequest : e.request directory =
          (e.role.revoke directory e.principal e.scope >>= fun result =>
            pure (.revoked result)) := by
        unfold request
        rw [haction]
      rw [hrequest, revoke_eq, bind_assoc, lookup_of_revoke haction]
      refine congrArg (ofOutcome (e.role.checkScope e.scope) >>= ·) (funext fun _ => ?_)
      rw [bind_assoc]
      refine congrArg (directory.resolve e.principal >>= ·) (funext fun username? => ?_)
      cases username? with
      | none => rfl
      | some username => exact (act_of_revoke haction username).symm

/-- Only a revoke finds no username. -/
theorem action_of_lookup_none
    (hname : After (e.lookup directory).run history (.done (.ok none))) : e.action = .revoke := by
  cases haction : e.action with
  | grant =>
      rw [lookup_of_grant haction] at hname
      obtain ⟨resolved, before, rest, -, -, hpure⟩ := after_bind_ok_iff.1 hname
      cases (after_pure_iff.1 hpure).2
  | revoke => rfl

theorem makes_lookup (hoff : directory.OffBindings) :
    (e.lookup directory).run.Makes fun call => call.isAboutBindings = false := by
  cases haction : e.action with
  | grant =>
      rw [lookup_of_grant haction]
      exact makes_bind (hoff.resolveOrCreate _) fun _ => trivial
  | revoke =>
      rw [lookup_of_revoke haction]
      exact hoff.resolve _

theorem not_writes_of_off {α : Type} {p : Request α} {q : Program Call Call.Reply (Outcome α)}
    (hoff : p.run.Makes fun call => call.isAboutBindings = false) (h : After p.run history q) :
    ∀ event ∈ history, event.1.writesBinding = false := by
  intro event hevent
  have hcall := (hoff.after h).2 event hevent
  by_contra hwrites
  rw [Call.isAboutBindings_of_writes (by simpa using hwrites)] at hcall
  cases hcall

theorem quiet_of_off {α : Type} {p : Request α} {q : Program Call Call.Reply (Outcome α)}
    (hoff : p.run.Makes fun call => call.isAboutBindings = false) (h : After p.run history q) :
    BindingStore.Quiet history := by
  intro event hevent hwrites
  rw [not_writes_of_off hoff h event hevent] at hwrites
  cases hwrites

/-! ### How a request ends -/

/-- What is done with a username ends as it should, whatever the calls before it were. -/
theorem ends_of_act {before rest : History Call Call.Reply} {username : String}
    {outcome : Outcome Result} (hquiet : BindingStore.Quiet before)
    (ha : e.role.admits e.scope = true)
    (hname : After (e.lookup directory).run before (.done (.ok (some username))))
    (h : After (e.act (some username)).run rest (.done outcome)) :
    e.Ends directory (before ++ rest) outcome := by
  cases haction : e.action with
  | grant =>
      rw [act_of_grant haction] at h
      rcases Request.after_bind_done_iff.1 h with
        ⟨fault, rfl, hgrant⟩ | ⟨result, mid, last, rfl, hgrant, hend⟩
      · exact .failed (hquiet.append (grantTo_error hgrant)) fault
      · obtain ⟨rfl, houtcome⟩ := after_pure_iff.1 hend
        obtain rfl := Program.done.inj houtcome
        obtain ⟨listed, rest, rfl, hgranted⟩ := grantTo_ok hgrant
        rw [List.append_nil]
        exact .granted haction ha hname hgranted
  | revoke =>
      rw [act_of_revoke haction] at h
      have hrevoke : ∃ result, After (e.role.revokeFrom e.scope username).run rest (.done result) ∧
          outcome = result.map .revoked := by
        rcases Request.after_bind_done_iff.1 h with
          ⟨fault, rfl, hrevoke⟩ | ⟨result, mid, last, rfl, hrevoke, hend⟩
        · exact ⟨.error fault, hrevoke, rfl⟩
        · obtain ⟨rfl, houtcome⟩ := after_pure_iff.1 hend
          rw [List.append_nil]
          exact ⟨.ok result, hrevoke, Program.done.inj houtcome⟩
      obtain ⟨result, hrevoke, rfl⟩ := hrevoke
      rcases revokeFrom_done hrevoke with ⟨fault, rfl, rfl⟩ | ⟨listed, rest, rfl, hrevoked⟩
      · exact .failed (hquiet.append (BindingStore.quiet_singleton (Or.inl rfl))) fault
      · exact .revoked haction ha hname hrevoked

/-- Every request that has ended has ended in one of the ways there are. -/
theorem ends_of_after {outcome : Outcome Result} (hoff : directory.OffBindings)
    (h : After (e.request directory).run history (.done outcome)) :
    e.Ends directory history outcome := by
  rw [request_eq] at h
  rcases Request.after_bind_done_iff.1 h with ⟨fault, rfl, hscope⟩ | ⟨_, _, mid, rfl, hscope, hrun⟩
  · obtain ⟨rfl, -⟩ := after_ofOutcome_iff.1 hscope
    exact .failed (fun _ hevent => by cases hevent) fault
  obtain ⟨rfl, hok⟩ := after_ofOutcome_iff.1 hscope
  have ha := checkScope_eq_ok_iff.1 (Program.done.inj hok).symm
  rcases Request.after_bind_done_iff.1 hrun with
    ⟨fault, rfl, hname⟩ | ⟨username?, before, rest, rfl, hname, hact⟩
  · exact .failed (quiet_of_off (makes_lookup hoff) hname) fault
  cases username? with
  | none =>
      obtain ⟨rfl, houtcome⟩ := after_pure_iff.1 hact
      obtain rfl := Program.done.inj houtcome
      rw [List.nil_append, List.append_nil]
      exact .unmapped (action_of_lookup_none hname) hname
  | some username =>
      rw [List.nil_append]
      exact ends_of_act (quiet_of_off (makes_lookup hoff) hname) ha hname hact

/-! ### Names -/

/-- A name that was given stays given. -/
theorem Resolves.append {username? : Option String} (h : e.Resolves directory history username?)
    (later : History Call Call.Reply) : e.Resolves directory (history ++ later) username? := by
  obtain ⟨before, rest, rfl, hname⟩ := h
  exact ⟨before, rest ++ later, List.append_assoc _ _ _, hname⟩

/-- A request gets one name. -/
theorem Resolves.unique {username? other? : Option String}
    (h : e.Resolves directory history username?) (h' : e.Resolves directory history other?) :
    username? = other? := by
  obtain ⟨before, rest, rfl, hname⟩ := h
  obtain ⟨before', rest', heq, hname'⟩ := h'
  exact Except.ok.inj (hname.done_unique hname' heq).1

theorem resolves_plain (e : Errand) (history : History Call Call.Reply) :
    e.Resolves .plain history (some e.principal) := by
  refine ⟨[], history, rfl, ?_⟩
  cases haction : e.action with
  | grant =>
      rw [lookup_of_grant haction]
      exact .start _
  | revoke =>
      rw [lookup_of_revoke haction]
      exact .start _

/-! ### The call that is due -/

/-- A call that is due is one of the directory's, the listing, or a write that is intended. -/
def Due (directory : Directory) (e : Errand) (history : History Call Call.Reply) (call : Call) :
    Prop :=
  call.isAboutBindings = false ∨
    e.role.admits e.scope = true ∧ (call = .matchingBindings e.role ∨
      ∃ username listed, e.Resolves directory history (some username) ∧
        ⟨.matchingBindings e.role, .ok listed⟩ ∈ history ∧
        Intends e.role e.scope username (listed.narrow e.scope) e.action call)

/-- A call about bindings is due once the scope is checked and the username is known. -/
theorem act_of_due {call : Call} {next : call.Reply → Program Call Call.Reply (Outcome Result)}
    (hoff : directory.OffBindings) (h : After (e.request directory).run history (.call call next))
    (habout : call.isAboutBindings = true) :
    e.role.admits e.scope = true ∧ ∃ username before rest next', history = before ++ rest ∧
      After (e.lookup directory).run before (.done (.ok (some username))) ∧
      After (e.act (some username)).run rest (.call call next') := by
  rw [request_eq] at h
  rcases Request.after_bind_call h with ⟨_, hscope⟩ | ⟨_, _, mid, rfl, hscope, hrun⟩
  · cases (after_ofOutcome_iff.1 hscope).2
  obtain ⟨rfl, hok⟩ := after_ofOutcome_iff.1 hscope
  refine ⟨checkScope_eq_ok_iff.1 (Program.done.inj hok).symm, ?_⟩
  rcases Request.after_bind_call hrun with ⟨_, hname⟩ | ⟨username?, before, rest, rfl, hname, hact⟩
  · have hcall := (makes_lookup hoff).call hname
    rw [habout] at hcall
    cases hcall
  cases username? with
  | none => cases (after_pure_iff.1 hact).2
  | some username => exact ⟨username, before, rest, next, rfl, hname, hact⟩

/-- A write of a grant is made because nothing that it has listed lists its user. -/
theorem adds_of_after {call : Call} {next : call.Reply → Program Call Call.Reply (Outcome Result)}
    (hoff : directory.OffBindings) (haction : e.action = .grant)
    (h : After (e.request directory).run history (.call call next))
    (hwrites : call.writesBinding = true) :
    ∃ username listed, e.Resolves directory history (some username) ∧
      ⟨.matchingBindings e.role, .ok listed⟩ ∈ history ∧
      (∀ c ∈ listed.narrow e.scope, c.hasUser username = false) ∧
      Adds e.role e.scope username (listed.narrow e.scope) call := by
  obtain ⟨-, username, before, rest, next', rfl, hname, hact⟩ :=
    act_of_due hoff h (Call.isAboutBindings_of_writes hwrites)
  rw [act_of_grant haction] at hact
  obtain ⟨_, hgrant⟩ := after_bind_pure_call hact
  obtain ⟨listed, hevent, hnone, hadds⟩ := grantTo_adds hgrant hwrites
  exact ⟨username, listed, ⟨before, rest, rfl, hname⟩, List.mem_append_right _ hevent, hnone,
    hadds⟩

theorem due_of_after {call : Call} {next : call.Reply → Program Call Call.Reply (Outcome Result)}
    (hoff : directory.OffBindings)
    (h : After (e.request directory).run history (.call call next)) :
    e.Due directory history call := by
  by_cases habout : call.isAboutBindings = true
  · obtain ⟨ha, username, before, rest, next', rfl, hname, hact⟩ := act_of_due hoff h habout
    refine Or.inr ⟨ha, ?_⟩
    have hresolves : e.Resolves directory (before ++ rest) (some username) :=
      ⟨before, rest, rfl, hname⟩
    cases haction : e.action with
    | grant =>
        rw [act_of_grant haction] at hact
        obtain ⟨_, hgrant⟩ := after_bind_pure_call hact
        rcases grantTo_call hgrant with rfl | ⟨listed, rfl, hintends⟩
        · exact Or.inl rfl
        · exact Or.inr ⟨username, listed, hresolves, by simp, hintends⟩
    | revoke =>
        rw [act_of_revoke haction] at hact
        obtain ⟨_, hrevoke⟩ := after_bind_pure_call hact
        rcases revokeFrom_call hrevoke with rfl | ⟨listed, rest, rfl, hintends⟩
        · exact Or.inl rfl
        · exact Or.inr ⟨username, listed, hresolves, by simp, hintends⟩
  · exact Or.inl (by simpa using habout)

/-- What is done with a username is about bindings. -/
theorem makes_act (e : Errand) (username? : Option String) :
    (e.act username?).run.Makes fun call => call.isAboutBindings = true := by
  have hlist : (e.role.bindingsAt e.scope).run.Makes fun call => call.isAboutBindings = true :=
    makes_bind ⟨rfl, fun reply => by cases reply <;> trivial⟩ fun _ => trivial
  cases username? with
  | none => trivial
  | some username =>
  cases haction : e.action with
  | grant =>
      rw [act_of_grant haction]
      refine makes_bind (makes_bind hlist fun candidates => ?_) fun _ => trivial
      split
      · trivial
      · refine makes_bind ?_ fun _ => trivial
        rcases writeGrant_cases e.role e.scope username candidates with ⟨b, -, heq⟩ | heq <;>
        · rw [heq]
          exact ⟨rfl, fun _ => trivial⟩
  | revoke =>
      rw [act_of_revoke haction, revokeFrom_eq]
      refine makes_bind (makes_bind hlist fun bindings => ?_) fun _ => trivial
      split
      · trivial
      · refine makes_bind ?_ fun _ => trivial
        refine (makes_removeFromAll e.role e.scope username fun _ hb => hb).mono fun _ hwrite => ?_
        exact Call.isAboutBindings_of_writes (RoleTarget.writes_of_intends hwrite)

/-- Every request comes to an end. -/
theorem makes_request (hoff : directory.OffBindings) (e : Errand) :
    (e.request directory).run.Makes fun _ => True := by
  have hscope : (ofOutcome (e.role.checkScope e.scope) : Request Unit).run.Makes fun _ => True :=
    trivial
  rw [request_eq]
  refine makes_bind hscope fun _ => makes_bind ?_ fun username? => ?_
  · exact (makes_lookup hoff).mono fun _ _ => trivial
  · exact (makes_act e username?).mono fun _ _ => trivial

end Errand

end ClusterAccess
