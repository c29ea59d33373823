/-
The places where a user is listed.

A binding has a place, and so has every mention of a user: the user is listed at a place when
the binding there gives it the role at the scope.  Seen this way, a task can do little to a
store.  `Wrote` says all of it: a grant adds its user to the library's own binding of the role
or creates that binding, a revoke takes its user out of a binding or deletes one.  A task that
replaces a binding has read it as it is, because the store refuses a replacement that was made
from an older copy.  So nobody comes back with a stale copy, and a user comes to be listed by
a grant of its own access only, at the library's own place (`Turn.listedAt`).

This is why a listing lasts.  What it did not name when it was read is not listed later
either, but for the places where a grant may have put the user meanwhile (`Covers`).
-/
import ClusterAccess.Proofs.Interleaving

namespace ClusterAccess

/-- Where the library binds a role at a scope. -/
def canonicalPlace (role : RoleTarget) (scope : Scope) : Reach × Option String × String :=
  BindingStore.placeNamed scope.ns? (canonicalBindingName role scope)

namespace Binding

variable {b : Binding} {role : RoleTarget} {scope : Scope} {username : String}

theorem place_of_canonicalName (hat : b.isAt scope = true)
    (hname : b.name = canonicalBindingName role scope) : b.place = canonicalPlace role scope := by
  rw [← BindingStore.placeNamed_eq hat, ns?_eq_of_isAt hat, hname]
  rfl

theorem place_newForUser :
    (newForUser role scope username).place = canonicalPlace role scope :=
  place_of_canonicalName isAt_newForUser rfl

theorem isAt_of_isOf (h : b.isOf role scope = true) : b.isAt scope = true :=
  (Bool.and_eq_true _ _ ▸ h).1

end Binding

namespace BindingStore

variable {store after : BindingStore} {b : Binding} {role : RoleTarget} {scope : Scope}
  {username : String} {place : Reach × Option String × String}

/-- The binding in the place gives the role at the scope to the user. -/
def ListedAt (store : BindingStore) (role : RoleTarget) (scope : Scope) (username : String)
    (place : Reach × Option String × String) : Prop :=
  ∃ b ∈ store.bindings, b.place = place ∧ b.isOf role scope = true ∧ b.hasUser username = true

theorem lists_iff_listedAt :
    store.Lists role scope username ↔ ∃ place, store.ListedAt role scope username place := by
  refine ⟨?_, ?_⟩
  · intro h
    obtain ⟨b, hb, hof, hu⟩ := h
    exact ⟨b.place, b, hb, rfl, hof, hu⟩
  · intro h
    obtain ⟨place, b, hb, -, hof, hu⟩ := h
    exact ⟨b, hb, hof, hu⟩

theorem not_listedAt_of_free (hfree : store.at? place = none) :
    ¬store.ListedAt role scope username place := by
  intro h
  obtain ⟨b, hb, hplace, -⟩ := h
  exact at?_eq_none_iff.1 hfree b hb hplace

theorem at?_drop : (store.drop place).at? place = none :=
  at?_eq_none_iff.2 fun _ hb => (mem_drop.1 hb).2

theorem ListedAt.of_drop {elsewhere : Reach × Option String × String}
    (h : (store.drop elsewhere).ListedAt role scope username place) :
    store.ListedAt role scope username place := by
  obtain ⟨b, hb, hb'⟩ := h
  exact ⟨b, (mem_drop.1 hb).1, hb'⟩

/-- After a write a user is listed in its place if the new binding lists it, and elsewhere if it
was listed there. -/
theorem listedAt_put : (store.put b).ListedAt role scope username place ↔
    place = b.place ∧ b.isOf role scope = true ∧ b.hasUser username = true ∨
      place ≠ b.place ∧ store.ListedAt role scope username place := by
  refine ⟨?_, ?_⟩
  · intro h
    obtain ⟨c, hc, rfl, hof, hu⟩ := h
    rcases mem_put.1 hc with rfl | ⟨hc, hne⟩
    · exact Or.inl ⟨rfl, hof, hu⟩
    · exact Or.inr ⟨hne, c, hc, rfl, hof, hu⟩
  · intro h
    rcases h with ⟨rfl, hof, hu⟩ | ⟨hne, c, hc, rfl, hof, hu⟩
    · exact ⟨_, mem_put.2 (Or.inl rfl), rfl, hof, hu⟩
    · exact ⟨c, mem_put.2 (Or.inr ⟨hc, hne⟩), rfl, hof, hu⟩

/-! ### What a listing covers -/

/-- The listing names every place where the user is listed, but for those that are spared. -/
def Covers (store : BindingStore) (listed : RoleBindings) (role : RoleTarget) (scope : Scope)
    (username : String) (spared : Reach × Option String × String → Prop) : Prop :=
  ∀ place, store.ListedAt role scope username place →
    spared place ∨ ∃ b ∈ listed.narrow scope, b.place = place ∧ b.hasUser username = true

variable {listed other : RoleBindings} {spared : Reach × Option String × String → Prop}

/-- A listing covers the store as long as the user comes to be listed in spared places only. -/
theorem Covers.mono (h : store.Covers listed role scope username spared)
    (hgrows : ∀ place, after.ListedAt role scope username place →
      spared place ∨ store.ListedAt role scope username place) :
    after.Covers listed role scope username spared := by
  intro place hat
  rcases hgrows place hat with hspared | hbefore
  · exact Or.inl hspared
  · exact h place hbefore

/-- A listing covers the store that it was read from, and so does any that agrees with it at the
scope. -/
theorem covers_of_narrow_eq (ha : role.admits scope = true)
    (heq : listed.narrow scope = (store.matching role).narrow scope) :
    store.Covers listed role scope username spared := by
  intro place hat
  obtain ⟨b, hb, hplace, hof, hu⟩ := hat
  refine Or.inr ⟨b, ?_, hplace, hu⟩
  rw [heq, narrow_matching ha]
  exact List.mem_filter.2 ⟨hb, hof⟩

end BindingStore

namespace Task

variable {directory : Directory} {store after : BindingStore} {t t' : Task} {e : Errand}
  {role : RoleTarget} {scope : Scope} {username : String}
  {place : Reach × Option String × String} {spared : Reach × Option String × String → Prop}

/-! ### What a task can do to a store -/

/-- The task gives the user the role at the scope. -/
def Grants (directory : Directory) (t : Task) (role : RoleTarget) (scope : Scope)
    (username : String) : Prop :=
  t.IsFor directory .grant role scope username

/-- The writes of a task that take effect, and the store after them. -/
inductive Wrote (directory : Directory) (store : BindingStore) (t : Task) : BindingStore → Prop
  /-- The user goes into the library's own binding, which is as it was listed: without it. -/
  | added {b : Binding} {username : String} {listed : RoleBindings}
      (hgrants : t.Grants directory t.errand.role t.errand.scope username)
      (hevent : ⟨.matchingBindings t.errand.role, .ok listed⟩ ∈ t.history)
      (hnone : ∀ c ∈ listed.narrow t.errand.scope, c.hasUser username = false)
      (hb : b ∈ store.bindings) (hin : b ∈ listed.narrow t.errand.scope)
      (hof : b.isOf t.errand.role t.errand.scope = true)
      (hplace : b.place = canonicalPlace t.errand.role t.errand.scope) :
      Wrote directory store t (store.put (b.addUser username))
  /-- The library's own binding is created, because nothing is in its place. -/
  | created {username : String} {listed : RoleBindings}
      (hgrants : t.Grants directory t.errand.role t.errand.scope username)
      (hevent : ⟨.matchingBindings t.errand.role, .ok listed⟩ ∈ t.history)
      (hnone : ∀ c ∈ listed.narrow t.errand.scope, c.hasUser username = false)
      (hfree : store.at? (canonicalPlace t.errand.role t.errand.scope) = none) :
      Wrote directory store t (store.put (.newForUser t.errand.role t.errand.scope username))
  /-- A user is taken out of a binding that keeps others. -/
  | removed {b : Binding} {username : String} (hb : b ∈ store.bindings)
      (hne : (b.removeUser username).subjects ≠ []) :
      Wrote directory store t (store.put (b.removeUser username))
  /-- A binding is deleted, whatever it holds by now. -/
  | deleted (place : Reach × Option String × String) :
      Wrote directory store t (store.drop place)

/-- A call that is served changes nothing, or it is one of the writes that a task makes. -/
theorem wrote_of_serves (hoff : directory.OffBindings) (h : t.Sound directory store) {call : Call}
    {reply : call.Reply} {next : call.Reply → Program Call Call.Reply (Outcome Errand.Result)}
    (hdue : t.program = .call call next) (hs : store.Serves call reply after) :
    after = store ∨ t.Wrote directory store after ∧ t.errand.role.admits t.errand.scope = true := by
  rcases hs.eq_or_wrote with hsame | ⟨hwrites, hok⟩
  · exact Or.inl hsame
  cases reply with
  | error fault => cases hok
  | ok answer =>
  obtain ⟨ha, username, listed, hname, hevent, hread, hintends⟩ := h.intends hoff hdue hwrites
  refine Or.inr ⟨?_, ha⟩
  cases haction : t.errand.action with
  | grant =>
      have hrun := h.run
      rw [hdue] at hrun
      obtain ⟨username, listed, hname, hevent, hnone, hadds⟩ :=
        Errand.adds_of_after hoff haction hrun hwrites
      have hread := h.listed listed hevent
      have hgrants : t.Grants directory t.errand.role t.errand.scope username :=
        ⟨haction, rfl, rfl, hname⟩
      cases hadds with
      | @add b hb hcanonical =>
          obtain ⟨hof, hknown⟩ := hread.narrow hb
          obtain ⟨⟨c, hc, hplace, hversion⟩, rfl⟩ := hs.update_ok
          obtain rfl := hknown.eq_of_version c hc hplace hversion
          exact .added hgrants hevent hnone hc hb hof
            (Binding.place_of_canonicalName (Binding.isAt_of_isOf hof) hcanonical)
      | create =>
          obtain ⟨hfree, rfl⟩ := hs.create_ok
          exact .created hgrants hevent hnone (Binding.place_newForUser ▸ hfree)
  | revoke =>
      rw [haction] at hintends
      cases hintends with
      | @remove b hb hne =>
          obtain ⟨⟨c, hc, hplace, hversion⟩, rfl⟩ := hs.update_ok
          obtain rfl := (hread.narrow hb).2.eq_of_version c hc hplace hversion
          exact .removed hc hne
      | delete hb hnil =>
          obtain ⟨-, rfl⟩ := hs.delete_ok
          exact .deleted _

theorem Turn.wrote (hoff : directory.OffBindings) (h : t.Sound directory store)
    (hturn : Turn store t after t') :
    after = store ∨ t.Wrote directory store after ∧ t.errand.role.admits t.errand.scope = true := by
  cases hturn with
  | half => exact Or.inl rfl
  | listed => exact Or.inl rfl
  | served hdue _ hs => exact wrote_of_serves hoff h hdue hs
  | broken hdue hs =>
      rcases hs with rfl | ⟨reply, hs⟩
      · exact Or.inl rfl
      · exact wrote_of_serves hoff h hdue hs

/-- **A user comes to be listed by a grant of its own, in the library's own place.** -/
theorem Turn.listedAt (hoff : directory.OffBindings) (h : t.Sound directory store)
    (hturn : Turn store t after t') (ha : role.admits scope = true)
    (hat : after.ListedAt role scope username place) :
    store.ListedAt role scope username place ∨
      t.Grants directory role scope username ∧ place = canonicalPlace role scope := by
  rcases hturn.wrote hoff h with rfl | ⟨hwrote, ha'⟩
  · exact Or.inl hat
  cases hwrote with
  | @added b other listed hgrants _ _ hb _ hof hplace =>
      rcases BindingStore.listedAt_put.1 hat with ⟨rfl, hof', hu⟩ | ⟨-, hbefore⟩
      · rcases Binding.hasUser_addUser.1 hu with hheld | rfl
        · exact Or.inl ⟨b, hb, rfl, hof', hheld⟩
        · obtain ⟨hrole, hscope⟩ := Binding.isOf_inj hof' hof ha ha'
          rw [hrole, hscope] at hgrants hplace
          exact Or.inr ⟨hgrants, hplace⟩
      · exact Or.inl hbefore
  | @created other listed hgrants _ _ hfree =>
      rcases BindingStore.listedAt_put.1 hat with ⟨rfl, hof', hu⟩ | ⟨-, hbefore⟩
      · obtain rfl := Binding.newForUser_hasUser.1 hu
        obtain ⟨hrole, hscope⟩ := Binding.isOf_inj hof' Binding.isOf_newForUser ha ha'
        rw [hrole, hscope] at hgrants ⊢
        exact Or.inr ⟨hgrants, Binding.place_newForUser⟩
      · exact Or.inl hbefore
  | @removed b other hb hne =>
      rcases BindingStore.listedAt_put.1 hat with ⟨rfl, hof', hu⟩ | ⟨-, hbefore⟩
      · exact Or.inl ⟨b, hb, rfl, hof', (Binding.hasUser_removeUser.1 hu).1⟩
      · exact Or.inl hbefore
  | deleted => exact Or.inl hat.of_drop

/-! ### What the listings of a task cover -/

/-- What a task has listed of its role names every place where the user is listed, but for those
that are spared. -/
structure Covered (store : BindingStore) (t : Task) (scope : Scope) (username : String)
    (spared : Reach × Option String × String → Prop) : Prop where
  half : ∀ first, t.half = some first → scope ≠ .cluster →
    store.Covers ⟨first, []⟩ t.errand.role scope username spared
  listed : ∀ listed, ⟨.matchingBindings t.errand.role, .ok listed⟩ ∈ t.history →
    store.Covers listed t.errand.role scope username spared

theorem covered_start : (start directory e).Covered store scope username spared where
  half first h := by cases h
  listed listed h := by cases h

theorem Covered.mono (h : t.Covered store scope username spared)
    (hgrows : ∀ place, after.ListedAt t.errand.role scope username place →
      spared place ∨ store.ListedAt t.errand.role scope username place) :
    t.Covered after scope username spared where
  half first hhalf hne := (h.half first hhalf hne).mono hgrows
  listed listed hlisted := (h.listed listed hlisted).mono hgrows

/-- A task that goes on with a reply has listed what it had, and perhaps what it was told. -/
theorem Covered.proceed {call : Call} {reply : call.Reply}
    {program : Program Call Call.Reply (Outcome Errand.Result)}
    (h : t.Covered store scope username spared)
    (hnew : ∀ listed, (⟨call, reply⟩ : (call : Call) × call.Reply) =
      ⟨.matchingBindings t.errand.role, .ok listed⟩ →
      store.Covers listed t.errand.role scope username spared) :
    (t.proceed call reply program).Covered store scope username spared where
  half first hhalf := by cases hhalf
  listed listed hlisted := by
    rcases List.mem_append.1 hlisted with hold | hlast
    · exact h.listed listed hold
    · exact hnew listed (List.mem_singleton.1 hlast).symm

/-- A listing is made in two parts, and the part that the scope is about is as the store was when
that part was read. -/
theorem Turn.covered (hoff : directory.OffBindings) (h : t.Sound directory store)
    (hturn : Turn store t after t') (ha : t.errand.role.admits scope = true)
    (hgrows : ∀ place, after.ListedAt t.errand.role scope username place →
      spared place ∨ store.ListedAt t.errand.role scope username place)
    (hcovered : t.Covered store scope username spared) :
    t'.Covered after scope username spared := by
  have hafter := hcovered.mono hgrows
  cases hturn with
  | half hdue hnone =>
      obtain rfl := h.role_eq hoff hdue
      refine ⟨?_, hafter.listed⟩
      intro first hfirst hne
      obtain rfl := Option.some_inj.1 hfirst
      cases scope with
      | cluster => exact absurd rfl hne
      | inNamespace ns => exact BindingStore.covers_of_narrow_eq ha rfl
  | @listed role first next hdue hhalf =>
      obtain rfl := h.role_eq hoff hdue
      refine hafter.proceed ?_
      intro listed heq
      cases heq
      cases scope with
      | cluster => exact BindingStore.covers_of_narrow_eq ha rfl
      | inNamespace ns => exact hafter.half first hhalf (by simp)
  | served hdue hlisting hs =>
      refine hafter.proceed ?_
      intro listed heq
      exact absurd (Sigma.mk.inj heq).1 (hlisting _)
  | broken hdue hs =>
      refine hafter.proceed ?_
      intro listed heq
      cases heq

end Task

end ClusterAccess
