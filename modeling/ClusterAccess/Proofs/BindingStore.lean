/-
The bindings that an API server holds.

The server tells bindings apart by where they are: two bindings of one kind, namespace
and name are never there at once.  Every write gives the binding that it stores a version
that nothing had before.  A binding is created only where there is none.  It is replaced
only by one that carries the version it has, so a replacement that was made from an
older reading is refused.  A deletion names a place, and takes away whatever is there.

What the store is good for is `Lists`: some binding of a role at a scope has a user
among its subjects.  All that writes do is said by who is listed after them.
-/
import Mathlib
import ClusterAccess.Proofs.History

namespace ClusterAccess

namespace Call

/-- Does the call write a binding? -/
def writesBinding : Call → Bool
  | .createBinding _ => true
  | .updateBinding _ => true
  | .deleteBinding _ _ => true
  | _ => false

/-- Is the call about bindings? -/
def isAboutBindings : Call → Bool
  | .matchingBindings _ => true
  | call => call.writesBinding

theorem isAboutBindings_of_writes {call : Call} (h : call.writesBinding = true) :
    call.isAboutBindings = true := by
  cases call <;> first | rfl | cases h

end Call

namespace Binding

/-- What a binding is told from others by: its kind, its namespace and its name. -/
def place (b : Binding) : Reach × Option String × String :=
  (b.reach, b.ns?, b.name)

/-- The version of a binding that was read. -/
def version (b : Binding) : Option String :=
  b.metadata.resourceVersion

/-- The binding as the write of a number stores it. -/
def stamped (b : Binding) (number : Nat) : Binding :=
  { b with metadata := { b.metadata with resourceVersion := some (Nat.repr number) } }

/-- Does the binding give the role at the scope? -/
def isOf (b : Binding) (role : RoleTarget) (scope : Scope) : Bool :=
  b.isAt scope && role.isRef b.roleRef

variable {b : Binding} {role : RoleTarget} {scope : Scope} {username other : String} {number : Nat}

@[simp] theorem version_stamped : (b.stamped number).version = some (Nat.repr number) := rfl

@[simp] theorem place_addUser : (b.addUser username).place = b.place := rfl
@[simp] theorem isOf_addUser : (b.addUser username).isOf role scope = b.isOf role scope := rfl

@[simp] theorem place_removeUser : (b.removeUser username).place = b.place := rfl
@[simp] theorem isOf_removeUser : (b.removeUser username).isOf role scope = b.isOf role scope := rfl

theorem subjects_addUser : (b.addUser username).subjects = b.subjects ++ [.user username] := rfl

theorem subjects_removeUser :
    (b.removeUser username).subjects = b.subjects.filter fun s => !s.isUser username := rfl

theorem hasUser_iff : b.hasUser username = true ↔ ∃ s ∈ b.subjects, s.isUser username = true := by
  simp [hasUser]

theorem isUser_iff {s : Subject} :
    s.isUser username = true ↔ s.kind = Subject.userKind ∧ s.name = username := by
  simp [Subject.isUser]

theorem isUser_user : (Subject.user username).isUser other = true ↔ other = username := by
  rw [isUser_iff]
  exact ⟨fun h => h.2.symm, fun h => ⟨rfl, h.symm⟩⟩

/-- A subject is one user at most. -/
theorem isUser_inj {s : Subject} (h : s.isUser username = true) (h' : s.isUser other = true) :
    other = username :=
  (isUser_iff.1 h').2.symm.trans (isUser_iff.1 h).2

theorem hasUser_addUser :
    (b.addUser username).hasUser other = true ↔ b.hasUser other = true ∨ other = username := by
  simp only [hasUser_iff, subjects_addUser, List.mem_append, List.mem_singleton]
  refine ⟨?_, ?_⟩
  · intro hin
    rcases hin with ⟨s, hs | rfl, hu⟩
    · exact Or.inl ⟨s, hs, hu⟩
    · exact Or.inr (isUser_user.1 hu)
  · intro hin
    rcases hin with ⟨s, hs, hu⟩ | rfl
    · exact ⟨s, Or.inl hs, hu⟩
    · exact ⟨_, Or.inr rfl, isUser_user.2 rfl⟩

theorem hasUser_removeUser :
    (b.removeUser username).hasUser other = true ↔ b.hasUser other = true ∧ other ≠ username := by
  simp only [hasUser_iff, subjects_removeUser, List.mem_filter, Bool.not_eq_true']
  refine ⟨?_, ?_⟩
  · intro hin
    obtain ⟨s, ⟨hs, hnot⟩, hu⟩ := hin
    refine ⟨⟨s, hs, hu⟩, ?_⟩
    intro hin
    obtain rfl := hin
    rw [hu] at hnot
    cases hnot
  · intro hin
    obtain ⟨⟨s, hs, hu⟩, hne⟩ := hin
    refine ⟨s, ⟨hs, ?_⟩, hu⟩
    rw [← Bool.not_eq_true]
    exact fun h => hne (isUser_inj h hu)

/-- Nobody else is listed by a binding that is left without subjects. -/
theorem eq_of_hasUser_of_removeUser_eq_nil (h : (b.removeUser username).subjects = [])
    (hu : b.hasUser other = true) : other = username := by
  by_contra hne
  obtain ⟨s, hs, -⟩ := hasUser_iff.1 (hasUser_removeUser.2 ⟨hu, hne⟩)
  rw [h] at hs
  cases hs

theorem newForUser_hasUser :
    (newForUser role scope username).hasUser other = true ↔ other = username := by
  simp [hasUser, subjects, newForUser, isUser_user]

theorem isAt_newForUser : (newForUser role scope username).isAt scope = true := by
  cases scope <;> simp [isAt, newForUser, Scope.ns?]

/-- A binding at a scope is about the namespace of the scope. -/
theorem ns?_eq_of_isAt (h : b.isAt scope = true) : b.ns? = scope.ns? := by
  cases scope with
  | cluster =>
      have hreach : b.reach = .clusterWide := of_decide_eq_true h
      rw [ns?, hreach]
      rfl
  | inNamespace ns =>
      obtain ⟨hreach, hns⟩ : b.reach = .namespaced ∧ b.metadata.ns = some ns := by
        simpa [isAt] using h
      rw [ns?, hreach]
      exact hns

theorem isOf_newForUser : (newForUser role scope username).isOf role scope = true := by
  rw [isOf, isAt_newForUser]
  simp [newForUser, RoleTarget.isRef, RoleTarget.ref]

theorem isRef_iff {ref : RoleRef} :
    role.isRef ref = true ↔ ref.kind = role.refKind ∧ ref.name = role.name := by
  simp [RoleTarget.isRef]

/-- A binding is at one scope at most. -/
theorem isAt_inj {scope' : Scope} (h : b.isAt scope = true) (h' : b.isAt scope' = true) :
    scope' = scope := by
  cases scope <;> cases scope' <;> simp_all [isAt]

/-- A binding gives one role at most, since a role is bound in its own namespace only. -/
theorem isOf_inj {role' : RoleTarget} {scope' : Scope} (h : b.isOf role scope = true)
    (h' : b.isOf role' scope' = true) (ha : role.admits scope = true)
    (ha' : role'.admits scope' = true) : role' = role ∧ scope' = scope := by
  simp only [isOf, Bool.and_eq_true, isRef_iff] at h h'
  obtain ⟨hat, hkind, hname⟩ := h
  obtain ⟨hat', hkind', hname'⟩ := h'
  obtain rfl := isAt_inj hat hat'
  refine ⟨?_, rfl⟩
  rw [hkind] at hkind'
  rw [hname] at hname'
  cases role with
  | clusterRole name =>
      cases role' with
      | clusterRole name' => exact congrArg RoleTarget.clusterRole hname'.symm
      | role ns' name' => exact absurd hkind' (by decide : ¬ ("ClusterRole" = "Role"))
  | role ns name =>
      cases role' with
      | clusterRole name' => exact absurd hkind' (by decide : ¬ ("Role" = "ClusterRole"))
      | role ns' name' =>
          have hns : scope' = .inNamespace ns := of_decide_eq_true ha
          have hns' : scope' = .inNamespace ns' := of_decide_eq_true ha'
          rw [hns] at hns'
          obtain rfl := Scope.inNamespace.inj hns'
          exact congrArg (RoleTarget.role ns) hname'.symm

end Binding

/-- Some binding of the role at the place has the subject. -/
def Binds (bindings : List Binding) (role : RoleTarget) (place : Scope) (s : Subject) : Prop :=
  ∃ b ∈ bindings, b.isOf role place = true ∧ s ∈ b.subjects

/-- Of the bindings that point at a role, those at a scope are those that give it there. -/
theorem RoleBindings.narrow_ofList {bindings : List Binding} {role : RoleTarget} {scope : Scope} :
    (RoleBindings.ofList (bindings.filter fun b => role.isRef b.roleRef)).narrow scope =
      bindings.filter fun b => b.isOf role scope := by
  cases scope with
  | cluster =>
      show ((bindings.filter _).filter fun b => b.reach = .clusterWide) = _
      rw [List.filter_filter]
      rfl
  | inNamespace ns =>
      show (((bindings.filter _).filter fun b => b.reach = .namespaced).filter _) = _
      rw [List.filter_filter, List.filter_filter]
      refine List.filter_congr fun b _ => ?_
      simp only [Binding.isOf, Binding.isAt]
      rw [Bool.and_comm (decide (b.metadata.ns = _))]

/-! ### The store -/

/-- The bindings of an API server, and the number of its next write. -/
structure BindingStore where
  bindings : List Binding
  nextWrite : Nat
  /-- No two bindings are in one place. -/
  distinct : bindings.Pairwise fun a b => a.place ≠ b.place
  /-- No binding has the version of a write that is still to come. -/
  unused : ∀ b ∈ bindings, ∀ number ≥ nextWrite, b.version ≠ some (Nat.repr number)

namespace BindingStore

variable {store : BindingStore} {b c : Binding} {place : Reach × Option String × String}
  {role : RoleTarget} {scope : Scope} {username : String}

/-- A store without bindings. -/
def empty : BindingStore where
  bindings := []
  nextWrite := 0
  distinct := .nil
  unused b hb := by cases hb

theorem eq_of_place_eq (hb : b ∈ store.bindings) (hc : c ∈ store.bindings)
    (h : b.place = c.place) : b = c := by
  have hsymm : Std.Symm fun a b : Binding => a.place ≠ b.place := ⟨fun _ _ h => Ne.symm h⟩
  by_contra hne
  exact store.distinct.forall hb hc hne h

/-- The binding in a place. -/
def at? (store : BindingStore) (place : Reach × Option String × String) : Option Binding :=
  store.bindings.find? fun b => b.place = place

theorem at?_eq_some_iff : store.at? place = some b ↔ b ∈ store.bindings ∧ b.place = place := by
  refine ⟨?_, ?_⟩
  · intro h
    exact ⟨List.mem_of_find?_eq_some h, by simpa using List.find?_some h⟩
  · intro hin
    obtain ⟨hb, rfl⟩ := hin
    cases hfind : store.at? b.place with
    | none =>
        have hnone := List.find?_eq_none.1 hfind b hb
        simp at hnone
    | some c =>
        have hc := List.mem_of_find?_eq_some hfind
        have hplace : c.place = b.place := by simpa using List.find?_some hfind
        rw [eq_of_place_eq hc hb hplace]

theorem at?_eq_none_iff : store.at? place = none ↔ ∀ b ∈ store.bindings, b.place ≠ place := by
  simp [at?]

/-! ### Writes -/

/-- The list with a binding in its place, or at the end when the place is free. -/
def putList (b : Binding) : List Binding → List Binding
  | [] => [b]
  | c :: rest => if c.place = b.place then b :: rest else c :: putList b rest

theorem mem_putList_self {bindings : List Binding} : b ∈ putList b bindings := by
  induction bindings with
  | nil => exact List.mem_singleton_self b
  | cons d rest ih =>
      rw [putList]
      split
      · exact List.mem_cons_self
      · exact List.mem_cons_of_mem _ ih

theorem mem_putList {bindings : List Binding}
    (h : bindings.Pairwise fun a b => a.place ≠ b.place) :
    c ∈ putList b bindings ↔ c = b ∨ c ∈ bindings ∧ c.place ≠ b.place := by
  induction bindings with
  | nil => simp [putList]
  | cons d rest ih =>
      obtain ⟨hd, hrest⟩ := List.pairwise_cons.1 h
      rw [putList]
      split
      next hplace =>
        -- The others are elsewhere, because they are not where the replaced one was.
        have helse : ∀ c ∈ rest, c.place ≠ b.place := fun c hc => hplace ▸ (hd c hc).symm
        refine ⟨?_, ?_⟩
        · intro hc
          rcases List.mem_cons.1 hc with rfl | hc
          · exact Or.inl rfl
          · exact Or.inr ⟨List.mem_cons_of_mem _ hc, helse c hc⟩
        · intro hin
          rcases hin with rfl | ⟨hc, hne⟩
          · exact List.mem_cons_self
          · rcases List.mem_cons.1 hc with rfl | hc
            · exact absurd hplace hne
            · exact List.mem_cons_of_mem _ hc
      next hplace =>
        rw [List.mem_cons, ih hrest, List.mem_cons]
        refine ⟨?_, ?_⟩
        · intro hin
          rcases hin with rfl | rfl | ⟨hc, hne⟩
          · exact Or.inr ⟨Or.inl rfl, hplace⟩
          · exact Or.inl rfl
          · exact Or.inr ⟨Or.inr hc, hne⟩
        · intro hin
          rcases hin with rfl | ⟨rfl | hc, hne⟩
          · exact Or.inr (Or.inl rfl)
          · exact Or.inl rfl
          · exact Or.inr (Or.inr ⟨hc, hne⟩)

theorem distinct_putList {bindings : List Binding}
    (h : bindings.Pairwise fun a b => a.place ≠ b.place) :
    (putList b bindings).Pairwise fun a b => a.place ≠ b.place := by
  induction bindings with
  | nil => simp [putList]
  | cons d rest ih =>
      obtain ⟨hd, hrest⟩ := List.pairwise_cons.1 h
      rw [putList]
      split
      next hplace => exact List.pairwise_cons.2 ⟨fun c hc => hplace ▸ hd c hc, hrest⟩
      next hplace =>
        refine List.pairwise_cons.2 ⟨fun c hc => ?_, ih hrest⟩
        rcases (mem_putList hrest).1 hc with rfl | ⟨hc, -⟩
        · exact hplace
        · exact hd c hc

theorem version_stamped_ne {number later : Nat} (h : later ≥ number + 1) :
    (b.stamped number).version ≠ some (Nat.repr later) := by
  rw [Binding.version_stamped]
  intro heq
  have hnumber := Nat.repr_injective (Option.some_inj.1 heq)
  omega

/-- Stores a binding with the version of this write, in place of what was there. -/
def put (store : BindingStore) (b : Binding) : BindingStore where
  bindings := putList (b.stamped store.nextWrite) store.bindings
  nextWrite := store.nextWrite + 1
  distinct := distinct_putList store.distinct
  unused c hc number hle := by
    rcases (mem_putList store.distinct).1 hc with rfl | ⟨hc, -⟩
    · exact version_stamped_ne hle
    · exact store.unused c hc number (Nat.le_of_succ_le hle)

/-- Takes away the binding in a place. -/
def drop (store : BindingStore) (place : Reach × Option String × String) : BindingStore where
  bindings := store.bindings.filter fun b => b.place ≠ place
  nextWrite := store.nextWrite
  distinct := store.distinct.filter _
  unused c hc := store.unused c (List.mem_filter.1 hc).1

theorem mem_put : c ∈ (store.put b).bindings ↔
    c = b.stamped store.nextWrite ∨ c ∈ store.bindings ∧ c.place ≠ b.place :=
  mem_putList store.distinct

theorem mem_drop : c ∈ (store.drop place).bindings ↔ c ∈ store.bindings ∧ c.place ≠ place := by
  simp [drop]

/-! ### Calls -/

/-- The role bindings that a listing for a role gives: those of its namespace, or else of all. -/
def namespacedOf (store : BindingStore) (role : RoleTarget) : List Binding :=
  store.bindings.filter fun b =>
    b.reach = .namespaced && (role.ns?.all fun ns => b.metadata.ns = some ns) &&
      role.isRef b.roleRef

/-- The cluster role bindings that a listing for a role gives; there are none for a role of a
namespace. -/
def clusterWideOf (store : BindingStore) (role : RoleTarget) : List Binding :=
  store.bindings.filter fun b =>
    b.reach = .clusterWide && role.ns?.isNone && role.isRef b.roleRef

/-- The bindings that a listing for a role gives. -/
def matching (store : BindingStore) (role : RoleTarget) : RoleBindings where
  namespaced := store.namespacedOf role
  clusterWide := store.clusterWideOf role

/-- Stores a binding where there is none. -/
def create (store : BindingStore) (b : Binding) : Outcome Unit × BindingStore :=
  match store.at? b.place with
  | some _ =>
    (.error (.api ("create " ++ b.describe) (.status 409 "AlreadyExists" "already exists")), store)
  | none => (.ok (), store.put b)

/-- Stores a binding in place of one that has its version. -/
def replace (store : BindingStore) (b : Binding) : Outcome Unit × BindingStore :=
  match store.at? b.place with
  | some c =>
    if c.version = b.version then (.ok (), store.put b)
    else
      (.error (.api ("update " ++ b.describe)
        (.status 409 Fault.conflictReason "the object has been modified")), store)
  | none => (.error (.api ("update " ++ b.describe) (.status 404 "NotFound" "not found")), store)

/-- The place of a role binding of a namespace, or else of a cluster role binding, by name. -/
def placeNamed (ns : Option String) (name : String) : Reach × Option String × String :=
  (if ns.isSome then .namespaced else .clusterWide, ns, name)

/-- A deletion by name means the binding that was read, or what has come in its place. -/
theorem placeNamed_eq (hat : b.isAt scope = true) : placeNamed b.ns? b.name = b.place := by
  cases scope with
  | cluster =>
      have hreach : b.reach = .clusterWide := of_decide_eq_true hat
      simp [placeNamed, Binding.place, Binding.ns?, hreach]
  | inNamespace ns =>
      obtain ⟨hreach, hns⟩ : b.reach = .namespaced ∧ b.metadata.ns = some ns := by
        simpa [Binding.isAt] using hat
      simp [placeNamed, Binding.place, Binding.ns?, hreach, hns]

/-- Takes away the binding of a name, of whatever version it is. -/
def delete (store : BindingStore) (ns : Option String) (name : String) :
    Outcome Unit × BindingStore :=
  match store.at? (placeNamed ns name) with
  | some _ => (.ok (), store.drop (placeNamed ns name))
  | none =>
    (.error (.api ("delete binding " ++ name) (.status 404 "NotFound" "not found")), store)

/-- What the store replies to a call about bindings, and what it is then. -/
def answer (store : BindingStore) : (call : Call) → Option (call.Reply × BindingStore)
  | .matchingBindings role => some (.ok (store.matching role), store)
  | .createBinding b => some (store.create b)
  | .updateBinding b => some (store.replace b)
  | .deleteBinding ns name => some (store.delete ns name)
  | _ => none

/-- A call is served: by the store if it is about bindings, and with any reply if it is not. -/
inductive Serves (store : BindingStore) : (call : Call) → call.Reply → BindingStore → Prop
  | answered {call : Call} {reply : call.Reply} {after : BindingStore}
      (h : store.answer call = some (reply, after)) : Serves store call reply after
  | other {call : Call} (h : store.answer call = none) (reply : call.Reply) :
      Serves store call reply store

theorem serves_iff_of_answer {call : Call} {reply r : call.Reply} {after s : BindingStore}
    (h : store.answer call = some (r, s)) :
    store.Serves call reply after ↔ reply = r ∧ after = s := by
  refine ⟨?_, ?_⟩
  · intro hs
    cases hs with
    | answered h' =>
        rw [h, Option.some_inj, Prod.mk.injEq] at h'
        exact ⟨h'.1.symm, h'.2.symm⟩
    | other h' _ =>
        rw [h] at h'
        cases h'
  · intro hin
    obtain ⟨rfl, rfl⟩ := hin
    exact .answered h

theorem exists_serves (store : BindingStore) (call : Call) :
    ∃ reply after, store.Serves call reply after := by
  cases h : store.answer call with
  | some answered => exact ⟨answered.1, answered.2, .answered h⟩
  | none => exact ⟨.error default, store, .other h _⟩

/-- A creation fails and changes nothing, or the place was free. -/
theorem create_cases (store : BindingStore) (b : Binding) :
    (∃ fault, store.create b = (.error fault, store)) ∨
      store.at? b.place = none ∧ store.create b = (.ok (), store.put b) := by
  unfold create
  split
  next => exact Or.inl ⟨_, rfl⟩
  next hfree => exact Or.inr ⟨hfree, rfl⟩

/-- A replacement fails and changes nothing, or it has the version of what it replaces. -/
theorem replace_cases (store : BindingStore) (b : Binding) :
    (∃ fault, store.replace b = (.error fault, store)) ∨
      (∃ c ∈ store.bindings, c.place = b.place ∧ c.version = b.version) ∧
        store.replace b = (.ok (), store.put b) := by
  unfold replace
  split
  next c hat =>
    obtain ⟨hc, hplace⟩ := at?_eq_some_iff.1 hat
    split
    next hversion => exact Or.inr ⟨⟨c, hc, hplace, hversion⟩, rfl⟩
    next => exact Or.inl ⟨_, rfl⟩
  next => exact Or.inl ⟨_, rfl⟩

theorem replace_of_mem (hb : b ∈ store.bindings) (hplace : c.place = b.place)
    (hversion : c.version = b.version) : store.replace c = (.ok (), store.put c) := by
  rw [replace, hplace, at?_eq_some_iff.2 ⟨hb, rfl⟩]
  exact if_pos hversion.symm

/-- A deletion fails and changes nothing, or it takes away what was in the place. -/
theorem delete_cases (store : BindingStore) (ns : Option String) (name : String) :
    (∃ fault, store.delete ns name = (.error fault, store)) ∨
      (∃ c ∈ store.bindings, c.place = placeNamed ns name) ∧
        store.delete ns name = (.ok (), store.drop (placeNamed ns name)) := by
  unfold delete
  split
  next c hat => exact Or.inr ⟨⟨c, at?_eq_some_iff.1 hat⟩, rfl⟩
  next => exact Or.inl ⟨_, rfl⟩

theorem delete_of_mem {ns : Option String} {name : String} (hb : b ∈ store.bindings)
    (hplace : placeNamed ns name = b.place) :
    store.delete ns name = (.ok (), store.drop b.place) := by
  rw [delete, hplace, at?_eq_some_iff.2 ⟨hb, rfl⟩]

/-- A write that is refused changes nothing. -/
theorem eq_of_refused {answered : Outcome Unit × BindingStore} {reply : Outcome Unit}
    {after : BindingStore}
    (h : (∃ fault, answered = (.error fault, store)) ∨ answered.1 = .ok ())
    (heq : answered = (reply, after)) (hreply : reply.isOk = false) : after = store := by
  subst heq
  rcases h with ⟨fault, heq⟩ | hok
  · exact (Prod.mk.inj heq).2
  · rw [show reply = .ok () from hok] at hreply
    cases hreply

/-- Only a write that succeeds changes the store. -/
theorem Serves.eq_of_quiet {call : Call} {reply : call.Reply} {after : BindingStore}
    (hs : store.Serves call reply after)
    (h : call.writesBinding = true → reply.isOk = false) : after = store := by
  cases hs with
  | other => rfl
  | answered hanswer =>
      cases call with
      | matchingBindings role =>
          cases hanswer
          rfl
      | createBinding b =>
          exact eq_of_refused ((create_cases store b).imp id fun h => by rw [h.2])
            (Option.some_inj.1 hanswer) (h rfl)
      | updateBinding b =>
          exact eq_of_refused ((replace_cases store b).imp id fun h => by rw [h.2])
            (Option.some_inj.1 hanswer) (h rfl)
      | deleteBinding ns name =>
          exact eq_of_refused ((delete_cases store ns name).imp id fun h => by rw [h.2])
            (Option.some_inj.1 hanswer) (h rfl)
      | _ => cases hanswer

theorem Serves.eq_or_wrote {call : Call} {reply : call.Reply} {after : BindingStore}
    (hs : store.Serves call reply after) :
    after = store ∨ call.writesBinding = true ∧ reply.isOk = true := by
  by_cases hwrote : call.writesBinding = true ∧ reply.isOk = true
  · exact Or.inr hwrote
  · refine Or.inl (hs.eq_of_quiet fun hwrites => ?_)
    rw [← Bool.not_eq_true]
    intro hok
    exact hwrote ⟨hwrites, hok⟩

theorem serves_matching_iff {reply : Outcome RoleBindings} {after : BindingStore} :
    store.Serves (.matchingBindings role) reply after ↔
      reply = .ok (store.matching role) ∧ after = store :=
  serves_iff_of_answer rfl

/-- A creation that succeeded found its place free. -/
theorem Serves.create_ok {after : BindingStore}
    (hs : store.Serves (.createBinding b) (.ok ()) after) :
    store.at? b.place = none ∧ after = store.put b := by
  rcases create_cases store b with ⟨fault, heq⟩ | ⟨hfree, heq⟩
  · have hanswer : store.answer (.createBinding b) = some (.error fault, store) := congrArg some heq
    cases ((serves_iff_of_answer hanswer).1 hs).1
  · have hanswer : store.answer (.createBinding b) = some (.ok (), store.put b) := congrArg some heq
    exact ⟨hfree, ((serves_iff_of_answer hanswer).1 hs).2⟩

/-- A replacement that succeeded had the version of what was there. -/
theorem Serves.update_ok {after : BindingStore}
    (hs : store.Serves (.updateBinding b) (.ok ()) after) :
    (∃ c ∈ store.bindings, c.place = b.place ∧ c.version = b.version) ∧ after = store.put b := by
  rcases replace_cases store b with ⟨fault, heq⟩ | ⟨hthere, heq⟩
  · have hanswer : store.answer (.updateBinding b) = some (.error fault, store) := congrArg some heq
    cases ((serves_iff_of_answer hanswer).1 hs).1
  · have hanswer : store.answer (.updateBinding b) = some (.ok (), store.put b) := congrArg some heq
    exact ⟨hthere, ((serves_iff_of_answer hanswer).1 hs).2⟩

/-- A deletion that succeeded found something to take away. -/
theorem Serves.delete_ok {ns : Option String} {name : String} {after : BindingStore}
    (hs : store.Serves (.deleteBinding ns name) (.ok ()) after) :
    (∃ c ∈ store.bindings, c.place = placeNamed ns name) ∧
      after = store.drop (placeNamed ns name) := by
  rcases delete_cases store ns name with ⟨fault, heq⟩ | ⟨hthere, heq⟩
  · have hanswer : store.answer (.deleteBinding ns name) = some (.error fault, store) :=
      congrArg some heq
    cases ((serves_iff_of_answer hanswer).1 hs).1
  · have hanswer : store.answer (.deleteBinding ns name) =
        some (.ok (), store.drop (placeNamed ns name)) := congrArg some heq
    exact ⟨hthere, ((serves_iff_of_answer hanswer).1 hs).2⟩

/-! ### Calls one after another -/

/-- The calls of a history are served one after another. -/
inductive ServesAll : BindingStore → Program.History Call Call.Reply → BindingStore → Prop
  | nil (store : BindingStore) : ServesAll store [] store
  | cons {store mid after : BindingStore} {call : Call} {reply : call.Reply}
      {history : Program.History Call Call.Reply} (h : store.Serves call reply mid)
      (hrest : ServesAll mid history after) : ServesAll store (⟨call, reply⟩ :: history) after

variable {after : BindingStore} {history later : Program.History Call Call.Reply}

theorem servesAll_nil_iff : ServesAll store [] after ↔ after = store := by
  refine ⟨?_, ?_⟩
  · intro h
    cases h
    rfl
  · intro hin
    obtain rfl := hin
    exact .nil _

theorem servesAll_cons_iff {call : Call} {reply : call.Reply} :
    ServesAll store (⟨call, reply⟩ :: history) after ↔
      ∃ mid, store.Serves call reply mid ∧ ServesAll mid history after := by
  refine ⟨?_, ?_⟩
  · intro h
    cases h with
    | cons h hrest => exact ⟨_, h, hrest⟩
  · intro hin
    obtain ⟨mid, h, hrest⟩ := hin
    exact .cons h hrest

theorem servesAll_append_iff : ServesAll store (history ++ later) after ↔
    ∃ mid, ServesAll store history mid ∧ ServesAll mid later after := by
  induction history generalizing store with
  | nil => simp [servesAll_nil_iff]
  | cons event history ih =>
      obtain ⟨call, reply⟩ := event
      simp only [List.cons_append, servesAll_cons_iff, ih]
      refine ⟨?_, ?_⟩
      · intro hin
        obtain ⟨first, h, mid, hmid, hafter⟩ := hin
        exact ⟨mid, ⟨first, h, hmid⟩, hafter⟩
      · intro hin
        obtain ⟨mid, ⟨first, h, hmid⟩, hafter⟩ := hin
        exact ⟨first, h, mid, hmid, hafter⟩

/-- The store serves a program to its end. -/
theorem exists_servesAll {α : Type} {P : Call → Prop} {p : Program Call Call.Reply α}
    (h : p.Makes P) (store : BindingStore) :
    ∃ history value after, Program.After p history (.done value) ∧
      ServesAll store history after := by
  induction p generalizing store with
  | done value => exact ⟨[], value, store, .start _, .nil store⟩
  | call call next ih =>
      obtain ⟨reply, mid, hserve⟩ := exists_serves store call
      obtain ⟨history, value, after, hrun, hrest⟩ := ih reply (h.2 reply) mid
      exact ⟨⟨call, reply⟩ :: history, value, after, .reply hrun, .cons hserve hrest⟩
  | unfinished => exact h.elim

/-- No write of the history succeeded. -/
def Quiet (history : Program.History Call Call.Reply) : Prop :=
  ∀ event ∈ history, event.1.writesBinding = true → event.2.isOk = false

theorem quiet_singleton {call : Call} {reply : call.Reply}
    (h : call.writesBinding = false ∨ reply.isOk = false) : Quiet [⟨call, reply⟩] := by
  intro event hevent hwrites
  obtain rfl := List.mem_singleton.1 hevent
  rcases h with h | h
  · rw [h] at hwrites
    cases hwrites
  · exact h

theorem Quiet.append (h : Quiet history) (hlater : Quiet later) : Quiet (history ++ later) := by
  intro event hevent
  rcases List.mem_append.1 hevent with hevent | hevent
  · exact h event hevent
  · exact hlater event hevent

theorem ServesAll.eq_of_quiet (hs : ServesAll store history after) (h : Quiet history) :
    after = store := by
  induction hs with
  | nil => rfl
  | cons hserve _ ih =>
      rw [ih fun event hevent => h event (List.mem_cons_of_mem _ hevent)]
      exact hserve.eq_of_quiet (h _ List.mem_cons_self)

/-! ### Who is listed -/

/-- Some binding of the role at the scope has the user among its subjects. -/
def Lists (store : BindingStore) (role : RoleTarget) (scope : Scope) (username : String) : Prop :=
  ∃ b ∈ store.bindings, b.isOf role scope = true ∧ b.hasUser username = true

variable {other : String}

theorem lists_put : (store.put b).Lists role scope other ↔
    b.isOf role scope = true ∧ b.hasUser other = true ∨
      ∃ c ∈ store.bindings, c.place ≠ b.place ∧ c.isOf role scope = true ∧
        c.hasUser other = true := by
  refine ⟨?_, ?_⟩
  · intro hin
    obtain ⟨c, hc, hof, hu⟩ := hin
    rcases mem_put.1 hc with rfl | ⟨hc, hne⟩
    · exact Or.inl ⟨hof, hu⟩
    · exact Or.inr ⟨c, hc, hne, hof, hu⟩
  · intro hin
    rcases hin with ⟨hof, hu⟩ | ⟨c, hc, hne, hof, hu⟩
    · exact ⟨_, mem_put.2 (Or.inl rfl), hof, hu⟩
    · exact ⟨c, mem_put.2 (Or.inr ⟨hc, hne⟩), hof, hu⟩

/-- A user that is added to a binding is listed then, and nothing else changes. -/
theorem lists_put_addUser (hb : b ∈ store.bindings) :
    (store.put (b.addUser username)).Lists role scope other ↔
      store.Lists role scope other ∨ b.isOf role scope = true ∧ other = username := by
  rw [lists_put, Binding.isOf_addUser, Binding.hasUser_addUser, Binding.place_addUser]
  refine ⟨?_, ?_⟩
  · intro hin
    rcases hin with ⟨hof, hu | rfl⟩ | ⟨c, hc, -, hof, hu⟩
    · exact Or.inl ⟨b, hb, hof, hu⟩
    · exact Or.inr ⟨hof, rfl⟩
    · exact Or.inl ⟨c, hc, hof, hu⟩
  · intro hin
    rcases hin with ⟨c, hc, hof, hu⟩ | ⟨hof, rfl⟩
    · by_cases hplace : c.place = b.place
      · obtain rfl := eq_of_place_eq hc hb hplace
        exact Or.inl ⟨hof, Or.inl hu⟩
      · exact Or.inr ⟨c, hc, hplace, hof, hu⟩
    · exact Or.inl ⟨hof, Or.inr rfl⟩

/-- What is stored in a free place takes nothing from anybody. -/
theorem lists_put_of_free (hfree : store.at? b.place = none) :
    (store.put b).Lists role scope other ↔
      store.Lists role scope other ∨ b.isOf role scope = true ∧ b.hasUser other = true := by
  rw [lists_put]
  refine ⟨?_, ?_⟩
  · intro hin
    rcases hin with h | ⟨c, hc, -, hof, hu⟩
    · exact Or.inr h
    · exact Or.inl ⟨c, hc, hof, hu⟩
  · intro hin
    rcases hin with ⟨c, hc, hof, hu⟩ | h
    · exact Or.inr ⟨c, hc, at?_eq_none_iff.1 hfree c hc, hof, hu⟩
    · exact Or.inl h

/-- A user that is taken out of a binding is no longer listed by that one. -/
theorem lists_put_removeUser (hb : b ∈ store.bindings) :
    (store.put (b.removeUser username)).Lists role scope other ↔
      ∃ c ∈ store.bindings, c.isOf role scope = true ∧ c.hasUser other = true ∧
        ¬(c = b ∧ other = username) := by
  rw [lists_put, Binding.isOf_removeUser, Binding.hasUser_removeUser, Binding.place_removeUser]
  refine ⟨?_, ?_⟩
  · intro hin
    rcases hin with ⟨hof, hu, hne⟩ | ⟨c, hc, hplace, hof, hu⟩
    · exact ⟨b, hb, hof, hu, fun h => hne h.2⟩
    · refine ⟨c, hc, hof, hu, ?_⟩
      intro hin
      obtain ⟨rfl, -⟩ := hin
      exact hplace rfl
  · intro hin
    obtain ⟨c, hc, hof, hu, hnot⟩ := hin
    by_cases hplace : c.place = b.place
    · obtain rfl := eq_of_place_eq hc hb hplace
      exact Or.inl ⟨hof, hu, fun h => hnot ⟨rfl, h⟩⟩
    · exact Or.inr ⟨c, hc, hplace, hof, hu⟩

/-- With nobody else listed, a binding that is taken away is a user taken out of it. -/
theorem lists_drop (hb : b ∈ store.bindings) (hnil : (b.removeUser username).subjects = []) :
    (store.drop b.place).Lists role scope other ↔
      ∃ c ∈ store.bindings, c.isOf role scope = true ∧ c.hasUser other = true ∧
        ¬(c = b ∧ other = username) := by
  refine ⟨?_, ?_⟩
  · intro hin
    obtain ⟨c, hc, hof, hu⟩ := hin
    obtain ⟨hc, hplace⟩ := mem_drop.1 hc
    refine ⟨c, hc, hof, hu, ?_⟩
    intro hin
    obtain ⟨rfl, -⟩ := hin
    exact hplace rfl
  · intro hin
    obtain ⟨c, hc, hof, hu, hnot⟩ := hin
    refine ⟨c, mem_drop.2 ⟨hc, fun hplace => ?_⟩, hof, hu⟩
    obtain rfl := eq_of_place_eq hc hb hplace
    exact hnot ⟨rfl, Binding.eq_of_hasUser_of_removeUser_eq_nil hnil hu⟩

/-! ### Listings -/

/-- What a listing says of the bindings at a scope that can be bound there. -/
theorem narrow_matching (h : role.admits scope = true) :
    (store.matching role).narrow scope =
      store.bindings.filter fun b => b.isOf role scope := by
  cases scope with
  | cluster =>
      cases role with
      | role ns name => exact absurd h (by simp [RoleTarget.admits])
      | clusterRole name =>
          refine List.filter_congr fun b _ => ?_
          simp [Binding.isOf, Binding.isAt, RoleTarget.ns?]
  | inNamespace ns =>
      rw [matching, RoleBindings.narrow, namespacedOf, List.filter_filter]
      refine List.filter_congr fun b _ => ?_
      cases role with
      | clusterRole name =>
          simp only [Binding.isOf, Binding.isAt, RoleTarget.ns?, Option.all_none, Bool.and_true]
          rw [← Bool.and_assoc, Bool.and_comm (decide _) (decide _)]
      | role ns' name =>
          obtain rfl : ns = ns' := by simpa [RoleTarget.admits] using h
          simp only [Binding.isOf, Binding.isAt, RoleTarget.ns?, Option.all_some]
          cases decide (b.metadata.ns = some ns) <;> simp

theorem lists_iff_narrow (h : role.admits scope = true) :
    store.Lists role scope username ↔
      ∃ b ∈ (store.matching role).narrow scope, b.hasUser username = true := by
  rw [narrow_matching h]
  simp only [Lists, List.mem_filter, and_assoc]

/-! ### Bindings that were read -/

/-- A binding was read from the store at some time.  What is in its place now is either that
binding, or it has a version that is another. -/
structure Known (store : BindingStore) (b : Binding) : Prop where
  unused : ∀ number ≥ store.nextWrite, b.version ≠ some (Nat.repr number)
  eq_of_version : ∀ c ∈ store.bindings, c.place = b.place → c.version = b.version → c = b

theorem known_of_mem (hb : b ∈ store.bindings) : store.Known b where
  unused := store.unused b hb
  eq_of_version _ hc hplace _ := eq_of_place_eq hc hb hplace

theorem Known.put (h : store.Known b) (c : Binding) : (store.put c).Known b where
  unused number hle := h.unused number (Nat.le_of_succ_le hle)
  eq_of_version d hd hplace hversion := by
    rcases mem_put.1 hd with rfl | ⟨hd, -⟩
    · -- No version that was read is the one of this write.
      exact absurd hversion.symm (h.unused store.nextWrite (Nat.le_refl _))
    · exact h.eq_of_version d hd hplace hversion

theorem Known.drop (h : store.Known b) (place : Reach × Option String × String) :
    (store.drop place).Known b where
  unused := h.unused
  eq_of_version d hd := h.eq_of_version d (mem_drop.1 hd).1

/-- A deletion of what was read leaves nobody listed but one takes nothing from anybody else,
unless the binding has changed since. -/
theorem Known.lists_drop (h : store.Known b) (hc : c ∈ store.bindings) (hplace : c.place = b.place)
    (hnil : (b.removeUser username).subjects = [])
    (hother : b.isOf role scope = true → other ≠ username) (hlists : store.Lists role scope other) :
    (store.drop c.place).Lists role scope other ∨
      c.isOf role scope = true ∧ c.hasUser other = true ∧ b.version ≠ c.version := by
  obtain ⟨d, hd, hof, hu⟩ := hlists
  by_cases hdplace : d.place = c.place
  · obtain rfl := eq_of_place_eq hd hc hdplace
    refine Or.inr ⟨hof, hu, fun hversion => ?_⟩
    -- What is as it was read lists only the user that is to go.
    obtain rfl := h.eq_of_version d hd hplace hversion.symm
    exact hother hof (Binding.eq_of_hasUser_of_removeUser_eq_nil hnil hu)
  · exact Or.inl ⟨d, mem_drop.2 ⟨hd, hdplace⟩, hof, hu⟩

end BindingStore

end ClusterAccess
