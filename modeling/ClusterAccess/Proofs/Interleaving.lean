/-
Requests that run at once.

Several requests are under way against one store, each with the calls that it has made and
the program that it has left.  A step serves one call of one of them.  Nothing is held
between two calls of a request, so any other request may come in between.

  * A listing is two calls, one for the role bindings and one for the cluster role bindings,
    and the store may change between the two.
  * Any call may fail, whether it has taken effect or not.

What holds of all tasks at all times is `Task.Sound`: a task is where its history has brought
it, and the bindings that it has read are `Known`, which says that one of them can only be
replaced while it is as it was read.
-/
import ClusterAccess.Proofs.Crowd
import ClusterAccess.Proofs.Errands

namespace ClusterAccess

open Program (After History)

namespace BindingStore

variable {store after : BindingStore} {b : Binding} {role : RoleTarget} {scope : Scope}
  {listed : RoleBindings}

/-- A call leaves the store as it is, or it puts something in a place, or clears one. -/
theorem Serves.cases {call : Call} {reply : call.Reply} (hs : store.Serves call reply after) :
    after = store ∨ (∃ b, after = store.put b) ∨ ∃ place, after = store.drop place := by
  rcases hs.eq_or_wrote with hsame | ⟨hwrites, hok⟩
  · exact Or.inl hsame
  cases reply with
  | error fault => cases hok
  | ok answer =>
      cases call with
      | createBinding b => exact Or.inr (Or.inl ⟨b, hs.create_ok.2⟩)
      | updateBinding b => exact Or.inr (Or.inl ⟨b, hs.update_ok.2⟩)
      | deleteBinding ns name => exact Or.inr (Or.inr ⟨_, hs.delete_ok.2⟩)
      | _ => cases hwrites

theorem Serves.known {call : Call} {reply : call.Reply} (hs : store.Serves call reply after)
    (h : store.Known b) : after.Known b := by
  rcases hs.cases with rfl | ⟨c, rfl⟩ | ⟨place, rfl⟩
  · exact h
  · exact h.put c
  · exact h.drop place

/-- A listing of a role that was read from the store, at once or in two parts. -/
structure Read (store : BindingStore) (role : RoleTarget) (listed : RoleBindings) : Prop where
  namespaced : ∀ b ∈ listed.namespaced,
    b.reach = .namespaced ∧ role.isRef b.roleRef = true ∧ store.Known b
  clusterWide : ∀ b ∈ listed.clusterWide,
    b.reach = .clusterWide ∧ role.isRef b.roleRef = true ∧ store.Known b

theorem Read.mono (h : store.Read role listed) (hknown : ∀ b, store.Known b → after.Known b) :
    after.Read role listed where
  namespaced b hb := by
    obtain ⟨hreach, href, hb⟩ := h.namespaced b hb
    exact ⟨hreach, href, hknown b hb⟩
  clusterWide b hb := by
    obtain ⟨hreach, href, hb⟩ := h.clusterWide b hb
    exact ⟨hreach, href, hknown b hb⟩

theorem Read.narrow (h : store.Read role listed) (hb : b ∈ listed.narrow scope) :
    b.isOf role scope = true ∧ store.Known b := by
  cases scope with
  | cluster =>
      obtain ⟨hreach, href, hknown⟩ := h.clusterWide b hb
      refine ⟨?_, hknown⟩
      simp [Binding.isOf, Binding.isAt, hreach, href]
  | inNamespace ns =>
      obtain ⟨hbn, hns⟩ := List.mem_filter.1 hb
      obtain ⟨hreach, href, hknown⟩ := h.namespaced b hbn
      refine ⟨?_, hknown⟩
      simp_all [Binding.isOf, Binding.isAt]

theorem read_namespacedOf (store : BindingStore) (role : RoleTarget) :
    store.Read role ⟨store.namespacedOf role, []⟩ where
  namespaced b hb := by
    obtain ⟨hbs, hb⟩ := List.mem_filter.1 hb
    simp only [Bool.and_eq_true, decide_eq_true_eq] at hb
    exact ⟨hb.1.1, hb.2, known_of_mem hbs⟩
  clusterWide b hb := by cases hb

/-- The second half of a listing completes it. -/
theorem Read.complete {first : List Binding} (h : store.Read role ⟨first, []⟩) :
    store.Read role ⟨first, store.clusterWideOf role⟩ where
  namespaced := h.namespaced
  clusterWide b hb := by
    obtain ⟨hbs, hb⟩ := List.mem_filter.1 hb
    simp only [Bool.and_eq_true, decide_eq_true_eq] at hb
    exact ⟨hb.1.1, hb.2, known_of_mem hbs⟩

end BindingStore

/-! ### Tasks and steps -/

/-- A request for a binding that is under way. -/
structure Task extends Runner Errand Errand.Result where
  /-- The role bindings of a listing that still lacks its cluster role bindings. -/
  half : Option (List Binding)

namespace Task

/-- A request that has not made a call yet. -/
def start (directory : Directory) (e : Errand) : Task where
  toRunner := .start (Errand.request directory) e
  half := none

/-- A request that goes on with a reply. -/
def proceed (t : Task) (call : Call) (reply : call.Reply)
    (program : Program Call Call.Reply (Outcome Errand.Result)) : Task where
  toRunner := t.toRunner.proceed call reply program
  half := none

/-- What can become of a store and of one task when it is the task's turn. -/
inductive Turn (store : BindingStore) (t : Task) : BindingStore → Task → Prop
  /-- The first part of a listing. -/
  | half {role : RoleTarget}
      {next : Outcome RoleBindings → Program Call Call.Reply (Outcome Errand.Result)}
      (hdue : t.program = .call (.matchingBindings role) next) (hnone : t.half = none) :
      Turn store t store { t with half := some (store.namespacedOf role) }
  /-- The second part of a listing, which completes it. -/
  | listed {role : RoleTarget} {first : List Binding}
      {next : Outcome RoleBindings → Program Call Call.Reply (Outcome Errand.Result)}
      (hdue : t.program = .call (.matchingBindings role) next) (hhalf : t.half = some first) :
      Turn store t store (t.proceed (.matchingBindings role)
        (.ok ⟨first, store.clusterWideOf role⟩) (next (.ok ⟨first, store.clusterWideOf role⟩)))
  /-- Any other call. -/
  | served {call : Call} {reply : call.Reply} {after : BindingStore}
      {next : call.Reply → Program Call Call.Reply (Outcome Errand.Result)}
      (hdue : t.program = .call call next) (hlisting : ∀ role, call ≠ .matchingBindings role)
      (hs : store.Serves call reply after) : Turn store t after (t.proceed call reply (next reply))
  /-- A call that fails, before it takes effect or after. -/
  | broken {call : Call} {fault : Fault} {after : BindingStore}
      {next : call.Reply → Program Call Call.Reply (Outcome Errand.Result)}
      (hdue : t.program = .call call next)
      (hs : after = store ∨ ∃ reply, store.Serves call reply after) :
      Turn store t after (t.proceed call (.error fault) (next (.error fault)))

/-- A task is where its history has brought it, and has read what it could read. -/
structure Sound (directory : Directory) (store : BindingStore) (t : Task) : Prop where
  run : After (t.errand.request directory).run t.history t.program
  half : ∀ first, t.half = some first → store.Read t.errand.role ⟨first, []⟩
  listed : ∀ listed, ⟨.matchingBindings t.errand.role, .ok listed⟩ ∈ t.history →
    store.Read t.errand.role listed

/-- The task is to give or to take the role at the scope, and has learnt that its user is this
one. -/
def IsFor (directory : Directory) (t : Task) (action : Action) (role : RoleTarget) (scope : Scope)
    (username : String) : Prop :=
  t.errand.action = action ∧ t.errand.role = role ∧ t.errand.scope = scope ∧
    t.errand.Resolves directory t.history (some username)

variable {directory : Directory} {store after : BindingStore} {t t' : Task} {e : Errand}

theorem sound_start : (start directory e).Sound directory store where
  run := .start _
  half first h := by cases h
  listed listed h := by cases h

theorem Sound.mono (h : t.Sound directory store)
    (hknown : ∀ b, store.Known b → after.Known b) : t.Sound directory after where
  run := h.run
  half first hhalf := (h.half first hhalf).mono hknown
  listed listed hlisted := (h.listed listed hlisted).mono hknown

/-- A task that goes on stays sound, if what it was told is what it could read. -/
theorem Sound.proceed {call : Call} {reply : call.Reply}
    {next : call.Reply → Program Call Call.Reply (Outcome Errand.Result)}
    (h : t.Sound directory store) (hdue : t.program = .call call next)
    (hread : ∀ listed, (⟨call, reply⟩ : (call : Call) × call.Reply) =
      ⟨.matchingBindings t.errand.role, .ok listed⟩ → store.Read t.errand.role listed) :
    (t.proceed call reply (next reply)).Sound directory store where
  run := by
    have hrun := h.run
    rw [hdue] at hrun
    exact hrun.snoc reply
  half first hhalf := by cases hhalf
  listed listed hlisted := by
    rcases List.mem_append.1 hlisted with hold | hnew
    · exact h.listed listed hold
    · exact hread listed (List.mem_singleton.1 hnew).symm

/-- The listing that is due is that of the role. -/
theorem Sound.role_eq {role : RoleTarget}
    {next : Outcome RoleBindings → Program Call Call.Reply (Outcome Errand.Result)}
    (hoff : directory.OffBindings) (h : t.Sound directory store)
    (hdue : t.program = .call (.matchingBindings role) next) : role = t.errand.role := by
  have hrun := h.run
  rw [hdue] at hrun
  rcases Errand.due_of_after hoff hrun with habout | ⟨-, heq | ⟨username, listed, -, -, hintends⟩⟩
  · cases habout
  · exact Call.matchingBindings.inj heq
  · cases RoleTarget.writes_of_intends hintends

/-- A write that is due is meant for what the task has read. -/
theorem Sound.intends {call : Call}
    {next : call.Reply → Program Call Call.Reply (Outcome Errand.Result)}
    (hoff : directory.OffBindings) (h : t.Sound directory store)
    (hdue : t.program = .call call next) (hwrites : call.writesBinding = true) :
    t.errand.role.admits t.errand.scope = true ∧ ∃ username listed,
      t.errand.Resolves directory t.history (some username) ∧
      ⟨.matchingBindings t.errand.role, .ok listed⟩ ∈ t.history ∧
      store.Read t.errand.role listed ∧
      RoleTarget.Intends t.errand.role t.errand.scope username
        (listed.narrow t.errand.scope) t.errand.action call := by
  have hrun := h.run
  rw [hdue] at hrun
  rcases Errand.due_of_after hoff hrun with habout | ⟨hadmits, hlisting | hintended⟩
  · rw [Call.isAboutBindings_of_writes hwrites] at habout
    cases habout
  · rw [hlisting] at hwrites
    cases hwrites
  · obtain ⟨username, listed, hname, hevent, hintends⟩ := hintended
    exact ⟨hadmits, username, listed, hname, hevent, h.listed listed hevent, hintends⟩

/-- No turn makes a binding less known. -/
theorem Turn.known (hturn : Turn store t after t') {b : Binding} (h : store.Known b) :
    after.Known b := by
  cases hturn with
  | half => exact h
  | listed => exact h
  | served _ _ hs => exact hs.known h
  | broken _ hs =>
      rcases hs with rfl | ⟨reply, hs⟩
      · exact h
      · exact hs.known h

theorem Turn.sound (hoff : directory.OffBindings) (h : t.Sound directory store)
    (hturn : Turn store t after t') : t'.Sound directory after := by
  have hafter : t.Sound directory after := h.mono fun _ => hturn.known
  cases hturn with
  | half hdue hnone =>
      obtain rfl := h.role_eq hoff hdue
      refine ⟨h.run, fun first hfirst => ?_, h.listed⟩
      obtain rfl := Option.some_inj.1 hfirst
      exact BindingStore.read_namespacedOf store _
  | listed hdue hhalf =>
      obtain rfl := h.role_eq hoff hdue
      refine h.proceed hdue fun listed heq => ?_
      cases heq
      exact (h.half _ hhalf).complete
  | served hdue hlisting hs =>
      refine hafter.proceed hdue fun listed heq => ?_
      exact absurd (Sigma.mk.inj heq).1 (hlisting _)
  | broken hdue hs =>
      refine hafter.proceed hdue fun listed heq => ?_
      cases heq

/-- The history of a task only grows. -/
theorem Turn.history (hturn : Turn store t after t') :
    t'.errand = t.errand ∧ ∃ later, t'.history = t.history ++ later := by
  cases hturn with
  | half => exact ⟨rfl, [], (List.append_nil _).symm⟩
  | listed => exact ⟨rfl, _, rfl⟩
  | served => exact ⟨rfl, _, rfl⟩
  | broken => exact ⟨rfl, _, rfl⟩

end Task

/-! ### Scenes -/

/-- A store and the tasks that use it. -/
structure Scene where
  store : BindingStore
  tasks : List Task

namespace Scene

/-- Requests that all begin at once. -/
def start (directory : Directory) (store : BindingStore) (errands : List Errand) : Scene where
  store := store
  tasks := errands.map (Task.start directory)

/-- A turn of one of the tasks. -/
inductive Step : Scene → Task → Scene → Prop
  | turn {store after : BindingStore} {t t' : Task} (before rest : List Task)
      (h : Task.Turn store t after t') :
      Step ⟨store, before ++ t :: rest⟩ t ⟨after, before ++ t' :: rest⟩

/-- A turn that was taken, with the scenes before and after it. -/
abbrev Move := ClusterAccess.Move Scene Task

/-- Any number of turns, one after another. -/
abbrev Run (start : Scene) : List Move → Scene → Prop :=
  Trace Step start

/-- All tasks are sound. -/
def Sound (directory : Directory) (s : Scene) : Prop :=
  ∀ t ∈ s.tasks, t.Sound directory s.store

variable {directory : Directory} {s s' start final : Scene} {t : Task} {moves : List Move}

theorem sound_start {store : BindingStore} {errands : List Errand} :
    (Scene.start directory store errands).Sound directory := by
  intro t ht
  obtain ⟨e, -, rfl⟩ := List.mem_map.1 ht
  exact Task.sound_start

theorem Step.sound (hoff : directory.OffBindings) (h : s.Sound directory) (hstep : Step s t s') :
    s'.Sound directory := by
  cases hstep with
  | turn before rest hturn =>
      intro t' ht'
      rcases List.mem_append.1 ht' with hbefore | ht'
      · exact (h t' (List.mem_append_left _ hbefore)).mono fun _ => hturn.known
      rcases List.mem_cons.1 ht' with rfl | hrest
      · exact hturn.sound hoff (h t (by simp))
      · exact (h t' (by simp [hrest])).mono fun _ => hturn.known

theorem Run.sound (hoff : directory.OffBindings) (h : start.Sound directory)
    (hrun : Run start moves final) : final.Sound directory :=
  hrun.invariant h fun hs hstep => hstep.sound hoff hs

/-- A step is a turn of one task, and the others stay as they are. -/
theorem Step.exists_turn (hstep : Step s t s') :
    t ∈ s.tasks ∧ ∃ t', t' ∈ s'.tasks ∧ Task.Turn s.store t s'.store t' ∧
      ∀ u ∈ s'.tasks, u ∈ s.tasks ∨ u = t' := by
  cases hstep with
  | @turn store after t t' before rest hturn =>
      refine ⟨by simp, t', by simp, hturn, ?_⟩
      intro u hu
      rcases List.mem_append.1 hu with hbefore | hu
      · exact Or.inl (List.mem_append_left _ hbefore)
      rcases List.mem_cons.1 hu with rfl | hrest
      · exact Or.inr rfl
      · exact Or.inl (by simp [hrest])

/-- Every task goes on in the next scene, with a history that may have grown. -/
theorem Step.descends (hstep : Step s t s') {u : Task} (hu : u ∈ s.tasks) :
    ∃ u' ∈ s'.tasks, u'.errand = u.errand ∧ ∃ later, u'.history = u.history ++ later := by
  cases hstep with
  | @turn store after t t' before rest hturn =>
      rcases List.mem_append.1 hu with hbefore | hu
      · exact ⟨u, List.mem_append_left _ hbefore, rfl, [], (List.append_nil _).symm⟩
      rcases List.mem_cons.1 hu with rfl | hrest
      · exact ⟨t', by simp, hturn.history⟩
      · exact ⟨u, by simp [hrest], rfl, [], (List.append_nil _).symm⟩

/-- What a request is about, it is about in the next scene too. -/
theorem Step.isFor (hstep : Step s t s') {u : Task} (hu : u ∈ s.tasks) {action : Action}
    {role : RoleTarget} {scope : Scope} {username : String}
    (h : u.IsFor directory action role scope username) :
    ∃ u' ∈ s'.tasks, u'.IsFor directory action role scope username := by
  obtain ⟨u', hu', herrand, later, hhistory⟩ := hstep.descends hu
  obtain ⟨haction, hrole, hscope, hname⟩ := h
  refine ⟨u', hu', ?_, ?_, ?_, ?_⟩
  · rw [herrand, haction]
  · rw [herrand, hrole]
  · rw [herrand, hscope]
  · rw [herrand, hhistory]
    exact hname.append later

/-- No request of the scene is to do this to the user's access. -/
def Without (directory : Directory) (s : Scene) (action : Action) (role : RoleTarget)
    (scope : Scope) (username : String) : Prop :=
  ∀ t ∈ s.tasks, ¬t.IsFor directory action role scope username

theorem Step.without (hstep : Step s t s') {action : Action} {role : RoleTarget} {scope : Scope}
    {username : String} (h : s'.Without directory action role scope username) :
    s.Without directory action role scope username := by
  intro u hu hfor
  obtain ⟨u', hu', hfor'⟩ := hstep.isFor hu hfor
  exact h u' hu' hfor'

end Scene

end ClusterAccess
