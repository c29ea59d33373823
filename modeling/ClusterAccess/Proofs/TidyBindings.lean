/-
Bindings stay tidy.

A store of bindings is tidy when no binding is without subjects and no user is listed twice for
one role at one scope, be it by one binding or by two.  Grants and revokes keep it tidy in
every run: any number of them may be under way, any of their calls may fail, before it takes
effect or after, and any of them may stop at any time.

No single request checks this against the store.  A grant looks at what it has listed and writes
later.  What saves it is that its write goes to one place.  By then the user may be listed
where it was not, but only in the library's own place, put there by another grant.  In that
case the creation finds the place taken, and the replacement finds a binding that is not what
was listed.  A grant that gets its write through therefore finds its user nowhere.
-/
import ClusterAccess.Proofs.ListedPlaces

namespace ClusterAccess

namespace Binding

variable {b c : Binding} {role role' : RoleTarget} {scope scope' : Scope}
  {username other : String} {number : Nat}

/-- How often the binding lists the user for the role at the scope. -/
def mentions (b : Binding) (role : RoleTarget) (scope : Scope) (username : String) : Nat :=
  if b.isOf role scope then b.subjects.countP fun s => s.isUser username else 0

@[simp] theorem mentions_stamped :
    (b.stamped number).mentions role scope username = b.mentions role scope username := rfl

theorem mentions_eq_zero_iff : b.mentions role scope username = 0 ↔
    (b.isOf role scope = true → b.hasUser username = false) := by
  unfold mentions
  by_cases hof : b.isOf role scope = true
  · simp [hof, hasUser, List.countP_eq_zero]
  · simp [hof]

/-- What lists a user only if it is the added one lists it once more than before. -/
theorem mentions_addUser : (b.addUser username).mentions role scope other =
    b.mentions role scope other +
      if b.isOf role scope = true ∧ other = username then 1 else 0 := by
  unfold mentions
  by_cases hof : b.isOf role scope = true
  · by_cases hother : other = username
    · simp [hof, hother, subjects_addUser, isUser_user]
    · simp [hof, hother, subjects_addUser, isUser_user]
  · simp [hof]

theorem mentions_newForUser : (newForUser role scope username).mentions role' scope' other =
    if (newForUser role scope username).isOf role' scope' = true ∧ other = username then 1
    else 0 := by
  unfold mentions
  by_cases hof : (newForUser role scope username).isOf role' scope' = true
  · by_cases hother : other = username
    · simp only [hof, hother, and_self, if_true]
      simp [subjects, newForUser, isUser_user]
    · simp only [hof, hother, and_false, if_true, if_false]
      simp [hother, subjects, newForUser, isUser_user]
  · simp [hof]

theorem mentions_removeUser_le (b : Binding) (username : String) (role : RoleTarget)
    (scope : Scope) (other : String) :
    (b.removeUser username).mentions role scope other ≤ b.mentions role scope other := by
  unfold mentions
  by_cases hof : b.isOf role scope = true
  · simp only [isOf_removeUser, hof, if_true, subjects_removeUser]
    exact List.filter_sublist.countP_le
  · simp [hof]

/-- Two ways to say what a binding gives are good for the same bindings. -/
theorem isOf_congr (h : b.isOf role scope = true) (h' : b.isOf role' scope' = true) :
    c.isOf role' scope' = c.isOf role scope := by
  simp only [isOf, Bool.and_eq_true, isRef_iff] at h h'
  obtain ⟨hat, hkind, hname⟩ := h
  obtain ⟨hat', hkind', hname'⟩ := h'
  obtain rfl := isAt_inj hat hat'
  simp [isOf, RoleTarget.isRef, ← hkind, ← hkind', ← hname, ← hname']

end Binding

/-- How often bindings list the user for the role at the scope. -/
def mentions (bindings : List Binding) (role : RoleTarget) (scope : Scope) (username : String) :
    Nat :=
  ((bindings.filter fun b => b.isOf role scope).flatMap Binding.subjects).countP
    fun s => s.isUser username

section Mentions

variable {b c : Binding} {bindings rest : List Binding} {role : RoleTarget} {scope : Scope}
  {username : String}

theorem mentions_cons : mentions (b :: rest) role scope username =
    b.mentions role scope username + mentions rest role scope username := by
  unfold mentions Binding.mentions
  by_cases hof : b.isOf role scope = true
  · simp [hof]
  · simp [hof]

theorem mentions_eq_zero_of (h : ∀ b ∈ bindings, b.mentions role scope username = 0) :
    mentions bindings role scope username = 0 := by
  induction bindings with
  | nil => rfl
  | cons b rest ih =>
      have hb := h b List.mem_cons_self
      have hrest := ih fun c hc => h c (List.mem_cons_of_mem _ hc)
      rw [mentions_cons]
      omega

theorem mentions_filter_le {keeps : Binding → Bool} :
    mentions (bindings.filter keeps) role scope username ≤
      mentions bindings role scope username := by
  induction bindings with
  | nil => exact Nat.le_refl _
  | cons b rest ih =>
      by_cases hkeeps : keeps b = true
      · rw [List.filter_cons_of_pos hkeeps, mentions_cons, mentions_cons]
        omega
      · rw [List.filter_cons_of_neg hkeeps, mentions_cons]
        omega

/-- A binding that goes where another was is counted in its place. -/
theorem mentions_putList (role : RoleTarget) (scope : Scope) (username : String)
    (hc : c ∈ bindings) (hplace : c.place = b.place)
    (hdistinct : bindings.Pairwise fun a b => a.place ≠ b.place) :
    mentions (BindingStore.putList b bindings) role scope username +
        c.mentions role scope username =
      mentions bindings role scope username + b.mentions role scope username := by
  induction bindings with
  | nil => cases hc
  | cons d rest ih =>
      obtain ⟨hd, hrest⟩ := List.pairwise_cons.1 hdistinct
      unfold BindingStore.putList
      rcases List.mem_cons.1 hc with rfl | hc
      · rw [if_pos hplace, mentions_cons, mentions_cons]
        omega
      · -- The binding that is replaced is further on, so this one is elsewhere.
        rw [if_neg (hplace ▸ hd c hc), mentions_cons, mentions_cons]
        have hih := ih hc hrest
        omega

/-- A binding that goes to a free place is counted besides the others. -/
theorem mentions_putList_of_free (role : RoleTarget) (scope : Scope) (username : String)
    (hfree : ∀ c ∈ bindings, c.place ≠ b.place) :
    mentions (BindingStore.putList b bindings) role scope username =
      mentions bindings role scope username + b.mentions role scope username := by
  induction bindings with
  | nil =>
      unfold BindingStore.putList
      rw [mentions_cons]
      omega
  | cons d rest ih =>
      have hih := ih fun c hc => hfree c (List.mem_cons_of_mem _ hc)
      unfold BindingStore.putList
      rw [if_neg (hfree d List.mem_cons_self), mentions_cons, mentions_cons]
      omega

end Mentions

namespace BindingStore

variable {store : BindingStore} {b : Binding} {role : RoleTarget} {scope : Scope}
  {username : String} {place : Reach × Option String × String}

/-- No binding is without subjects, and no user is listed twice for a role at a scope. -/
structure Tidy (store : BindingStore) : Prop where
  peopled : ∀ b ∈ store.bindings, b.subjects ≠ []
  once : ∀ role scope username, mentions store.bindings role scope username ≤ 1

theorem tidy_empty : empty.Tidy where
  peopled b hb := by cases hb
  once role scope username := Nat.zero_le _

/-- A user that is listed nowhere is mentioned nowhere. -/
theorem mentions_eq_zero_of_not_lists (h : ¬store.Lists role scope username) :
    mentions store.bindings role scope username = 0 := by
  refine mentions_eq_zero_of ?_
  intro b hb
  rw [Binding.mentions_eq_zero_iff]
  intro hof
  by_contra hu
  exact h ⟨b, hb, hof, by simpa using hu⟩

theorem peopled_put (h : ∀ c ∈ store.bindings, c.subjects ≠ []) (hb : b.subjects ≠ []) :
    ∀ c ∈ (store.put b).bindings, c.subjects ≠ [] := by
  intro c hc
  rcases mem_put.1 hc with rfl | ⟨hc, -⟩
  · exact hb
  · exact h c hc

theorem Tidy.drop (h : store.Tidy) : (store.drop place).Tidy where
  peopled b hb := h.peopled b (mem_drop.1 hb).1
  once role scope username := Nat.le_trans mentions_filter_le (h.once role scope username)

theorem Tidy.put_removeUser (h : store.Tidy) (hb : b ∈ store.bindings)
    (hne : (b.removeUser username).subjects ≠ []) : (store.put (b.removeUser username)).Tidy where
  peopled := peopled_put h.peopled hne
  once role scope other := by
    have hcount := mentions_putList (b := (b.removeUser username).stamped store.nextWrite)
      role scope other hb rfl store.distinct
    have hless := b.mentions_removeUser_le username role scope other
    have honce := h.once role scope other
    show mentions (putList _ store.bindings) role scope other ≤ 1
    rw [Binding.mentions_stamped] at hcount
    omega

/-- A user that is listed nowhere may be listed once by a binding of the role at the scope. -/
theorem Tidy.once_gain (h : store.Tidy) (hof : b.isOf role scope = true)
    (hnot : ¬store.Lists role scope username) {bindings : List Binding} (role' : RoleTarget)
    (scope' : Scope) (other : String)
    (hgain : mentions bindings role' scope' other = mentions store.bindings role' scope' other +
      if b.isOf role' scope' = true ∧ other = username then 1 else 0) :
    mentions bindings role' scope' other ≤ 1 := by
  have honce := h.once role' scope' other
  by_cases hnew : b.isOf role' scope' = true ∧ other = username
  · obtain ⟨hof', rfl⟩ := hnew
    have hzero : mentions store.bindings role' scope' other = 0 := by
      refine mentions_eq_zero_of_not_lists ?_
      intro hlists
      obtain ⟨c, hc, hcof, hu⟩ := hlists
      exact hnot ⟨c, hc, Binding.isOf_congr hof' hof ▸ hcof, hu⟩
    rw [if_pos ⟨hof', rfl⟩] at hgain
    omega
  · rw [if_neg hnew] at hgain
    omega

theorem Tidy.put_addUser (h : store.Tidy) (hb : b ∈ store.bindings)
    (hof : b.isOf role scope = true) (hnot : ¬store.Lists role scope username) :
    (store.put (b.addUser username)).Tidy where
  peopled := peopled_put h.peopled (by simp [Binding.subjects_addUser])
  once role' scope' other := by
    refine h.once_gain hof hnot role' scope' other ?_
    have hcount := mentions_putList (b := (b.addUser username).stamped store.nextWrite)
      role' scope' other hb rfl store.distinct
    rw [Binding.mentions_stamped, Binding.mentions_addUser] at hcount
    show mentions (putList _ store.bindings) role' scope' other = _
    omega

theorem Tidy.put_newForUser (h : store.Tidy)
    (hfree : store.at? (canonicalPlace role scope) = none)
    (hnot : ¬store.Lists role scope username) :
    (store.put (.newForUser role scope username)).Tidy where
  peopled := peopled_put h.peopled (by simp [Binding.newForUser, Binding.subjects])
  once role' scope' other := by
    have hof : (Binding.newForUser role scope username).isOf role scope = true :=
      Binding.isOf_newForUser
    refine h.once_gain hof hnot role' scope' other ?_
    have hplace : ∀ c ∈ store.bindings,
        c.place ≠ (Binding.newForUser role scope username).place := by
      rw [Binding.place_newForUser]
      exact at?_eq_none_iff.1 hfree
    have hcount := mentions_putList_of_free
      (b := (Binding.newForUser role scope username).stamped store.nextWrite) role' scope' other
      hplace
    rw [Binding.mentions_stamped, Binding.mentions_newForUser] at hcount
    exact hcount

end BindingStore

namespace Task

variable {directory : Directory} {store after : BindingStore} {t t' : Task}

/-- What the task has listed names every place where a user is listed, but for the library's own,
where a grant may have put the user since. -/
def CoveredButOwn (store : BindingStore) (t : Task) : Prop :=
  ∀ scope username, t.errand.role.admits scope = true →
    t.Covered store scope username (· = canonicalPlace t.errand.role scope)

/-- A user that a task has not found is listed in the library's own place, if anywhere. -/
theorem not_lists_of_covered {username : String} {listed : RoleBindings}
    (hcovered : t.CoveredButOwn store) (ha : t.errand.role.admits t.errand.scope = true)
    (hevent : ⟨.matchingBindings t.errand.role, .ok listed⟩ ∈ t.history)
    (hnone : ∀ c ∈ listed.narrow t.errand.scope, c.hasUser username = false)
    (hown : ¬store.ListedAt t.errand.role t.errand.scope username
      (canonicalPlace t.errand.role t.errand.scope)) :
    ¬store.Lists t.errand.role t.errand.scope username := by
  intro hlists
  obtain ⟨place, hat⟩ := BindingStore.lists_iff_listedAt.1 hlists
  rcases (hcovered _ username ha).listed listed hevent place hat with rfl | ⟨c, hc, -, hu⟩
  · exact hown hat
  · rw [hnone c hc] at hu
    cases hu

/-- A write keeps the store tidy. -/
theorem Wrote.tidy (hwrote : t.Wrote directory store after)
    (ha : t.errand.role.admits t.errand.scope = true) (hcovered : t.CoveredButOwn store)
    (h : store.Tidy) : after.Tidy := by
  cases hwrote with
  | @added b username listed hgrants hevent hnone hb hin hof hplace =>
      refine h.put_addUser hb hof (not_lists_of_covered hcovered ha hevent hnone ?_)
      -- What is in the place is what was listed, and that was without the user.
      intro hat
      obtain ⟨c, hc, hcplace, -, hu⟩ := hat
      obtain rfl := BindingStore.eq_of_place_eq hc hb (hcplace.trans hplace.symm)
      rw [hnone c hin] at hu
      cases hu
  | created hgrants hevent hnone hfree =>
      refine h.put_newForUser hfree (not_lists_of_covered hcovered ha hevent hnone ?_)
      exact BindingStore.not_listedAt_of_free hfree
  | removed hb hne => exact h.put_removeUser hb hne
  | deleted place => exact h.drop

theorem Turn.tidy (hoff : directory.OffBindings) (h : t.Sound directory store)
    (hturn : Turn store t after t') (hcovered : t.CoveredButOwn store) (htidy : store.Tidy) :
    after.Tidy := by
  rcases hturn.wrote hoff h with rfl | ⟨hwrote, ha⟩
  · exact htidy
  · exact hwrote.tidy ha hcovered htidy

/-- A turn puts users in the library's own places only. -/
theorem Turn.own_or_listedAt (hoff : directory.OffBindings) (h : t.Sound directory store)
    (hturn : Turn store t after t') {role : RoleTarget} {scope : Scope} {username : String}
    (ha : role.admits scope = true) {place : Reach × Option String × String}
    (hat : after.ListedAt role scope username place) :
    place = canonicalPlace role scope ∨ store.ListedAt role scope username place := by
  rcases hturn.listedAt hoff h ha hat with hbefore | ⟨-, hplace⟩
  · exact Or.inr hbefore
  · exact Or.inl hplace

/-- What others have listed still covers the rest. -/
theorem Turn.coveredButOwn (hoff : directory.OffBindings) (h : t.Sound directory store)
    (hturn : Turn store t after t') {u : Task} (hcovered : u.CoveredButOwn store) :
    u.CoveredButOwn after := by
  intro scope username ha
  exact (hcovered scope username ha).mono fun place hat => hturn.own_or_listedAt hoff h ha hat

theorem Turn.coveredButOwn_self (hoff : directory.OffBindings) (h : t.Sound directory store)
    (hturn : Turn store t after t') (hcovered : t.CoveredButOwn store) :
    t'.CoveredButOwn after := by
  intro scope username ha
  rw [hturn.history.1] at ha ⊢
  exact hturn.covered hoff h ha (fun place hat => hturn.own_or_listedAt hoff h ha hat)
    (hcovered scope username ha)

end Task

namespace Scene

variable {directory : Directory} {s s' final : Scene} {t : Task} {moves : List Move}

/-- The store is tidy, and every task knows where a user can be listed that it has not found. -/
structure Orderly (directory : Directory) (s : Scene) : Prop where
  sound : s.Sound directory
  covered : ∀ t ∈ s.tasks, t.CoveredButOwn s.store
  tidy : s.store.Tidy

theorem orderly_start {store : BindingStore} {errands : List Errand} (h : store.Tidy) :
    (Scene.start directory store errands).Orderly directory where
  sound := sound_start
  covered t ht scope username _ := by
    obtain ⟨e, -, rfl⟩ := List.mem_map.1 ht
    exact Task.covered_start
  tidy := h

theorem Step.orderly (hoff : directory.OffBindings) (hstep : Step s t s')
    (h : s.Orderly directory) : s'.Orderly directory := by
  obtain ⟨ht, t', -, hturn, hothers⟩ := hstep.exists_turn
  refine ⟨hstep.sound hoff h.sound, ?_, hturn.tidy hoff (h.sound t ht) (h.covered t ht) h.tidy⟩
  intro u hu
  rcases hothers u hu with hold | rfl
  · exact hturn.coveredButOwn hoff (h.sound t ht) (h.covered u hold)
  · exact hturn.coveredButOwn_self hoff (h.sound t ht) (h.covered t ht)

theorem Run.orderly (hoff : directory.OffBindings) {start : Scene}
    (h : start.Orderly directory) (hrun : Run start moves final) : final.Orderly directory :=
  hrun.invariant h fun hs hstep => hstep.orderly hoff hs

/-- **Bindings stay tidy.**  Whatever grants and revokes run at once against a tidy store, in
whatever order their calls are served, fail or break, every store on the way has no binding
without subjects and no user listed twice for one role at one scope. -/
theorem tidy_of_run {store : BindingStore} {errands : List Errand} (hoff : directory.OffBindings)
    (htidy : store.Tidy) (hrun : Run (.start directory store errands) moves final) :
    final.store.Tidy :=
  (hrun.orderly hoff (orderly_start htidy)).tidy

/-- A user is to get one role twice at once. -/
def twins : Scene :=
  .start .plain .empty [⟨.grant, "alice", .clusterRole "view", .cluster⟩,
    ⟨.grant, "alice", .clusterRole "view", .cluster⟩]

/-- Both requests list no binding, and both go on to create the same one. -/
theorem tidy_of_run_twins : ∃ moves store first second,
    Run twins moves ⟨store, [first, second]⟩ ∧
    first.program = .done (.ok (.granted .applied)) ∧
    second.program = .done (.error (.api "create ClusterRoleBinding eksbridge-view-binding"
      (.status 409 "AlreadyExists" "already exists"))) ∧
    store.Lists (.clusterRole "view") .cluster "alice" ∧ store.Tidy := by
  have h1 : Run twins _ _ := .snoc .nil (.turn [] [_] (.half rfl rfl))
  have h2 := Trace.snoc h1 (.turn [] [_] (.listed rfl rfl))
  have h3 := Trace.snoc h2 (.turn [_] [] (.half rfl rfl))
  have h4 := Trace.snoc h3 (.turn [_] [] (.listed rfl rfl))
  have h5 := Trace.snoc h4 (.turn [] [_] (.served rfl (by simp) (.answered rfl)))
  have h6 := Trace.snoc h5 (.turn [_] [] (.served rfl (by simp) (.answered rfl)))
  have htidy := tidy_of_run Directory.plain_offBindings BindingStore.tidy_empty h6
  exact ⟨_, _, _, _, h6, rfl, rfl, ⟨_, List.mem_cons_self, rfl, rfl⟩, htidy⟩

end Scene

end ClusterAccess
