/-
The registry of policy associations, as the requests about it see it.

A request is carried out on a control plane call by call (`carry`), with nobody else in
between.  What its calls do is said of one thing: `scopeAt`, the scope at which a principal
is associated with a policy.  An association that is written takes the place of the one of
its pair, one that is removed leaves none, and in either case every other pair is as before.
-/
import ClusterAccess.ControlPlane.State
import ClusterAccess.Policy
import ClusterAccess.Proofs.Worlds

namespace ClusterAccess

/-- A scope that is written out well: the namespaces are some, and none of them is there twice. -/
def PolicyScope.WellFormed : PolicyScope → Prop
  | .cluster => True
  | .namespaces names => names ≠ [] ∧ names.Nodup

namespace ControlPlane

open World (carry carry_send carry_bind_ok carry_attempt)

variable {plane : ControlPlane} {principal policy other : String} {scope : PolicyScope}

instance : World ControlPlane := ⟨ControlPlane.act⟩

/-! ### The scope of a pair -/

/-- The scope at which a list associates a policy. -/
def scopeIn (policies : List Association) (policy : String) : Option PolicyScope :=
  (policies.find? fun a => a.policy = policy).map Association.scope

/-- The scope at which a principal is associated with a policy. -/
def scopeAt (plane : ControlPlane) (principal policy : String) : Option PolicyScope :=
  scopeIn (plane.policiesOf principal) policy

theorem find?_changePolicies (change : List Association → List Association)
    (records : List HeldAssociations) :
    (changePolicies change principal records).find? (fun held => held.principal = other) =
      if other = principal then
        (records.find? fun held => held.principal = other).map
          fun held => { held with policies := change held.policies }
      else records.find? fun held => held.principal = other := by
  induction records with
  | nil => simp [changePolicies]
  | cons held rest ih =>
      unfold changePolicies
      by_cases hheld : held.principal = principal
      · rw [if_pos hheld]
        by_cases hother : other = principal
        · simp [hheld, hother]
        · have hne : ¬held.principal = other := fun h => hother (h.symm.trans hheld)
          simp [hne, hother]
      · rw [if_neg hheld]
        by_cases hfound : held.principal = other
        · have hother : ¬other = principal := fun h => hheld (hfound.trans h)
          simp [hfound, hother]
        · rw [List.find?_cons_of_neg (by simpa using hfound), ih,
            List.find?_cons_of_neg (by simpa using hfound)]

theorem policiesOf_associate (plane : ControlPlane) (principal policy other : String)
    (scope : PolicyScope) :
    (plane.associate principal policy scope).policiesOf other =
      if other = principal then
        (plane.policiesOf principal).filter (fun a => a.policy ≠ policy) ++ [⟨policy, scope⟩]
      else plane.policiesOf other := by
  unfold associate policiesOf
  rw [find?_changePolicies]
  by_cases hother : other = principal
  · subst hother
    simp only [if_true]
    by_cases hany : plane.associations.any (fun held => held.principal = other) = true
    · simp only [hany, if_true]
      obtain ⟨held, hheld, hprincipal⟩ := List.any_eq_true.1 hany
      cases hfind : plane.associations.find? fun held => held.principal = other with
      | some found => simp
      | none => exact absurd hprincipal (List.find?_eq_none.1 hfind held hheld)
    · have hnone : plane.associations.find? (fun held => held.principal = other) = none := by
        simpa using hany
      simp [hany, hnone, List.find?_append]
  · simp only [if_neg hother]
    by_cases hany : plane.associations.any (fun held => held.principal = principal) = true
    · simp [hany]
    · have hne : ¬principal = other := fun h => hother h.symm
      simp [hany, List.find?_append, hne]

theorem policiesOf_disassociate (plane : ControlPlane) (principal policy other : String) :
    (plane.disassociate principal policy).policiesOf other =
      if other = principal then
        (plane.policiesOf principal).filter fun a => a.policy ≠ policy
      else plane.policiesOf other := by
  unfold disassociate policiesOf
  rw [find?_changePolicies]
  by_cases hother : other = principal
  · subst hother
    cases plane.associations.find? fun held => held.principal = other <;> simp
  · simp [hother]

theorem scopeIn_filter (policies : List Association) (policy other : String) :
    scopeIn (policies.filter fun a => a.policy ≠ policy) other =
      if other = policy then none else scopeIn policies other := by
  unfold scopeIn
  rw [List.find?_filter]
  by_cases hother : other = policy
  · subst hother
    simp
  · have hsame : ∀ a : Association,
        (decide (decide (a.policy ≠ policy) = true ∧ decide (a.policy = other) = true)) =
          decide (a.policy = other) := by
      intro a
      by_cases ha : a.policy = other
      · simp [ha, hother]
      · simp [ha]
    simp only [hsame, if_neg hother]

theorem scopeIn_replaced (policies : List Association) (policy other : String)
    (scope : PolicyScope) :
    scopeIn (policies.filter (fun a => a.policy ≠ policy) ++ [⟨policy, scope⟩]) other =
      if other = policy then some scope else scopeIn policies other := by
  have hfilter := scopeIn_filter policies policy other
  unfold scopeIn at hfilter ⊢
  rw [List.find?_append, Option.map_or, hfilter]
  by_cases hother : other = policy
  · subst hother
    simp
  · have hne : ¬policy = other := fun h => hother h.symm
    simp [hother, hne]

/-- What changes the list of one principal at one policy changes the scope of that pair. -/
theorem scopeAt_of_changed {after : ControlPlane} {changed : List Association}
    {found : Option PolicyScope}
    (hpolicies : ∀ p, after.policiesOf p = if p = principal then changed else plane.policiesOf p)
    (hchanged : ∀ q, scopeIn changed q =
      if q = policy then found else scopeIn (plane.policiesOf principal) q) (p q : String) :
    after.scopeAt p q = if p = principal ∧ q = policy then found else plane.scopeAt p q := by
  unfold scopeAt
  rw [hpolicies]
  by_cases hp : p = principal
  · rw [if_pos hp, hchanged, hp]
    by_cases hq : q = policy
    · rw [if_pos hq, if_pos ⟨rfl, hq⟩]
    · rw [if_neg hq, if_neg fun h => hq h.2]
  · rw [if_neg hp, if_neg fun h => hp h.1]

theorem scopeAt_associate (p q : String) :
    (plane.associate principal policy scope).scopeAt p q =
      if p = principal ∧ q = policy then some scope else plane.scopeAt p q :=
  scopeAt_of_changed (fun p => policiesOf_associate plane principal policy p scope)
    (fun q => scopeIn_replaced _ policy q scope) p q

theorem scopeAt_disassociate (p q : String) :
    (plane.disassociate principal policy).scopeAt p q =
      if p = principal ∧ q = policy then none else plane.scopeAt p q :=
  scopeAt_of_changed (policiesOf_disassociate plane principal policy)
    (scopeIn_filter _ policy) p q

/-! ### The shape of a registry -/

/-- Every pair has one association at most, and its scope is well formed.  Associations hang on
access entries, so only a principal that has an entry has any. -/
structure Shaped (plane : ControlPlane) : Prop where
  single : ∀ principal, ((plane.policiesOf principal).map Association.policy).Nodup
  wellFormed : ∀ principal, ∀ a ∈ plane.policiesOf principal, a.scope.WellFormed
  entry : ∀ principal, plane.policiesOf principal ≠ [] → plane.entry? principal ≠ none

theorem Shaped.associate (h : plane.Shaped) (policy : String)
    (hentry : plane.entry? principal ≠ none) (hscope : scope.WellFormed) :
    (plane.associate principal policy scope).Shaped where
  single p := by
    rw [policiesOf_associate]
    by_cases hp : p = principal
    · rw [if_pos hp, List.map_append, List.nodup_append]
      refine ⟨(h.single principal).sublist (List.filter_sublist.map _), by simp, ?_⟩
      intro name hname other hother
      obtain ⟨a, ha, rfl⟩ := List.mem_map.1 hname
      have hne : a.policy ≠ policy := by simpa using (List.mem_filter.1 ha).2
      simp only [List.map_cons, List.map_nil, List.mem_singleton] at hother
      rwa [hother]
    · rw [if_neg hp]
      exact h.single p
  wellFormed p a ha := by
    rw [policiesOf_associate] at ha
    by_cases hp : p = principal
    · rw [if_pos hp] at ha
      rcases List.mem_append.1 ha with hold | hnew
      · exact h.wellFormed principal a (List.mem_filter.1 hold).1
      · rw [List.mem_singleton.1 hnew]
        exact hscope
    · rw [if_neg hp] at ha
      exact h.wellFormed p a ha
  entry p hne := by
    by_cases hp : p = principal
    · rw [hp]
      exact hentry
    · rw [policiesOf_associate, if_neg hp] at hne
      exact h.entry p hne

theorem Shaped.disassociate (h : plane.Shaped) (principal policy : String) :
    (plane.disassociate principal policy).Shaped where
  single p := by
    rw [policiesOf_disassociate]
    by_cases hp : p = principal
    · rw [if_pos hp]
      exact (h.single principal).sublist (List.filter_sublist.map _)
    · rw [if_neg hp]
      exact h.single p
  wellFormed p a ha := by
    rw [policiesOf_disassociate] at ha
    by_cases hp : p = principal
    · rw [if_pos hp] at ha
      exact h.wellFormed principal a (List.mem_filter.1 ha).1
    · rw [if_neg hp] at ha
      exact h.wellFormed p a ha
  entry p hne := by
    rw [policiesOf_disassociate] at hne
    by_cases hp : p = principal
    · rw [if_pos hp] at hne
      rw [hp]
      refine h.entry principal fun hnil => hne ?_
      rw [hnil]
      rfl
    · rw [if_neg hp] at hne
      exact h.entry p hne

/-- What a pair is associated at is written out well. -/
theorem Shaped.scopeAt_wellFormed (h : plane.Shaped)
    (hscope : plane.scopeAt principal policy = some scope) : scope.WellFormed := by
  obtain ⟨a, ha, rfl⟩ := Option.map_eq_some_iff.1 hscope
  exact h.wellFormed principal a (List.mem_of_find?_eq_some ha)

/-- A pair that is associated has an access entry. -/
theorem Shaped.entry_of_scopeAt (h : plane.Shaped)
    (hscope : plane.scopeAt principal policy ≠ none) : plane.entry? principal ≠ none := by
  refine h.entry principal fun hnil => hscope ?_
  rw [scopeAt, hnil]
  rfl

/-! ### The calls of a request -/

/-- The control plane with an access entry for the principal, made if there is none. -/
def withEntry (plane : ControlPlane) (principal : String) : ControlPlane :=
  match plane.createEntry principal with
  | .ok after => after
  | .error _ => plane

theorem withEntry_of_entry (h : plane.entry? principal ≠ none) :
    plane.withEntry principal = plane := by
  obtain ⟨entry, hentry⟩ := Option.ne_none_iff_exists'.1 h
  simp [withEntry, createEntry, hentry]

theorem withEntry_of_none (h : plane.entry? principal = none) :
    plane.withEntry principal = { plane with entries := plane.entries ++
      [⟨principal, some ⟨principal, "STANDARD", none, []⟩⟩] } := by
  simp [withEntry, createEntry, h]

theorem entry?_ne_none_iff : plane.entry? principal ≠ none ↔
    ∃ entry ∈ plane.entries, entry.principal = principal := by
  unfold entry?
  simp

theorem entry?_withEntry (plane : ControlPlane) (principal : String) :
    entry? (plane.withEntry principal) principal ≠ none := by
  by_cases h : plane.entry? principal = none
  · rw [withEntry_of_none h, entry?_ne_none_iff]
    exact ⟨_, List.mem_append_right _ (List.mem_singleton_self _), rfl⟩
  · rw [withEntry_of_entry h]
    exact h

theorem policiesOf_withEntry :
    (plane.withEntry principal).policiesOf other = plane.policiesOf other := by
  by_cases h : plane.entry? principal = none
  · rw [withEntry_of_none h]
    rfl
  · rw [withEntry_of_entry h]

theorem scopeAt_withEntry :
    (plane.withEntry principal).scopeAt other policy = plane.scopeAt other policy := by
  rw [scopeAt, policiesOf_withEntry]
  rfl

theorem Shaped.withEntry (h : plane.Shaped) (principal : String) :
    (plane.withEntry principal).Shaped where
  single p := by
    rw [policiesOf_withEntry]
    exact h.single p
  wellFormed p a ha := by
    rw [policiesOf_withEntry] at ha
    exact h.wellFormed p a ha
  entry p hne := by
    rw [policiesOf_withEntry] at hne
    by_cases hentry : plane.entry? principal = none
    · obtain ⟨entry, hmem, hp⟩ := entry?_ne_none_iff.1 (h.entry p hne)
      rw [withEntry_of_none hentry, entry?_ne_none_iff]
      exact ⟨entry, List.mem_append_left _ hmem, hp⟩
    · rw [withEntry_of_entry hentry]
      exact h.entry p hne

theorem carry_ensureEntry : carry plane (Policy.ensureEntry principal) =
    (some (.ok ()), plane.withEntry principal) := by
  unfold Policy.ensureEntry
  cases hentry : plane.entry? principal with
  | none =>
      have hact : plane.act (.createAccessEntry principal) =
          (.ok (), plane.withEntry principal) := by
        show plane.changed (plane.createEntry principal) = _
        rw [withEntry_of_none hentry, createEntry, hentry]
        rfl
      rw [carry_bind_ok (carry_attempt (carry_send hact))]
      rfl
  | some entry =>
      have hact : plane.act (.createAccessEntry principal) =
          (.error (.alreadyExists (entryName principal)), plane) := by
        show plane.changed (plane.createEntry principal) = _
        rw [createEntry, hentry]
        rfl
      have hsome : plane.entry? principal ≠ none := by simp [hentry]
      rw [carry_bind_ok (carry_attempt (carry_send hact)), withEntry_of_entry hsome]
      rfl

theorem carry_scopeOf (policy : String)
    (h : plane.policiesOf principal ≠ [] → plane.entry? principal ≠ none) :
    carry plane (Policy.scopeOf principal policy) =
      (some (.ok (plane.scopeAt principal policy)), plane) := by
  unfold Policy.scopeOf
  cases hentry : plane.entry? principal with
  | none =>
      have hnil : plane.policiesOf principal = [] :=
        Classical.byContradiction fun hne => h hne hentry
      have hact : plane.act (.associatedPolicies principal) =
          (.error (.notFound (entryName principal)), plane) := by
        simp [act, orMissing, hentry, Except.map]
      rw [carry_bind_ok (carry_attempt (carry_send hact)), scopeAt, hnil]
      rfl
  | some entry =>
      have hact : plane.act (.associatedPolicies principal) =
          (.ok (plane.policiesOf principal), plane) := by
        simp [act, orMissing, hentry, Except.map]
      rw [carry_bind_ok (carry_attempt (carry_send hact))]
      rfl

/-! ### Writing again -/

theorem any_changePolicies (change : List Association → List Association)
    (records : List HeldAssociations) :
    (changePolicies change principal records).any (fun held => held.principal = other) =
      records.any fun held => held.principal = other := by
  induction records with
  | nil => rfl
  | cons held rest ih =>
      unfold changePolicies
      by_cases hheld : held.principal = principal
      · rw [if_pos hheld]
        rfl
      · rw [if_neg hheld, List.any_cons, ih, List.any_cons]

theorem changePolicies_twice (principal : String) {change : List Association → List Association}
    (h : ∀ policies, change (change policies) = change policies)
    (records : List HeldAssociations) :
    changePolicies change principal (changePolicies change principal records) =
      changePolicies change principal records := by
  induction records with
  | nil => rfl
  | cons held rest ih =>
      by_cases hheld : held.principal = principal
      · simp [changePolicies, hheld, h]
      · simp [changePolicies, hheld, ih]

/-- An association that is written twice is written once. -/
theorem associate_associate :
    (plane.associate principal policy scope).associate principal policy scope =
      plane.associate principal policy scope := by
  let change (policies : List Association) : List Association :=
    policies.filter (fun a => a.policy ≠ policy) ++ [⟨policy, scope⟩]
  have hchange : ∀ policies, change (change policies) = change policies := by
    intro policies
    simp [change, List.filter_append, List.filter_filter]
  have hany : (plane.associate principal policy scope).associations.any
      (fun held => held.principal = principal) = true := by
    unfold associate
    rw [any_changePolicies]
    by_cases hthere : plane.associations.any (fun held => held.principal = principal) = true
    · rw [if_pos hthere]
      exact hthere
    · rw [if_neg hthere]
      simp
  have htwice := changePolicies_twice principal hchange
  rw [associate, if_pos hany]
  unfold associate
  rw [htwice]

end ControlPlane

end ClusterAccess
