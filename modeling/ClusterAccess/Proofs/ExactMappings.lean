/-
Mappings that say what some rows say.

A table of mappings is built row by row, and one table can be added to another.  What it then
holds is told by the rows alone (`Exact`).  Under a username are the principals of the rows that
have it, in their order; in a group is the principal of a row once for each time that the row
names the group.  A name has one entry if there is a principal for it, and none if there is not.
So it makes no difference whether rows come one after another or in two tables that are merged.
-/
import ClusterAccess.Proofs.Usernames

namespace ClusterAccess

/-! ### Tables -/

namespace PrincipalTable

variable {table other : PrincipalTable} {key name principal : String} {more names : List String}
  {under others : String → List String}

/-- The names of a table. -/
def keys (table : PrincipalTable) : List String :=
  table.map Prod.fst

theorem keys_cons {entry : String × List String} {rest : PrincipalTable} :
    keys (entry :: rest) = entry.1 :: keys rest := rfl

theorem keys_append : (append key more table).keys =
    if key ∈ table.keys then table.keys else table.keys ++ [key] := by
  induction table with
  | nil => rfl
  | cons entry rest ih =>
      obtain ⟨first, principals⟩ := entry
      unfold append
      by_cases hfirst : first = key
      · simp [keys_cons, hfirst]
      · rw [if_neg hfirst, keys_cons, keys_cons, ih]
        by_cases hkey : key ∈ keys rest
        · simp [hkey]
        · simp [hkey, Ne.symm hfirst]

theorem mem_keys_append : name ∈ (append key more table).keys ↔ name ∈ table.keys ∨ name = key := by
  rw [keys_append]
  by_cases hkey : key ∈ table.keys
  · rw [if_pos hkey]
    refine ⟨Or.inl, ?_⟩
    intro h
    rcases h with h | rfl
    · exact h
    · exact hkey
  · rw [if_neg hkey, List.mem_append, List.mem_singleton]

theorem nodup_keys_append (h : table.keys.Nodup) : (append key more table).keys.Nodup := by
  rw [keys_append]
  by_cases hkey : key ∈ table.keys
  · rwa [if_pos hkey]
  · rw [if_neg hkey]
    refine List.nodup_append.2 ⟨h, by simp, ?_⟩
    intro first hfirst last hlast heq
    rw [List.mem_singleton.1 hlast] at heq
    exact hkey (heq ▸ hfirst)

theorem mem_keys_merge :
    name ∈ (merge table other).keys ↔ name ∈ table.keys ∨ name ∈ other.keys := by
  unfold merge
  induction other generalizing table with
  | nil => simp [keys]
  | cons entry rest ih =>
      rw [List.foldl_cons, ih, mem_keys_append, keys_cons, List.mem_cons, or_assoc]

theorem nodup_keys_merge (h : table.keys.Nodup) : (merge table other).keys.Nodup := by
  unfold merge
  induction other generalizing table with
  | nil => exact h
  | cons entry rest ih => exact ih (nodup_keys_append h)

theorem find_eq_nil (h : name ∉ table.keys) : find name table = [] := by
  induction table with
  | nil => rfl
  | cons entry rest ih =>
      rw [keys_cons, List.mem_cons, not_or] at h
      rw [find, if_neg (Ne.symm h.1)]
      exact ih h.2

/-- Where no name comes twice, what is found is all there is under it. -/
theorem flatMap_eq_find (h : table.keys.Nodup) :
    (table.flatMap fun entry => if entry.1 = name then entry.2 else []) = find name table := by
  induction table with
  | nil => rfl
  | cons entry rest ih =>
      obtain ⟨hfirst, hrest⟩ := List.nodup_cons.1 h
      rw [List.flatMap_cons, ih hrest, find]
      by_cases hname : entry.1 = name
      · rw [if_pos hname, if_pos hname, find_eq_nil (hname ▸ hfirst), List.append_nil]
      · rw [if_neg hname, if_neg hname, List.nil_append]

/-- A table holds these principals under the names, and has no other names. -/
structure Holds (table : PrincipalTable) (under : String → List String) : Prop where
  find_eq : ∀ name, find name table = under name
  nodup : table.keys.Nodup
  mem_keys_iff : ∀ name, name ∈ table.keys ↔ under name ≠ []

theorem holds_nil : Holds [] fun _ => [] where
  find_eq name := rfl
  nodup := List.nodup_nil
  mem_keys_iff name := by simp [keys]

theorem Holds.append (h : table.Holds under) (key : String) (hmore : more ≠ []) :
    (PrincipalTable.append key more table).Holds fun name =>
      under name ++ if key = name then more else [] where
  find_eq name := by rw [find_append, h.find_eq]
  nodup := nodup_keys_append h.nodup
  mem_keys_iff name := by
    rw [mem_keys_append, h.mem_keys_iff]
    by_cases hname : key = name
    · simp [hname, hmore]
    · simp [hname, Ne.symm hname]

theorem Holds.merge (h : table.Holds under) (hother : other.Holds others) :
    (PrincipalTable.merge table other).Holds fun name => under name ++ others name where
  find_eq name := by rw [find_merge, flatMap_eq_find hother.nodup, h.find_eq, hother.find_eq]
  nodup := nodup_keys_merge h.nodup
  mem_keys_iff name := by
    rw [mem_keys_merge, h.mem_keys_iff, hother.mem_keys_iff, ne_eq, ne_eq, ne_eq,
      List.append_eq_nil_iff, Decidable.not_and_iff_not_or_not]

/-- A principal that is added under several names is under each as often as the name occurs. -/
theorem Holds.addAll (h : table.Holds under) (principal : String) (names : List String) :
    (names.foldl (fun table name => PrincipalTable.append name [principal] table) table).Holds
      fun name => under name ++ List.replicate (names.count name) principal := by
  induction names generalizing table under with
  | nil => simpa using h
  | cons first rest ih =>
      have hrest := ih (h.append first (List.cons_ne_nil principal []))
      have hunder : ∀ name, (under name ++ if first = name then [principal] else []) ++
          List.replicate (rest.count name) principal =
            under name ++ List.replicate ((first :: rest).count name) principal := by
        intro name
        rw [List.append_assoc, List.count_cons]
        by_cases hname : first = name
        · simp [hname, List.replicate_succ]
        · simp [hname]
      rwa [funext hunder] at hrest

end PrincipalTable

/-! ### Rows -/

namespace MappingRow

variable {row : MappingRow} {rows more : List MappingRow} {name : String}

/-- The principals of the rows that have a username. -/
def withUsername (rows : List MappingRow) (name : String) : List String :=
  (rows.filter fun row => row.effectiveUsername = name).map MappingRow.principal

/-- The principals of the rows that name a group, once for each time; the empty group does not
count. -/
def inGroup (rows : List MappingRow) (name : String) : List String :=
  rows.flatMap fun row => List.replicate ((row.groups.filter (· ≠ "")).count name) row.principal

theorem withUsername_append :
    withUsername (rows ++ more) name = withUsername rows name ++ withUsername more name := by
  unfold withUsername
  rw [List.filter_append, List.map_append]

theorem withUsername_singleton : withUsername [row] name =
    if row.effectiveUsername = name then [row.principal] else [] := by
  by_cases hname : row.effectiveUsername = name
  · simp [withUsername, hname]
  · simp [withUsername, hname]

theorem inGroup_singleton : inGroup [row] name =
    List.replicate ((row.groups.filter (· ≠ "")).count name) row.principal :=
  List.append_nil _

theorem inGroup_append : inGroup (rows ++ more) name = inGroup rows name ++ inGroup more name :=
  List.flatMap_append

end MappingRow

namespace Mappings

open MappingRow (withUsername inGroup)

variable {m other : Mappings} {row : MappingRow} {rows more : List MappingRow}

/-- The mappings are those of some rows. -/
structure Exact (m : Mappings) (rows : List MappingRow) : Prop where
  users : m.users.Holds (withUsername rows)
  groups : m.groups.Holds (inGroup rows)

theorem exact_empty : empty.Exact [] where
  users := PrincipalTable.holds_nil
  groups := PrincipalTable.holds_nil

theorem Exact.record (h : m.Exact rows) (row : MappingRow) :
    (m.record row).Exact (rows ++ [row]) where
  users := by
    have happend := h.users.append row.effectiveUsername (List.cons_ne_nil row.principal [])
    have hunder : ∀ name, withUsername (rows ++ [row]) name = withUsername rows name ++
        if row.effectiveUsername = name then [row.principal] else [] := by
      intro name
      rw [MappingRow.withUsername_append, MappingRow.withUsername_singleton]
    rw [funext hunder]
    unfold Mappings.record
    rwa [MappingRow.effectiveUsername_eq]
  groups := by
    have hadd := h.groups.addAll row.principal (row.groups.filter (· ≠ ""))
    have hunder : ∀ name, inGroup (rows ++ [row]) name = inGroup rows name ++
        List.replicate ((row.groups.filter (· ≠ "")).count name) row.principal := by
      intro name
      rw [MappingRow.inGroup_append, MappingRow.inGroup_singleton]
    rwa [funext hunder]

/-- The mappings of rows are exactly theirs. -/
theorem exact_ofRows (rows : List MappingRow) : (ofRows rows).Exact rows := by
  have hfold : ∀ (m : Mappings) (seen : List MappingRow), m.Exact seen →
      (rows.foldl Mappings.record m).Exact (seen ++ rows) := by
    induction rows with
    | nil =>
        intro m seen h
        rwa [List.append_nil]
    | cons row rest ih =>
        intro m seen h
        have hrest := ih _ _ (h.record row)
        rwa [List.append_assoc] at hrest
  exact hfold empty [] exact_empty

/-- When mappings are merged, the rows of the second come after those of the first. -/
theorem Exact.merge (h : m.Exact rows) (hother : other.Exact more) :
    (m.merge other).Exact (rows ++ more) where
  users := by
    have hmerge := h.users.merge hother.users
    rwa [← funext fun name => MappingRow.withUsername_append] at hmerge
  groups := by
    have hmerge := h.groups.merge hother.groups
    rwa [← funext fun name => MappingRow.inGroup_append] at hmerge

end Mappings

end ClusterAccess
