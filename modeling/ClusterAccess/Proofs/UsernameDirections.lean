/-
One rule for usernames, in both directions.

A row without a username maps its principal to itself.  This rule is applied twice: to the first
row that names a principal, when somebody asks for its username, and to every row, when the table
of all usernames is put together.  Both are read off the same rows, so what the one says the other
lists, and nothing is listed that no row says (`findUsername?_agrees_with_mappings`).  A principal
may be listed under more usernames than the one it is found under, because later rows count for the
table as well.
-/
import ClusterAccess.Proofs.ExactMappings
import ClusterAccess.Proofs.SelfMappings

namespace ClusterAccess

/-! ### The lists of a table -/

namespace PrincipalTable

variable {table : PrincipalTable} {name principal : String}

/-- The principal stands in a list of the table, under this name. -/
def Lists (table : PrincipalTable) (name principal : String) : Prop :=
  ∃ principals, (name, principals) ∈ table ∧ principal ∈ principals

/-- Where no name comes twice, the list under a name is the one that is found. -/
theorem find_of_mem {principals : List String} (h : table.keys.Nodup)
    (hmem : (name, principals) ∈ table) : find name table = principals := by
  induction table with
  | nil => cases hmem
  | cons entry rest ih =>
      obtain ⟨hfirst, hrest⟩ := List.nodup_cons.1 h
      obtain ⟨key, others⟩ := entry
      rw [find]
      rcases List.mem_cons.1 hmem with heq | hmem
      · obtain ⟨rfl, rfl⟩ := Prod.mk.inj heq
        rw [if_pos rfl]
      · have hne : key ≠ name := by
          rintro rfl
          exact hfirst (List.mem_map.2 ⟨_, hmem, rfl⟩)
        rw [if_neg hne, ih hrest hmem]

theorem mem_of_find_ne_nil (h : find name table ≠ []) : (name, find name table) ∈ table := by
  induction table with
  | nil => exact absurd rfl h
  | cons entry rest ih =>
      obtain ⟨key, others⟩ := entry
      rw [find] at h ⊢
      split
      next hkey => rw [hkey]; exact List.mem_cons_self
      next hkey =>
        rw [if_neg hkey] at h
        exact List.mem_cons_of_mem _ (ih h)

theorem lists_iff_mem_find (h : table.keys.Nodup) :
    table.Lists name principal ↔ principal ∈ find name table := by
  refine ⟨?_, ?_⟩
  · intro hlists
    obtain ⟨principals, hmem, hprincipal⟩ := hlists
    rwa [find_of_mem h hmem]
  · intro hprincipal
    exact ⟨find name table, mem_of_find_ne_nil (List.ne_nil_of_mem hprincipal), hprincipal⟩

end PrincipalTable

/-! ### The table of usernames -/

/-- A row is recorded under the username that it is taken to have. -/
theorem Mappings.users_record (m : Mappings) (row : MappingRow) :
    (m.record row).users = m.users.append row.effectiveUsername [row.principal] := by
  rw [← MappingRow.effectiveUsername_eq]
  rfl

namespace AwsAuth

variable {document : AwsAuth} {principal username : String}

theorem nodup_users (document : AwsAuth) : document.mappings.users.keys.Nodup :=
  (Mappings.exact_ofRows document.rows).users.nodup

theorem lists_users_iff : document.mappings.users.Lists username principal ↔
    ∃ row ∈ document.rows, row.principal = principal ∧ row.effectiveUsername = username := by
  rw [PrincipalTable.lists_iff_mem_find document.nodup_users]
  exact mem_forUsername_iff

/-- A list of the table is that of the rows with its username, and there is one for each username
that rows have. -/
theorem mem_users_iff {principals : List String} :
    (username, principals) ∈ document.mappings.users ↔
      principals = MappingRow.withUsername document.rows username ∧ principals ≠ [] := by
  have hholds := (Mappings.exact_ofRows document.rows).users
  have hfind : PrincipalTable.find username document.mappings.users =
      MappingRow.withUsername document.rows username := hholds.find_eq username
  refine ⟨?_, ?_⟩
  · intro hmem
    rw [← hfind, PrincipalTable.find_of_mem document.nodup_users hmem]
    refine ⟨rfl, ?_⟩
    rw [← PrincipalTable.find_of_mem document.nodup_users hmem, hfind]
    exact (hholds.mem_keys_iff username).1 (List.mem_map_of_mem hmem)
  · intro h
    obtain ⟨rfl, hne⟩ := h
    rw [← hfind] at hne ⊢
    exact PrincipalTable.mem_of_find_ne_nil hne

theorem exists_findUsername?_iff : (∃ username, document.findUsername? principal = some username) ↔
    ∃ row ∈ document.rows, row.principal = principal := by
  rw [← Option.ne_none_iff_exists', ne_eq, findUsername?_eq_none_iff]
  push Not
  rfl

/--
**A principal has a username exactly when it is listed, and it is listed under the one it has.**
Under a username are listed the principals of the rows that have it, in their order, because a row
is recorded under the username that would be found for it.
-/
theorem findUsername?_agrees_with_mappings (document : AwsAuth) :
    (∀ principal, (∃ username, document.findUsername? principal = some username) ↔
      ∃ username, document.mappings.users.Lists username principal) ∧
    (∀ principal username, document.findUsername? principal = some username →
      document.mappings.users.Lists username principal) ∧
    (∀ principal username, document.mappings.users.Lists username principal ↔
      ∃ row ∈ document.rows, row.principal = principal ∧ row.effectiveUsername = username) ∧
    (∀ username principals, (username, principals) ∈ document.mappings.users ↔
      principals = MappingRow.withUsername document.rows username ∧ principals ≠ []) ∧
    ∀ (m : Mappings) (row : MappingRow),
      (m.record row).users = m.users.append row.effectiveUsername [row.principal] := by
  refine ⟨?_, ?_, fun _ _ => lists_users_iff, fun _ _ => mem_users_iff, Mappings.users_record⟩
  · intro principal
    simp only [exists_findUsername?_iff, lists_users_iff]
    refine ⟨?_, ?_⟩
    · intro h
      obtain ⟨row, hrow, hprincipal⟩ := h
      exact ⟨row.effectiveUsername, row, hrow, hprincipal, rfl⟩
    · intro h
      obtain ⟨-, row, hrow, hprincipal, -⟩ := h
      exact ⟨row, hrow, hprincipal⟩
  · intro principal username h
    exact lists_users_iff.2 (mem_forUsername_iff.1 (mem_forUsername_of_find h))

end AwsAuth

end ClusterAccess
