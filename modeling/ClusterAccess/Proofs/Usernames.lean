/-
From principals to usernames, and back.

The mapping document is read in two directions.  A request asks for the username of a
principal, which is that of the first row that names it.  A listing asks who is behind a
username, and gets the principals of all the rows that have it.  The first direction is
sound for the second: whoever has a username is behind it (`mem_forUsername_of_find`).

A principal without a row gets one of its own.  The list of its section is written anew, and
what the document says then depends on the text being read back as it was meant, which is
the business of the YAML library and is assumed where it is used (`ReadsBack`).
-/
import Mathlib
import ClusterAccess.Directory
import ClusterAccess.Proofs.YamlText

namespace ClusterAccess

/-! ### Tables -/

namespace PrincipalTable

variable {table other : PrincipalTable} {key name : String} {more : List String}

theorem find_append : find name (append key more table) =
    find name table ++ if key = name then more else [] := by
  induction table with
  | nil =>
      by_cases hkey : key = name
      · simp [append, find, hkey]
      · simp [append, find, hkey]
  | cons entry rest ih =>
      obtain ⟨first, principals⟩ := entry
      unfold append
      by_cases hfirst : first = key
      · subst hfirst
        by_cases hname : first = name
        · simp [find, hname]
        · simp [find, hname]
      · rw [if_neg hfirst]
        by_cases hname : first = name
        · have hkey : ¬key = name := fun h => hfirst (hname.trans h.symm)
          simp [find, hname, hkey]
        · simp only [find, if_neg hname]
          exact ih

/-- What is under a name stays there, and what another table has under it comes after. -/
theorem find_merge : find name (merge table other) =
    find name table ++ other.flatMap fun entry => if entry.1 = name then entry.2 else [] := by
  unfold merge
  induction other generalizing table with
  | nil => simp
  | cons entry rest ih =>
      rw [List.foldl_cons, ih, find_append, List.flatMap_cons, List.append_assoc]

end PrincipalTable

/-! ### Rows -/

theorem MappingRow.effectiveUsername_eq (row : MappingRow) :
    (row.username.filter (· ≠ "")).getD row.principal = row.effectiveUsername := by
  unfold effectiveUsername
  cases row.username with
  | none => rfl
  | some username =>
      by_cases hempty : username = ""
      · simp [hempty, Option.filter]
      · simp [hempty, Option.filter]

namespace Mappings

variable {m other : Mappings} {row : MappingRow} {rows : List MappingRow} {name : String}

theorem forUsername_record : (m.record row).forUsername name =
    m.forUsername name ++ if row.effectiveUsername = name then [row.principal] else [] := by
  unfold forUsername record
  rw [MappingRow.effectiveUsername_eq]
  exact PrincipalTable.find_append

/-- Behind a username are the principals of the rows that have it, in their order. -/
theorem forUsername_ofRows : (ofRows rows).forUsername name =
    (rows.filter fun row => row.effectiveUsername = name).map MappingRow.principal := by
  have hfold : ∀ (m : Mappings), (rows.foldl record m).forUsername name = m.forUsername name ++
      (rows.filter fun row => row.effectiveUsername = name).map MappingRow.principal := by
    induction rows with
    | nil => simp
    | cons row rest ih =>
        intro m
        rw [List.foldl_cons, ih, forUsername_record, List.append_assoc]
        by_cases hname : row.effectiveUsername = name
        · simp [hname]
        · simp [hname]
  exact hfold empty

/-- Whoever is behind a username stays so when more mappings are added. -/
theorem mem_forUsername_merge {principal : String} (h : principal ∈ m.forUsername name) :
    principal ∈ (m.merge other).forUsername name := by
  unfold forUsername merge at *
  rw [PrincipalTable.find_merge]
  exact List.mem_append_left _ h

end Mappings

namespace AwsAuth

variable {document changed : AwsAuth} {part : Section} {principal username : String}

/-! ### The document -/

theorem mem_forUsername_iff : principal ∈ document.mappings.forUsername username ↔
    ∃ row ∈ document.rows, row.principal = principal ∧ row.effectiveUsername = username := by
  unfold mappings
  rw [Mappings.forUsername_ofRows, List.mem_map]
  refine ⟨?_, ?_⟩
  · intro h
    obtain ⟨row, hrow, hprincipal⟩ := h
    obtain ⟨hmem, hname⟩ := List.mem_filter.1 hrow
    exact ⟨row, hmem, hprincipal, of_decide_eq_true hname⟩
  · intro h
    obtain ⟨row, hmem, hprincipal, hname⟩ := h
    exact ⟨row, List.mem_filter.2 ⟨hmem, decide_eq_true hname⟩, hprincipal⟩

/-- Whoever has a username is behind it. -/
theorem mem_forUsername_of_find (h : document.findUsername? principal = some username) :
    principal ∈ document.mappings.forUsername username := by
  obtain ⟨row, hfind, hname⟩ := Option.map_eq_some_iff.1 h
  have hprincipal : row.principal = principal := by simpa using List.find?_some hfind
  exact mem_forUsername_iff.2 ⟨row, List.mem_of_find?_eq_some hfind, hprincipal, hname⟩

/-! ### A row of one's own -/

theorem lookup_setText (key text other : String) (data : List (String × String)) :
    (setText key text data).lookup other =
      if other = key then some text else data.lookup other := by
  induction data with
  | nil =>
      by_cases hother : other = key
      · simp [setText, hother]
      · have hne : (other == key) = false := by simpa using hother
        simp [setText, List.lookup, hother, hne]
  | cons entry rest ih =>
      obtain ⟨first, old⟩ := entry
      unfold setText
      by_cases hfirst : first = key
      · subst hfirst
        by_cases hother : other = first
        · simp [hother]
        · have hne : (other == first) = false := by simpa using hother
          simp [List.lookup, hother, hne]
      · rw [if_neg hfirst]
        by_cases hother : other = first
        · subst hother
          simp [List.lookup, hfirst]
        · have hne : (other == first) = false := by simpa using hother
          simp only [List.lookup, hne]
          exact ih

/-- The YAML library reads the list of a section back when a row of the principal's own has been
added to it. -/
def ReadsBack (document : AwsAuth) (principal : String) : Prop :=
  ∀ part values, Section.ofPrincipal? principal = some part → document.values part = .ok values →
    Yaml.parseList? (Yaml.renderList (values ++ [selfRow part principal])) =
      some (values ++ [selfRow part principal])

theorem rowOf?_selfRow (part : Section) (principal : String) :
    rowOf? part (selfRow part principal) = some ⟨principal, some principal, []⟩ := by
  cases part <;> rfl

/-- The document with a section that holds some values and a row of the principal's own. -/
def withSelf (document : AwsAuth) (part : Section) (values : List Yaml) (principal : String) :
    AwsAuth :=
  let text := Yaml.renderList (values ++ [selfRow part principal])
  { document with data := setText part.key text document.data }

theorem appendSelf_eq_ok_iff : document.appendSelf principal = .ok changed ↔
    ∃ part values, Section.ofPrincipal? principal = some part ∧
      document.values part = .ok values ∧ changed = document.withSelf part values principal := by
  unfold appendSelf withSelf
  cases hpart : Section.ofPrincipal? principal with
  | none => simp
  | some part =>
      cases hvalues : document.values part with
      | error fault => simp [bind, Except.bind, hvalues]
      | ok values => simp [bind, Except.bind, hvalues, eq_comm]

/-- The section that was written holds the values it had and the row of the principal. -/
theorem values_withSelf {values : List Yaml}
    (h : Yaml.parseList? (Yaml.renderList (values ++ [selfRow part principal])) =
      some (values ++ [selfRow part principal])) :
    (document.withSelf part values principal).values part =
      .ok (values ++ [selfRow part principal]) := by
  have hne : values ++ [selfRow part principal] ≠ [] := by simp
  unfold AwsAuth.values withSelf
  simp only [lookup_setText, if_true, Yaml.not_allBlank_renderList hne, Bool.false_eq_true,
    if_false, h]

/-- Only users and roles have a section, and so a name. -/
theorem ne_empty_of_section (h : Section.ofPrincipal? principal = some part) : principal ≠ "" := by
  intro hempty
  rw [hempty] at h
  cases h

theorem mem_rows_of_mem_rowsOf {row : MappingRow} (h : row ∈ document.rowsOf part) :
    row ∈ document.rows := by
  unfold rows
  cases part with
  | users => exact List.mem_append_left _ h
  | roles => exact List.mem_append_right _ h

end AwsAuth

end ClusterAccess
