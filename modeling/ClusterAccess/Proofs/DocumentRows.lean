/-
Which rows a mapping document has.

The two lists of the document are YAML, and much in them need not be a row.  What is one is told
here as a relation: a mapping whose keys are texts, with one text for the ARN, with a username that
is a text or missing, and with groups that are a list of texts or missing (`IsRow`).  What is not
one is passed over by itself, and so is a row without an ARN (`HasRows`).  A list that is absent,
blank or no YAML has no rows.

The reader finds exactly these rows, those of the users before those of the roles, and in each of
the two in the order of the text (`hasRows_iff`).
-/
import ClusterAccess.AwsAuth
import ClusterAccess.Proofs.Gathering

namespace ClusterAccess.AwsAuth

/-! ### Fields -/

/-- The value is a text, whatever its tags. -/
def IsText (value : Yaml) (text : String) : Prop :=
  value.untagged = .string text

/-- A mapping has a field once, or does not have it. -/
inductive Field (name : String) : List (Yaml × Yaml) → Option Yaml → Prop
  | nil : Field name [] none
  | here {key value : Yaml} {rest : List (Yaml × Yaml)} (hkey : IsText key name)
      (hrest : Field name rest none) : Field name ((key, value) :: rest) (some value)
  | behind {key value : Yaml} {rest : List (Yaml × Yaml)} {found : Option Yaml}
      (hkey : ¬IsText key name) (hrest : Field name rest found) :
      Field name ((key, value) :: rest) found

/-- What a row says about its username. -/
inductive SaysUsername : Option Yaml → Option String → Prop
  | absent : SaysUsername none none
  | null : SaysUsername (some .null) none
  | text {value : Yaml} {text : String} (h : IsText value text) :
      SaysUsername (some value) (some text)

/-- What a row says about its groups. -/
inductive SaysGroups : Option Yaml → List String → Prop
  | absent : SaysGroups none []
  | null {value : Yaml} (h : value.untagged = .null) : SaysGroups (some value) []
  | listed {value : Yaml} {items : List Yaml} {groups : List String}
      (h : value.untagged = .sequence items) (hitems : List.Forall₂ IsText items groups) :
      SaysGroups (some value) groups

/-- The entries of a mapping say a row. -/
structure Says (arnField : String) (entries : List (Yaml × Yaml)) (row : MappingRow) : Prop where
  keys : ∀ entry ∈ entries, ∃ key, IsText entry.1 key
  principal : ∃ value, Field arnField entries (some value) ∧ IsText value row.principal
  username : ∃ found, Field "username" entries found ∧ SaysUsername found row.username
  groups : ∃ found, Field "groups" entries found ∧ SaysGroups found row.groups

/-- A value is a row if it is a mapping that says one, whatever its tags. -/
def IsRow (arnField : String) (value : Yaml) (row : MappingRow) : Prop :=
  ∃ entries, value.untagged = .mapping entries ∧ Says arnField entries row

/-! ### Lists -/

/-- The rows among some values, in their order. -/
inductive RowsAmong (arnField : String) : List Yaml → List MappingRow → Prop
  | nil : RowsAmong arnField [] []
  | row {value : Yaml} {values : List Yaml} {row : MappingRow} {rows : List MappingRow}
      (h : IsRow arnField value row) (hne : row.principal ≠ "")
      (hrest : RowsAmong arnField values rows) : RowsAmong arnField (value :: values) (row :: rows)
  /-- A row without an ARN maps nobody. -/
  | unnamed {value : Yaml} {values : List Yaml} {row : MappingRow} {rows : List MappingRow}
      (h : IsRow arnField value row) (hempty : row.principal = "")
      (hrest : RowsAmong arnField values rows) : RowsAmong arnField (value :: values) rows
  | other {value : Yaml} {values : List Yaml} {rows : List MappingRow}
      (h : ∀ row, ¬IsRow arnField value row) (hrest : RowsAmong arnField values rows) :
      RowsAmong arnField (value :: values) rows

/-- The rows of a list of the document. -/
inductive ListHasRows (data : List (String × String)) (key arnField : String) :
    List MappingRow → Prop
  | absent (h : data.lookup key = none) : ListHasRows data key arnField []
  | blank {raw : String} (h : data.lookup key = some raw)
      (hblank : ∀ c ∈ raw.toList, Text.isBlank c = true) : ListHasRows data key arnField []
  | malformed {raw : String} (h : data.lookup key = some raw)
      (hblank : ¬∀ c ∈ raw.toList, Text.isBlank c = true) (hparse : Yaml.parseList? raw = none) :
      ListHasRows data key arnField []
  | parsed {raw : String} {values : List Yaml} {rows : List MappingRow}
      (h : data.lookup key = some raw) (hblank : ¬∀ c ∈ raw.toList, Text.isBlank c = true)
      (hparse : Yaml.parseList? raw = some values) (hrows : RowsAmong arnField values rows) :
      ListHasRows data key arnField rows

/-- The rows of a document: those of its users, and then those of its roles. -/
def HasRows (document : AwsAuth) (rows : List MappingRow) : Prop :=
  ∃ users roles, ListHasRows document.data "mapUsers" "userarn" users ∧
    ListHasRows document.data "mapRoles" "rolearn" roles ∧ rows = users ++ roles

/-! ### The reader -/

variable {document : AwsAuth} {part : Section} {name : String} {value : Yaml}
  {entries : List (Yaml × Yaml)} {fields : List (String × Yaml)} {found : Option Yaml}
  {values : List Yaml} {row : MappingRow} {rows : List MappingRow}

theorem textOf?_iff (value : Yaml) (text : String) :
    textOf? value = some text ↔ IsText value text := by
  unfold textOf? IsText
  cases value.untagged <;> simp

theorem IsText.inj {text other : String} (h : IsText value text) (hother : IsText value other) :
    text = other :=
  Yaml.string.inj (h.symm.trans hother)

/-- The fields that are read are the entries under their texts. -/
def Named (entry : Yaml × Yaml) (field : String × Yaml) : Prop :=
  IsText entry.1 field.1 ∧ field.2 = entry.2

theorem fieldsOf?_iff : fieldsOf? value = some fields ↔
    ∃ entries, value.untagged = .mapping entries ∧ List.Forall₂ Named entries fields := by
  have hentry : ∀ (entry : Yaml × Yaml) (field : String × Yaml),
      ((textOf? entry.1).map fun key => (key, entry.2)) = some field ↔ Named entry field := by
    intro entry field
    obtain ⟨key, stored⟩ := field
    rw [Option.map_eq_some_iff]
    simp only [textOf?_iff, Prod.mk.injEq, Named]
    refine ⟨?_, ?_⟩
    · intro h
      obtain ⟨text, htext, rfl, rfl⟩ := h
      exact ⟨htext, rfl⟩
    · intro h
      exact ⟨key, h.1, rfl, h.2.symm⟩
  unfold fieldsOf?
  cases value.untagged with
  | mapping entries => simp [mapM_eq_some_iff hentry]
  | _ => simp

theorem soleValue_cons_of_ne {field : String × Yaml} (h : field.1 ≠ name) :
    soleValue name (field :: fields) = soleValue name fields := by
  unfold soleValue
  rw [List.filter_cons_of_neg (by simpa using h)]

/-- A field is found once only if it is not found again. -/
theorem soleValue_cons_self {field : String × Yaml} (h : field.1 = name) :
    soleValue name (field :: fields) = some found ↔
      soleValue name fields = some none ∧ found = some field.2 := by
  unfold soleValue
  rw [List.filter_cons_of_pos (by simpa using h)]
  cases fields.filter fun field => field.1 = name with
  | nil => simp [eq_comm]
  | cons again more => cases more <;> simp

theorem soleValue_iff (h : List.Forall₂ Named entries fields) :
    soleValue name fields = some found ↔ Field name entries found := by
  induction h generalizing found with
  | nil =>
      show some none = some found ↔ _
      refine ⟨?_, ?_⟩
      · intro hfound
        cases hfound
        exact .nil
      · intro hfound
        cases hfound
        rfl
  | @cons entry field entries fields hnamed _ ih =>
      obtain ⟨key, stored⟩ := entry
      obtain ⟨hkey, hstored⟩ := hnamed
      by_cases hname : field.1 = name
      · have hsought : IsText key name := hname ▸ hkey
        rw [soleValue_cons_self hname, ih, hstored]
        refine ⟨?_, ?_⟩
        · intro hfound
          obtain ⟨hrest, rfl⟩ := hfound
          exact .here hsought hrest
        · intro hfound
          cases hfound with
          | here _ hrest => exact ⟨hrest, rfl⟩
          | behind hother _ => exact absurd hsought hother
      · have hother : ¬IsText key name := fun h => hname (hkey.inj h)
        rw [soleValue_cons_of_ne hname, ih]
        refine ⟨.behind hother, ?_⟩
        intro hfound
        cases hfound with
        | here hsought _ => exact absurd hsought hother
        | behind _ hrest => exact hrest

theorem usernameOf?_iff {username : Option String} :
    usernameOf? found = some username ↔ SaysUsername found username := by
  refine ⟨?_, ?_⟩
  · intro h
    unfold usernameOf? at h
    split at h
    · cases h
      exact .absent
    · cases h
      exact .null
    · obtain ⟨text, htext, rfl⟩ := Option.map_eq_some_iff.1 h
      exact .text ((textOf?_iff _ _).1 htext)
  · intro h
    cases h with
    | absent => rfl
    | null => rfl
    | @text value text h =>
        have htext := (textOf?_iff _ _).2 h
        cases value with
        | null => cases htext
        | _ => exact Option.map_eq_some_iff.2 ⟨text, htext, rfl⟩

theorem groupsOf?_iff {groups : List String} :
    groupsOf? found = some groups ↔ SaysGroups found groups := by
  refine ⟨?_, ?_⟩
  · intro h
    unfold groupsOf? at h
    split at h
    · cases h
      exact .absent
    · split at h
      · cases h
        exact .null ‹_›
      · exact .listed ‹_› ((mapM_eq_some_iff textOf?_iff).1 h)
      · cases h
  · intro h
    cases h with
    | absent => rfl
    | null h =>
        unfold groupsOf?
        simp only [h]
    | listed h hitems =>
        unfold groupsOf?
        simp only [h]
        exact (mapM_eq_some_iff textOf?_iff).2 hitems

/-- The keys of a mapping are read if they are all texts. -/
theorem exists_named_iff : (∃ fields, List.Forall₂ Named entries fields) ↔
    ∀ entry ∈ entries, ∃ key, IsText entry.1 key := by
  induction entries with
  | nil => simp
  | cons entry rest ih =>
      rw [List.forall_mem_cons, ← ih]
      refine ⟨?_, ?_⟩
      · intro h
        obtain ⟨fields, h⟩ := h
        cases h with
        | cons hfirst hrest => exact ⟨⟨_, hfirst.1⟩, _, hrest⟩
      · intro h
        obtain ⟨⟨key, hkey⟩, fields, hrest⟩ := h
        exact ⟨(key, entry.2) :: fields, .cons ⟨hkey, rfl⟩ hrest⟩

theorem rowOf?_eq_some_iff : rowOf? part value = some row ↔ IsRow part.arnField value row := by
  unfold rowOf?
  simp only [Option.bind_eq_bind, Option.bind_eq_some_iff, textOf?_iff, usernameOf?_iff,
    groupsOf?_iff, Option.some.injEq]
  refine ⟨?_, ?_⟩
  · intro h
    obtain ⟨fields, hfields, arn, harn, username, husername, groups, hgroups, text,
      ⟨value', rfl, htext⟩, name, hname, names, hnames, rfl⟩ := h
    obtain ⟨entries, hmapping, hnamed⟩ := fieldsOf?_iff.1 hfields
    rw [soleValue_iff hnamed] at harn husername hgroups
    exact ⟨entries, hmapping, exists_named_iff.1 ⟨fields, hnamed⟩, ⟨value', harn, htext⟩,
      ⟨username, husername, hname⟩, groups, hgroups, hnames⟩
  · intro h
    obtain ⟨entries, hmapping, hkeys, ⟨arn, harn, htext⟩, ⟨username, husername, hname⟩, groups,
      hgroups, hnames⟩ := h
    obtain ⟨fields, hnamed⟩ := exists_named_iff.2 hkeys
    rw [← soleValue_iff hnamed] at harn husername hgroups
    exact ⟨fields, fieldsOf?_iff.2 ⟨entries, hmapping, hnamed⟩, some arn, harn, username,
      husername, groups, hgroups, row.principal, ⟨arn, rfl, htext⟩, row.username, hname,
      row.groups, hnames, rfl⟩

/-- The rows that are read of a list are those among its values. -/
theorem rowsAmong_iff : RowsAmong part.arnField values rows ↔
    rows = (values.filterMap (rowOf? part)).filter fun row => row.principal ≠ "" := by
  induction values generalizing rows with
  | nil =>
      refine ⟨?_, ?_⟩
      · intro h
        cases h
        rfl
      · rintro rfl
        exact .nil
  | cons value values ih =>
      cases hread : rowOf? part value with
      | none =>
          have hother : ∀ row, ¬IsRow part.arnField value row := by
            intro row hrow
            rw [rowOf?_eq_some_iff.2 hrow] at hread
            cases hread
          rw [List.filterMap_cons_none hread, ← ih]
          refine ⟨?_, .other hother⟩
          intro h
          cases h with
          | row hrow _ _ => exact absurd hrow (hother _)
          | unnamed hrow _ _ => exact absurd hrow (hother _)
          | other _ hrest => exact hrest
      | some row =>
          have hrow := rowOf?_eq_some_iff.1 hread
          have hsame : ∀ row', IsRow part.arnField value row' → row' = row := by
            intro row' hrow'
            rw [rowOf?_eq_some_iff.2 hrow'] at hread
            exact Option.some.inj hread
          rw [List.filterMap_cons_some hread]
          by_cases hempty : row.principal = ""
          · rw [List.filter_cons_of_neg (by simpa using hempty), ← ih]
            refine ⟨?_, .unnamed hrow hempty⟩
            intro h
            cases h with
            | row hrow' hne _ => exact absurd (hsame _ hrow' ▸ hempty) hne
            | unnamed _ _ hrest => exact hrest
            | other hother _ => exact absurd hrow (hother row)
          · rw [List.filter_cons_of_pos (by simpa using hempty)]
            refine ⟨?_, ?_⟩
            · intro h
              cases h with
              | row hrow' _ hrest => rw [hsame _ hrow', ih.1 hrest]
              | unnamed hrow' hempty' _ => exact absurd (hsame _ hrow' ▸ hempty') hempty
              | other hother _ => exact absurd hrow (hother row)
            · rintro rfl
              exact .row hrow hempty (ih.2 rfl)

theorem allBlank_iff {raw : String} :
    Text.allBlank raw = true ↔ ∀ c ∈ raw.toList, Text.isBlank c = true :=
  List.all_eq_true

theorem listHasRows_rowsOf (document : AwsAuth) (part : Section) :
    ListHasRows document.data part.key part.arnField (document.rowsOf part) := by
  unfold rowsOf AwsAuth.values
  cases hdata : document.data.lookup part.key with
  | none => exact .absent hdata
  | some raw =>
      by_cases hblank : Text.allBlank raw = true
      · simp only [if_pos hblank]
        exact .blank hdata (allBlank_iff.1 hblank)
      · simp only [if_neg hblank]
        rw [allBlank_iff] at hblank
        cases hparse : Yaml.parseList? raw with
        | none => exact .malformed hdata hblank hparse
        | some values => exact .parsed hdata hblank hparse (rowsAmong_iff.2 rfl)

/-- A list has no other rows than those that are read. -/
theorem ListHasRows.eq_rowsOf (h : ListHasRows document.data part.key part.arnField rows) :
    rows = document.rowsOf part := by
  unfold rowsOf AwsAuth.values
  cases h with
  | absent h => simp only [h]; rfl
  | blank h hblank => simp only [h, if_pos (allBlank_iff.2 hblank)]; rfl
  | malformed h hblank hparse =>
      rw [← allBlank_iff] at hblank
      simp only [h, if_neg hblank, hparse]
  | parsed h hblank hparse hrows =>
      rw [← allBlank_iff] at hblank
      simp only [h, if_neg hblank, hparse]
      exact rowsAmong_iff.1 hrows

/-- **The reader finds exactly the rows that the document has.** -/
theorem hasRows_iff : document.HasRows rows ↔ rows = document.rows := by
  have husers := listHasRows_rowsOf document .users
  have hroles := listHasRows_rowsOf document .roles
  refine ⟨?_, ?_⟩
  · intro h
    obtain ⟨users, roles, h, h', rfl⟩ := h
    have hparts : users = document.rowsOf .users ∧ roles = document.rowsOf .roles :=
      ⟨ListHasRows.eq_rowsOf h, ListHasRows.eq_rowsOf h'⟩
    rw [hparts.1, hparts.2]
    rfl
  · rintro rfl
    exact ⟨_, _, husers, hroles, rfl⟩

end ClusterAccess.AwsAuth
