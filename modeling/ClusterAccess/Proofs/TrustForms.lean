/-
A value of a trust policy, or the list with this value alone.

A document that says something still says it after a text under `Action` or `AWS`, or the one
statement of the document, is put in a list (`Document.of_partListed`,
`Document.of_statementListed`).  The grammar has no order of readings, so only the place of the
value has to be followed: it stands in a record, under its name or at its place, and what the other
fields of the record say is not touched (`record?_rewritten`).

There is one limit to it.  The list is one more level of nesting, and a statement may hold values
that are nested as deep as can be read, in fields that nobody looks at.  A text is not nested at
all, so it can always be put in a list.
-/
import ClusterAccess.Proofs.TrustGrammar

namespace ClusterAccess.TrustPolicy

/-! ### One field of a record -/

/-- The record is the same but for one field, of this name or at this place. -/
inductive Rewritten (name : String) (place : Nat) (S : Json → Json → Prop) : Json → Json → Prop
  | named {before after : List (String × Json)} {old new : Json} (h : S old new) :
      Rewritten name place S (.object (before ++ (name, old) :: after))
        (.object (before ++ (name, new) :: after))
  | placed {before after : List Json} {old new : Json} (hplace : before.length = place)
      (h : S old new) :
      Rewritten name place S (.array (before ++ old :: after)) (.array (before ++ new :: after))

variable {name sought : String} {place depth : Nat} {S : Json → Json → Prop} {value other : Json}

theorem soleField_of_ne (hne : sought ≠ name) {before after : List (String × Json)}
    {old new : Json} : Json.soleField sought (before ++ (name, new) :: after) =
      Json.soleField sought (before ++ (name, old) :: after) := by
  have hskip : decide (name = sought) = false := decide_eq_false hne.symm
  unfold Json.soleField
  simp only [List.filter_append, List.filter_cons, hskip, Bool.false_eq_true, if_false]

theorem soleField_self (new : Json) {before after : List (String × Json)} {old : Json}
    {field : Option Json}
    (h : Json.soleField name (before ++ (name, old) :: after) = some field) :
    field = some old ∧ Json.soleField name (before ++ (name, new) :: after) = some (some new) := by
  unfold Json.soleField at h ⊢
  simp only [List.filter_append, List.filter_cons, decide_true, if_true] at h ⊢
  -- The name stands nowhere else.
  cases hbefore : before.filter (fun field => field.1 = name) with
  | nil =>
      cases hafter : after.filter (fun field => field.1 = name) with
      | nil =>
          rw [hbefore, hafter] at h
          cases h
          exact ⟨rfl, rfl⟩
      | cons second rest =>
          rw [hbefore, hafter] at h
          cases h
  | cons first rest =>
      rw [hbefore] at h
      cases rest <;> cases h

theorem fields_rewritten (new : Json) {before after : List (String × Json)} {old : Json}
    {names : List String} {fields : List (Option Json)} (hname : names[place]? = some name)
    (hnodup : names.Nodup)
    (h : List.Forall₂ (fun sought field =>
      Json.soleField sought (before ++ (name, old) :: after) = some field) names fields) :
    fields[place]? = some (some old) ∧
      List.Forall₂ (fun sought field =>
        Json.soleField sought (before ++ (name, new) :: after) = some field)
        names (fields.set place (some new)) := by
  induction h generalizing place with
  | nil => cases hname
  | @cons sought field names fields hfield hfields ih =>
      obtain ⟨hnew, hnodup⟩ := List.nodup_cons.1 hnodup
      cases place with
      | zero =>
          cases hname
          obtain ⟨rfl, hsole⟩ := soleField_self new hfield
          have hothers := (List.forall₂_and_left names fields).2
            ⟨fun sought hsought => ne_of_mem_of_not_mem hsought hnew, hfields⟩
          refine ⟨rfl, .cons hsole (hothers.imp ?_)⟩
          rintro sought field ⟨hne, hfield⟩
          exact (soleField_of_ne hne).trans hfield
      | succ place =>
          have hne : sought ≠ name := by
            rintro rfl
            exact hnew (List.mem_of_getElem? hname)
          obtain ⟨hold, hrest⟩ := ih hname hnodup
          exact ⟨hold, .cons ((soleField_of_ne hne).trans hfield) hrest⟩

/-- Reading the record, only what the one field holds is different. -/
theorem record?_rewritten {names : List String} {fields : List (Option Json)}
    (hname : names[place]? = some name) (hnodup : names.Nodup)
    (h : Rewritten name place S value other) (hrecord : value.record? names = some fields) :
    ∃ old new, S old new ∧ fields[place]? = some (some old) ∧
      other.record? names = some (fields.set place (some new)) := by
  cases h with
  | @named before after old new h =>
      have hfields := (mapM_eq_some_iff fun _ _ => Iff.rfl).1 hrecord
      obtain ⟨hold, hnew⟩ := fields_rewritten new hname hnodup hfields
      exact ⟨old, new, h, hold, (mapM_eq_some_iff fun _ _ => Iff.rfl).2 hnew⟩
  | @placed before after old new hplace h =>
      obtain ⟨hlength, rfl⟩ := Json.record?_array.1 hrecord
      refine ⟨old, new, h, ?_, Json.record?_array.2 ⟨?_, ?_⟩⟩
      · simp [← hplace]
      · simpa using hlength
      · simp [← hplace]

theorem Rewritten.array_of_array (h : Rewritten name place S value other) {items : List Json}
    (hother : other = .array items) : ∃ items, value = .array items := by
  cases h with
  | named h => cases hother
  | placed hplace h => exact ⟨_, rfl⟩

theorem Rewritten.isHoldable (h : Rewritten name place S value other)
    (hS : ∀ old new, S old new → old.isHoldable depth = true → new.isHoldable depth = true)
    (hvalue : value.isHoldable (depth + 1) = true) : other.isHoldable (depth + 1) = true := by
  cases h with
  | named h =>
      simp only [Json.isHoldable, Json.fieldsHoldable_append, Json.fieldsHoldable,
        Json.fieldHoldable, Bool.and_eq_true] at hvalue ⊢
      exact ⟨hvalue.1, hvalue.2.1, hS _ _ h hvalue.2.2.1, hvalue.2.2.2⟩
  | placed hplace h =>
      simp only [Json.isHoldable, Json.itemsHoldable_append, Json.itemsHoldable,
        Bool.and_eq_true] at hvalue ⊢
      exact ⟨hvalue.1, hvalue.2.1, hS _ _ h hvalue.2.2.1, hvalue.2.2.2⟩

/-! ### Putting a value in a list -/

variable {α : Type} {R : Json → α → Prop}

/-- A value that says something alone, and the list of it. -/
inductive Listed (R : Json → α → Prop) : Json → Json → Prop
  | intro {value : Json} {said : α} (h : R value said) : Listed R value (.array [value])

theorem OneOrMany.of_listed (hapart : Apart R) {said : List α} (hlist : Listed R value other)
    (h : OneOrMany R value said) : OneOrMany R other said := by
  cases hlist with
  | intro hone =>
      cases h with
      | alone h => exact .listed (.cons h .nil)
      | listed h => exact absurd h (hapart _ _ _ hone)

/-- A text under `Action` or `AWS` of the statement is put in a list. -/
inductive TextListed : Json → Json → Prop
  | action {value other : Json} (h : Rewritten "Action" 1 (Listed IsText) value other) :
      TextListed value other
  | accounts {value other : Json}
      (h : Rewritten "Principal" 2 (Rewritten "AWS" 0 (Listed IsText)) value other) :
      TextListed value other

/-- This happens to the one statement, or to one of a list of them. -/
inductive PartListed : Json → Json → Prop
  | sole {value other : Json} {said : Statement} (hmeans : Says value said)
      (h : TextListed value other) : PartListed value other
  | among {before after : List Json} {value other : Json} {many : List Statement}
      (hsay : List.Forall₂ Says (before ++ value :: after) many) (h : TextListed value other) :
      PartListed (.array (before ++ value :: after)) (.array (before ++ other :: after))

/-! ### What is said stays the same -/

theorem Whom.of_rewritten {principals : List String}
    (h : Rewritten "AWS" 0 (Listed IsText) value other) (hwhom : Whom value principals) :
    Whom other principals := by
  cases hwhom with
  | nobody => cases h
  | named hnames =>
      cases hnames with
      | text everyone => cases h
      | record hrecord hfield =>
          obtain ⟨old, new, hlist, hold, hnew⟩ := record?_rewritten rfl (by decide) h hrecord
          cases hold
          cases hfield with
          | present haccounts =>
              exact .named (.record hnew (.present (haccounts.of_listed apart_isText hlist)))

theorem Says.of_textListed {said : Statement} (h : TextListed value other)
    (hmeans : Says value said) : Says other said := by
  cases hmeans with
  | intro hrecord heffect hactions hprincipals hwhole =>
      cases h with
      | action h =>
          obtain ⟨old, new, hlist, hold, hnew⟩ := record?_rewritten rfl (by decide) h hrecord
          cases hold
          cases hactions with
          | present hactions =>
              refine .intro hnew heffect (.present (hactions.of_listed apart_isText hlist))
                hprincipals ?_
              intro _ hother
              obtain ⟨items, hvalue⟩ := h.array_of_array hother
              exact hwhole items hvalue
      | accounts h =>
          obtain ⟨old, new, hrewritten, hold, hnew⟩ :=
            record?_rewritten rfl (by decide) h hrecord
          cases hold
          cases hprincipals with
          | present hwhom =>
              exact .intro hnew heffect hactions (.present (hwhom.of_rewritten hrewritten))
                fun _ _ => Option.some_ne_none _

theorem say_of_textListed {before after : List Json} {many : List Statement}
    (h : TextListed value other) (hsay : List.Forall₂ Says (before ++ value :: after) many) :
    List.Forall₂ Says (before ++ other :: after) many := by
  induction before generalizing many with
  | nil =>
      cases hsay with
      | cons hfirst hrest => exact .cons (hfirst.of_textListed h) hrest
  | cons item before ih =>
      cases hsay with
      | cons hfirst hrest => exact .cons hfirst (ih hrest)

theorem OneOrMany.of_partListed {said : List Statement} (hpart : PartListed value other)
    (h : OneOrMany Says value said) : OneOrMany Says other said := by
  cases hpart with
  | sole hmeans hpart =>
      cases h with
      | alone h => exact .alone (h.of_textListed hpart)
      | listed h => exact absurd h (apart_statements _ _ _ hmeans)
  | among hsay hpart =>
      cases h with
      | alone h => exact absurd hsay (apart_statements _ _ _ h)
      | listed h => exact .listed (say_of_textListed hpart h)

/-! ### Nesting -/

theorem TextListed.isHoldable (h : TextListed value other)
    (hvalue : value.isHoldable (depth + 3) = true) : other.isHoldable (depth + 3) = true := by
  -- The new list is within two records at most, which count as levels already.
  have hlist : ∀ depth old new, Listed IsText old new → new.isHoldable (depth + 1) = true := by
    rintro depth old _ ⟨rfl⟩
    rfl
  cases h with
  | action h => exact h.isHoldable (fun _ _ h _ => hlist _ _ _ h) hvalue
  | accounts h =>
      exact h.isHoldable (fun _ _ h => h.isHoldable fun _ _ h _ => hlist _ _ _ h) hvalue

theorem PartListed.isHoldable (h : PartListed value other)
    (hvalue : value.isHoldable (depth + 4) = true) : other.isHoldable (depth + 4) = true := by
  cases h with
  | sole hmeans h => exact h.isHoldable hvalue
  | among hsay h =>
      simp only [Json.isHoldable, Json.itemsHoldable_append, Json.itemsHoldable,
        Bool.and_eq_true] at hvalue ⊢
      exact ⟨hvalue.1, hvalue.2.1, h.isHoldable hvalue.2.2.1, hvalue.2.2.2⟩

/-! ### Documents -/

variable {document changed : Json} {statements : List Statement}

/-- A text of the document is put in a list, and the document says the same. -/
theorem Document.of_partListed (h : Rewritten "Statement" 0 PartListed document changed)
    (hmeans : Document document statements) : Document changed statements := by
  cases hmeans with
  | intro hrecord hstatements hheld =>
      obtain ⟨old, new, hpart, hold, hnew⟩ := record?_rewritten rfl (by decide) h hrecord
      cases hold
      cases hstatements with
      | present hstatements =>
          refine .intro hnew (.present (hstatements.of_partListed hpart)) fun held hchanged => ?_
          cases hnew.symm.trans hchanged
          exact hpart.isHoldable (hheld _ hrecord)

/-- The statement of the document is put in a list, and the document says the same, if the reader
can still hold it. -/
theorem Document.of_statementListed (h : Rewritten "Statement" 0 (Listed Says) document changed)
    (hmeans : Document document statements) (hheld : Held changed) :
    Document changed statements := by
  cases hmeans with
  | intro hrecord hstatements =>
      obtain ⟨old, new, hlist, hold, hnew⟩ := record?_rewritten rfl (by decide) h hrecord
      cases hold
      cases hstatements with
      | present hstatements =>
          exact .intro hnew (.present (hstatements.of_listed apart_statements hlist)) hheld

end ClusterAccess.TrustPolicy
