/-
What a trust policy says, and that it is read so.

The grammar of the documents is told here as relations, without any order in which readings are
tried: a field may be left out, a value may stand alone or in a list (`OneOrMany`), a record may be
written with the names of its fields or in their order, and a principal may be a text or a record
(`Names`).  The reader accepts exactly these documents, and reads them as what they say
(`readPolicy_iff`).

The one thing that could go wrong is that a list is taken for a single value that is written as a
list, or the other way round.  It cannot, since a statement in the form of an array begins with a
text, and no statement is a text (`apart_statements`).
-/
import ClusterAccess.Proofs.Gathering
import ClusterAccess.TrustPolicy

namespace ClusterAccess.TrustPolicy

variable {α : Type}

/-! ### Values alone and in lists -/

/-- The value says this, alone or as a list of such values. -/
inductive OneOrMany (R : Json → α → Prop) : Json → List α → Prop
  | alone {value : Json} {said : α} (h : R value said) : OneOrMany R value [said]
  | listed {items : List Json} {said : List α} (h : List.Forall₂ R items said) :
      OneOrMany R (.array items) said

/-- No value says this alone and is a list of such values too. -/
def Apart (R : Json → α → Prop) : Prop :=
  ∀ items one many, R (.array items) one → ¬List.Forall₂ R items many

variable {R : Json → α → Prop} {read : Json → Option α}

/-- The single reading is tried first, but no value has both. -/
theorem oneOrMany_iff (hread : ∀ value said, read value = some said ↔ R value said)
    (hapart : Apart R) {value : Json} {said : List α} :
    oneOrMany read value = some said ↔ OneOrMany R value said := by
  unfold oneOrMany
  refine ⟨fun h => ?_, fun h => ?_⟩
  · split at h
    · next one hone =>
        cases h
        exact .alone ((hread _ _).1 hone)
    · split at h
      · exact .listed ((mapM_eq_some_iff hread).1 h)
      · cases h
  · cases h with
    | alone h => rw [(hread _ _).2 h]
    | @listed items _ h =>
        have hnone : read (.array items) = none :=
          Option.eq_none_iff_forall_ne_some.2 fun one hone =>
            hapart _ _ _ ((hread _ _).1 hone) h
        rw [hnone]
        exact (mapM_eq_some_iff hread).2 h

/-- The value is a text. -/
def IsText (value : Json) (text : String) : Prop :=
  value = .string text

theorem text?_iff (value : Json) (text : String) : value.text? = some text ↔ IsText value text := by
  unfold IsText
  cases value <;> simp [Json.text?]

theorem apart_isText : Apart IsText := by
  intro _ _ _ h
  cases h

theorem texts_iff {value : Json} {texts : List String} :
    oneOrMany Json.text? value = some texts ↔ OneOrMany IsText value texts :=
  oneOrMany_iff text?_iff apart_isText

/-! ### The parts of a policy -/

/-- What a field says that may be left out. -/
inductive Field (R : Json → α → Prop) (default : α) : Option Json → α → Prop
  | absent : Field R default none default
  | present {value : Json} {said : α} (h : R value said) : Field R default (some value) said

/-- The principals that a value names: a text, or what a record has under `AWS`. -/
inductive Names : Json → List String → Prop
  | text (everyone : String) : Names (.string everyone) [everyone]
  | record {value : Json} {accounts : Option Json} {principals : List String}
      (hrecord : value.record? ["AWS"] = some [accounts])
      (h : Field (OneOrMany IsText) [] accounts principals) : Names value principals

/-- The principals of a statement; none may be named by null. -/
inductive Whom : Json → List String → Prop
  | nobody : Whom .null []
  | named {value : Json} {principals : List String} (h : Names value principals) :
      Whom value principals

/-- What the value says as a statement.  One in the form of an array has all its fields. -/
inductive Says : Json → Statement → Prop
  | intro {value : Json} {effect action principal : Option Json} {said : Statement}
      (hrecord : value.record? ["Effect", "Action", "Principal"] = some [effect, action, principal])
      (heffect : Field IsText "" effect said.effect)
      (hactions : Field (OneOrMany IsText) [] action said.actions)
      (hprincipals : Field Whom [] principal said.principals)
      (hwhole : ∀ items, value = .array items → principal ≠ none) : Says value said

/-- Can the reader hold what is under `Statement`?  It may not be nested too deep. -/
def Held (document : Json) : Prop :=
  ∀ value, document.record? ["Statement"] = some [some value] → value.isHoldable depthLimit = true

/-- What the document says: its statements, one after another. -/
inductive Document : Json → List Statement → Prop
  | intro {document : Json} {field : Option Json} {statements : List Statement}
      (hrecord : document.record? ["Statement"] = some [field])
      (hstatements : Field (OneOrMany Says) [] field statements) (hheld : Held document) :
      Document document statements

/-! ### Reading -/

theorem readPrincipals_iff {value : Json} {principals : List String} :
    readPrincipals value = some principals ↔ Names value principals := by
  unfold readPrincipals
  refine ⟨fun h => ?_, fun h => ?_⟩
  · split at h
    · cases h
      exact .text _
    · split at h
      · next hrecord => exact .record hrecord (.present (texts_iff.1 h))
      · next hrecord =>
          cases h
          exact .record hrecord .absent
      · cases h
  · cases h with
    | text everyone => rfl
    | record hrecord h =>
        split
        · cases hrecord
        · rw [hrecord]
          cases h with
          | absent => rfl
          | present h => exact texts_iff.2 h

/-- Reads a field that may be left out. -/
def fieldOr (read : Json → Option α) (default : α) : Option Json → Option α
  | none => some default
  | some value => read value

theorem fieldOr_iff (hread : ∀ value said, read value = some said ↔ R value said) {default : α}
    {field : Option Json} {said : α} :
    fieldOr read default field = some said ↔ Field R default field said := by
  cases field with
  | none =>
      refine ⟨fun h => ?_, fun h => ?_⟩
      · cases h
        exact .absent
      · cases h
        rfl
  | some value =>
      refine (hread value said).trans ⟨.present, fun h => ?_⟩
      cases h with
      | present h => exact h

/-- Reads the principals of a statement, which may not be left out of an array. -/
def readWhom (statement : Json) : Option Json → Option (List String)
  | none =>
    match statement with
    | .array _ => none
    | _ => some []
  | some .null => some []
  | some value => readPrincipals value

theorem readWhom_iff {statement : Json} {principal : Option Json} {principals : List String} :
    readWhom statement principal = some principals ↔
      Field Whom [] principal principals ∧
        ∀ items, statement = .array items → principal ≠ none := by
  unfold readWhom
  refine ⟨fun h => ?_, fun h => ?_⟩
  · split at h
    · split at h
      · cases h
      · next hother =>
          cases h
          exact ⟨.absent, fun items hitems => absurd hitems (hother items)⟩
    · cases h
      exact ⟨.present .nobody, fun _ _ => Option.some_ne_none _⟩
    · exact ⟨.present (.named (readPrincipals_iff.1 h)), fun _ _ => Option.some_ne_none _⟩
  · obtain ⟨hprincipals, hwhole⟩ := h
    cases hprincipals with
    | absent =>
        dsimp only
        split
        · next items => exact absurd rfl (hwhole items rfl)
        · rfl
    | present h =>
        cases h with
        | nobody => rfl
        | named h =>
            split
            · next hsome => cases hsome
            · next hsome =>
                obtain rfl := Option.some.inj hsome
                cases h with
                | record hrecord => cases hrecord
            · next hsome => exact Option.some.inj hsome ▸ readPrincipals_iff.2 h

/-- A statement is read field by field. -/
theorem readStatement_eq {value : Json} {effect action principal : Option Json}
    (hrecord : value.record? ["Effect", "Action", "Principal"] = some [effect, action, principal]) :
    readStatement value = (fieldOr Json.text? "" effect).bind fun effect =>
      (fieldOr (oneOrMany Json.text?) [] action).bind fun actions =>
        (readWhom value principal).bind fun principals => some ⟨effect, actions, principals⟩ := by
  unfold readStatement
  rw [hrecord]
  cases principal with
  | none => cases value <;> cases effect <;> cases action <;> rfl
  | some whom => cases whom <;> cases effect <;> cases action <;> rfl

theorem readStatement_iff (value : Json) (said : Statement) :
    readStatement value = some said ↔ Says value said := by
  refine ⟨fun h => ?_, fun h => ?_⟩
  · obtain ⟨effect, action, principal, hrecord⟩ : ∃ effect action principal,
        value.record? ["Effect", "Action", "Principal"] = some [effect, action, principal] := by
      unfold readStatement at h
      split at h
      · next hrecord => exact ⟨_, _, _, hrecord⟩
      · cases h
    rw [readStatement_eq hrecord] at h
    obtain ⟨text, heffect, h⟩ := Option.bind_eq_some_iff.1 h
    obtain ⟨actions, hactions, h⟩ := Option.bind_eq_some_iff.1 h
    obtain ⟨principals, hprincipals, h⟩ := Option.bind_eq_some_iff.1 h
    cases h
    obtain ⟨hprincipals, hwhole⟩ := readWhom_iff.1 hprincipals
    exact .intro hrecord ((fieldOr_iff text?_iff).1 heffect)
      ((fieldOr_iff fun _ _ => texts_iff).1 hactions) hprincipals hwhole
  · cases h with
    | intro hrecord heffect hactions hprincipals hwhole =>
        rw [readStatement_eq hrecord, (fieldOr_iff text?_iff).2 heffect,
          (fieldOr_iff fun _ _ => texts_iff).2 hactions, readWhom_iff.2 ⟨hprincipals, hwhole⟩]
        rfl

/-- No value is a statement and a list of statements: a statement in the form of an array begins
with a text. -/
theorem apart_statements : Apart Says := by
  intro items _ _ h hmany
  cases h with
  | @intro effect action principal _ hrecord heffect hactions hprincipals hwhole =>
      have hprincipal := hwhole items rfl
      cases hmany with
      | nil =>
          cases hrecord
          exact hprincipal rfl
      | @cons item _ items _ hfirst hrest =>
          have hitem : some item = effect := (List.cons.inj (Json.record?_array.1 hrecord).2).1
          subst hitem
          cases heffect with
          | present heffect =>
              rw [heffect] at hfirst
              cases hfirst with
              | intro hrecord => cases hrecord

theorem readPolicy_iff {document : Json} {statements : List Statement} :
    readPolicy document = some statements ↔ Document document statements := by
  have hlisted : ∀ {value : Json}, oneOrMany readStatement value = some statements ↔
      OneOrMany Says value statements :=
    oneOrMany_iff readStatement_iff apart_statements
  unfold readPolicy
  refine ⟨fun h => ?_, fun h => ?_⟩
  · split at h
    · next value hrecord =>
        split at h
        · next hvalue =>
            refine .intro hrecord (.present (hlisted.1 h)) fun held hheld => ?_
            cases hrecord.symm.trans hheld
            exact hvalue
        · cases h
    · next hrecord =>
        cases h
        refine .intro hrecord .absent fun held hheld => ?_
        cases hrecord.symm.trans hheld
    · cases h
  · cases h with
    | intro hrecord hstatements hheld =>
        rw [hrecord]
        cases hstatements with
        | absent => rfl
        | present h => exact (if_pos (hheld _ hrecord)).trans (hlisted.2 h)

end ClusterAccess.TrustPolicy
