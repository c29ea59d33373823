/-
What the writer of YAML has written it never takes back.

The writer goes through a value from its start to its end and only ever adds to the text, so
a text that was written first is what the whole text starts with (`Extends`).  The list of
a document begins with the mark of its first item.  That is all that is needed here: a list
that is not empty is not written as blank text, which would be read as no list at all.
-/
import Mathlib.Data.List.Infix
import ClusterAccess.AwsAuth

namespace ClusterAccess.Yaml

namespace Output

/-- What an output held is still there, and more may follow. -/
def Extends (o after : Output) : Prop :=
  o.text <:+ after.text

variable {o mid after : Output}

theorem Extends.refl (o : Output) : o.Extends o :=
  List.suffix_refl _

theorem Extends.trans (h : o.Extends mid) (hrest : mid.Extends after) : o.Extends after :=
  List.IsSuffix.trans h hrest

/-- Only the text counts. -/
theorem Extends.of_text (h : o.Extends mid) (htext : after.text = mid.text) : o.Extends after := by
  unfold Extends at h ⊢
  rwa [htext]

theorem extends_put (o : Output) (c : Char) : o.Extends (o.put c) :=
  List.suffix_cons c o.text

theorem extends_newLine (o : Output) (c : Char) : o.Extends (o.newLine c) :=
  List.suffix_cons c o.text

theorem extends_putAll (o : Output) (cs : List Char) : o.Extends (o.putAll cs) := by
  unfold putAll
  induction cs generalizing o with
  | nil => exact .refl o
  | cons c rest ih => exact (extends_put o c).trans (ih (o.put c))

theorem extends_mark (o : Output) (text : List Char) (needsSpace spaced indented : Bool) :
    o.Extends (o.mark text needsSpace spaced indented) := by
  unfold mark
  by_cases hspace : (needsSpace && !o.spaced) = true
  · simp only [hspace, if_true]
    exact ((extends_put o ' ').trans (extends_putAll _ text)).of_text rfl
  · simp only [hspace]
    exact (extends_putAll o text).of_text rfl

theorem extends_word (o : Output) (text : List Char) : o.Extends (o.word text) := by
  unfold word
  by_cases hspace : (!o.spaced && text ≠ []) = true
  · simp only [hspace, if_true]
    exact ((extends_put o ' ').trans (extends_putAll _ text)).of_text rfl
  · simp only [hspace]
    exact (extends_putAll o text).of_text rfl

theorem extends_indentTo (o : Output) (indent : Nat) : o.Extends (o.indentTo indent) := by
  unfold indentTo
  by_cases hline : (!o.indented || o.column > indent || (o.column = indent && !o.spaced)) = true
  · simp only [hline, if_true]
    exact ((extends_newLine o '\n').trans (extends_putAll _ _)).of_text rfl
  · simp only [hline]
    exact (extends_putAll o _).of_text rfl

end Output

open Output

/-! ### Texts -/

theorem extends_writeSingle (indent : Nat) (o : Output) (breaks : Bool) (text : List Char) :
    o.Extends (writeSingle indent o breaks text) := by
  induction text generalizing o breaks with
  | nil =>
      unfold writeSingle
      split
      · exact extends_indentTo o indent
      · exact .refl o
  | cons c rest ih =>
      unfold writeSingle
      split
      · exact (extends_put o c).trans (ih _ _)
      split
      · have hline : o.Extends (if !breaks && c = '\n' then o.newLine '\n' else o) := by
          split
          · exact extends_newLine o '\n'
          · exact .refl o
        have hbreak := hline.trans (extends_newLine _ c)
        exact hbreak.trans (ih { Output.newLine _ c with indented := true } true)
      · have hindent : o.Extends (if breaks then o.indentTo indent else o) := by
          split
          · exact extends_indentTo o indent
          · exact .refl o
        have hquote : ∀ o : Output, o.Extends (if c = '\x27' then o.put c else o) := by
          intro o
          split
          · exact extends_put o c
          · exact .refl o
        have hput := (hindent.trans (hquote _)).trans (extends_put _ c)
        exact hput.trans (ih { Output.put _ c with indented := false } false)

theorem extends_writeLiteral (indent : Nat) (o : Output) (breaks : Bool) (text : List Char) :
    o.Extends (writeLiteral indent o breaks text) := by
  induction text generalizing o breaks with
  | nil => exact .refl o
  | cons c rest ih =>
      unfold writeLiteral
      split
      · exact (extends_newLine o c).trans (ih { o.newLine c with indented := true } true)
      · have hindent : o.Extends (if breaks then o.indentTo indent else o) := by
          split
          · exact extends_indentTo o indent
          · exact .refl o
        exact (hindent.trans (extends_put _ c)).trans
          (ih { Output.put _ c with indented := false } false)

theorem extends_writeStyled (indent : Nat) (o : Output) (text : List Char) (style : Style) :
    o.Extends (writeStyled indent o text style) := by
  cases style with
  | plain => exact extends_word o text
  | single =>
      have hopen := (extends_mark o ['\x27'] true false false).trans
        (extends_writeSingle indent _ false text)
      exact (hopen.trans (extends_mark _ ['\x27'] false false false)).of_text rfl
  | double =>
      have hopen := (extends_mark o ['\x22'] true false false).trans
        (extends_putAll _ (text.flatMap doubleChar))
      exact (hopen.trans (extends_mark _ ['\x22'] false false false)).of_text rfl
  | literal =>
      have hopen := (extends_mark o ['|'] true false false).trans
        (extends_mark _ (literalHints text) false false false)
      exact (hopen.trans (extends_newLine _ '\n')).trans
        (extends_writeLiteral indent { Output.newLine _ '\n' with spaced := true, indented := true }
          true text)

theorem extends_writeTag (o : Output) (tag : Option String) : o.Extends (writeTag o tag) := by
  cases tag with
  | none => exact .refl o
  | some tag => exact extends_word o _

/-! ### Values -/

mutual

theorem extends_writeValue (indent : Option Nat) (asValue simpleKey : Bool) (tag : Option String)
    (o : Output) : ∀ value, o.Extends (writeValue indent asValue simpleKey tag o value)
  | .tagged name value => by
      unfold writeValue
      exact extends_writeValue indent asValue simpleKey (some name) o value
  | .sequence [] => by
      unfold writeValue
      exact ((extends_writeTag o tag).trans (extends_mark _ _ _ _ _)).trans
        (extends_mark _ _ _ _ _)
  | .sequence (item :: rest) => by
      unfold writeValue
      exact (extends_writeTag o tag).trans (extends_writeItems _ _ (item :: rest))
  | .mapping [] => by
      unfold writeValue
      exact ((extends_writeTag o tag).trans (extends_mark _ _ _ _ _)).trans
        (extends_mark _ _ _ _ _)
  | .mapping (entry :: rest) => by
      unfold writeValue
      exact (extends_writeTag o tag).trans (extends_writeEntries _ _ (entry :: rest))
  | .string text => by
      unfold writeValue
      exact (extends_writeTag o tag).trans (extends_writeStyled _ _ _ _)
  | .null => (extends_writeTag o tag).trans (extends_word _ _)
  | .bool _ => (extends_writeTag o tag).trans (extends_word _ _)
  | .integer _ => (extends_writeTag o tag).trans (extends_word _ _)
  | .float _ => (extends_writeTag o tag).trans (extends_word _ _)

theorem extends_writeItems (column : Nat) (o : Output) :
    ∀ items, o.Extends (writeItems column o items)
  | [] => .refl o
  | item :: rest => by
      unfold writeItems
      exact (((extends_indentTo o column).trans (extends_mark _ _ _ _ _)).trans
        (extends_writeValue _ _ _ _ _ item)).trans (extends_writeItems column _ rest)

theorem extends_writeEntries (column : Nat) (o : Output) :
    ∀ entries, o.Extends (writeEntries column o entries)
  | [] => .refl o
  | entry :: rest => by
      unfold writeEntries
      exact (extends_writeEntry column o entry).trans (extends_writeEntries column _ rest)

theorem extends_writeEntry (column : Nat) (o : Output) :
    ∀ entry, o.Extends (writeEntry column o entry)
  | (key, value) => by
      unfold writeEntry
      split
      · exact (((extends_indentTo o column).trans (extends_writeValue _ _ _ _ _ key)).trans
          (extends_mark _ _ _ _ _)).trans (extends_writeValue _ _ _ _ _ value)
      · exact (((((extends_indentTo o column).trans (extends_mark _ _ _ _ _)).trans
          (extends_writeValue _ _ _ _ _ key)).trans (extends_indentTo _ column)).trans
            (extends_mark _ _ _ _ _)).trans (extends_writeValue _ _ _ _ _ value)

end

/-! ### Lists -/

/-- The mark of the first item is in the text of a list. -/
theorem mem_renderList {values : List Yaml} (h : values ≠ []) :
    '-' ∈ (renderList values).toList := by
  cases values with
  | nil => exact absurd rfl h
  | cons item rest =>
      have hmark : '-' ∈ ((({} : Output).indentTo 0).mark ['-'] true false true).text := by
        decide
      have hitems := (extends_writeValue (some 0) false false none
        ((({} : Output).indentTo 0).mark ['-'] true false true) item).trans
          (extends_writeItems 0 _ rest)
      have hwhole := hitems.trans (extends_indentTo _ 0)
      unfold renderList
      rw [String.toList_ofList, List.mem_reverse]
      exact hwhole.subset hmark

/-- **A list that is not empty is not written as blank text.** -/
theorem not_allBlank_renderList {values : List Yaml} (h : values ≠ []) :
    Text.allBlank (renderList values) = false := by
  rw [← Bool.not_eq_true]
  intro hblank
  have hdash := List.all_eq_true.1 hblank '-' (mem_renderList h)
  exact absurd hdash (by decide)

end ClusterAccess.Yaml
