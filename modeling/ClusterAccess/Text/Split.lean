/-
Cutting text at a separator.

The identifiers of this library are all written as parts joined by a separator:
ARNs by colons, role ids by a slash, entitlement ids by colons and by a marker.
`splitOnce` cuts at the first separator and `splitLast` at the last marker.  Each
comes with the facts its users need: the parts joined again are the text, and the
cut is the first (or the last) one.  `dropLead` and `dropTail` take away what a text
starts or ends with, and `pieces` cuts at every separator.
-/
namespace ClusterAccess.Text

/-! ### The first separator -/

/-- Cuts a text at the first `sep`, which belongs to neither part. -/
def splitOnce (sep : Char) : List Char → Option (List Char × List Char)
  | [] => none
  | c :: rest =>
    if c = sep then some ([], rest)
    else (splitOnce sep rest).map fun (before, after) => (c :: before, after)

/-- What stands before the first `sep` has none, and the two parts joined are the text. -/
theorem splitOnce_eq_some_iff {sep : Char} {text before after : List Char} :
    splitOnce sep text = some (before, after) ↔
      text = before ++ sep :: after ∧ sep ∉ before := by
  induction text generalizing before after with
  | nil => simp [splitOnce]
  | cons c rest ih =>
    by_cases h : c = sep
    · subst h
      cases before with
      | nil => simp [splitOnce]
      | cons b bs => simp [splitOnce]; intro hb _ hne; exact absurd hb hne
    · cases before with
      | nil => simp [splitOnce, h]
      | cons b bs =>
        simp only [splitOnce, h, if_false, Option.map_eq_some_iff, Prod.mk.injEq, List.cons.injEq,
          Prod.exists, List.cons_append, List.mem_cons, not_or]
        constructor
        · rintro ⟨x, y, hxy, ⟨rfl, rfl⟩, rfl⟩
          obtain ⟨rfl, hnot⟩ := ih.1 hxy
          exact ⟨⟨rfl, rfl⟩, fun hs => h hs.symm, hnot⟩
        · rintro ⟨⟨rfl, rfl⟩, _, hnot⟩
          exact ⟨bs, after, ih.2 ⟨rfl, hnot⟩, ⟨rfl, rfl⟩, rfl⟩

/-- What stands behind the last separator is determined by the text. -/
theorem append_separator_inj {sep : Char} {a b x y : List Char} (hx : sep ∉ x) (hy : sep ∉ y)
    (h : a ++ sep :: x = b ++ sep :: y) : a = b ∧ x = y := by
  have hcut : ∀ {a x : List Char}, sep ∉ x →
      splitOnce sep (a ++ sep :: x).reverse = some (x.reverse, a.reverse) := by
    intro a x hx
    exact splitOnce_eq_some_iff.2 ⟨by simp, by simpa using hx⟩
  have hpair := (hcut (a := a) hx).symm.trans (h ▸ hcut (a := b) hy)
  simp only [Option.some.injEq, Prod.mk.injEq, List.reverse_inj] at hpair
  exact ⟨hpair.2, hpair.1⟩

/-! ### The start and the end -/

/-- The part of a text after `lead`, when the text starts with it. -/
def dropLead : List Char → List Char → Option (List Char)
  | [], text => some text
  | _ :: _, [] => none
  | l :: lead, c :: rest => if l = c then dropLead lead rest else none

theorem dropLead_eq_some_iff {lead text rest : List Char} :
    dropLead lead text = some rest ↔ text = lead ++ rest := by
  induction lead generalizing text with
  | nil => simp [dropLead]
  | cons l lead ih =>
    cases text with
    | nil => simp [dropLead]
    | cons c more =>
      by_cases h : l = c
      · simp [dropLead, h, ih]
      · simp [dropLead, h, Ne.symm h]

theorem dropLead_eq_none_iff {lead text : List Char} :
    dropLead lead text = none ↔ ¬ lead <+: text := by
  rw [Option.eq_none_iff_forall_ne_some]
  constructor
  · rintro h ⟨rest, rfl⟩
    exact h rest (dropLead_eq_some_iff.2 rfl)
  · intro h rest hrest
    exact h ⟨rest, (dropLead_eq_some_iff.1 hrest).symm⟩

/-- The part of a text before `tail`, when the text ends with it. -/
def dropTail (tail text : List Char) : Option (List Char) :=
  (dropLead tail.reverse text.reverse).map List.reverse

theorem dropTail_eq_some_iff {tail text front : List Char} :
    dropTail tail text = some front ↔ text = front ++ tail := by
  rw [dropTail, Option.map_eq_some_iff]
  constructor
  · rintro ⟨rest, hrest, rfl⟩
    rw [← List.reverse_inj, dropLead_eq_some_iff.1 hrest]
    simp
  · rintro rfl
    exact ⟨front.reverse, dropLead_eq_some_iff.2 (by simp), by simp⟩

/-! ### The last marker -/

/-- Cuts a text where the last `marker` starts; the marker belongs to neither part. -/
def splitLast (marker : List Char) : List Char → Option (List Char × List Char)
  | [] => none
  | c :: rest =>
    match splitLast marker rest with
    | some (before, after) => some (c :: before, after)
    | none => (dropLead marker (c :: rest)).map fun after => ([], after)

/-- The two parts with the marker between them are the text. -/
theorem eq_append_of_splitLast {marker text before after : List Char}
    (h : splitLast marker text = some (before, after)) : text = before ++ marker ++ after := by
  induction text generalizing before after with
  | nil => simp [splitLast] at h
  | cons c rest ih =>
    rw [splitLast] at h
    split at h
    next b a hrest =>
      obtain ⟨rfl, rfl⟩ : c :: b = before ∧ a = after := by simpa using h
      rw [ih hrest]
      rfl
    next =>
      obtain ⟨a, ha, hpair⟩ := Option.map_eq_some_iff.1 h
      obtain ⟨rfl, rfl⟩ : [] = before ∧ a = after := by simpa using hpair
      exact dropLead_eq_some_iff.1 ha

/-- A text is left whole exactly when the marker is nowhere in it. -/
theorem splitLast_eq_none_iff {marker text : List Char} (h : marker ≠ []) :
    splitLast marker text = none ↔ ¬ marker <:+: text := by
  induction text with
  | nil => simp [splitLast, h]
  | cons c rest ih =>
    rw [splitLast, List.infix_cons_iff]
    split
    next b a hrest =>
      have : marker <:+: rest :=
        ⟨b, a, (eq_append_of_splitLast hrest).symm⟩
      simp [this]
    next hrest =>
      simp only [Option.map_eq_none_iff, ih.1 hrest, or_false]
      exact dropLead_eq_none_iff

/-! ### Pieces -/

/-- Does `part` occur somewhere in the text? -/
def hasPart (part : List Char) : List Char → Bool
  | [] => part.isEmpty
  | c :: rest => part.isPrefixOf (c :: rest) || hasPart part rest

theorem hasPart_iff {part text : List Char} : hasPart part text = true ↔ part <:+: text := by
  induction text with
  | nil => simp [hasPart, List.isEmpty_iff]
  | cons c rest ih => simp [hasPart, ih, List.infix_cons_iff]

/-- The pieces of a text between its separators; a text without one is a single piece. -/
def pieces (sep : Char) : List Char → List (List Char)
  | [] => [[]]
  | c :: rest =>
    if c = sep then [] :: pieces sep rest
    else
      match pieces sep rest with
      | [] => [[c]]
      | piece :: more => (c :: piece) :: more

/-- There is always a piece. -/
theorem pieces_ne_nil (sep : Char) (text : List Char) : pieces sep text ≠ [] := by
  cases text with
  | nil => exact List.cons_ne_nil _ _
  | cons c rest =>
      rw [pieces]
      split
      · exact List.cons_ne_nil _ _
      · split <;> exact List.cons_ne_nil _ _

/-- A text without a separator is a single piece. -/
theorem pieces_of_not_mem {sep : Char} {text : List Char} (h : sep ∉ text) :
    pieces sep text = [text] := by
  induction text with
  | nil => rfl
  | cons c rest ih =>
      obtain ⟨hc, hrest⟩ := not_or.1 (mt List.mem_cons.2 h)
      rw [pieces, if_neg (Ne.symm hc), ih hrest]

/-- The first piece ends at the first separator. -/
theorem pieces_append {sep : Char} {first rest : List Char} (h : sep ∉ first) :
    pieces sep (first ++ sep :: rest) = first :: pieces sep rest := by
  induction first with
  | nil => rw [List.nil_append, pieces, if_pos rfl]
  | cons c first ih =>
      obtain ⟨hc, hfirst⟩ := not_or.1 (mt List.mem_cons.2 h)
      rw [List.cons_append, pieces, if_neg (Ne.symm hc), ih hfirst]

/-- Behind the last separator of a text stands its last piece. -/
theorem exists_append_of_getLast?_pieces {sep : Char} {text piece : List Char}
    (h : (pieces sep text).getLast? = some piece) :
    ∃ front, sep :: text = front ++ sep :: piece := by
  by_cases hsep : sep ∈ text
  · obtain ⟨first, rest, rfl, hfirst⟩ := List.eq_append_cons_of_mem hsep
    rw [pieces_append hfirst, List.getLast?_cons_of_ne_nil (pieces_ne_nil sep rest)] at h
    obtain ⟨front, hfront⟩ := exists_append_of_getLast?_pieces h
    exact ⟨sep :: first ++ front, by rw [hfront]; simp⟩
  · rw [pieces_of_not_mem hsep] at h
    obtain rfl := Option.some.inj h
    exact ⟨[], rfl⟩
termination_by text.length

/-- No piece has a separator. -/
theorem not_mem_of_mem_pieces {sep : Char} {text piece : List Char}
    (h : piece ∈ pieces sep text) : sep ∉ piece := by
  induction text generalizing piece with
  | nil => simp_all [pieces]
  | cons c rest ih =>
    rw [pieces] at h
    split at h
    next =>
      rcases List.mem_cons.1 h with rfl | h
      · simp
      · exact ih h
    next hc =>
      split at h
      next => simp_all [Ne.symm hc]
      next first more hrest =>
        rcases List.mem_cons.1 h with rfl | h
        · simp only [List.mem_cons, not_or]
          exact ⟨Ne.symm hc, ih (by simp [hrest])⟩
        · exact ih (by simp [hrest, h])

end ClusterAccess.Text
