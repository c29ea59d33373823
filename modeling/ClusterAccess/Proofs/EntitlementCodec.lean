/-
What the text of an entitlement id reads back as.

An id is written without quoting anything, so reading it depends on what the resource
and the scope may look like.  Three facts make it work.

  * The kind has no colon, so the first colon ends it.
  * The marker before a scope is the last one of the text, because no scope that is
    written can complete a later marker.
  * What follows the last colon of the text tells the two forms apart, but for one scope:
    the namespace called `assumes` is written exactly like the end of the other form.

The last point is a gap of the format and not of the proofs.  `asRead` says what an id
is taken for, `decode_toString` that every id is taken for just that, and the main
statement reads off which ids survive and which pairs of ids share a text.
-/
import Mathlib
import ClusterAccess.Entitlement

namespace ClusterAccess

namespace Text

/-! ### Cutting a text whose parts are known -/

/-- A cut at the last marker stays where it is when text is put in front. -/
theorem splitLast_append {marker text before after : List Char}
    (h : splitLast marker text = some (before, after)) (lead : List Char) :
    splitLast marker (lead ++ text) = some (lead ++ before, after) := by
  induction lead with
  | nil => exact h
  | cons c lead ih => rw [List.cons_append, splitLast, ih]; rfl

/-- Right behind a marker, a text with too few separators holds no other marker. -/
theorem splitLast_marker {marker after : List Char} {sep : Char} {tail : List Char}
    (hm : marker = sep :: tail) (h : (tail ++ after).count sep < marker.count sep) :
    splitLast marker (marker ++ after) = some ([], after) := by
  have hne : marker ≠ [] := by simp [hm]
  have hnone : splitLast marker (tail ++ after) = none := by
    rw [splitLast_eq_none_iff hne]
    intro hin
    exact absurd (hin.sublist.count_le sep) (Nat.not_le.2 h)
  have hlead : dropLead marker (marker ++ after) = some after := dropLead_eq_some_iff.2 rfl
  rw [hm, List.cons_append] at hlead
  rw [hm, List.cons_append, splitLast, ← hm, hnone]
  rw [← hm] at hlead
  simp [hlead]

end Text

open Text

namespace Scope

/-! ### Labels -/

/-- A label of RFC 1123: at most 63 bytes, all of them lower case letters, digits and hyphens,
and a hyphen at neither end. -/
structure Label (name : String) : Prop where
  nonempty : name ≠ ""
  short : name.utf8ByteSize ≤ 63
  letters : ∀ c ∈ name.toList, ('a' ≤ c ∧ c ≤ 'z') ∨ ('0' ≤ c ∧ c ≤ '9') ∨ c = '-'
  first : name.toList.head? ≠ some '-'
  last : name.toList.getLast? ≠ some '-'

theorem isLabelChar_iff {c : Char} :
    isLabelChar c = true ↔ ('a' ≤ c ∧ c ≤ 'z') ∨ ('0' ≤ c ∧ c ≤ '9') ∨ c = '-' := by
  simp only [isLabelChar, Char.isLower, Char.isDigit, Bool.or_eq_true, Bool.and_eq_true,
    decide_eq_true_eq, beq_iff_eq, or_assoc, ge_iff_le]
  rfl

/-- A character of a label is one byte. -/
theorem utf8Size_of_isLabelChar {c : Char} (h : isLabelChar c = true) : c.utf8Size = 1 := by
  rw [isLabelChar_iff] at h
  rw [Char.utf8Size_eq_one_iff]
  rcases h with ⟨-, h⟩ | ⟨-, h⟩ | rfl
  · exact UInt32.le_trans (show c.val ≤ 'z'.val from h) (by decide)
  · exact UInt32.le_trans (show c.val ≤ '9'.val from h) (by decide)
  · decide

/-- A text of label characters has as many bytes as characters. -/
theorem utf8ByteSize_of_labelChars {name : String} (h : ∀ c ∈ name.toList, isLabelChar c = true) :
    name.utf8ByteSize = name.toList.length := by
  have hlen : ∀ {text : List Char}, (∀ c ∈ text, isLabelChar c = true) →
      String.utf8Len text = text.length := by
    intro text
    induction text with
    | nil => intro _; rfl
    | cons c rest ih =>
      intro h
      rw [String.utf8Len_cons, ih fun c hc => h c (List.mem_cons_of_mem _ hc),
        utf8Size_of_isLabelChar (h c List.mem_cons_self)]
      rfl
  rw [← hlen h, ← String.utf8ByteSize_ofList, String.ofList_toList]

/-- The check that a reader of ids makes is the one for labels. -/
theorem isLabel_iff {name : String} : isLabel name.toList = true ↔ Label name := by
  simp only [isLabel, Bool.and_eq_true, decide_eq_true_eq, List.all_eq_true, bne_iff_ne]
  refine ⟨?_, ?_⟩
  · intro hin
    obtain ⟨⟨⟨⟨hne, hshort⟩, hall⟩, hfirst⟩, hlast⟩ := hin
    refine ⟨?_, ?_, fun c hc => isLabelChar_iff.1 (hall c hc), hfirst, hlast⟩
    · simpa using hne
    · rw [utf8ByteSize_of_labelChars hall]
      exact hshort
  · intro h
    have hall : ∀ c ∈ name.toList, isLabelChar c = true :=
      fun c hc => isLabelChar_iff.2 (h.letters c hc)
    refine ⟨⟨⟨⟨by simpa using h.nonempty, ?_⟩, hall⟩, h.first⟩, h.last⟩
    rw [← utf8ByteSize_of_labelChars hall]
    exact h.short

theorem Label.not_mem_colon {name : String} (h : Label name) : ':' ∉ name.toList := by
  intro hc
  have := h.letters ':' hc
  revert this
  decide

/-! ### Scopes in an id -/

/-- The scopes that an id can have: the whole cluster, or a namespace with a name for one. -/
def Valid : Scope → Prop
  | .cluster => True
  | .inNamespace name => Label name

instance : (scope : Scope) → Decidable scope.Valid
  | .cluster => isTrue trivial
  | .inNamespace _ => decidable_of_iff _ isLabel_iff

/-- A scope that is written reads back as itself. -/
theorem ofChars_toChars {scope : Scope} (h : scope.Valid) :
    ofChars? scope.toChars = some scope := by
  cases scope with
  | cluster => rfl
  | inNamespace name =>
      have hlabel : isLabel name.toList = true := isLabel_iff.2 h
      by_cases hc : name.toList = clusterWord
      · have hname : name = "cluster" := String.toList_inj.1 hc
        subst hname
        rfl
      · have hescape : dropLead escape name.toList = none := by
          rw [dropLead_eq_none_iff]
          intro hin
          obtain ⟨rest, hrest⟩ := hin
          exact h.not_mem_colon (hrest ▸ by simp [escape])
        simp [toChars, ofChars?, hc, hescape, hlabel]

theorem toChars_ne_nil {scope : Scope} (h : scope.Valid) : scope.toChars ≠ [] := by
  intro hnil
  have hread := ofChars_toChars h
  have hnone : ofChars? [] = none := by decide
  rw [hnil, hnone] at hread
  cases hread

end Scope

namespace EntitlementId

/-- The marker before a scope is the last one. -/
theorem splitLast_scope {scope : Scope} (h : scope.Valid) :
    splitLast assignedMarker (assignedMarker ++ scope.toChars) = some ([], scope.toChars) := by
  cases scope with
  | cluster => rfl
  | inNamespace name =>
      by_cases hc : name.toList = Scope.clusterWord
      · simp only [Scope.toChars, hc, if_true]
        rfl
      · simp only [Scope.toChars, hc, if_false]
        have hm : assignedMarker = ':' :: "assigned:".toList := rfl
        refine splitLast_marker hm ?_
        rw [List.count_append, List.count_eq_zero_of_not_mem (Scope.Label.not_mem_colon h)]
        decide

/-- Behind the last colon of a membership stands no `assumes`, unless that is its namespace. -/
theorem exists_last_piece {scope : Scope} (h : scope.Valid) (hne : scope ≠ .inNamespace "assumes") :
    ∃ lead last, assignedMarker ++ scope.toChars = lead ++ ':' :: last ∧ ':' ∉ last ∧
      last ≠ "assumes".toList := by
  cases scope with
  | cluster => exact ⟨":assigned".toList, Scope.clusterWord, rfl, by decide, by decide⟩
  | inNamespace name =>
      by_cases hc : name.toList = Scope.clusterWord
      · refine ⟨":assigned:ns".toList, Scope.clusterWord, ?_, by decide, by decide⟩
        simp only [Scope.toChars, hc, if_true]
        rfl
      · refine ⟨":assigned".toList, name.toList, ?_, Scope.Label.not_mem_colon h, ?_⟩
        · simp only [Scope.toChars, hc, if_false]
          rfl
        · intro hname
          exact hne (congrArg Scope.inNamespace (String.toList_inj.1 hname))

/-- Such a membership does not end like the other form. -/
theorem dropTail_assigned {scope : Scope} (h : scope.Valid) (hne : scope ≠ .inNamespace "assumes")
    (resource : List Char) :
    dropTail assumesSuffix (resource ++ (assignedMarker ++ scope.toChars)) = none := by
  obtain ⟨lead, last, heq, hcolon, hlast⟩ := exists_last_piece h hne
  rw [Option.eq_none_iff_forall_ne_some]
  intro front hfront
  rw [dropTail_eq_some_iff, heq, ← List.append_assoc] at hfront
  exact hlast (append_separator_inj hcolon (by decide) hfront).2

/-! ### Ids -/

/-- A form whose scope, if it has one, is one that an id can have. -/
def FormValid : EntitlementForm → Prop
  | .assigned scope => scope.Valid
  | .assumes => True

instance : (form : EntitlementForm) → Decidable (FormValid form)
  | .assigned scope => inferInstanceAs (Decidable scope.Valid)
  | .assumes => isTrue trivial

/-- The ids that an entitlement can have. -/
structure WellFormed (id : EntitlementId) : Prop where
  kind_nonempty : id.kind ≠ ""
  kind_colon : ':' ∉ id.kind.toList
  resource_nonempty : id.resource ≠ ""
  form_valid : FormValid id.form

instance (id : EntitlementId) : Decidable id.WellFormed :=
  decidable_of_iff
    (id.kind ≠ "" ∧ ':' ∉ id.kind.toList ∧ id.resource ≠ "" ∧ FormValid id.form)
    ⟨fun h => ⟨h.1, h.2.1, h.2.2.1, h.2.2.2⟩,
      fun h => ⟨h.kind_nonempty, h.kind_colon, h.resource_nonempty, h.form_valid⟩⟩

/-- What the text of an id is taken for. -/
def asRead (id : EntitlementId) : EntitlementId :=
  if id.form = .assigned (.inNamespace "assumes") then .assumes id.kind (id.resource ++ ":assigned")
  else id

/-- How the namespace `assumes` is written: like the end of the other form. -/
theorem formChars_assumes :
    formChars (.assigned (.inNamespace "assumes")) = ":assigned".toList ++ assumesSuffix := by
  decide

theorem toChars_asRead (id : EntitlementId) : id.asRead.toChars = id.toChars := by
  unfold asRead
  split
  next h =>
    simp only [toChars, h, formChars_assumes, assumes, String.toList_append, List.append_assoc,
      List.cons_append]
    rfl
  next => rfl

/-- What follows the kind reads back as the resource and the form. -/
theorem ofTail_toChars {id : EntitlementId} (h : id.WellFormed) :
    ofTail id.kind (id.resource.toList ++ formChars id.form) = .ok id.asRead := by
  have hres : id.resource.toList ≠ [] := by simpa using h.resource_nonempty
  obtain ⟨kind, resource, form⟩ := id
  cases form with
  | assumes =>
      have htail : dropTail assumesSuffix (resource.toList ++ assumesSuffix)
          = some resource.toList := dropTail_eq_some_iff.2 rfl
      simp only [ofTail, formChars, htail]
      rw [if_neg hres]
      simp [asRead]
  | assigned scope =>
      have hv : scope.Valid := h.form_valid
      by_cases hs : scope = .inNamespace "assumes"
      · subst hs
        -- The text ends with `:assumes`, so the marker goes to the resource.
        have htail : dropTail assumesSuffix
            (resource.toList ++ formChars (.assigned (.inNamespace "assumes")))
            = some (resource ++ ":assigned").toList := by
          rw [dropTail_eq_some_iff, formChars_assumes, String.toList_append, List.append_assoc]
        simp only [ofTail, htail]
        simp [asRead, assumes]
      · have hcut : splitLast assignedMarker
            (resource.toList ++ (assignedMarker ++ scope.toChars))
            = some (resource.toList, scope.toChars) := by
          simpa using splitLast_append (splitLast_scope hv) resource.toList
        simp only [ofTail, formChars, dropTail_assigned hv hs, hcut]
        rw [if_neg hres, if_neg (Scope.toChars_ne_nil hv), Scope.ofChars_toChars hv]
        simp [asRead, hs]

/-- The text of an id reads back as what it is taken for. -/
theorem decode_toString {id : EntitlementId} (h : id.WellFormed) :
    decode (toString id) = .ok id.asRead := by
  have hkind : id.kind.toList ≠ [] := by simpa using h.kind_nonempty
  have htext : (toString id).toList
      = id.kind.toList ++ ':' :: (id.resource.toList ++ formChars id.form) := by
    show (String.ofList id.toChars).toList = _
    rw [String.toList_ofList]
    simp [toChars]
  have hsplit : splitOnce ':' (toString id).toList
      = some (id.kind.toList, id.resource.toList ++ formChars id.form) :=
    splitOnce_eq_some_iff.2 ⟨htext, h.kind_colon⟩
  simp only [decode, ofChars, hsplit]
  rw [if_neg hkind, String.ofList_toList, ofTail_toChars h]

/-! ### Texts that read as an id -/

theorem toChars_of_ofChars? {raw : List Char} {scope : Scope}
    (h : Scope.ofChars? raw = some scope) : scope.toChars = raw := by
  unfold Scope.ofChars? at h
  by_cases hcluster : raw = Scope.clusterWord
  · rw [if_pos hcluster] at h
    obtain rfl := Option.some.inj h
    exact hcluster.symm
  · rw [if_neg hcluster] at h
    cases hescape : dropLead Scope.escape raw with
    | some name =>
        simp only [hescape] at h
        by_cases hname : name = Scope.clusterWord
        · rw [if_pos hname] at h
          obtain rfl := Option.some.inj h
          rw [dropLead_eq_some_iff.1 hescape, hname]
          rfl
        · rw [if_neg hname] at h
          cases h
    | none =>
        simp only [hescape] at h
        by_cases hlabel : Scope.isLabel raw = true
        · rw [if_pos hlabel] at h
          obtain rfl := Option.some.inj h
          simp [Scope.toChars, hcluster]
        · rw [if_neg hlabel] at h
          cases h

/-- What was read after a kind is written like this. -/
theorem eq_append_of_ofTail {kind : String} {tail : List Char} {id : EntitlementId}
    (h : ofTail kind tail = .ok id) :
    id.kind = kind ∧ tail = id.resource.toList ++ formChars id.form := by
  unfold ofTail at h
  cases hassumes : dropTail assumesSuffix tail with
  | some resource =>
      simp only [hassumes] at h
      by_cases hnil : resource = []
      · rw [if_pos hnil] at h
        cases h
      · rw [if_neg hnil] at h
        obtain rfl := Except.ok.inj h
        refine ⟨rfl, ?_⟩
        rw [dropTail_eq_some_iff.1 hassumes, String.toList_ofList]
        rfl
  | none =>
      simp only [hassumes] at h
      cases hcut : splitLast assignedMarker tail with
      | none =>
          simp only [hcut] at h
          cases h
      | some parts =>
          obtain ⟨resource, rawScope⟩ := parts
          simp only [hcut] at h
          by_cases hnil : resource = []
          · rw [if_pos hnil] at h
            cases h
          · rw [if_neg hnil] at h
            by_cases hempty : rawScope = []
            · rw [if_pos hempty] at h
              cases h
            · rw [if_neg hempty] at h
              cases hscope : Scope.ofChars? rawScope with
              | none =>
                  simp only [hscope] at h
                  cases h
              | some scope =>
                  simp only [hscope] at h
                  obtain rfl := Except.ok.inj h
                  refine ⟨rfl, ?_⟩
                  rw [eq_append_of_splitLast hcut, String.toList_ofList, List.append_assoc,
                    ← toChars_of_ofChars? hscope]
                  rfl

/-- A text that reads as an id is what the id is written as. -/
theorem toString_of_decode {raw : String} {id : EntitlementId} (h : decode raw = .ok id) :
    toString id = raw := by
  have hchars : ofChars raw.toList = .ok id := by
    unfold decode at h
    cases hread : ofChars raw.toList with
    | ok read =>
        simp only [hread] at h
        rw [Except.ok.inj h]
    | error defect =>
        simp only [hread] at h
        cases h
  unfold ofChars at hchars
  cases hsplit : splitOnce ':' raw.toList with
  | none =>
      simp only [hsplit] at hchars
      cases hchars
  | some parts =>
      obtain ⟨kind, tail⟩ := parts
      simp only [hsplit] at hchars
      by_cases hnil : kind = []
      · rw [if_pos hnil] at hchars
        cases hchars
      · rw [if_neg hnil] at hchars
        obtain ⟨hkind, htail⟩ := eq_append_of_ofTail hchars
        rw [← String.toList_inj, (splitOnce_eq_some_iff.1 hsplit).1, htail]
        show (String.ofList id.toChars).toList = _
        rw [String.toList_ofList, toChars, hkind, String.toList_ofList]
        simp

/-! ### Ids that share a text -/

theorem asRead_eq_self_iff {id : EntitlementId} :
    id.asRead = id ↔ id.form ≠ .assigned (.inNamespace "assumes") := by
  unfold asRead
  split
  next h =>
    refine ⟨?_, ?_⟩
    · intro heq
      have hform : (EntitlementId.assumes id.kind (id.resource ++ ":assigned")).form = id.form :=
        congrArg form heq
      rw [h] at hform
      cases hform
    · intro hne
      exact absurd h hne
  next h => exact ⟨fun _ => h, fun _ => rfl⟩

/-- Two ids have one text exactly when they are taken for the same id. -/
theorem toString_eq_iff {a b : EntitlementId} (ha : a.WellFormed) (hb : b.WellFormed) :
    toString a = toString b ↔ a.asRead = b.asRead := by
  refine ⟨?_, ?_⟩
  · intro h
    have hread := decode_toString ha
    rw [h, decode_toString hb] at hread
    exact (Except.ok.inj hread).symm
  · intro h
    show String.ofList a.toChars = String.ofList b.toChars
    rw [← toChars_asRead a, ← toChars_asRead b, h]

/-- The text of the first id is taken for the second: a membership in the namespace `assumes`, and
the right to assume the resource whose name goes on with the marker. -/
def TakenFor (a b : EntitlementId) : Prop :=
  a.form = .assigned (.inNamespace "assumes") ∧ b = .assumes a.kind (a.resource ++ ":assigned")

instance (a b : EntitlementId) : Decidable (a.TakenFor b) :=
  inferInstanceAs (Decidable (_ ∧ _))

theorem asRead_of_ne {id : EntitlementId} (h : id.form ≠ .assigned (.inNamespace "assumes")) :
    id.asRead = id := asRead_eq_self_iff.2 h

theorem asRead_of_eq {id : EntitlementId} (h : id.form = .assigned (.inNamespace "assumes")) :
    id.asRead = .assumes id.kind (id.resource ++ ":assigned") := if_pos h

/-- Two memberships in the namespace `assumes` are not taken for the same id. -/
theorem eq_of_asRead_eq {a b : EntitlementId} (ha : a.form = .assigned (.inNamespace "assumes"))
    (hb : b.form = .assigned (.inNamespace "assumes")) (h : a.asRead = b.asRead) : a = b := by
  rw [asRead_of_eq ha, asRead_of_eq hb] at h
  obtain ⟨kind, resource, form⟩ := a
  obtain ⟨kind', resource', form'⟩ := b
  simp only [assumes, mk.injEq, and_true] at h ha hb
  have hres : resource = resource' := by
    have hlist := congrArg String.toList h.2
    simp only [String.toList_append, List.append_cancel_right_eq] at hlist
    exact String.toList_inj.1 hlist
  rw [h.1, hres, ha, hb]

theorem TakenFor.asRead_eq {a b : EntitlementId} (h : a.TakenFor b) : a.asRead = b.asRead := by
  obtain ⟨ha, hb⟩ := h
  have hne : b.form ≠ .assigned (.inNamespace "assumes") := by
    intro hform
    rw [hb] at hform
    cases hform
  rw [asRead_of_eq ha, asRead_of_ne hne, hb]

/-- Ids that are taken for the same id are the same, or one of them is taken for the other. -/
theorem asRead_inj_iff {a b : EntitlementId} :
    a.asRead = b.asRead ↔ a = b ∨ a.TakenFor b ∨ b.TakenFor a := by
  refine ⟨?_, ?_⟩
  · intro h
    by_cases ha : a.form = .assigned (.inNamespace "assumes")
    · by_cases hb : b.form = .assigned (.inNamespace "assumes")
      · exact Or.inl (eq_of_asRead_eq ha hb h)
      · rw [asRead_of_eq ha, asRead_of_ne hb] at h
        exact Or.inr (Or.inl ⟨ha, h.symm⟩)
    · by_cases hb : b.form = .assigned (.inNamespace "assumes")
      · rw [asRead_of_ne ha, asRead_of_eq hb] at h
        exact Or.inr (Or.inr ⟨hb, h⟩)
      · rw [asRead_of_ne ha, asRead_of_ne hb] at h
        exact Or.inl h
  · intro h
    rcases h with rfl | htaken | htaken
    · rfl
    · exact htaken.asRead_eq
    · exact htaken.asRead_eq.symm

/--
**Writing and reading an id gives it back exactly when it is no membership in the
namespace `assumes`.**  Two ids never share a text, but for such a membership and the
right to assume that it is taken for.
-/
theorem decode_toString_eq_self_iff {a b : EntitlementId} (ha : a.WellFormed)
    (hb : b.WellFormed) :
    (decode (toString a) = .ok a ↔ a.form ≠ .assigned (.inNamespace "assumes")) ∧
      (toString a = toString b ↔ a = b ∨ a.TakenFor b ∨ b.TakenFor a) := by
  refine ⟨?_, ?_⟩
  · rw [decode_toString ha, Except.ok.injEq, asRead_eq_self_iff]
  · rw [toString_eq_iff ha hb, asRead_inj_iff]

/-- A resource may hold both markers, and the namespace be called like the cluster. -/
theorem decode_toString_markers_in_resource :
    (assigned "role" "a:assigned:b:assumes" (.inNamespace "cluster")).WellFormed ∧
      (assumes "role" "a:assigned:b:assumes:assigned:ns:cluster").WellFormed ∧
      decode (toString (assigned "role" "a:assigned:b:assumes" (.inNamespace "cluster")))
        = .ok (assigned "role" "a:assigned:b:assumes" (.inNamespace "cluster")) ∧
      toString (assigned "role" "a:assigned:b:assumes" (.inNamespace "cluster"))
        ≠ toString (assumes "role" "a:assigned:b:assumes:assigned:ns:cluster") := by
  have h := decode_toString_eq_self_iff
    (a := assigned "role" "a:assigned:b:assumes" (.inNamespace "cluster"))
    (b := assumes "role" "a:assigned:b:assumes:assigned:ns:cluster") (by decide) (by decide)
  refine ⟨by decide, by decide, h.1.2 (by decide), fun heq => ?_⟩
  exact absurd (h.2.1 heq) (by decide)

/-- A membership of `view` in the namespace `assumes` reads back as the right to assume another
resource, and shares its text with it. -/
theorem decode_toString_namespace_assumes :
    (assigned "cluster_role" "view" (.inNamespace "assumes")).WellFormed ∧
      (assumes "cluster_role" "view:assigned").WellFormed ∧
      decode (toString (assigned "cluster_role" "view" (.inNamespace "assumes")))
        = .ok (assumes "cluster_role" "view:assigned") ∧
      toString (assigned "cluster_role" "view" (.inNamespace "assumes"))
        = toString (assumes "cluster_role" "view:assigned") := by
  have ha : (assigned "cluster_role" "view" (.inNamespace "assumes")).WellFormed := by decide
  have hb : (assumes "cluster_role" "view:assigned").WellFormed := by decide
  exact ⟨ha, hb, decode_toString ha, (toString_eq_iff ha hb).2 (by decide)⟩

end EntitlementId

end ClusterAccess
