/-
Which texts read as an entitlement id.

The reader of ids takes just the texts that the writer gives for well-formed ids, and it loses
nothing of them: what it reads is well formed and is written back as the same text.  So the
grammar of ids is what the writer says it is, and a text outside of it is refused.

What a text is refused for most of all is its scope.  A scope is spelled in one of three ways
(`Scope.Spelled`).  A text that is no right to assume and that has none of them behind a marker
is no id, and the scope of the whole cluster is read only where it is spelled out.
-/
import ClusterAccess.Proofs.EntitlementCodec

namespace ClusterAccess

open Text

/-! ### Spellings of scopes -/

namespace Scope

/-- The ways to spell a scope: the word for the whole cluster, that word as the name of a
namespace, or any other name that a namespace can have. -/
inductive Spelled : String → Prop
  | cluster : Spelled "cluster"
  | escaped : Spelled "ns:cluster"
  | label {name : String} (h : Label name) (hne : name ≠ "cluster") : Spelled name

variable {scope : Scope} {raw : List Char}

/-- A scope that an id can have is spelled in one of these ways. -/
theorem spelled_toChars (h : scope.Valid) : Spelled (String.ofList scope.toChars) := by
  cases scope with
  | cluster => exact .cluster
  | inNamespace name =>
      by_cases hc : name.toList = clusterWord
      · simp only [toChars, hc, if_true]
        exact .escaped
      · simp only [toChars, hc, if_false, String.ofList_toList]
        refine .label h ?_
        intro hname
        exact hc (by rw [hname]; rfl)

/-- What reads as a scope is one that an id can have. -/
theorem valid_of_ofChars? (h : ofChars? raw = some scope) : scope.Valid := by
  unfold ofChars? at h
  by_cases hcluster : raw = clusterWord
  · rw [if_pos hcluster] at h
    obtain rfl := Option.some.inj h
    trivial
  · rw [if_neg hcluster] at h
    cases hescape : dropLead escape raw with
    | some name =>
        simp only [hescape] at h
        by_cases hname : name = clusterWord
        · rw [if_pos hname] at h
          obtain rfl := Option.some.inj h
          exact isLabel_iff.1 (by decide)
        · simp [hname] at h
    | none =>
        simp only [hescape] at h
        by_cases hlabel : isLabel raw = true
        · rw [if_pos hlabel] at h
          obtain rfl := Option.some.inj h
          show Label (String.ofList raw)
          rw [← isLabel_iff, String.toList_ofList]
          exact hlabel
        · simp [hlabel] at h

end Scope

namespace EntitlementId

variable {raw : String} {id : EntitlementId}

/-! ### What is read is well formed -/

/-- What follows a kind reads as an id with a resource, and with a scope that it can have. -/
theorem wellFormed_of_ofTail {kind : String} {tail : List Char} (hkind : kind ≠ "")
    (hcolon : ':' ∉ kind.toList) (h : ofTail kind tail = .ok id) : id.WellFormed := by
  unfold ofTail at h
  cases hassumes : dropTail assumesSuffix tail with
  | some resource =>
      simp only [hassumes] at h
      by_cases hnil : resource = []
      · simp [hnil] at h
      · rw [if_neg hnil] at h
        obtain rfl := Except.ok.inj h
        exact ⟨hkind, hcolon, by simpa using hnil, trivial⟩
  | none =>
      simp only [hassumes] at h
      cases hcut : splitLast assignedMarker tail with
      | none => simp [hcut] at h
      | some parts =>
          obtain ⟨resource, rawScope⟩ := parts
          simp only [hcut] at h
          by_cases hnil : resource = []
          · simp [hnil] at h
          · rw [if_neg hnil] at h
            by_cases hempty : rawScope = []
            · simp [hempty] at h
            · rw [if_neg hempty] at h
              cases hscope : Scope.ofChars? rawScope with
              | none => simp [hscope] at h
              | some scope =>
                  simp only [hscope] at h
                  obtain rfl := Except.ok.inj h
                  exact ⟨hkind, hcolon, by simpa using hnil, Scope.valid_of_ofChars? hscope⟩

theorem wellFormed_of_decode (h : decode raw = .ok id) : id.WellFormed := by
  have hchars : ofChars raw.toList = .ok id := by
    unfold decode at h
    cases hread : ofChars raw.toList with
    | ok read =>
        simp only [hread] at h
        rw [Except.ok.inj h]
    | error defect => simp [hread] at h
  unfold ofChars at hchars
  cases hsplit : splitOnce ':' raw.toList with
  | none => simp [hsplit] at hchars
  | some parts =>
      obtain ⟨kind, tail⟩ := parts
      simp only [hsplit] at hchars
      by_cases hnil : kind = []
      · simp [hnil] at hchars
      · rw [if_neg hnil] at hchars
        refine wellFormed_of_ofTail (by simpa using hnil) ?_ hchars
        rw [String.toList_ofList]
        exact (splitOnce_eq_some_iff.1 hsplit).2

/-- A text that is not read is refused for one of the defects, and the fault names the text. -/
theorem exists_defect_of_not_ok (h : ∀ id, decode raw ≠ .ok id) :
    ∃ defect : Defect, decode raw = .error (.invalidEntitlement raw defect.message) := by
  unfold decode at h ⊢
  cases hread : ofChars raw.toList with
  | ok read =>
      simp only [hread] at h
      exact absurd rfl (h read)
  | error defect => exact ⟨defect, rfl⟩

/-- **A text reads as an id exactly when it is the id's text**, but for the memberships in the
namespace `assumes`, whose texts are taken for another id. -/
theorem decode_eq_ok_iff : decode raw = .ok id ↔
    id.WellFormed ∧ toString id = raw ∧ id.form ≠ .assigned (.inNamespace "assumes") := by
  constructor
  · intro h
    have hwf := wellFormed_of_decode h
    have htext := toString_of_decode h
    refine ⟨hwf, htext, asRead_eq_self_iff.1 ?_⟩
    rw [← htext, decode_toString hwf] at h
    exact Except.ok.inj h
  · intro h
    obtain ⟨hwf, rfl, hform⟩ := h
    rw [decode_toString hwf, asRead_eq_self_iff.2 hform]

/-! ### Texts by their parts -/

theorem toString_eq_append (id : EntitlementId) :
    toString id = id.kind ++ ":" ++ id.resource ++ String.ofList (formChars id.form) := by
  have hchars : id.toChars =
      (id.kind ++ ":" ++ id.resource ++ String.ofList (formChars id.form)).toList := by
    unfold toChars
    simp only [String.toList_append, String.toList_ofList, List.append_assoc]
    rfl
  exact (congrArg String.ofList hchars).trans String.ofList_toList

theorem ofList_formChars_assigned (scope : Scope) :
    String.ofList (formChars (.assigned scope)) = ":assigned:" ++ String.ofList scope.toChars :=
  String.ofList_append

/-- An id is a right to assume, or it has a scope that is spelled behind a marker. -/
theorem WellFormed.ends (h : id.WellFormed) :
    (∃ front, toString id = front ++ ":assumes") ∨
      ∃ front scope, toString id = front ++ ":assigned:" ++ scope ∧ Scope.Spelled scope := by
  obtain ⟨kind, resource, form⟩ := id
  cases form with
  | assumes => exact Or.inl ⟨_, toString_eq_append _⟩
  | assigned scope =>
      refine Or.inr ⟨kind ++ ":" ++ resource, _, ?_, Scope.spelled_toChars h.form_valid⟩
      rw [toString_eq_append, ofList_formChars_assigned, ← String.append_assoc]

/--
**The reader accepts exactly the texts of well-formed ids, and loses nothing of them.**  The whole
cluster is the scope only of texts that end with the marker and the word for it.  A text that
is no right to assume, and in which no scope is spelled behind a marker, is refused.
-/
theorem decode_accepts_exactly (raw : String) :
    ((∃ id, decode raw = .ok id) ↔ ∃ id : EntitlementId, id.WellFormed ∧ toString id = raw) ∧
      (∀ id, decode raw = .ok id → id.WellFormed ∧ toString id = raw) ∧
      (∀ id, decode raw = .ok id → id.form = .assigned .cluster →
        ∃ kind resource, kind ≠ "" ∧ ':' ∉ kind.toList ∧ resource ≠ "" ∧
          raw = kind ++ ":" ++ resource ++ ":assigned:cluster") ∧
      ((∀ front, raw ≠ front ++ ":assumes") →
        (∀ front scope, raw = front ++ ":assigned:" ++ scope → ¬Scope.Spelled scope) →
          ∃ defect : Defect, decode raw = .error (.invalidEntitlement raw defect.message)) := by
  have hsound : ∀ id, decode raw = .ok id → id.WellFormed ∧ toString id = raw := by
    intro id h
    obtain ⟨hwf, htext, -⟩ := decode_eq_ok_iff.1 h
    exact ⟨hwf, htext⟩
  refine ⟨⟨?_, ?_⟩, hsound, ?_, ?_⟩
  · intro h
    obtain ⟨id, h⟩ := h
    exact ⟨id, hsound id h⟩
  · intro h
    obtain ⟨id, hwf, rfl⟩ := h
    exact ⟨id.asRead, decode_toString hwf⟩
  · intro id h hform
    obtain ⟨hwf, htext⟩ := hsound id h
    obtain ⟨kind, resource, form⟩ := id
    obtain rfl : form = .assigned .cluster := hform
    refine ⟨kind, resource, hwf.kind_nonempty, hwf.kind_colon, hwf.resource_nonempty, ?_⟩
    rw [← htext]
    exact toString_eq_append _
  · intro hassumes hscope
    refine exists_defect_of_not_ok ?_
    intro id h
    obtain ⟨hwf, htext⟩ := hsound id h
    rcases hwf.ends with ⟨front, hend⟩ | ⟨front, scope, hend, hspelled⟩
    · exact hassumes front (htext.symm.trans hend)
    · exact hscope front scope (htext.symm.trans hend) hspelled

end EntitlementId

end ClusterAccess
