/-
Appending a self-mapping touches nothing else.

Reading the document is lenient and writing it is strict: a row that no reader understands is
kept when its list is written anew, and a list that does not parse is never written over.  So
an append either fails, and leaves the document as it was, or it leaves a document that
differs by one row (`GainsRow`): the list of its section has that row at the end, the other
entries are the same texts, and nobody but the principal of the row can have another username.

Whether the list that was written is read back as it was meant is the business of the YAML
library (`ReadsBack`).
-/
import ClusterAccess.Proofs.SelfMappings

namespace ClusterAccess

/-- Setting an entry leaves the others as they are, in their order. -/
theorem filter_setText (key text : String) (data : List (String × String)) :
    (setText key text data).filter (fun entry => entry.1 ≠ key) =
      data.filter fun entry => entry.1 ≠ key := by
  induction data with
  | nil => simp [setText]
  | cons entry rest ih =>
      unfold setText
      by_cases hentry : entry.1 = key
      · simp [hentry]
      · rw [if_neg hentry, List.filter_cons, List.filter_cons, ih]

namespace AwsAuth

variable {document changed : AwsAuth} {part : Section} {principal : String} {values : List Yaml}
  {fault : Fault}

/-! ### Appending in place -/

/-- Appends a self-mapping to a document that is held.  It is written over last, when everything
else has succeeded. -/
def appendInPlace (principal : String) : ExceptT Fault (StateM AwsAuth) Unit := do
  let document ← get
  let changed ← ofOutcome (document.appendSelf principal)
  set changed

/-- What an append in place gives, and the document that it leaves. -/
def afterAppend (document : AwsAuth) (principal : String) : Outcome Unit × AwsAuth :=
  (appendInPlace principal).run.run document

/-- An append in place does what the append does, or nothing. -/
theorem afterAppend_eq (document : AwsAuth) (principal : String) :
    document.afterAppend principal =
      match document.appendSelf principal with
      | .ok changed => (.ok (), changed)
      | .error fault => (.error fault, document) := by
  show ((ofOutcome (document.appendSelf principal) >>= set :
    ExceptT Fault (StateM AwsAuth) Unit).run.run document) = _
  generalize document.appendSelf principal = outcome
  cases outcome <;> rfl

/-! ### Failing -/

/-- Why an append fails. -/
inductive Refuses (document : AwsAuth) (principal : String) : Fault → Prop
  /-- The principal is neither a user nor a role. -/
  | unsupported (h : Arn.classify principal = .unsupported) :
      Refuses document principal (unsupportedPrincipal principal)
  /-- The list of its section does not parse. -/
  | unreadable {part : Section} {raw : String} (hpart : Section.ofPrincipal? principal = some part)
      (hentry : document.data.lookup part.key = some raw) (hraw : Text.allBlank raw = false)
      (hparse : Yaml.parseList? raw = none) :
      Refuses document principal
        (.malformed (document.ns ++ "/" ++ document.name ++ " " ++ part.key) "not a list")

theorem ofPrincipal?_eq_none_iff :
    Section.ofPrincipal? principal = none ↔ Arn.classify principal = .unsupported := by
  unfold Section.ofPrincipal?
  cases Arn.classify principal <;> simp

/-- The principals that have their rows in a section. -/
def Section.kind : Section → PrincipalKind
  | .users => .user
  | .roles => .role

theorem ofPrincipal?_eq_some_iff :
    Section.ofPrincipal? principal = some part ↔ Arn.classify principal = part.kind := by
  unfold Section.ofPrincipal?
  cases Arn.classify principal <;> cases part <;> simp [Section.kind]

theorem values_of_entry {raw : String} (hentry : document.data.lookup part.key = some raw)
    (hraw : Text.allBlank raw = false) (hparse : Yaml.parseList? raw = some values) :
    document.values part = .ok values := by
  unfold AwsAuth.values
  simp [hentry, hraw, hparse]

/-- The values of a section cannot be had only if its entry is there and does not parse. -/
theorem values_eq_error_iff : document.values part = .error fault ↔
    ∃ raw, document.data.lookup part.key = some raw ∧ Text.allBlank raw = false ∧
      Yaml.parseList? raw = none ∧
        fault =
          .malformed (document.ns ++ "/" ++ document.name ++ " " ++ part.key) "not a list" := by
  unfold AwsAuth.values
  cases hentry : document.data.lookup part.key with
  | none => simp
  | some raw =>
      cases hblank : Text.allBlank raw with
      | true => simp [hblank]
      | false =>
          cases hparse : Yaml.parseList? raw with
          | none =>
              simp only [hblank, hparse, Bool.false_eq_true, if_false, Except.error.injEq]
              exact ⟨fun h => ⟨raw, rfl, hblank, hparse, h.symm⟩, fun ⟨_, _, _, _, h⟩ => h.symm⟩
          | some values => simp [hblank, hparse]

theorem appendSelf_eq_error_iff :
    document.appendSelf principal = .error fault ↔ document.Refuses principal fault := by
  refine ⟨fun h => ?_, fun h => ?_⟩
  · unfold appendSelf at h
    cases hpart : Section.ofPrincipal? principal with
    | none =>
        rw [hpart] at h
        cases h
        exact .unsupported (ofPrincipal?_eq_none_iff.1 hpart)
    | some part =>
        rw [hpart] at h
        cases hvalues : document.values part with
        | ok values => simp [hvalues, bind, Except.bind] at h
        | error reason =>
            simp only [hvalues, bind, Except.bind, Except.error.injEq] at h
            obtain ⟨raw, hentry, hraw, hparse, hreason⟩ := values_eq_error_iff.1 hvalues
            rw [← h, hreason]
            exact .unreadable hpart hentry hraw hparse
  · cases h with
    | unsupported h => simp [appendSelf, ofPrincipal?_eq_none_iff.2 h]
    | unreadable hpart hentry hraw hparse =>
        have hvalues := values_eq_error_iff.2 ⟨_, hentry, hraw, hparse, rfl⟩
        simp [appendSelf, hpart, hvalues, bind, Except.bind]

/-! ### Succeeding -/

/-- One section has one row more, and everything else is as it was. -/
structure GainsRow (document changed : AwsAuth) (part : Section) (principal : String) : Prop where
  /-- Users have their rows in the one section and roles in the other. -/
  kind : Arn.classify principal = part.kind
  /-- The values of the list are kept, understood or not, and a row comes after them. -/
  values : ∃ values, document.values part = .ok values ∧
    changed.values part = .ok (values ++ [selfRow part principal])
  /-- That row maps the principal to itself. -/
  rows : changed.rowsOf part = document.rowsOf part ++ [⟨principal, some principal, []⟩]
  /-- The other entries are the same texts in the same order. -/
  entries : changed.data.filter (fun entry => entry.1 ≠ part.key) =
    document.data.filter fun entry => entry.1 ≠ part.key
  ns : changed.ns = document.ns
  name : changed.name = document.name
  resourceVersion : changed.resourceVersion = document.resourceVersion
  others : ∀ someone, someone ≠ principal →
    changed.findUsername? someone = document.findUsername? someone
  own : document.findUsername? principal = none →
    changed.findUsername? principal = some principal

theorem gainsRow_of_appendSelf (h : document.appendSelf principal = .ok changed)
    (hback : document.ReadsBack principal) : ∃ part, document.GainsRow changed part principal := by
  have hown := findUsername?_appendSelf h
  obtain ⟨part, values, hpart, hvalues, rfl⟩ := appendSelf_eq_ok_iff.1 h
  have hchanged : (document.withSelf part values principal).values part =
      .ok (values ++ [selfRow part principal]) :=
    values_withSelf (hback part values hpart hvalues)
  have hself := rowsOf_of_values (ne_empty_of_section hpart) hvalues hchanged
  obtain ⟨before, rest, hbefore, hafter⟩ :=
    rows_of_rowsOf hself fun part' hpart' => rowsOf_withSelf hpart'
  exact ⟨part, {
    kind := ofPrincipal?_eq_some_iff.1 hpart
    values := ⟨values, hvalues, hchanged⟩
    rows := hself
    entries := filter_setText part.key _ document.data
    ns := rfl
    name := rfl
    resourceVersion := rfl
    others := fun _ hne => findUsername?_of_rows hbefore hafter hne
    own := fun hfind => hown hfind hback }⟩

/-- **Appending a self-mapping touches nothing else.**  If the list is read back as it was
written, an append in place that succeeds leaves a document that has gained the row of a user or
a role and is otherwise the same, and one that fails, because the principal is neither or the list
of its section does not parse, leaves the document as it was. -/
theorem afterAppend_touches_nothing_else (hback : document.ReadsBack principal) :
    (∀ after, document.afterAppend principal = (.ok (), after) →
        ∃ part, document.GainsRow after part principal) ∧
      ∀ fault after, document.afterAppend principal = (.error fault, after) →
        after = document ∧ document.Refuses principal fault := by
  rw [afterAppend_eq]
  cases happend : document.appendSelf principal with
  | ok changed =>
      refine ⟨fun after h => ?_, nofun⟩
      obtain rfl := (Prod.mk.inj h).2
      exact gainsRow_of_appendSelf happend hback
  | error fault =>
      refine ⟨nofun, fun _ after h => ?_⟩
      obtain ⟨hfault, rfl⟩ := Prod.mk.inj h
      exact ⟨rfl, appendSelf_eq_error_iff.1 (Except.error.inj hfault ▸ happend)⟩

/-- A document whose list of users is a text that is no row, next to an entry of somebody else. -/
def legacy : AwsAuth :=
  ⟨"kube-system", "aws-auth", some "7", [("mapUsers", "- legacy"), ("mapAccounts", "- '1'")]⟩

/-- The values that come after a text. -/
def afterText (text : String) : Option (List Yaml) → Option (List Yaml)
  | some (.string first :: rest) => if first = text then some rest else none
  | _ => none

theorem eq_of_afterText {text : String} {found : Option (List Yaml)} {rest : List Yaml}
    (h : afterText text found = some rest) : found = some (.string text :: rest) := by
  unfold afterText at h
  split at h
  · next first others =>
      split at h
      · next hfirst => rw [hfirst, Option.some.inj h]
      · cases h
  · cases h

theorem values_legacy : legacy.values .users = .ok [.string "legacy"] := by
  have hnone : (afterText "legacy" (Yaml.parseList? "- legacy")).map List.isEmpty = some true := by
    decide +kernel
  obtain ⟨rest, hrest, hempty⟩ := Option.map_eq_some_iff.1 hnone
  obtain rfl := List.isEmpty_iff.1 hempty
  exact values_of_entry rfl (by decide) (eq_of_afterText hrest)

/-- The list with the text and the row of a user is read back. -/
theorem readsBack_legacy : legacy.ReadsBack alice := by
  intro part values hpart hvalues
  obtain rfl := Option.some.inj (section_alice.symm.trans hpart)
  obtain rfl := Except.ok.inj (values_legacy.symm.trans hvalues)
  have hrow : mapsOnly alice (afterText "legacy"
      (Yaml.parseList? (Yaml.renderList [.string "legacy", selfRow .users alice]))) = true := by
    decide +kernel
  exact eq_of_afterText (eq_of_mapsOnly hrow)

theorem legacy_gains_alice : ∃ after, legacy.afterAppend alice = (.ok (), after) ∧
    ∃ part, legacy.GainsRow after part alice := by
  obtain ⟨changed, happend⟩ : ∃ changed, legacy.appendSelf alice = .ok changed :=
    ⟨_, appendSelf_eq_ok_iff.2 ⟨.users, _, section_alice, values_legacy, rfl⟩⟩
  have hafter := afterAppend_eq legacy alice
  rw [happend] at hafter
  exact ⟨changed, hafter, (afterAppend_touches_nothing_else readsBack_legacy).1 changed hafter⟩

end AwsAuth

end ClusterAccess
