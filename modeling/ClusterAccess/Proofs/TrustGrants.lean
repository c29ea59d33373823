/-
Whom a trust policy trusts, and what is granted for it.

The principals that are read off an escaped document are those of the statements that allow the
role to be assumed, in their order and as often as they are named (`Trusted`).  It does not matter
which of the values stand in lists, and a role is granted to the users among the principals and to
nobody else; a document that does not come or cannot be read grants nothing.  All of this is put
together in `trusts_exactly_in_every_form`.

There is one statement that is not read in a list although it is read alone: one that is nested as
deep as the reader goes (`trusts_deep_alone`).
-/
import ClusterAccess.Catalog.TrustedUsers
import ClusterAccess.Json.Writer
import ClusterAccess.Proofs.ArnGrammar
import ClusterAccess.Proofs.FormText
import ClusterAccess.Proofs.TrustForms

namespace ClusterAccess.TrustPolicy

open Text Catalog

variable {raw changed : String} {document other : Json} {statements : List Statement}
  {principals : List String}

/-! ### Whom the statements trust -/

/-- The words are the same but for the case of their letters. -/
def SameWord (word other : String) : Prop :=
  word.toList.map Char.toLower = other.toList.map Char.toLower

/-- The statement allows the role to be assumed. -/
def Statement.Allows (statement : Statement) : Prop :=
  statement.effect = "Allow" ∧ ∃ action ∈ statement.actions, SameWord action "sts:AssumeRole"

/-- The principals of the statements that allow it, one after another. -/
inductive Trusted : List Statement → List String → Prop
  | nobody : Trusted [] []
  | allows {statement : Statement} {statements : List Statement} {principals : List String}
      (h : statement.Allows) (hrest : Trusted statements principals) :
      Trusted (statement :: statements) (statement.principals ++ principals)
  | passes {statement : Statement} {statements : List Statement} {principals : List String}
      (h : ¬statement.Allows) (hrest : Trusted statements principals) :
      Trusted (statement :: statements) principals

theorem isAssumeRole_iff {action : String} :
    isAssumeRole action = true ↔ SameWord action "sts:AssumeRole" :=
  decide_eq_true_iff

theorem allows_iff {statement : Statement} :
    statement.Allows ↔ statement.effect = "Allow" ∧ statement.actions.any isAssumeRole = true := by
  rw [List.any_eq_true]
  exact and_congr_right fun _ => exists_congr fun _ => and_congr_right fun _ =>
    isAssumeRole_iff.symm

theorem trusted_iff : Trusted statements principals ↔
    statements.flatMap Statement.trusted = principals := by
  induction statements generalizing principals with
  | nil =>
      refine ⟨fun h => ?_, fun h => ?_⟩
      · cases h
        rfl
      · cases h
        exact .nobody
  | cons statement statements ih =>
      rw [List.flatMap_cons]
      by_cases hallows : statement.Allows
      · rw [Statement.trusted, if_pos (allows_iff.1 hallows)]
        refine ⟨fun h => ?_, fun h => ?_⟩
        · cases h with
          | allows _ hrest => rw [ih.1 hrest]
          | passes h => exact absurd hallows h
        · cases h
          exact .allows hallows (ih.2 rfl)
      · rw [Statement.trusted, if_neg (mt allows_iff.2 hallows), List.nil_append]
        refine ⟨fun h => ?_, fun h => .passes hallows (ih.2 h)⟩
        cases h with
        | allows h => exact absurd h hallows
        | passes _ hrest => exact ih.1 hrest

/-! ### Reading an escaped document -/

/-- Without its escapes the text is this JSON document. -/
def Holds (raw : String) (document : Json) : Prop :=
  ∃ text, decodeDocument raw = .ok text ∧ Json.parse? text = some document

theorem trustedPrincipals_of_decoded {text : String} (h : decodeDocument raw = .ok text) :
    trustedPrincipals raw = ((Json.parse? text).bind readPolicy).elim
      (.error (.malformed documentName "not a policy document"))
      fun statements => .ok (statements.flatMap Statement.trusted) := by
  unfold trustedPrincipals
  rw [h]
  simp only [bind, Except.bind]
  cases (Json.parse? text).bind readPolicy <;> rfl

/-- **The document trusts exactly the principals of the statements that it says.** -/
theorem trustedPrincipals_eq_ok_iff : trustedPrincipals raw = .ok principals ↔
    ∃ document statements, Holds raw document ∧ Document document statements ∧
      Trusted statements principals := by
  refine ⟨fun h => ?_, ?_⟩
  · cases hdecode : decodeDocument raw with
    | error fault =>
        unfold trustedPrincipals at h
        rw [hdecode] at h
        cases h
    | ok text =>
        rw [trustedPrincipals_of_decoded hdecode] at h
        cases hread : (Json.parse? text).bind readPolicy with
        | none =>
            rw [hread] at h
            cases h
        | some statements =>
            rw [hread] at h
            obtain ⟨document, hparse, hread⟩ := Option.bind_eq_some_iff.1 hread
            exact ⟨document, statements, ⟨text, hdecode, hparse⟩, readPolicy_iff.1 hread,
              trusted_iff.2 (Except.ok.inj h)⟩
  · rintro ⟨document, statements, ⟨text, hdecode, hparse⟩, hmeans, htrusted⟩
    rw [trustedPrincipals_of_decoded hdecode, hparse, Option.bind_some, readPolicy_iff.2 hmeans]
    exact congrArg Except.ok (trusted_iff.1 htrusted)

theorem Holds.unique (h : Holds raw document) (hother : Holds raw other) : document = other := by
  obtain ⟨text, hdecode, hparse⟩ := h
  obtain ⟨text', hdecode', hparse'⟩ := hother
  cases hdecode.symm.trans hdecode'
  exact Option.some.inj (hparse.symm.trans hparse')

theorem Holds.malformed (h : Holds raw document)
    (hmeans : ∀ statements, ¬Document document statements) :
    trustedPrincipals raw = .error (.malformed documentName "not a policy document") := by
  have hread : readPolicy document = none :=
    Option.eq_none_iff_forall_ne_some.2 fun statements hread =>
      hmeans statements (readPolicy_iff.1 hread)
  obtain ⟨text, hdecode, hparse⟩ := h
  rw [trustedPrincipals_of_decoded hdecode, hparse, Option.bind_some, hread]
  rfl

/-- A document without escapes and plus signs is what it is. -/
theorem decodeDocument_of_plain (h : raw.toList.all (fun c => c != '%' && c != '+')) :
    decodeDocument raw = .ok raw := by
  have hform : percentDecode? (raw.toList.map fun c => if c = '+' then ' ' else c) = some raw :=
    readForm?_of_plain h
  unfold decodeDocument
  rw [hform]

theorem parse?_render (document : Json) :
    Json.parse? document.render = (Json.tokens? document.write).bind Json.ofTokens? := by
  unfold Json.parse? Json.render
  rw [String.toList_ofList]

theorem decodeDocument_render (h : document.write.all (fun c => c != '%' && c != '+')) :
    decodeDocument document.render = .ok document.render := by
  refine decodeDocument_of_plain ?_
  unfold Json.render
  rwa [String.toList_ofList]

theorem holds_render (hplain : document.write.all (fun c => c != '%' && c != '+'))
    (hparse : (Json.tokens? document.write).bind Json.ofTokens? = some document) :
    Holds document.render document :=
  ⟨document.render, decodeDocument_render hplain, (parse?_render document).trans hparse⟩

/-! ### The same in other forms -/

/-- A document that says what another one says trusts whom the other one trusts. -/
theorem trusts_alike (hraw : Holds raw document) (hchanged : Holds changed other)
    (hsame : ∀ {statements}, Document document statements → Document other statements)
    (h : trustedPrincipals raw = .ok principals) : trustedPrincipals changed = .ok principals := by
  obtain ⟨_, statements, hholds, hmeans, htrusted⟩ := trustedPrincipals_eq_ok_iff.1 h
  cases hraw.unique hholds
  exact trustedPrincipals_eq_ok_iff.2 ⟨other, statements, hchanged, hsame hmeans, htrusted⟩

theorem malformed_of_not_held (hholds : Holds raw document) (hheld : ¬Held document) :
    trustedPrincipals raw = .error (.malformed documentName "not a policy document") := by
  refine hholds.malformed fun statements hmeans => ?_
  cases hmeans with
  | intro _ _ hdocument => exact hheld hdocument

/-! ### Grants -/

/-- The users among the principals are granted the entitlement to assume the role. -/
inductive Granted (arn : String) : List String → List Grant → Prop
  | nobody : Granted arn [] []
  | user {user : String} {principals : List String} {grants : List Grant}
      (h : Arn.classify user = .user) (hrest : Granted arn principals grants) :
      Granted arn (user :: principals)
        (⟨toString (EntitlementId.assumes "iam_role" arn), ⟨"iam_user", user⟩, []⟩ :: grants)
  | other {principal : String} {principals : List String} {grants : List Grant}
      (h : Arn.classify principal ≠ .user) (hrest : Granted arn principals grants) :
      Granted arn (principal :: principals) grants

theorem granted_trustGrants (arn : String) (principals : List String) :
    Granted arn principals (trustGrants arn principals) := by
  unfold trustGrants
  induction principals with
  | nil => exact .nobody
  | cons principal principals ih =>
      by_cases huser : Arn.classify principal = .user
      · simp only [List.filter_cons, huser, decide_true, if_true, List.map_cons]
        exact .user huser ih
      · simp only [List.filter_cons, huser, decide_false, Bool.false_eq_true, if_false]
        exact .other huser ih

/-- The grants of a role are read off the trust policy of its name. -/
theorem iamRoleGrants_run {resource : Resource}
    (hrole : Arn.classify resource.id.resource = .role) :
    ∃ name, Arn.roleName? resource.id.resource = some name ∧
      (iamRoleGrants resource).run = .call (.getTrustPolicy name) fun reply =>
        .done (.ok (trustGrants resource.id.resource (trustedBy reply))) := by
  obtain ⟨name, hname⟩ := Arn.exists_roleName hrole
  refine ⟨name, hname, ?_⟩
  unfold iamRoleGrants
  dsimp only
  split
  · next hnone => cases hname.symm.trans hnone
  · next found hfound =>
      cases hname.symm.trans hfound
      rfl

/-- What is answered when it is asked who may assume a role, for each reply to the request for its
trust policy. -/
structure Answers (arn : String) (answer : Outcome String → Outcome (List Grant)) : Prop where
  granted : ∀ raw principals, trustedPrincipals raw = .ok principals →
    ∃ grants, Granted arn principals grants ∧ answer (.ok raw) = .ok grants
  /-- A document that cannot be read grants nothing, and is no reason to fail. -/
  unreadable : ∀ raw fault, trustedPrincipals raw = .error fault → answer (.ok raw) = .ok []
  /-- Neither is one that cannot be fetched. -/
  unfetched : ∀ fault, answer (.error fault) = .ok []

theorem answers_trustGrants (arn : String) :
    Answers arn fun reply => .ok (trustGrants arn (trustedBy reply)) where
  granted raw principals h := by
    refine ⟨trustGrants arn principals, granted_trustGrants arn principals, ?_⟩
    simp only [trustedBy, h]
  unreadable raw fault h := by
    simp only [trustedBy, h]
    rfl
  unfetched _ := rfl

/-! ### Exactly these, in every form -/

/-- **A trust policy trusts exactly the principals of the statements that allow it, whichever of its
values stand in lists, and a role is granted to the users among them.** -/
theorem trusts_exactly_in_every_form :
    (∀ raw principals, trustedPrincipals raw = .ok principals ↔
      ∃ document statements, Holds raw document ∧ Document document statements ∧
        Trusted statements principals) ∧
    (∀ raw document statements, Holds raw document → Document document statements →
      ∃ principals, trustedPrincipals raw = .ok principals) ∧
    (∀ raw changed document other principals, Holds raw document → Holds changed other →
      trustedPrincipals raw = .ok principals →
        (Rewritten "Statement" 0 PartListed document other →
          trustedPrincipals changed = .ok principals) ∧
        (Rewritten "Statement" 0 (Listed Says) document other →
          (Held other → trustedPrincipals changed = .ok principals) ∧
          (¬Held other → trustedPrincipals changed =
            .error (.malformed documentName "not a policy document")))) ∧
    ∀ resource : Resource, Arn.classify resource.id.resource = .role →
      ∃ name, ∃ answer : Outcome String → Outcome (List Grant),
        Arn.roleName? resource.id.resource = some name ∧
        (iamRoleGrants resource).run =
          .call (.getTrustPolicy name) (fun reply => .done (answer reply)) ∧
        Answers resource.id.resource answer := by
  refine ⟨fun _ _ => trustedPrincipals_eq_ok_iff, ?_, ?_, ?_⟩
  · intro raw document statements hholds hmeans
    exact ⟨statements.flatMap Statement.trusted, trustedPrincipals_eq_ok_iff.2
      ⟨document, statements, hholds, hmeans, trusted_iff.2 rfl⟩⟩
  · intro raw changed document other principals hraw hchanged h
    refine ⟨fun hpart => ?_, fun hlist => ⟨fun hheld => ?_, malformed_of_not_held hchanged⟩⟩
    · exact trusts_alike hraw hchanged (.of_partListed hpart) h
    · exact trusts_alike hraw hchanged (.of_statementListed hlist · hheld) h
  · intro resource hrole
    obtain ⟨name, hname, hrun⟩ := iamRoleGrants_run hrole
    exact ⟨name, _, hname, hrun, answers_trustGrants resource.id.resource⟩

/-- A policy of one statement. -/
def policyOf (statement : Json) : Json :=
  .object [("Statement", statement)]

/-- A statement that trusts these accounts. -/
def trusting (accounts : Json) : Json :=
  .object [("Effect", .string "Allow"), ("Action", .string "sts:AssumeRole"),
    ("Principal", .object [("AWS", accounts)])]

/-- A user. -/
def alice : String := "arn:aws:iam::1:user/alice"

theorem trusts_alice_in_every_form :
    trustedPrincipals (policyOf (trusting (.string alice))).render = .ok [alice] ∧
    trustedPrincipals (policyOf (trusting (.array [.string alice]))).render = .ok [alice] ∧
    trustedPrincipals (policyOf (.array [trusting (.string alice)])).render = .ok [alice] ∧
    ∃ name, ∃ answer : Outcome String → Outcome (List Grant),
      Arn.roleName? "arn:aws:iam::1:role/b" = some name ∧
      (iamRoleGrants ⟨⟨"iam_role", "arn:aws:iam::1:role/b"⟩, "b", []⟩).run =
        .call (.getTrustPolicy name) (fun reply => .done (answer reply)) ∧
      answer (.ok (policyOf (trusting (.string alice))).render) =
        .ok [⟨toString (EntitlementId.assumes "iam_role" "arn:aws:iam::1:role/b"),
          ⟨"iam_user", alice⟩, []⟩] := by
  obtain ⟨hexact, -, halike, hgrants⟩ := trusts_exactly_in_every_form
  have halone : Holds (policyOf (trusting (.string alice))).render _ :=
    holds_render (by decide +kernel) rfl
  have haccounts : Holds (policyOf (trusting (.array [.string alice]))).render _ :=
    holds_render (by decide +kernel) rfl
  have hstatement : Holds (policyOf (.array [trusting (.string alice)])).render _ :=
    holds_render (by decide +kernel) rfl
  have hmeans : Document (policyOf (trusting (.string alice)))
      [⟨"Allow", ["sts:AssumeRole"], [alice]⟩] := readPolicy_iff.1 rfl
  have htrusts := (hexact _ _).2 ⟨_, _, halone, hmeans, trusted_iff.2 rfl⟩
  refine ⟨htrusts, ?_, ?_, ?_⟩
  · have hplace : Rewritten "Principal" 2 (Rewritten "AWS" 0 (Listed IsText))
        (trusting (.string alice)) (trusting (.array [.string alice])) :=
      @Rewritten.named _ _ _ [_, _] [] _ _ (@Rewritten.named _ _ _ [] [] _ _ (.intro rfl))
    exact (halike _ _ _ _ _ halone haccounts htrusts).1 (@Rewritten.named _ _ _ [] [] _ _
      (.sole ((readStatement_iff _ _).1 rfl) (.accounts hplace)))
  · refine ((halike _ _ _ _ _ halone hstatement htrusts).2 (@Rewritten.named _ _ _ [] [] _ _
      (.intro ((readStatement_iff _ _).1 rfl)))).1 ?_
    rintro _ ⟨⟩
    rfl
  · obtain ⟨name, answer, hname, hrun, hanswers⟩ :=
      hgrants ⟨⟨"iam_role", "arn:aws:iam::1:role/b"⟩, "b", []⟩ (by decide +kernel)
    obtain ⟨grants, hgranted, hanswer⟩ := hanswers.granted _ _ htrusts
    refine ⟨name, answer, hname, hrun, hanswer.trans (congrArg _ ?_)⟩
    cases hgranted with
    | user huser hrest =>
        cases hrest
        rfl
    | other hother => exact absurd (by decide +kernel) hother

/-- A list in a list, of this many levels. -/
def nested : Nat → Json
  | 0 => .array []
  | levels + 1 => .array [nested levels]

/-- A statement that trusts everybody, nested as deep as can be read. -/
def deepStatement : Json :=
  .object [("Effect", .string "Allow"), ("Action", .string "sts:AssumeRole"),
    ("Principal", .string "*"), ("Condition", nested 124)]

/-- Put in a list the statement is too deep. -/
theorem trusts_deep_alone :
    Rewritten "Statement" 0 (Listed Says) (policyOf deepStatement)
      (policyOf (.array [deepStatement])) ∧
    trustedPrincipals (policyOf deepStatement).render = .ok ["*"] ∧
    trustedPrincipals (policyOf (.array [deepStatement])).render =
      .error (.malformed documentName "not a policy document") := by
  have halone : (Json.parse? (policyOf deepStatement).render).bind readPolicy =
      some [⟨"Allow", ["sts:AssumeRole"], ["*"]⟩] := by
    rw [parse?_render]
    decide +kernel
  have hlisted :
      (Json.parse? (policyOf (.array [deepStatement])).render).bind readPolicy = none := by
    rw [parse?_render]
    decide +kernel
  refine ⟨@Rewritten.named _ _ _ [] [] _ _ (.intro ((readStatement_iff _ _).1 rfl)), ?_, ?_⟩
  · rw [trustedPrincipals_of_decoded (decodeDocument_render (by decide +kernel)), halone]
    rfl
  · rw [trustedPrincipals_of_decoded (decodeDocument_render (by decide +kernel)), hlisted]
    rfl

end ClusterAccess.TrustPolicy
