/-
The ARNs that are taken for users and roles.

An ARN is cut at its first five colons and what is left of it at its first slash, so the account
has no colon and the resource type has no slash, but a path may have any number of both.  The
`Parts` are what can stand in such an ARN, and nothing else is taken for a user or a role
(`classify_accepts_exactly`).

The name of a role is what stands behind the last slash of its path.  As the path is there and does
not end in a slash, there is always such a name, and the ARN alone tells what it is.
-/
import Mathlib.Data.List.Basic
import ClusterAccess.Arn

namespace ClusterAccess.Arn

open Text

/-! ### What an ARN says -/

/-- What the ARN of a user or a role says, besides which of the two it is. -/
structure Parts where
  partition : String
  account : String
  path : String
  known : partition ∈ ["aws", "aws-cn", "aws-us-gov"]
  account_nonempty : account ≠ ""
  account_colon : ':' ∉ account.toList
  path_nonempty : path ≠ ""
  path_slash : ∀ front, path ≠ front ++ "/"

/-- The ARN, by the word for what it names. -/
def Parts.arn (parts : Parts) (word : String) : String :=
  "arn:" ++ parts.partition ++ ":iam::" ++ parts.account ++ ":" ++ word ++ "/" ++ parts.path

variable {arn word name : String} {kind path : List Char}

theorem Parts.toList_arn (parts : Parts) (word : String) : (parts.arn word).toList =
    "arn:".toList ++ (parts.partition.toList ++ (":iam::".toList ++
      (parts.account.toList ++ ':' :: (word.toList ++ '/' :: parts.path.toList)))) := by
  simp [Parts.arn]

theorem mem_partitions_iff {partition : String} :
    partition.toList ∈ partitions ↔ partition ∈ ["aws", "aws-cn", "aws-us-gov"] := by
  have hpartitions : partitions = ["aws", "aws-cn", "aws-us-gov"].map String.toList := rfl
  rw [hpartitions, List.mem_map_of_injective fun _ _ => String.toList_injective]

theorem getLast?_ne_slash_iff {path : String} :
    path.toList.getLast? ≠ some '/' ↔ ∀ front, path ≠ front ++ "/" := by
  rw [ne_eq, List.getLast?_eq_some_iff, not_exists]
  refine ⟨?_, ?_⟩
  · intro h front hfront
    exact h front.toList (by rw [hfront, String.toList_append]; rfl)
  · intro h front hfront
    refine h (String.ofList front) (String.toList_inj.1 ?_)
    rw [hfront, String.toList_append, String.toList_ofList]
    rfl

/-! ### Cutting an ARN -/

/-- An ARN has a resource type and a path exactly when its six fields are what they should be. -/
theorem iamResource_eq_some_iff : iamResource arn = some (kind, path) ↔
    ∃ partition account, partition ∈ partitions ∧ account ≠ [] ∧ ':' ∉ account ∧ '/' ∉ kind ∧
      path ≠ [] ∧ path.getLast? ≠ some '/' ∧
        arn.toList = "arn:".toList ++ (partition ++ (":iam::".toList ++
          (account ++ ':' :: (kind ++ '/' :: path)))) := by
  unfold iamResource
  simp only [Option.bind_eq_bind, Option.bind_eq_some_iff, Prod.exists, splitOnce_eq_some_iff]
  refine ⟨?_, ?_⟩
  · intro h
    obtain ⟨lead, rest, ⟨harn, -⟩, partition, rest, ⟨rfl, -⟩, service, rest, ⟨rfl, -⟩, region, rest,
      ⟨rfl, -⟩, account, resource, ⟨rfl, hcolon⟩, hparts⟩ := h
    by_cases hbad : lead ≠ "arn".toList ∨ partition ∉ partitions ∨ service ≠ "iam".toList ∨
        region ≠ [] ∨ account = []
    · rw [if_pos hbad] at hparts
      cases hparts
    · rw [if_neg hbad] at hparts
      simp only [not_or, not_not] at hbad
      obtain ⟨rfl, hknown, rfl, rfl, hempty⟩ := hbad
      obtain ⟨⟨first, last⟩, hresource, hfound⟩ := Option.bind_eq_some_iff.1 hparts
      obtain ⟨rfl, hslash⟩ := splitOnce_eq_some_iff.1 hresource
      dsimp only at hfound
      by_cases hpath : last = [] ∨ last.getLast? = some '/'
      · rw [if_pos hpath] at hfound
        cases hfound
      · rw [if_neg hpath] at hfound
        obtain ⟨rfl, rfl⟩ := Prod.mk.inj (Option.some.inj hfound)
        rw [not_or] at hpath
        exact ⟨partition, account, hknown, hempty, hcolon, hslash, hpath.1, hpath.2, harn⟩
  · intro h
    obtain ⟨partition, account, hknown, hempty, hcolon, hslash, hpath, hlast, harn⟩ := h
    have hpartition : ':' ∉ partition := by
      have hall : ∀ partition ∈ partitions, ':' ∉ partition := by decide
      exact hall partition hknown
    refine ⟨"arn".toList, _, ⟨harn, by decide⟩, partition, _, ⟨rfl, hpartition⟩, "iam".toList, _,
      ⟨rfl, by decide⟩, [], _, ⟨rfl, List.not_mem_nil⟩, account, _, ⟨rfl, hcolon⟩, ?_⟩
    rw [if_neg (by simp [hknown, hempty]), splitOnce_eq_some_iff.2 ⟨rfl, hslash⟩, Option.bind_some,
      if_neg (by simp [hpath, hlast])]

/-- An ARN with a word for its resource type is made of parts around this word. -/
theorem iamResource_eq_word_iff (hword : '/' ∉ word.toList) :
    iamResource arn = some (word.toList, path) ↔
      ∃ parts : Parts, arn = parts.arn word ∧ path = parts.path.toList := by
  rw [iamResource_eq_some_iff]
  refine ⟨?_, ?_⟩
  · intro h
    obtain ⟨partition, account, hknown, hempty, hcolon, -, hpath, hlast, harn⟩ := h
    -- The parts are texts and the cut is made of characters.
    obtain ⟨partition, rfl⟩ : ∃ text : String, partition = text.toList :=
      ⟨.ofList partition, String.toList_ofList.symm⟩
    obtain ⟨account, rfl⟩ : ∃ text : String, account = text.toList :=
      ⟨.ofList account, String.toList_ofList.symm⟩
    obtain ⟨path, rfl⟩ : ∃ text : String, path = text.toList :=
      ⟨.ofList path, String.toList_ofList.symm⟩
    let parts : Parts :=
      { partition, account, path
        known := mem_partitions_iff.1 hknown
        account_nonempty := mt String.toList_eq_nil_iff.2 hempty
        account_colon := hcolon
        path_nonempty := mt String.toList_eq_nil_iff.2 hpath
        path_slash := getLast?_ne_slash_iff.1 hlast }
    exact ⟨parts, String.toList_inj.1 (harn.trans (parts.toList_arn word).symm), rfl⟩
  · intro h
    obtain ⟨parts, rfl, rfl⟩ := h
    exact ⟨parts.partition.toList, parts.account.toList, mem_partitions_iff.2 parts.known,
      mt String.toList_eq_nil_iff.1 parts.account_nonempty, parts.account_colon, hword,
      mt String.toList_eq_nil_iff.1 parts.path_nonempty, getLast?_ne_slash_iff.2 parts.path_slash,
      parts.toList_arn word⟩

/-! ### Users and roles -/

/-- Which of the two an ARN names is what its resource type says. -/
theorem classify_eq_iff_iamResource {principal : PrincipalKind} (h : principal ≠ .unsupported) :
    classify arn = principal ↔
      ∃ path, iamResource arn = some (principal.word.toList, path) := by
  unfold classify
  cases iamResource arn with
  | none => simp [h.symm]
  | some resource =>
      obtain ⟨kind, path⟩ := resource
      have hkind : (∃ last, some (kind, path) = some (principal.word.toList, last)) ↔
          kind = principal.word.toList := by simp
      rw [hkind]
      dsimp only
      split
      next huser =>
        subst huser
        cases principal with
        | user => exact iff_of_true rfl rfl
        | role => decide
        | unsupported => exact absurd rfl h
      next huser =>
        split
        next hrole =>
          subst hrole
          cases principal with
          | user => decide
          | role => exact iff_of_true rfl rfl
          | unsupported => exact absurd rfl h
        next hrole =>
          cases principal with
          | user => exact iff_of_false (fun heq => by cases heq) huser
          | role => exact iff_of_false (fun heq => by cases heq) hrole
          | unsupported => exact absurd rfl h

/-- A user or a role is what is made of parts around the word for it. -/
theorem classify_eq_iff_parts {principal : PrincipalKind} (h : principal ≠ .unsupported) :
    classify arn = principal ↔ ∃ parts : Parts, arn = parts.arn principal.word := by
  have hword : '/' ∉ principal.word.toList := by cases principal <;> decide
  rw [classify_eq_iff_iamResource h]
  simp only [iamResource_eq_word_iff hword]
  refine ⟨?_, ?_⟩
  · intro h
    obtain ⟨path, parts, harn, -⟩ := h
    exact ⟨parts, harn⟩
  · intro h
    obtain ⟨parts, harn⟩ := h
    exact ⟨parts.path.toList, parts, harn, rfl⟩

/-! ### The name of a role -/

theorem roleName?_eq_some_iff_pieces : roleName? arn = some name ↔
    ∃ path, iamResource arn = some ("role".toList, path) ∧
      (pieces '/' path).getLast? = some name.toList := by
  unfold roleName?
  cases iamResource arn with
  | none => simp
  | some resource =>
      obtain ⟨kind, path⟩ := resource
      dsimp only
      split
      next hrole =>
        subst hrole
        rw [Option.map_eq_some_iff]
        refine ⟨?_, ?_⟩
        · intro h
          obtain ⟨piece, hpiece, rfl⟩ := h
          exact ⟨path, rfl, by rw [hpiece, String.toList_ofList]⟩
        · intro h
          obtain ⟨last, hlast, hpiece⟩ := h
          obtain ⟨-, rfl⟩ := Prod.mk.inj (Option.some.inj hlast)
          exact ⟨name.toList, hpiece, String.ofList_toList⟩
      next hrole =>
        refine iff_of_false (fun h => by cases h) ?_
        intro h
        obtain ⟨last, hlast, -⟩ := h
        exact hrole (Prod.mk.inj (Option.some.inj hlast)).1

theorem exists_roleName (h : classify arn = .role) : ∃ name, roleName? arn = some name := by
  obtain ⟨path, hpath⟩ := (classify_eq_iff_iamResource (by decide)).1 h
  obtain ⟨piece, hpiece⟩ : ∃ piece, (pieces '/' path).getLast? = some piece :=
    Option.isSome_iff_exists.1 (List.getLast?_isSome.2 (pieces_ne_nil '/' path))
  refine ⟨String.ofList piece, roleName?_eq_some_iff_pieces.2 ⟨path, hpath, ?_⟩⟩
  rw [hpiece, String.toList_ofList]

/-- The name is the end of the ARN behind its last slash. -/
structure EndsIn (arn name : String) : Prop where
  nonempty : name ≠ ""
  slash : '/' ∉ name.toList
  behind : ∃ front, arn = front ++ "/" ++ name

theorem EndsIn.unique {other : String} (h : EndsIn arn name) (hother : EndsIn arn other) :
    name = other := by
  obtain ⟨front, hfront⟩ := h.behind
  obtain ⟨lead, hlead⟩ := hother.behind
  have hlists : front.toList ++ '/' :: name.toList = lead.toList ++ '/' :: other.toList := by
    have hsame := congrArg String.toList (hfront.symm.trans hlead)
    simpa using hsame
  exact String.toList_inj.1 (append_separator_inj h.slash hother.slash hlists).2

/-- The path of a role is there and does not end in a slash, and so there is a name behind the last
slash of its ARN. -/
theorem endsIn_of_roleName? (h : roleName? arn = some name) : EndsIn arn name := by
  obtain ⟨path, hpath, hpiece⟩ := roleName?_eq_some_iff_pieces.1 h
  obtain ⟨parts, rfl, rfl⟩ := (iamResource_eq_word_iff (by decide)).1 hpath
  -- The slash that stands before the path may be the last one.
  obtain ⟨front, hfront⟩ := exists_append_of_getLast?_pieces hpiece
  refine ⟨?_, not_mem_of_mem_pieces (List.mem_of_getLast? hpiece), ?_⟩
  · rintro rfl
    cases front with
    | nil => exact parts.path_nonempty (String.toList_eq_nil_iff.1 (List.cons.inj hfront).2)
    | cons slash front =>
        refine getLast?_ne_slash_iff.2 parts.path_slash ?_
        rw [(List.cons.inj hfront).2]
        exact List.getLast?_concat
  · let lead : List Char := "arn:".toList ++ (parts.partition.toList ++ (":iam::".toList ++
      (parts.account.toList ++ ':' :: "role".toList)))
    refine ⟨.ofList (lead ++ front), String.toList_inj.1 ?_⟩
    rw [parts.toList_arn, hfront]
    simp [lead]

/--
**Users and roles are the ARNs of the grammar, and nothing else is.**  Exactly a role has a name,
which is what stands behind the last slash of its ARN.
-/
theorem classify_accepts_exactly (arn : String) :
    (classify arn = .user ↔ ∃ parts : Parts, arn = parts.arn "user") ∧
      (classify arn = .role ↔ ∃ parts : Parts, arn = parts.arn "role") ∧
      ((∃ name, roleName? arn = some name) ↔ classify arn = .role) ∧
      ∀ name, roleName? arn = some name ↔ classify arn = .role ∧ EndsIn arn name := by
  have hnamed : ∀ {name}, roleName? arn = some name → classify arn = .role := by
    intro name h
    obtain ⟨path, hpath, -⟩ := roleName?_eq_some_iff_pieces.1 h
    exact (classify_eq_iff_iamResource (by decide)).2 ⟨path, hpath⟩
  refine ⟨classify_eq_iff_parts (by decide), classify_eq_iff_parts (by decide), ?_, ?_⟩
  · refine ⟨?_, exists_roleName⟩
    intro h
    obtain ⟨name, hname⟩ := h
    exact hnamed hname
  · intro name
    refine ⟨fun h => ⟨hnamed h, endsIn_of_roleName? h⟩, ?_⟩
    intro h
    obtain ⟨hrole, hends⟩ := h
    obtain ⟨found, hfound⟩ := exists_roleName hrole
    rw [hfound, hends.unique (endsIn_of_roleName? hfound)]

end ClusterAccess.Arn
