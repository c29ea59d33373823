/-
A page of a listing on its way through the cluster API.

The request for a page passes on a token.  It can always be sent, and the server reads the very
token in it that was passed on, whatever that has in it (`continued_pageRequest`).  The answer is a
list whose metadata may hold the token for the next page, and an empty token there is no token.  A
page that the API serves carries the proof that it is such a list (`ListPage`), so reading it always
gives its objects (`after_listObjects`).
-/
import Mathlib.Data.List.TakeWhile
import ClusterAccess.Kube.Api
import ClusterAccess.Proofs.FormText
import ClusterAccess.Proofs.History

namespace ClusterAccess.Kube

open Text
open Program (After)

variable {listing : ObjectListing} {token : Option String}

/-! ### Requests -/

/-- The request for the page of a token. -/
def pageRequest (listing : ObjectListing) (token : Option String) : HttpRequest where
  method := .get
  path := listedPath listing
  query := ("limit", Nat.repr pageLimit) ::
    (token.map fun token => ("continue", String.ofList (formEncode token))).toList

/-- The token that a request passes on, as the server reads it. -/
def HttpRequest.continued (request : HttpRequest) : Option String :=
  (request.query.lookup "continue").bind fun value => readForm? value.toList

/-- **A token is passed on unchanged.** -/
theorem continued_pageRequest : (pageRequest listing token).continued = token := by
  cases token with
  | none => rfl
  | some token =>
      show readForm? (String.ofList (formEncode token)).toList = some token
      rw [String.toList_ofList, readForm?_formEncode]

theorem isVisible_of_mem_pageQuery {c : Char} (h : c ∈ pageQuery token) : isVisible c = true := by
  have hlimit : ("limit=".toList ++ (Nat.repr pageLimit).toList).all isVisible = true := by decide
  have hcontinue : "&continue=".toList.all isVisible = true := by decide
  cases token with
  | none => exact List.all_eq_true.1 hlimit c h
  | some token =>
      rcases List.mem_append.1 h with h | h
      · rcases List.mem_append.1 h with h | h
        · exact List.all_eq_true.1 hlimit c h
        · exact List.all_eq_true.1 hcontinue c h
      · exact (isVisible_of_mem_formEncode h).1

/-- The parameters of a page are found again in the query that is sent. -/
theorem parameters_pageQuery :
    ((pieces '&' (pageQuery token)).filter (· ≠ [])).map parameter =
      (pageRequest listing token).query := by
  cases token with
  | none => rfl
  | some token =>
      have hfirst : ('&' : Char) ∉ "limit=100".toList := by decide
      have hsecond : ('&' : Char) ∉ "continue=".toList ++ formEncode token := by
        intro h
        rcases List.mem_append.1 h with h | h
        · exact absurd h (by decide)
        · exact (isVisible_of_mem_formEncode h).2 rfl
      have hquery : pageQuery (some token) =
          "limit=100".toList ++ '&' :: ("continue=".toList ++ formEncode token) := rfl
      have hcut : splitOnce '=' ("continue=".toList ++ formEncode token) =
          some ("continue".toList, formEncode token) :=
        splitOnce_eq_some_iff.2 ⟨rfl, by decide⟩
      have hparameter : parameter ("continue=".toList ++ formEncode token) =
          ("continue", String.ofList (formEncode token)) := by
        unfold parameter
        rw [hcut]
        rfl
      rw [hquery, pieces_append hfirst, pieces_of_not_mem hsecond]
      show [parameter "limit=100".toList, parameter ("continue=".toList ++ formEncode token)] = _
      rw [hparameter]
      rfl

theorem isPathChar_of_mem_listedPath {c : Char} (h : c ∈ (listedPath listing).toList) :
    isPathChar c = true ∧ c ≠ '#' ∧ c ≠ '?' := by
  have hpath : (listedPath listing).toList.all
      (fun c => isPathChar c && (c != '#' && c != '?')) = true := by
    cases listing <;> decide
  simpa using List.all_eq_true.1 hpath c h

/-- The request for a page can always be sent. -/
theorem requestAll_listed : requestAll .get (listedPath listing) (pageQuery token) none =
    some (pageRequest listing token) := by
  have hquery : ∀ c ∈ pageQuery token, isQueryChar c = true ∧ (c != '#') = true :=
    fun c hc => Bool.and_eq_true_iff.1 (isVisible_of_mem_pageQuery hc)
  have hvisible : ((listedPath listing).toList ++ '?' :: pageQuery token).takeWhile (· ≠ '#') =
      (listedPath listing).toList ++ '?' :: pageQuery token := by
    refine List.takeWhile_eq_self_iff.2 fun c hc => decide_eq_true ?_
    rcases List.mem_append.1 hc with hc | hc
    · exact (isPathChar_of_mem_listedPath hc).2.1
    · rcases List.mem_cons.1 hc with rfl | hc
      · decide
      · exact bne_iff_ne.1 (hquery c hc).2
  have hcut : splitOnce '?' ((listedPath listing).toList ++ '?' :: pageQuery token) =
      some ((listedPath listing).toList, pageQuery token) :=
    splitOnce_eq_some_iff.2 ⟨rfl, fun h => (isPathChar_of_mem_listedPath h).2.2 rfl⟩
  have hpathChars : (listedPath listing).toList.all isPathChar = true :=
    List.all_eq_true.2 fun c hc => (isPathChar_of_mem_listedPath hc).1
  have hqueryChars : (pageQuery token).all isQueryChar = true :=
    List.all_eq_true.2 fun c hc => (hquery c hc).1
  have hparameters : ((pieces '&' (pageQuery token)).filter (· ≠ [])).map parameter =
      (pageRequest listing token).query := parameters_pageQuery
  unfold requestAll HttpRequest.ofTarget?
  dsimp only
  rw [hvisible, hcut]
  refine (if_pos (Bool.and_eq_true_iff.2 ⟨hpathChars, hqueryChars⟩)).trans ?_
  dsimp only [Option.getD_some]
  rw [hparameters, String.ofList_toList]
  rfl

/-! ### Answers -/

section Metadata

variable {name : String} {always : Bool} {shape : Shape} {shapes : List (String × Bool × Shape)}
  {values fields : List (String × Json)}

/-- What every step of a fold gives is given by the whole fold. -/
theorem of_foldlM {α β : Type} {P : β → Prop} {step : β → α → Option β} {items : List α}
    {init result : β} (hinit : P init) (hstep : ∀ b a next, step b a = some next → P next)
    (h : items.foldlM step init = some result) : P result := by
  induction items generalizing init with
  | nil =>
      cases h
      exact hinit
  | cons item items ih =>
      obtain ⟨next, hnext, hrest⟩ := Option.bind_eq_some_iff.1 h
      exact ih (hstep init item next hnext) hrest

/-- What is read of a field has its name. -/
theorem name_of_mem_normalField?
    (h : Shape.normalField? (name, always, shape) values = some fields) :
    ∀ field ∈ fields, field.1 = name := by
  have hblank : ∀ field ∈ if always then [(name, shape.empty)] else [], field.1 = name := by
    intro field hfield
    cases always with
    | true => rw [List.mem_singleton.1 hfield]
    | false => cases hfield
  rw [Shape.normalField?] at h
  refine of_foldlM (P := fun fields => ∀ field ∈ fields, field.1 = name) hblank
    (fun _ value next hnext => ?_) h
  split at hnext
  · rwa [← Option.some.inj hnext]
  · obtain ⟨found, -, rfl⟩ := Option.map_eq_some_iff.1 hnext
    intro field hfield
    rw [List.mem_singleton.1 hfield]

theorem name_of_mem_normalFields? (h : Shape.normalFields? shapes values = some fields) :
    ∀ field ∈ fields, ∃ known ∈ shapes, field.1 = known.1 := by
  induction shapes generalizing fields with
  | nil =>
      rw [Shape.normalFields?] at h
      cases h
      nofun
  | cons known shapes ih =>
      rw [Shape.normalFields?] at h
      obtain ⟨head, hhead, h⟩ := Option.bind_eq_some_iff.1 h
      obtain ⟨tail, htail, h⟩ := Option.bind_eq_some_iff.1 h
      cases h
      intro field hfield
      rcases List.mem_append.1 hfield with hfield | hfield
      · exact ⟨known, List.mem_cons_self, name_of_mem_normalField? hhead field hfield⟩
      · obtain ⟨other, hother, hname⟩ := ih htail field hfield
        exact ⟨other, List.mem_cons_of_mem _ hother, hname⟩

theorem field?_of_not_mem (h : ∀ field ∈ fields, field.1 ≠ name) :
    Json.field? name fields = none := by
  induction fields with
  | nil => rfl
  | cons field fields ih =>
      obtain ⟨hfield, hrest⟩ := List.forall_mem_cons.1 h
      rw [Json.field?, ih hrest]
      exact if_neg hfield

theorem field?_append_of_not_mem {others : List (String × Json)}
    (h : ∀ field ∈ others, field.1 ≠ name) :
    Json.field? name (fields ++ others) = Json.field? name fields := by
  induction fields with
  | nil => exact field?_of_not_mem h
  | cons field fields ih => rw [List.cons_append, Json.field?, Json.field?, ih]

/-- A text that stands in one field is read from it. -/
theorem normalField?_text {text : Option String}
    (h : Json.soleField name values = some (text.map .string)) :
    Shape.normalField? (opt name .text) values =
      some (text.map fun text => (name, .string text)).toList := by
  unfold Json.soleField at h
  unfold opt
  rw [Shape.normalField?]
  generalize values.filter (fun field => field.1 = name) = found at h ⊢
  split at h
  · cases text with
    | none => rfl
    | some text => cases h
  · next field =>
      cases text with
      | none => cases h
      | some text =>
          obtain ⟨key, value⟩ := field
          obtain rfl := Option.some.inj (Option.some.inj h)
          rfl
  · cases h

/-- The token of a list is read from its metadata. -/
theorem continue_of_normal? {text : Option String} {metadata : Json}
    (h : Json.soleField "continue" values = some (text.map .string))
    (hnormal : listMetadataShape.normal? (.object values) = some metadata) :
    (metadata.get? "continue").bind Json.text? = text := by
  unfold listMetadataShape at hnormal
  rw [Shape.normal?] at hnormal
  obtain ⟨fields, hfields, rfl⟩ := Option.map_eq_some_iff.1 hnormal
  rw [Shape.normalFields?, normalField?_text h] at hfields
  obtain ⟨own, hown, hfields⟩ := Option.bind_eq_some_iff.1 hfields
  obtain ⟨others, hothers, hfields⟩ := Option.bind_eq_some_iff.1 hfields
  obtain rfl := Option.some.inj hown
  obtain rfl := Option.some.inj hfields
  have hnames : ∀ field ∈ others, field.1 ≠ "continue" := by
    intro field hfield
    obtain ⟨known, hknown, hname⟩ := name_of_mem_normalFields? hothers field hfield
    rw [hname]
    exact (by decide : ∀ known ∈ _, known.1 ≠ "continue") known hknown
  show (Json.field? "continue" _).bind Json.text? = text
  rw [field?_append_of_not_mem hnames]
  cases text <;> rfl

end Metadata

/-- A page of a listing as the API serves it: a list of objects that can be read, with metadata
that can be read and may have the token for the next page. -/
structure ListPage (listing : ObjectListing) where
  text : String
  metadata : List (String × Json)
  token : Option String
  items : List Json
  objects : List Object
  parses : Json.parse? text = some (.object [
    ("kind", .string ((listedKind listing).name ++ "List")),
    ("apiVersion", .string (listedKind listing).apiVersion),
    ("metadata", .object metadata), ("items", .array items)])
  readable : (listMetadataShape.normal? (.object metadata)).isSome = true
  continued : Json.soleField "continue" metadata = some (token.map .string)
  reads : items.mapM (Object.ofJson? (listedKind listing)) = some objects

namespace ListPage

variable (page : ListPage listing)

/-- What is read of a page. -/
def read : Page Object :=
  ⟨page.objects, endToken page.token⟩

/-- The answer that the page comes in. -/
def answer : HttpAnswer :=
  ⟨200, page.text⟩

theorem readList?_eq :
    (Json.parse? page.text).bind (readList? (Object.ofJson? (listedKind listing))) =
      some page.read := by
  obtain ⟨metadata, hmetadata⟩ := Option.isSome_iff_exists.1 page.readable
  have htoken := continue_of_normal? page.continued hmetadata
  rw [page.parses]
  simp [readList?, Json.soleField, page.reads, hmetadata, htoken, read, Json.fieldsHoldable,
    Json.fieldHoldable, Json.isHoldable]

end ListPage

/-- An answer without an error status that can be read is the value that is read. -/
theorem after_exchange {α : Type} {operation : String} {request : HttpRequest} {answer : HttpAnswer}
    {read : Json → Option α} {value : α} (hstatus : answer.status < 400)
    (hread : (Json.parse? answer.text).bind read = some value) :
    After (exchange operation (some request) read).run [⟨request, answer⟩] (.done (.ok value)) := by
  unfold exchange
  refine Request.after_bind_ok_iff.2 ⟨answer, [⟨request, answer⟩], [], rfl, .reply (.start _), ?_⟩
  rw [if_neg (Nat.not_le.2 hstatus), hread]
  exact .start _

/-- **The page of a token is asked for with that token, and read as what it is.** -/
theorem after_listObjects (page : ListPage listing) (token : Option String) :
    After (listObjects listing token).run [⟨pageRequest listing token, page.answer⟩]
      (.done (.ok page.read)) := by
  unfold listObjects
  dsimp only
  rw [requestAll_listed]
  exact after_exchange (by decide : 200 < 400) page.readList?_eq

end ClusterAccess.Kube
