/-
The published mappings are those of the sources.

The document has its rows, whichever of its values are rows (`AwsAuth.HasRows`), and the access
entries are rows once they have been listed, page by page, and described one by one.  Nothing is
lost on the way and nothing is added: whatever is listed on whatever page is described, and an entry
that is gone, that cannot be described or that is of another type is passed over by itself
(`entryRow?`).  What a load publishes is exactly the rows of the sources that could be read, those
of the document first.

The sources are asked by the requests of a load, and they say the same whoever asks (`Sources`).
A listing is a chain of pages, each with the token of the next (`Lists`); where it has an end, the
request that follows it has one too.
-/
import ClusterAccess.Proofs.DocumentRows
import ClusterAccess.Proofs.ExactMappings
import ClusterAccess.Proofs.SharedCache

namespace ClusterAccess

/-- What the two sources say. -/
structure Sources where
  document : Outcome (Option AwsAuth)
  page : Option String → Outcome (Page String)
  entry : String → Outcome (Option AccessEntry)

namespace Sources

variable {α β : Type} {sources : Sources} {request : Request α} {f : α → Request β} {value : α}
  {outcome : Outcome β} {fault : Fault}

/-- The reply to a call of a load. -/
def answer (sources : Sources) : (call : Call) → call.Reply
  | .getAwsAuth => sources.document
  | .listAccessEntries token => sources.page token
  | .describeAccessEntry principal => sources.entry principal
  | _ => Except.error (.internal "" "")

/-- What a program ends with.  There is no value if it does not end. -/
def value? (sources : Sources) : Program Call Call.Reply α → Option α
  | .done value => some value
  | .call call next => sources.value? (next (sources.answer call))
  | .unfinished => none

/-- The sources give this outcome to a request. -/
def Give (sources : Sources) (request : Request α) (outcome : Outcome α) : Prop :=
  sources.value? request.run = some outcome

/-! ### Requests -/

theorem value?_bind (p : Program Call Call.Reply α) (g : α → Program Call Call.Reply β) :
    sources.value? (p >>= g) = (sources.value? p).bind fun value => sources.value? (g value) := by
  induction p with
  | done value => rfl
  | call call next ih => exact ih (sources.answer call)
  | unfinished => rfl

theorem Give.bind (h : sources.Give request (.ok value)) (hf : sources.Give (f value) outcome) :
    sources.Give (request >>= f) outcome := by
  unfold Give at h ⊢
  rw [Request.run_bind, value?_bind, h]
  exact hf

theorem Give.bind_error (h : sources.Give request (.error fault)) :
    sources.Give (request >>= f) (.error fault) := by
  unfold Give at h ⊢
  rw [Request.run_bind, value?_bind, h]
  rfl

/-! ### What the sources hold -/

/-- What there is to read of the document: its rows, if it is there and can be got. -/
inductive Documents (sources : Sources) : Outcome (List MappingRow) → Prop
  | read {document : AwsAuth} {rows : List MappingRow} (h : sources.document = .ok (some document))
      (hrows : document.HasRows rows) : Documents sources (.ok rows)
  | missing (h : sources.document = .ok none) :
      Documents sources (.error (.notFound "aws-auth ConfigMap"))
  | failed {fault : Fault} (h : sources.document = .error fault) :
      Documents sources (.error fault)

/-- The row of a principal, if its entry is there, can be described and maps it. -/
def entryRow? (sources : Sources) (principal : String) : Option MappingRow :=
  match sources.entry principal with
  | .ok (some entry) =>
    if entry.type = "STANDARD" then some ⟨entry.principal, entry.username, entry.groups⟩ else none
  | .ok none => none
  | .error _ => none

/-- The rows of the users and roles among some principals. -/
def entryRows (sources : Sources) (principals : List String) : List MappingRow :=
  (principals.filter Arn.isUserOrRole).filterMap sources.entryRow?

/-- From a token on, the listing has so many pages, and comes to the principals of them all or to
the fault of one. -/
inductive Lists (sources : Sources) : Option String → Nat → Outcome (List String) → Prop
  | last {token : Option String} {page : Page String} (h : sources.page token = .ok page)
      (hend : page.next = none ∨ page.next = some "") : Lists sources token 1 (.ok page.items)
  | failed {token : Option String} {fault : Fault} (h : sources.page token = .error fault) :
      Lists sources token 1 (.error fault)
  | more {token : Option String} {page : Page String} {next : String} {pages : Nat}
      {listed : Outcome (List String)} (h : sources.page token = .ok page)
      (hnext : page.next = some next) (hne : next ≠ "")
      (hrest : Lists sources (some next) pages listed) :
      Lists sources token (pages + 1) (listed.map (page.items ++ ·))

variable {token : Option String} {pages maxPages : Nat} {listed : Outcome (List String)}
  {page : Page String} {principals : List String}

/-! ### Reading -/

theorem exists_documents (sources : Sources) : ∃ documented, sources.Documents documented := by
  cases hdocument : sources.document with
  | error fault => exact ⟨_, .failed hdocument⟩
  | ok found =>
      cases found with
      | none => exact ⟨_, .missing hdocument⟩
      | some document => exact ⟨_, .read hdocument (AwsAuth.hasRows_iff.2 rfl)⟩

/-- The document is read as its rows. -/
theorem Documents.give_readMappings {documented : Outcome (List MappingRow)}
    (h : sources.Documents documented) :
    sources.Give AwsAuth.readMappings (documented.map .ofRows) := by
  obtain ⟨document, page, entry⟩ := sources
  cases h with
  | read h hrows =>
      obtain rfl : document = _ := h
      obtain rfl := AwsAuth.hasRows_iff.1 hrows
      rfl
  | missing h =>
      obtain rfl : document = _ := h
      rfl
  | failed h =>
      obtain rfl : document = _ := h
      rfl

theorem give_listPage (h : sources.page token = .ok page) :
    sources.Give (AccessEntry.listPage token) (.ok ⟨page.items, endToken page.next⟩) := by
  have hsend : sources.Give (send (.listAccessEntries token)) (.ok page) := congrArg some h
  exact hsend.bind rfl

theorem give_listPage_error (h : sources.page token = .error fault) :
    sources.Give (AccessEntry.listPage token) (.error fault) := by
  have hsend : sources.Give (send (.listAccessEntries token)) (.error fault) := congrArg some h
  exact hsend.bind_error

/-- A listing that has an end is read to the end. -/
theorem Lists.give_collectPages (h : sources.Lists token pages listed) (hpages : pages ≤ maxPages) :
    sources.Give (collectPages AccessEntry.listPage maxPages token) listed := by
  induction h generalizing maxPages with
  | last h hend =>
      obtain ⟨maxPages, rfl⟩ := Nat.exists_eq_add_one.2 hpages
      refine (give_listPage h).bind ?_
      rw [endToken_of_end hend]
      rfl
  | failed h =>
      obtain ⟨maxPages, rfl⟩ := Nat.exists_eq_add_one.2 hpages
      exact (give_listPage_error h).bind_error
  | @more token page next pages listed h hnext hne hrest ih =>
      obtain ⟨maxPages, rfl⟩ := Nat.exists_eq_add_one.2 (Nat.lt_of_lt_of_le pages.succ_pos hpages)
      have hcollect := ih (Nat.le_of_succ_le_succ hpages)
      refine (give_listPage h).bind ?_
      rw [hnext, endToken_of_ne hne]
      cases listed with
      | ok rest => exact hcollect.bind rfl
      | error fault => exact hcollect.bind_error

/-- Whatever becomes of the description of an entry, reading goes on. -/
theorem give_readRow (principal : String) :
    sources.Give (AccessEntry.readRow principal) (.ok (sources.entryRow? principal).toList) := by
  have hsend : sources.Give (attempt (send (.describeAccessEntry principal)))
    (.ok (sources.entry principal)) := rfl
  refine hsend.bind ?_
  unfold entryRow?
  cases sources.entry principal with
  | error fault => rfl
  | ok found =>
      cases found with
      | none => rfl
      | some entry =>
          have hstandard : AccessEntry.standardType = "STANDARD" := rfl
          by_cases htype : entry.type = "STANDARD"
          · simp only [hstandard, if_pos htype]
            rfl
          · simp only [hstandard, if_neg htype]
            rfl

theorem give_gather (principals : List String) :
    sources.Give (gather AccessEntry.readRow principals)
      (.ok (principals.filterMap sources.entryRow?)) := by
  induction principals with
  | nil => rfl
  | cons principal rest ih =>
      refine (give_readRow principal).bind (ih.bind ?_)
      rw [List.filterMap_cons]
      cases sources.entryRow? principal <;> rfl

/-- The access entries are the rows of what is listed. -/
theorem Lists.give_readMappings (h : sources.Lists none pages listed) (hpages : pages ≤ maxPages) :
    sources.Give (AccessEntry.readMappings maxPages)
      ((listed.map sources.entryRows).map .ofRows) := by
  have hcollect := h.give_collectPages hpages
  cases listed with
  | ok principals => exact hcollect.bind ((give_gather _).bind rfl)
  | error fault => exact hcollect.bind_error

/-- The rows of the sources that could be read, those of the document first. -/
def mergedRows : Outcome (List MappingRow) → Outcome (List MappingRow) → Option (List MappingRow)
  | .ok document, .ok entries => some (document ++ entries)
  | .ok document, .error _ => some document
  | .error _, .ok entries => some entries
  | .error _, .error _ => none

/-- Mappings that are combined are those of the rows that are merged. -/
theorem exact_combine {first second : Outcome (List MappingRow)} {rows : List MappingRow}
    (h : mergedRows first second = some rows) :
    ∃ mappings, Identity.combine (first.map .ofRows) (second.map .ofRows) = .ok mappings ∧
      mappings.Exact rows := by
  cases first with
  | ok document =>
      cases second with
      | ok entries =>
          obtain rfl := Option.some.inj h
          exact ⟨_, rfl, (Mappings.exact_ofRows document).merge (Mappings.exact_ofRows entries)⟩
      | error fault =>
          obtain rfl := Option.some.inj h
          exact ⟨_, rfl, Mappings.exact_ofRows document⟩
  | error fault =>
      cases second with
      | ok entries =>
          obtain rfl := Option.some.inj h
          exact ⟨_, rfl, Mappings.exact_ofRows entries⟩
      | error other => cases h

end Sources

namespace SharedCache

variable {upkeep : Upkeep} {cache : SharedCache} {moves : List Move} {start pages : Nat}
  {sources : Sources} {listed : Outcome (List String)}

/-- A load waits for what the two sources give. -/
theorem Shift.asks {after : SharedCache} {i : Nat} {first second : Outcome Mappings}
    (h : Shift upkeep cache (.loaded i first second) after) :
    cache.Asks i AwsAuth.readMappings (AccessEntry.readMappings upkeep.maxPages) := by
  cases h with
  | @published i query first second mappings hcaller _ _ => exact ⟨query, _, hcaller⟩
  | @failed i query first second fault hcaller _ _ => exact ⟨query, _, hcaller⟩

/-- **The published mappings are those of the sources.**  Where the listing of the access entries
has an end within the pages that may be asked for, both sources come to an outcome.  In any run a
load asks for these two and nothing else, and one to which they give their outcomes publishes
exactly the rows of the sources that could be read. -/
theorem Run.publishes_merged (hrun : Run upkeep (new start) moves cache)
    (hlisted : sources.Lists none pages listed) (hpages : pages ≤ upkeep.maxPages) :
    (∃ documented, sources.Documents documented) ∧
      (∃ first, sources.Give AwsAuth.readMappings first) ∧
        (∃ second, sources.Give (AccessEntry.readMappings upkeep.maxPages) second) ∧
          ∀ m ∈ moves, ∀ i first second, m.event = .loaded i first second →
            m.before.Asks i AwsAuth.readMappings (AccessEntry.readMappings upkeep.maxPages) ∧
              (sources.Give AwsAuth.readMappings first →
                sources.Give (AccessEntry.readMappings upkeep.maxPages) second →
                  ∀ documented rows, sources.Documents documented →
                    Sources.mergedRows documented (listed.map sources.entryRows) = some rows →
                      m.after.kept.value.Exact rows) := by
  have hsecond := hlisted.give_readMappings hpages
  obtain ⟨documented, hdocumented⟩ := sources.exists_documents
  refine ⟨⟨_, hdocumented⟩, ⟨_, hdocumented.give_readMappings⟩, ⟨_, hsecond⟩, ?_⟩
  intro m hm i first second hevent
  have hshift := hrun.shift_of_mem hm
  rw [hevent] at hshift
  refine ⟨hshift.asks, ?_⟩
  intro hgive hgive' documented' rows hdocumented' hrows
  obtain rfl := Option.some.inj (hgive.symm.trans hdocumented'.give_readMappings)
  obtain rfl := Option.some.inj (hgive'.symm.trans hsecond)
  obtain ⟨mappings, hcombine, hexact⟩ := Sources.exact_combine hrows
  rw [(hshift.published_of_ok hcombine).1]
  exact hexact

/-- A row of the document, and access entries on two pages: one that is described, one that is
gone, and one that cannot be described. -/
def sampleSources : Sources where
  document := .ok (some ⟨"kube-system", "aws-auth", none,
    [("mapUsers", "- userarn: arn:aws:iam::1:user/ann\n  username: admin")]⟩)
  page
    | none => .ok ⟨["arn:aws:iam::1:user/bob", "arn:aws:iam::1:role/gone"], some "2"⟩
    | some _ => .ok ⟨["arn:aws:iam::1:user/ann"], some ""⟩
  entry principal :=
    if principal = "arn:aws:iam::1:user/bob" then
      .ok (some ⟨principal, "STANDARD", some "admin", ["ops", "", "ops"]⟩)
    else if principal = "arn:aws:iam::1:user/ann" then .error default
    else .ok none

/-- The principals that are listed. -/
def sampleListed : List String :=
  ["arn:aws:iam::1:user/bob", "arn:aws:iam::1:role/gone", "arn:aws:iam::1:user/ann"]

theorem publishes_merged_sample : ∃ moves cache, Run ⟨1000, 2⟩ (new 0) moves cache ∧
    ∃ m ∈ moves, m.after.kept.value.Exact [⟨"arn:aws:iam::1:user/ann", "admin", []⟩,
      ⟨"arn:aws:iam::1:user/bob", "admin", ["ops", "", "ops"]⟩] := by
  have hlast : sampleSources.Lists (some "2") 1 (.ok ["arn:aws:iam::1:user/ann"]) :=
    @Sources.Lists.last _ _ ⟨["arn:aws:iam::1:user/ann"], some ""⟩ rfl (Or.inr rfl)
  have hlisted : sampleSources.Lists none 2 (.ok sampleListed) := @Sources.Lists.more _ none
    ⟨["arn:aws:iam::1:user/bob", "arn:aws:iam::1:role/gone"], some "2"⟩ _ _ _ rfl rfl (by decide)
      hlast
  have hdocumented : sampleSources.Documents (.ok [⟨"arn:aws:iam::1:user/ann", "admin", []⟩]) :=
    .read rfl (AwsAuth.hasRows_iff.2 (by decide +kernel))
  have hrows : Sources.mergedRows (.ok [⟨"arn:aws:iam::1:user/ann", "admin", []⟩])
      (.ok (sampleSources.entryRows sampleListed)) =
        some [⟨"arn:aws:iam::1:user/ann", "admin", []⟩,
          ⟨"arn:aws:iam::1:user/bob", "admin", ["ops", "", "ops"]⟩] := by decide +kernel
  obtain ⟨mappings, hcombine, -⟩ := Sources.exact_combine hrows
  obtain ⟨moves, hrun, m, hm, hevent⟩ :=
    exists_run_firstPublished ⟨1000, 2⟩ 0 .refresh hcombine
  obtain ⟨-, -, -, hloads⟩ := hrun.publishes_merged hlisted (Nat.le_refl 2)
  obtain ⟨-, hexact⟩ := hloads m hm 0 _ _ hevent
  exact ⟨_, _, hrun, m, hm, hexact hdocumented.give_readMappings
    (hlisted.give_readMappings (Nat.le_refl 2)) _ _ hdocumented hrows⟩

end SharedCache

end ClusterAccess
