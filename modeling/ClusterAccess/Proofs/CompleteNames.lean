/-
What the callers of a namespace cache get.

A fetch is told by the pages that came to its caller, each asked for with the token of the one
before it (`Reads`).  Only its last page makes it publish (`Completes`), so what is kept is always
what a whole fetch has collected, together with the time at which that page came.  From then on the
list is fresh for its lifetime, and as long as it is nobody asks for a page.

Between the turn in which a caller begins to fetch and the one in which its fetch ends nobody else
has the lock, so the list is what it was when the fetch began.  This is why a fetch that fails or is
dropped changes nothing, after any number of pages.
-/
import ClusterAccess.Proofs.SharedNames
import ClusterAccess.Proofs.Trace

namespace ClusterAccess.SharedNames

open Catalog (namespaceNames)
open Function (update)

variable {upkeep : Upkeep} {cache after begin : SharedNames} {event : Event} {i j start : Nat}
  {caller : Caller} {holder : Option Nat} {names : List String}

/-! ### Runs -/

/-- What has happened once, and between which caches. -/
abbrev Move := ClusterAccess.Move SharedNames Event

/-- What happens to a cache, one thing after another. -/
abbrev Run (upkeep : Upkeep) (begin : SharedNames) : List Move → SharedNames → Prop :=
  Trace (Does upkeep) begin

variable {moves earlier : List Move} {m p begun : Move}

/-- The token that a page was asked for with, and the reply. -/
abbrev Reply := Option String × Outcome (Page Kube.Object)

/-- What an event brings to a caller. -/
def Event.replyTo? (i : Nat) : Event → Option Reply
  | .answered j token reply => if j = i then some (token, reply) else none
  | _ => none

/-- The last page of a fetch has come. -/
def Event.IsLast : Event → Prop
  | .answered _ _ (.ok page) => page.next = none
  | _ => False

/-- All replies to a caller.  It calls once, so they belong to one fetch. -/
def replies (i : Nat) (moves : List Move) : List Reply :=
  moves.filterMap fun m => m.event.replyTo? i

/-! ### Whole fetches -/

/-- These replies are the pages of a listing up to the one of a token, with these names on them. -/
inductive Reads : List Reply → Option String → List String → Prop
  | start : Reads [] none []
  | page {replies : List Reply} {token : Option String} {next : String} {page : Page Kube.Object}
      {got : List String} (h : Reads replies token got) (hnext : page.next = some next) :
      Reads (replies ++ [(token, .ok page)]) (some next) (got ++ pageNames page)

/-- With a move the last page of a fetch has come, and these are the names on all its pages. -/
def Completes (earlier : List Move) (p : Move) (i : Nat) (names : List String) : Prop :=
  ∃ token page got, p.event = .answered i token (.ok page) ∧ page.next = none ∧
    Reads (replies i earlier) token got ∧ names = got ++ pageNames page

/-- In one of the moves a caller has completed its fetch. -/
def Fetched (moves : List Move) (p : Move) (i : Nat) (names : List String) : Prop :=
  ∃ earlier later, moves = earlier ++ p :: later ∧ Completes earlier p i names

/-- What a caller may be served: what it has fetched itself, or what some fetch had published, less
than the lifetime ago, when the caller got the lock and looked. -/
inductive Served (upkeep : Upkeep) (moves : List Move) (i : Nat) (names : List String) : Prop
  | own {p : Move} (h : Fetched moves p i names)
  | found {earlier later : List Move} {looked p : Move} {j : Nat}
      (hmoves : moves = earlier ++ looked :: later) (hlooked : looked.event = .entered i)
      (hfetched : Fetched earlier p j names)
      (hrecent : looked.before.now < p.before.now + upkeep.lifetime)

/-- A caller began to fetch in a move, and has had the lock since. -/
def Began (moves : List Move) (i : Nat) (begun : Move) : Prop :=
  Since (fun m : Move => m.event = .entered i) (fun m => m.before.holder = some i) moves begun

theorem replies_snoc : replies i (moves ++ [m]) =
    replies i moves ++ (m.event.replyTo? i).toList := by
  unfold replies
  rw [List.filterMap_append]
  cases h : m.event.replyTo? i <;> simp [h]

theorem Fetched.snoc (h : Fetched moves p i names) (m : Move) :
    Fetched (moves ++ [m]) p i names := by
  obtain ⟨earlier, later, rfl, hcompletes⟩ := h
  exact ⟨earlier, later ++ [m], by simp, hcompletes⟩

theorem fetched_of_completes (h : Completes moves m i names) : Fetched (moves ++ [m]) m i names :=
  ⟨moves, [], rfl, h⟩

theorem Served.snoc (h : Served upkeep moves i names) (m : Move) :
    Served upkeep (moves ++ [m]) i names := by
  cases h with
  | own h => exact .own (h.snoc m)
  | @found earlier later looked p j hmoves hlooked hfetched hrecent =>
      subst hmoves
      have hlater : earlier ++ looked :: later ++ [m] = earlier ++ looked :: (later ++ [m]) := by
        simp
      exact .found hlater hlooked hfetched hrecent

/-! ### Where the callers are -/

/-- Where a caller may be after some moves. -/
inductive Stage (upkeep : Upkeep) (moves : List Move) (holder : Option Nat) (i : Nat) :
    Caller → Prop
  | absent (hnew : replies i moves = []) : Stage upkeep moves holder i .absent
  | waiting (hnew : replies i moves = []) :
      Stage upkeep moves holder i (.here (namespaceNames upkeep).run)
  | fetching {got : List String} {pages : Nat} {token : Option String}
      (hreads : Reads (replies i moves) token got) (hholder : holder = some i) :
      Stage upkeep moves holder i (.here (fetching upkeep got pages token))
  | served {names : List String} (h : Served upkeep moves i names) :
      Stage upkeep moves holder i (.here (.done (.ok names)))
  | failed {fault : Fault} (h : ∃ m ∈ moves, ∃ token, m.event = .answered i token (.error fault)) :
      Stage upkeep moves holder i (.here (.done (.error fault)))
  | gone : Stage upkeep moves holder i .gone

/-- What happens to others leaves a caller where it is. -/
theorem Stage.snoc {now : Option Nat} (h : Stage upkeep moves holder j caller)
    (hreply : m.event.replyTo? j = none) (hholder : holder = some j → now = some j) :
    Stage upkeep (moves ++ [m]) now j caller := by
  have hreplies : replies j (moves ++ [m]) = replies j moves := by
    simp [replies_snoc, hreply]
  cases h with
  | absent hnew => exact .absent (hreplies.trans hnew)
  | waiting hnew => exact .waiting (hreplies.trans hnew)
  | fetching hreads hhas => exact .fetching (hreplies ▸ hreads) (hholder hhas)
  | served h => exact .served (h.snoc m)
  | failed h =>
      obtain ⟨other, hother, hevent⟩ := h
      exact .failed ⟨other, List.mem_append_left _ hother, hevent⟩
  | gone => exact .gone

/-- What is true of a cache after some moves. -/
structure Sound (upkeep : Upkeep) (moves : List Move) (cache : SharedNames) : Prop where
  stage : ∀ i, Stage upkeep moves cache.holder i (cache.callers i)
  /-- The list may not be used while a caller has the lock. -/
  stale : ∀ i, cache.holder = some i → ¬cache.Fresh
  /-- That caller began to fetch when the list was what it is now. -/
  began : ∀ i, cache.holder = some i → ∃ begun, Began moves i begun ∧ begun.before.kept = cache.kept
  /-- The list is that of a whole fetch, and expires when its lifetime is over. -/
  kept : cache.kept.expiry = .stale ∨ ∃ p i, Fetched moves p i cache.kept.value ∧
    cache.kept.expiry = .after p.before.now upkeep.lifetime
  inTime : cache.now < Expiry.clockEnd
  /-- Every fetch that was completed keeps the list fresh for the lifetime. -/
  spared : ∀ p ∈ moves, p.event.IsLast →
    ∀ now < p.before.now + upkeep.lifetime, cache.kept.expiry.isFresh now = true

theorem sound_new (hstart : start < Expiry.clockEnd) : Sound upkeep [] (new start) where
  stage _ := .absent rfl
  stale _ := nofun
  began _ := nofun
  kept := Or.inl rfl
  inTime := hstart
  spared := nofun

section Sound

variable {got : List String} {pages : Nat} {token : Option String} {page : Page Kube.Object}
  {fault : Fault} {reply : Outcome (Page Kube.Object)}

/-- Who waits for the lock has not asked for any page. -/
theorem Sound.waits (h : Sound upkeep moves cache) {next : Unit → Rest}
    (hcaller : cache.callers i = .here (.call (.lock .namespaces) next)) :
    cache.callers i = .here (namespaceNames upkeep).run ∧ replies i moves = [] := by
  have hstage := h.stage i
  generalize hwhere : cache.callers i = caller at hstage hcaller ⊢
  cases hstage with
  | waiting hnew => exact ⟨rfl, hnew⟩
  | fetching hreads hholder => exact absurd (Caller.here.inj hcaller) fetching_ne_lock
  | _ => cases hcaller

/-- Who waits for a page has the lock, and has read the pages up to that one. -/
theorem Sound.fetches (h : Sound upkeep moves cache) (hfetching : cache.Fetching i) :
    cache.holder = some i ∧ ∃ got pages token, Reads (replies i moves) token got ∧
      cache.callers i = .here (fetching upkeep got pages token) := by
  obtain ⟨token, next, hcaller⟩ := hfetching
  have hstage := h.stage i
  generalize hwhere : cache.callers i = caller at hstage hcaller ⊢
  cases hstage with
  | fetching hreads hholder => exact ⟨hholder, _, _, _, hreads, rfl⟩
  | waiting hnew =>
      rw [run_namespaceNames] at hcaller
      cases hcaller
  | _ => cases hcaller

/-! ### What each event keeps -/

theorem Sound.stages (h : Sound upkeep moves cache) (hothers : ∀ j, j ≠ i → event.replyTo? j = none)
    (hkeeps : ∀ j, j ≠ i → cache.holder = some j → holder = some j)
    (hstage : Stage upkeep (moves ++ [⟨cache, event, after⟩]) holder i caller) (j : Nat) :
    Stage upkeep (moves ++ [⟨cache, event, after⟩]) holder j (update cache.callers i caller j) := by
  by_cases hj : j = i
  · rw [hj, Function.update_self]
    exact hstage
  · rw [Function.update_of_ne hj]
    exact (h.stage j).snoc (hothers j hj) (hkeeps j hj)

/-- An event that leaves the list alone. -/
theorem Sound.put (h : Sound upkeep moves cache) (hlast : ¬event.IsLast)
    (hothers : ∀ j, j ≠ i → event.replyTo? j = none)
    (hkeeps : ∀ j, j ≠ i → cache.holder = some j → holder = some j)
    (hgains : ∀ j, holder = some j → cache.holder = some j ∨ event = .entered j ∧ ¬cache.Fresh)
    (hstage : Stage upkeep (moves ++ [⟨cache, event, { cache.put i caller with holder }⟩]) holder i
      caller) :
    Sound upkeep (moves ++ [⟨cache, event, { cache.put i caller with holder }⟩])
      { cache.put i caller with holder } where
  stage := h.stages hothers hkeeps hstage
  stale j hj := by
    rcases hgains j hj with hhas | ⟨-, hstale⟩
    · exact h.stale j hhas
    · exact hstale
  began j hj := by
    rcases hgains j hj with hhas | ⟨rfl, -⟩
    · obtain ⟨begun, hbegan, hkept⟩ := h.began j hhas
      exact ⟨begun, hbegan.snoc hhas, hkept⟩
    · exact ⟨_, since_self rfl, rfl⟩
  kept := by
    refine h.kept.imp_right ?_
    rintro ⟨p, j, hfetched, hexpiry⟩
    exact ⟨p, j, hfetched.snoc _, hexpiry⟩
  inTime := h.inTime
  spared p hp hends := by
    rcases List.mem_append.1 hp with hp | hp
    · exact h.spared p hp hends
    · rw [List.mem_singleton.1 hp] at hends
      exact absurd hends hlast

theorem Sound.passed (h : Sound upkeep moves cache) {later : Nat} (hle : cache.now ≤ later)
    (hend : later < Expiry.clockEnd) :
    Sound upkeep (moves ++ [⟨cache, .passed later, { cache with now := later }⟩])
      { cache with now := later } where
  stage j := (h.stage j).snoc rfl id
  stale j hj hfresh := h.stale j hj (Expiry.isFresh_of_le hle hfresh)
  began j hj := by
    obtain ⟨begun, hbegan, hkept⟩ := h.began j hj
    exact ⟨begun, hbegan.snoc hj, hkept⟩
  kept := by
    refine h.kept.imp_right ?_
    rintro ⟨p, j, hfetched, hexpiry⟩
    exact ⟨p, j, hfetched.snoc _, hexpiry⟩
  inTime := hend
  spared p hp hends := by
    rcases List.mem_append.1 hp with hp | hp
    · exact h.spared p hp hends
    · rw [List.mem_singleton.1 hp] at hends
      exact absurd hends id

/-- The cache after the last page of a fetch. -/
def published (upkeep : Upkeep) (cache : SharedNames) (i : Nat) (names : List String) :
    SharedNames :=
  { cache.put i (.here (.done (.ok names))) with
    kept := ⟨names, .after cache.now upkeep.lifetime⟩
    holder := none }

theorem Sound.published (h : Sound upkeep moves cache) (hholder : cache.holder = some i)
    (hlast : page.next = none) (hreads : Reads (replies i moves) token got) :
    Sound upkeep (moves ++ [⟨cache, .answered i token (.ok page),
        published upkeep cache i (got ++ pageNames page)⟩])
      (published upkeep cache i (got ++ pageNames page)) := by
  have hfetched : Fetched (moves ++ [⟨cache, .answered i token (.ok page),
      SharedNames.published upkeep cache i (got ++ pageNames page)⟩]) _ i (got ++ pageNames page) :=
    fetched_of_completes ⟨token, page, got, rfl, hlast, hreads, rfl⟩
  have hothers : ∀ j, j ≠ i → (Event.answered i token (.ok page)).replyTo? j = none :=
    fun j hj => if_neg hj.symm
  have hkeeps : ∀ j, j ≠ i → cache.holder = some j → (none : Option Nat) = some j :=
    fun j hj hhas => absurd (Option.some.inj (hhas.symm.trans hholder)) hj
  refine ⟨h.stages hothers hkeeps (.served (.own hfetched)), nofun, nofun,
    Or.inr ⟨_, i, hfetched, rfl⟩, h.inTime, ?_⟩
  intro p hp hends now hnow
  apply Expiry.isFresh_after
  rcases List.mem_append.1 hp with hp | hp
  · -- The list had expired, so the lifetime of that fetch was over.
    have hover : ¬cache.now < p.before.now + upkeep.lifetime :=
      fun hlt => h.stale i hholder (h.spared p hp hends cache.now hlt)
    omega
  · rw [List.mem_singleton.1 hp] at hnow
    exact hnow

theorem Sound.arrived (h : Sound upkeep moves cache) (hcaller : cache.callers i = .absent) :
    Sound upkeep
      (moves ++ [⟨cache, .arrived i, cache.put i (.here (namespaceNames upkeep).run)⟩])
      (cache.put i (.here (namespaceNames upkeep).run)) := by
  refine h.put id (fun _ _ => rfl) (fun _ _ => id) (fun _ => Or.inl)
    (.waiting ?_)
  have hstage := h.stage i
  rw [hcaller] at hstage
  cases hstage with
  | absent hnew => simp [replies_snoc, hnew, Event.replyTo?]

theorem Sound.entered (h : Sound upkeep moves cache) (hdoes : Does upkeep cache (.entered i) after)
    (hcaller : cache.callers i = .here (namespaceNames upkeep).run)
    (hnew : replies i moves = []) :
    Sound upkeep (moves ++ [⟨cache, .entered i, after⟩]) after := by
  obtain ⟨hfree, ⟨hfresh, rfl⟩ | ⟨hstale, rfl⟩⟩ := hdoes.entered_cases hcaller
  · refine h.put id (fun _ _ => rfl) (fun _ _ => id) (fun _ => Or.inl)
      (.served ?_)
    rcases h.kept with hunused | ⟨p, j, hfetched, hexpiry⟩
    · unfold LockedShelf.Fresh at hfresh
      rw [hunused] at hfresh
      cases hfresh
    · have hrecent : cache.now < p.before.now + upkeep.lifetime :=
        Expiry.lt_of_isFresh_after (hexpiry ▸ hfresh) h.inTime
      exact .found rfl rfl hfetched hrecent
  · refine h.put id (fun _ _ => rfl) (fun j _ hhas => ?_) (fun j hj => ?_) (.fetching ?_ rfl)
    · rw [hfree] at hhas
      cases hhas
    · obtain rfl := Option.some.inj hj
      exact Or.inr ⟨rfl, hstale⟩
    · rw [replies_snoc, hnew]
      exact .start

/-- A reply comes to the caller with the lock, and its fetch goes on with it. -/
theorem Sound.goesOn (h : Sound upkeep moves cache)
    (hdoes : Does upkeep cache (.answered i token reply) after) :
    cache.holder = some i ∧ ∃ got left, Reads (replies i moves) token got ∧
      GoesOn upkeep cache i got left reply after := by
  have hfetching : cache.Fetching i := by
    cases hdoes with
    | answered hcaller reply => exact ⟨_, _, hcaller⟩
  obtain ⟨hholder, got, pages, asked, hreads, hcaller⟩ := h.fetches hfetching
  obtain ⟨rfl, left, -, hgoes⟩ := hdoes.answered_cases hcaller hholder
  exact ⟨hholder, got, left, hreads, hgoes⟩

theorem Sound.answered (h : Sound upkeep moves cache)
    (hdoes : Does upkeep cache (.answered i token reply) after) :
    Sound upkeep (moves ++ [⟨cache, .answered i token reply, after⟩]) after := by
  obtain ⟨hholder, got, left, hreads, hgoes⟩ := h.goesOn hdoes
  have hothers : ∀ j, j ≠ i → (Event.answered i token reply).replyTo? j = none :=
    fun j hj => if_neg hj.symm
  have hself : (Event.answered i token reply).replyTo? i = some (token, reply) := if_pos rfl
  have hkeeps : ∀ {now : Option Nat} (j), j ≠ i → cache.holder = some j → now = some j :=
    fun j hj hhas => absurd (Option.some.inj (hhas.symm.trans hholder)) hj
  cases hgoes with
  | failed fault =>
      exact h.put id hothers hkeeps (fun _ => nofun)
        (.failed ⟨_, List.mem_append_right _ (List.mem_singleton_self _), token, rfl⟩)
  | published hlast => exact h.published hholder hlast hreads
  | @more page next hnext =>
      refine h.put ?_ hothers hkeeps (fun _ => Or.inl)
        (.fetching ?_ hholder)
      · exact fun hlast => Option.some_ne_none next (hnext.symm.trans hlast)
      · rw [replies_snoc, hself]
        exact hreads.page hnext

theorem Sound.dropped (h : Sound upkeep moves cache) : Sound upkeep
    (moves ++ [⟨cache, .dropped i, ⟨cache.release i, update cache.callers i .gone⟩⟩])
    ⟨cache.release i, update cache.callers i .gone⟩ := by
  refine h.put id (fun _ _ => rfl) (fun j hj hhas => ?_) (fun j hj => ?_) .gone
  · exact LockedShelf.release_holder_iff.2 ⟨hhas, hj⟩
  · exact Or.inl (LockedShelf.release_holder_iff.1 hj).1

/-- Whatever happens keeps what is true of the cache. -/
theorem Sound.does (h : Sound upkeep moves cache) (hdoes : Does upkeep cache event after) :
    Sound upkeep (moves ++ [⟨cache, event, after⟩]) after := by
  cases hdoes with
  | passed hle hend => exact h.passed hle hend
  | arrived hcaller => exact h.arrived hcaller
  | entered hcaller hfree =>
      obtain ⟨hrun, hnew⟩ := h.waits hcaller
      exact h.entered (.entered hcaller hfree) hrun hnew
  | answered hcaller reply => exact h.answered (.answered hcaller reply)
  | dropped hcaller hrest => exact h.dropped

end Sound

theorem Run.sound (h : Run upkeep (new start) moves cache) (hstart : start < Expiry.clockEnd) :
    Sound upkeep moves cache := by
  induction h with
  | nil => exact sound_new hstart
  | snoc hrun hdoes ih => exact ih.does hdoes

/-! ### What the callers get -/

/-- What is true of the answers of a cache and of what it asks for. -/
structure CompleteNames (upkeep : Upkeep) (moves : List Move) (cache : SharedNames) : Prop where
  /-- An answer is all the names of a fetch that came to its last page, one that the caller has made
  or one that was published less than the lifetime before the caller looked. -/
  answered : ∀ i names, cache.callers i = .here (.done (.ok names)) → Served upkeep moves i names
  /-- An error is that of a page which the caller has asked for. -/
  refused : ∀ i fault, cache.callers i = .here (.done (.error fault)) →
    ∃ m ∈ moves, ∃ token, m.event = .answered i token (.error fault)
  /-- With its last page a fetch publishes the names on all its pages. -/
  published : ∀ i token page after, Does upkeep cache (.answered i token (.ok page)) after →
    page.next = none → ∃ names,
      Completes moves ⟨cache, .answered i token (.ok page), after⟩ i names ∧
      after.kept = ⟨names, .after cache.now upkeep.lifetime⟩ ∧
        after.callers i = .here (.done (.ok names))
  /-- A fetch that fails at a page ends with the error of that page, and leaves the list and its
  expiry as they were when it began. -/
  failed : ∀ i token fault after, Does upkeep cache (.answered i token (.error fault)) after →
    after.callers i = .here (.done (.error fault)) ∧
      ∃ begun, Began moves i begun ∧ after.kept = begun.before.kept
  /-- So does a fetch that is dropped. -/
  abandoned : ∀ i after, cache.Fetching i → Does upkeep cache (.dropped i) after →
    ∃ begun, Began moves i begun ∧ after.kept = begun.before.kept
  /-- A page is asked for only when the list has expired. -/
  requested : ∀ i, cache.Fetching i → ¬cache.Fresh
  /-- After a fetch was completed nobody asks for a page before the lifetime is over, if it ever
  is. -/
  spared : ∀ p ∈ moves, p.event.IsLast → ∀ i, cache.Fetching i →
    p.before.now + upkeep.lifetime < Expiry.clockEnd ∧
      p.before.now + upkeep.lifetime ≤ cache.now

theorem completeNames_of_sound (h : Sound upkeep moves cache) :
    CompleteNames upkeep moves cache where
  answered i names hcaller := by
    have hstage := h.stage i
    generalize hwhere : cache.callers i = caller at hstage hcaller
    cases hstage with
    | served hserved =>
        obtain rfl := Except.ok.inj (Program.done.inj (Caller.here.inj hcaller))
        exact hserved
    | fetching hreads hholder => exact absurd (Caller.here.inj hcaller) fetching_ne_done
    | waiting hnew => exact absurd hcaller (by rw [run_namespaceNames]; nofun)
    | _ => cases hcaller
  refused i fault hcaller := by
    have hstage := h.stage i
    generalize hwhere : cache.callers i = caller at hstage hcaller
    cases hstage with
    | failed hfailed =>
        obtain rfl := Except.error.inj (Program.done.inj (Caller.here.inj hcaller))
        exact hfailed
    | fetching hreads hholder => exact absurd (Caller.here.inj hcaller) fetching_ne_done
    | waiting hnew => exact absurd hcaller (by rw [run_namespaceNames]; nofun)
    | _ => cases hcaller
  published i token page after hdoes hlast := by
    obtain ⟨-, got, left, hreads, hgoes⟩ := h.goesOn hdoes
    cases hgoes with
    | published =>
        exact ⟨_, ⟨token, page, got, rfl, hlast, hreads, rfl⟩, rfl, Function.update_self ..⟩
    | more hnext => exact absurd (hnext.symm.trans hlast) (Option.some_ne_none _)
  failed i token fault after hdoes := by
    obtain ⟨hholder, got, left, -, hgoes⟩ := h.goesOn hdoes
    obtain ⟨begun, hbegan, hkept⟩ := h.began i hholder
    cases hgoes with
    | failed => exact ⟨Function.update_self .., begun, hbegan, hkept.symm⟩
  abandoned i after hfetching hdoes := by
    obtain ⟨begun, hbegan, hkept⟩ := h.began i (h.fetches hfetching).1
    cases hdoes with
    | dropped hcaller hrest => exact ⟨begun, hbegan, hkept.symm⟩
  requested i hfetching := h.stale i (h.fetches hfetching).1
  spared p hp hends i hfetching := by
    have hover : ¬cache.now < p.before.now + upkeep.lifetime :=
      fun hlt => h.stale i (h.fetches hfetching).1 (h.spared p hp hends cache.now hlt)
    have hnow := h.inTime
    omega

/-- **The cache never serves a part of a listing or an expired one.**  This holds of every run:
whoever comes and whenever, in whatever order they get the lock, whatever each page has on it,
whichever page fails, however the clock advances, and whoever is dropped wherever it waits. -/
theorem Run.completeNames (hrun : Run upkeep (new start) moves cache)
    (hstart : start < Expiry.clockEnd) : CompleteNames upkeep moves cache :=
  completeNames_of_sound (hrun.sound hstart)

/-- A page with one namespace on it. -/
def singlePage (name : String) (next : Option String) : Page Kube.Object :=
  ⟨[{ metadata := { name := some name } }], next⟩

/-- One caller fetches two pages, another one gets what it has published, and when that has expired
a third one begins to fetch. -/
theorem exists_run_thirdCaller : ∃ moves cache, Run ⟨1000, 2⟩ (new 0) moves cache ∧
    cache.callers 1 = .here (.done (.ok ["dev", "prod"])) ∧ cache.Fetching 2 := by
  have hnew : Run ⟨1000, 2⟩ (new 0) [] (new 0) := .nil
  have hbegun := (hnew.snoc (.arrived (i := 0) rfl)).snoc (.entered (i := 0) rfl rfl)
  have hpage := hbegun.snoc (.answered (i := 0) rfl (.ok (singlePage "dev" (some "more"))))
  have hlast := hpage.snoc (.answered (i := 0) rfl (.ok (singlePage "prod" none)))
  have hserved := (hlast.snoc (.arrived (i := 1) rfl)).snoc (.entered (i := 1) rfl rfl)
  have hpassed := hserved.snoc (.passed (Nat.zero_le 1000) (by decide))
  have hagain := (hpassed.snoc (.arrived (i := 2) rfl)).snoc (.entered (i := 2) rfl rfl)
  exact ⟨_, _, hagain, rfl, none, _, rfl⟩

theorem completeNames_thirdCaller : ∃ moves cache, Run ⟨1000, 2⟩ (new 0) moves cache ∧
    cache.callers 1 = .here (.done (.ok ["dev", "prod"])) ∧ cache.Fetching 2 ∧
      CompleteNames ⟨1000, 2⟩ moves cache := by
  obtain ⟨moves, cache, hrun, hserved, hfetching⟩ := exists_run_thirdCaller
  exact ⟨moves, cache, hrun, hserved, hfetching, hrun.completeNames (by decide)⟩

end ClusterAccess.SharedNames
