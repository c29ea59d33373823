/-
The namespace cache, shared by many callers.

Any number of callers ask one cache for the names of the namespaces.  Each of them runs the same
program, and is suspended where that waits: for the lock, or for a page of the listing.  When it
goes on it takes its turn (`settle`).  Who of those that wait gets the lock, when a page comes and
what is on it, and how the clock advances in between is left open.  A caller may be dropped
wherever it is suspended, also in the middle of a fetch, and gives back the lock if it has it.

What can happen is read off the program, line by line.  A caller that gets the lock finds the list
fresh and takes it, or begins to fetch (`Does.entered_cases`).  From then on each page that it gets
makes it ask for the next one, until the last page is there and it publishes, or one of the pages
fails (`Does.answered_cases`).
-/
import Mathlib.Logic.Function.Basic
import ClusterAccess.Catalog.NamespaceNames
import ClusterAccess.Proofs.History
import ClusterAccess.Proofs.Turns

namespace ClusterAccess

open Catalog (namespaceNames namespacePage)

theorem Program.embed_bind {Op Wide : Type} {Reply : Op → Type} {WideReply : Wide → Type}
    {α β : Type} (inject : Op → Wide) (same : (op : Op) → WideReply (inject op) → Reply op)
    (p : Program Op Reply α) (f : α → Program Op Reply β) :
    (p >>= f).embed inject same =
      p.embed inject same >>= fun value => (f value).embed inject same := by
  induction p with
  | done value => rfl
  | call op next ih => exact congrArg (Program.call (inject op)) (funext fun reply => ih _)
  | unfinished => rfl

namespace SharedNames

/-- What a caller has left to do. -/
abbrev Rest := Program Step Step.Reply (Outcome (List String))

/-- The names on a page; a namespace without one is left out. -/
def pageNames (page : Page Kube.Object) : List String :=
  page.items.filterMap fun object => object.metadata.name

/-! ### The parts of what a caller runs -/

/-- The caller gives back the lock. -/
def leave (outcome : Outcome (List String)) : Session (List String) := do
  Session.take (.unlock .namespaces)
  ofOutcome outcome

/-- What the caller does when its fetch has come to an outcome. -/
def publish (upkeep : Upkeep) (fetched : Outcome (List String)) : Session (List String) :=
  attempt (ofOutcome fetched >>= fun names =>
    Session.keepFor upkeep.lifetime .namespaces names >>= fun _ => pure names) >>= leave

/-- The caller fetches pages from a token on, when it has some names already. -/
def fetching (upkeep : Upkeep) (got : List String) (pages : Nat) (token : Option String) : Rest :=
  (Session.ofRequest (collectPages namespacePage pages token)).run >>= fun fetched =>
    (publish upkeep (fetched.map (got ++ ·))).run

/-- What the caller does with the reply to its request for a page. -/
def readOn (upkeep : Upkeep) (got : List String) (pages : Nat) : Outcome (Page Kube.Object) → Rest
  | .error fault => (publish upkeep (.error fault)).run
  | .ok page =>
    match page.next with
    | none => (publish upkeep (.ok (got ++ pageNames page))).run
    | some next => fetching upkeep (got ++ pageNames page) pages (some next)

/-- What the caller does when it has got the lock. -/
def enter (upkeep : Upkeep) : Session (List String) :=
  attempt (Session.inspect .namespaces (fun kept => pure kept.value)
    (Session.ofRequest (collectPages namespacePage upkeep.maxPages none) >>= fun names =>
      Session.keepFor upkeep.lifetime .namespaces names >>= fun _ => pure names)) >>= leave

variable {upkeep : Upkeep} {got : List String} {pages : Nat} {token : Option String}

/-- Whatever comes of a session that is attempted, the lock is given back. -/
theorem run_attempt_leave (session : Session (List String)) :
    (attempt session >>= leave).run = session.run >>= fun outcome => (leave outcome).run := by
  rw [Request.run_bind]
  exact Program.bind_assoc _ _ _

/-- The caller that does not find the list fresh fetches it from the first page on. -/
theorem enter_of_stale (upkeep : Upkeep) :
    (attempt (Session.ofRequest (collectPages namespacePage upkeep.maxPages none) >>= fun names =>
      Session.keepFor upkeep.lifetime .namespaces names >>= fun _ => pure names) >>= leave).run =
        fetching upkeep [] upkeep.maxPages none := by
  unfold fetching
  rw [run_attempt_leave, Request.run_bind, Program.bind_assoc]
  refine congrArg (_ >>= ·) (funext fun fetched => ?_)
  cases fetched <;> rfl

/-- A caller begins by waiting for the lock. -/
theorem run_namespaceNames (upkeep : Upkeep) :
    (namespaceNames upkeep).run = .call (.lock .namespaces) fun _ => (enter upkeep).run := rfl

/-- The caller of a fetch waits for a page, and goes on with the reply. -/
theorem fetching_succ : fetching upkeep got (pages + 1) token =
    .call (.call (.listObjects .namespaces token)) (readOn upkeep got pages) := by
  refine congrArg (Program.call _) (funext fun (reply : Outcome (Page Kube.Object)) => ?_)
  cases reply with
  | error fault => rfl
  | ok page =>
      obtain ⟨items, _ | next⟩ := page
      · rfl
      · -- What the pages to come have is added to what this one has, then to what was got before.
        let more := pageNames ⟨items, some next⟩
        show ((collectPages namespacePage pages (some next) >>= fun rest =>
          pure (more ++ rest)).run.embed Step.call fun _ reply => reply) >>= _ =
            fetching upkeep (got ++ more) pages (some next)
        unfold fetching Session.ofRequest
        rw [Request.run_bind, Program.embed_bind, Program.bind_assoc]
        refine congrArg (_ >>= ·) (funext fun fetched => ?_)
        cases fetched with
        | error fault => rfl
        | ok rest =>
            show (publish upkeep (.ok (got ++ (more ++ rest)))).run = _
            rw [← List.append_assoc]
            rfl

/-! ### Turns -/

section Settle

variable {now : Nat} {kept : Kept (List String)} {names : List String} {fault : Fault}

theorem settle_fetching :
    settle .namespaces now (fetching upkeep got pages token) kept true =
      ⟨fetching upkeep got pages token, kept, true⟩ := by
  cases pages with
  | zero => rfl
  | succ pages =>
      rw [fetching_succ]
      rfl

/-- With the lock, a caller that finds the list fresh takes it. -/
theorem settle_enter_of_fresh (h : kept.expiry.isFresh now = true) :
    settle .namespaces now (enter upkeep).run kept true = ⟨.done (.ok kept.value), kept, false⟩ :=
  Session.settle_inspect_of_fresh h

/-- If it does not, it begins to fetch. -/
theorem settle_enter_of_stale (h : ¬kept.expiry.isFresh now = true) :
    settle .namespaces now (enter upkeep).run kept true =
      ⟨fetching upkeep [] upkeep.maxPages none, kept, true⟩ := by
  unfold enter
  rw [Session.settle_inspect_of_stale h, enter_of_stale, settle_fetching]

theorem settle_publish_ok :
    settle .namespaces now (publish upkeep (.ok names)).run kept true =
      ⟨.done (.ok names), ⟨names, .after now upkeep.lifetime⟩, false⟩ := rfl

theorem settle_publish_error :
    settle .namespaces now (publish upkeep (.error fault)).run kept true =
      ⟨.done (.error fault), kept, false⟩ := rfl

end Settle

/-- Where a caller is. -/
inductive Caller where
  | absent
  /-- It has come, and has this left to do. -/
  | here (rest : Rest)
  | gone

/-- What can happen to a cache. -/
inductive Event where
  /-- The clock has come to a time. -/
  | passed (later : Nat)
  | arrived (i : Nat)
  /-- A caller that waits for the lock gets it. -/
  | entered (i : Nat)
  /-- A caller gets the reply to its request for the page of a token. -/
  | answered (i : Nat) (token : Option String) (reply : Outcome (Page Kube.Object))
  | dropped (i : Nat)

end SharedNames

/-! ### Caches with callers -/

/-- A cache of names and those who use it. -/
structure SharedNames extends LockedShelf .namespaces where
  callers : Nat → SharedNames.Caller

namespace SharedNames

open Function (update)

variable {upkeep : Upkeep} {cache after : SharedNames} {event : Event} {i j : Nat} {rest : Rest}

/-- A cache that nobody has used. -/
def new (now : Nat) : SharedNames := ⟨⟨now, ⟨[], .stale⟩, none⟩, fun _ => .absent⟩

/-- The cache with a caller who is somewhere else. -/
def put (cache : SharedNames) (i : Nat) (caller : Caller) : SharedNames :=
  { cache with callers := update cache.callers i caller }

/-- The cache after the turn of a caller. -/
def turn (cache : SharedNames) (i : Nat) (rest : Rest) (holds : Bool) : SharedNames :=
  let pause := settle .namespaces cache.now rest cache.kept holds
  ⟨cache.after i pause, update cache.callers i (.here pause.rest)⟩

/-- Something happens. -/
inductive Does (upkeep : Upkeep) (cache : SharedNames) : Event → SharedNames → Prop
  /-- The clock never comes to its end. -/
  | passed {later : Nat} (h : cache.now ≤ later) (hend : later < Expiry.clockEnd) :
      Does upkeep cache (.passed later) { cache with now := later }
  | arrived {i : Nat} (hcaller : cache.callers i = .absent) :
      Does upkeep cache (.arrived i) (cache.put i (.here (namespaceNames upkeep).run))
  | entered {i : Nat} {next : Unit → Rest}
      (hcaller : cache.callers i = .here (.call (.lock .namespaces) next))
      (hfree : cache.holder = none) :
      Does upkeep cache (.entered i) (cache.turn i (next ()) true)
  | answered {i : Nat} {token : Option String} {next : Outcome (Page Kube.Object) → Rest}
      (hcaller : cache.callers i = .here (.call (.call (.listObjects .namespaces token)) next))
      (reply : Outcome (Page Kube.Object)) :
      Does upkeep cache (.answered i token reply)
        (cache.turn i (next reply) (cache.holder = some i))
  | dropped {i : Nat} {rest : Rest} (hcaller : cache.callers i = .here rest)
      (hrest : ∀ outcome, rest ≠ .done outcome) :
      Does upkeep cache (.dropped i)
        ⟨cache.release i, update cache.callers i .gone⟩

/-- A caller has asked for a page, and waits for it. -/
def Fetching (cache : SharedNames) (i : Nat) : Prop :=
  ∃ token next, cache.callers i = .here (.call (.call (.listObjects .namespaces token)) next)

/-! ### What can happen -/

section Turn

variable {got : List String} {pages : Nat} {token asked : Option String} {page : Page Kube.Object}
  {fault : Fault} {reply : Outcome (Page Kube.Object)}

/-- Where a program settles is where its caller is after the turn. -/
theorem turn_eq {holds : Bool} {pause : Pause .namespaces (Outcome (List String))}
    (h : settle .namespaces cache.now rest cache.kept holds = pause) :
    cache.turn i rest holds =
      ⟨cache.after i pause, update cache.callers i (.here pause.rest)⟩ := by
  rw [← h]
  rfl

/-- A caller that gets the lock takes a fresh list, and begins to fetch otherwise. -/
theorem Does.entered_cases (h : Does upkeep cache (.entered i) after)
    (hcaller : cache.callers i = .here (namespaceNames upkeep).run) :
    cache.holder = none ∧
      (cache.Fresh ∧ after = cache.put i (.here (.done (.ok cache.kept.value))) ∨
        ¬cache.Fresh ∧ after =
          { cache.put i (.here (fetching upkeep [] upkeep.maxPages none)) with
            holder := some i }) := by
  cases h with
  | @entered _ next hwaits hfree =>
      rw [hcaller, run_namespaceNames] at hwaits
      have hnext : (enter upkeep).run = next () :=
        congrFun (eq_of_heq (Program.call.inj (Caller.here.inj hwaits)).2) ()
      rw [← hnext]
      refine ⟨hfree, ?_⟩
      by_cases hfresh : cache.Fresh
      · rw [turn_eq (settle_enter_of_fresh hfresh), LockedShelf.after_of_free hfree]
        exact Or.inl ⟨hfresh, rfl⟩
      · rw [turn_eq (settle_enter_of_stale hfresh)]
        exact Or.inr ⟨hfresh, rfl⟩

/-- What the reply to a request for a page makes of a fetch. -/
inductive GoesOn (upkeep : Upkeep) (cache : SharedNames) (i : Nat) (got : List String) :
    Nat → Outcome (Page Kube.Object) → SharedNames → Prop
  | failed {pages : Nat} (fault : Fault) : GoesOn upkeep cache i got pages (.error fault)
      { cache.put i (.here (.done (.error fault))) with holder := none }
  | published {pages : Nat} {page : Page Kube.Object} (hlast : page.next = none) :
      GoesOn upkeep cache i got pages (.ok page)
        { cache.put i (.here (.done (.ok (got ++ pageNames page)))) with
          kept := ⟨got ++ pageNames page, .after cache.now upkeep.lifetime⟩
          holder := none }
  | more {pages : Nat} {page : Page Kube.Object} {next : String} (hnext : page.next = some next) :
      GoesOn upkeep cache i got pages (.ok page)
        (cache.put i (.here (fetching upkeep (got ++ pageNames page) pages (some next))))

theorem goesOn_turn (hholder : cache.holder = some i) (reply : Outcome (Page Kube.Object)) :
    GoesOn upkeep cache i got pages reply
      (cache.turn i (readOn upkeep got pages reply) (cache.holder = some i)) := by
  rw [decide_eq_true hholder]
  unfold readOn
  cases reply with
  | error fault =>
      rw [turn_eq settle_publish_error, LockedShelf.after_of_holder hholder]
      exact .failed fault
  | ok page =>
      cases hnext : page.next with
      | none =>
          simp only [hnext]
          rw [turn_eq settle_publish_ok, LockedShelf.after_of_holder hholder]
          exact .published hnext
      | some next =>
          simp only [hnext]
          rw [turn_eq settle_fetching, LockedShelf.after_of_waits hholder]
          exact .more hnext

/-- The reply to a caller that fetches comes to the request that it has made. -/
theorem Does.answered_cases (h : Does upkeep cache (.answered i token reply) after)
    (hcaller : cache.callers i = .here (fetching upkeep got pages asked))
    (hholder : cache.holder = some i) :
    asked = token ∧ ∃ left, pages = left + 1 ∧ GoesOn upkeep cache i got left reply after := by
  cases h with
  | @answered _ _ next hwaits _ =>
      rw [hcaller] at hwaits
      cases pages with
      | zero => cases hwaits
      | succ left =>
          rw [fetching_succ] at hwaits
          obtain ⟨hcall, hnext⟩ := Program.call.inj (Caller.here.inj hwaits)
          obtain rfl := (Call.listObjects.inj (Step.call.inj hcall)).2
          obtain rfl := eq_of_heq hnext
          exact ⟨rfl, left, rfl, goesOn_turn hholder reply⟩

end Turn

theorem fetching_ne_lock {got : List String} {pages : Nat} {token : Option String}
    {next : Unit → Rest} : fetching upkeep got pages token ≠ .call (.lock .namespaces) next := by
  intro h
  cases pages with
  | zero => cases h
  | succ pages =>
      rw [fetching_succ] at h
      cases h

theorem fetching_ne_done {got : List String} {pages : Nat} {token : Option String}
    {outcome : Outcome (List String)} : fetching upkeep got pages token ≠ .done outcome := by
  intro h
  cases pages with
  | zero => cases h
  | succ pages =>
      rw [fetching_succ] at h
      cases h

end SharedNames

end ClusterAccess
