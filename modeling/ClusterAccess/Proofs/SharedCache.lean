/-
The identity cache, shared by many callers.

Any number of callers use one cache at once.  Each of them runs the program of a refresh or of a
lookup, and is suspended where that waits: for the lock, or for the two sources.  When it goes on
it takes its turn (`settle`).  Who of those that wait gets the lock, when the sources answer and
what they answer, and how the clock advances in between is left open.  A caller may be dropped
wherever it is suspended, and gives back the lock if it has it.

What can happen is read off the programs, line by line (`Does.shift`, `Shift.does`).  A caller
that gets the lock finds the snapshot fresh, or loads while it holds the lock; a load publishes,
or fails and leaves all as it was; and a lookup gets the lock once more to read.  From this table
follows where every caller is (`Run.sound`): the one that has the lock is the one that loads.
-/
import ClusterAccess.Identity.Lookup
import ClusterAccess.Proofs.History
import ClusterAccess.Proofs.Trace
import ClusterAccess.Proofs.Turns

namespace ClusterAccess

open Identity (combine cached)

namespace SharedCache

/-- What a caller wants. -/
inductive Query where
  | refresh
  | lookup (identity : Identity)
  deriving DecidableEq, Repr

/-- What a caller gets. -/
inductive Answer where
  | refreshed
  | found (principals : List String)
  deriving DecidableEq, Repr

/-- What a caller has left to do. -/
abbrev Rest := Program Step Step.Reply (Outcome Answer)

namespace Query

variable {upkeep : Upkeep} {query : Query}

/-- What a caller runs. -/
def session (upkeep : Upkeep) : Query → Session Answer
  | .refresh => Identity.refresh upkeep >>= fun _ => pure .refreshed
  | .lookup identity =>
    Identity.lookup upkeep identity >>= fun principals => pure (.found principals)

/-! ### The parts of what a caller runs -/

/-- What comes after the refresh. -/
def goOn : Query → Session Answer
  | .refresh => pure .refreshed
  | .lookup identity => cached >>= fun mappings => pure (.found (mappings.behind identity))

/-- The refresh gives back the lock. -/
def leave (query : Query) (outcome : Outcome Unit) : Session Answer := do
  Session.take (.unlock .identities)
  ofOutcome outcome
  query.goOn

/-- What the refresh does when both sources have answered. -/
def publish (upkeep : Upkeep) (query : Query) (first second : Outcome Mappings) : Session Answer :=
  attempt (ofOutcome (combine first second) >>= Session.keepFor upkeep.lifetime .identities) >>=
    query.leave

/-- The refresh waits for both sources. -/
def loading (upkeep : Upkeep) (query : Query) : Rest :=
  .call (.sideBySide AwsAuth.readMappings (AccessEntry.readMappings upkeep.maxPages))
    fun read => (query.publish upkeep read.1 read.2).run

/-- What the refresh does when it has got the lock. -/
def enter (upkeep : Upkeep) (query : Query) : Session Answer :=
  attempt (Session.inspect .identities (fun _ => pure ())
    (Identity.load upkeep.maxPages >>= Session.keepFor upkeep.lifetime .identities)) >>=
      query.leave

/-- A lookup that has got the lock again reads the snapshot. -/
def read (identity : Identity) : Session Answer := do
  let kept ← Session.take (.look .identities)
  Session.take (.unlock .identities)
  pure (.found (kept.value.behind identity))

theorem session_eq (upkeep : Upkeep) (query : Query) :
    query.session upkeep = (Identity.refresh upkeep >>= fun _ => query.goOn) := by
  cases query with
  | refresh => rfl
  | lookup identity =>
      have hlookup : session upkeep (.lookup identity) =
          (Identity.refresh upkeep >>= (fun _ => cached) >>=
            (fun mappings => pure (mappings.behind identity)) >>=
              fun principals => pure (Answer.found principals)) := rfl
      rw [hlookup, Request.bind_assoc, Request.bind_assoc]
      rfl

/-- A caller begins by waiting for the lock. -/
theorem run_session (upkeep : Upkeep) (query : Query) :
    (query.session upkeep).run = .call (.lock .identities) fun _ => (query.enter upkeep).run := by
  have hsession : query.session upkeep =
      (Session.take (.lock .identities) >>= fun _ => query.enter upkeep) := by
    rw [session_eq]
    unfold Identity.refresh Session.holding
    rw [Request.bind_assoc]
    refine congrArg (Session.take (.lock .identities) >>= ·) (funext fun _ => ?_)
    rw [Request.bind_assoc]
    unfold enter
    refine congrArg (_ >>= ·) (funext fun outcome => ?_)
    rw [Request.bind_assoc]
    rfl
  rw [hsession]
  rfl

/-- After its refresh a lookup waits for the lock again. -/
theorem run_goOn_lookup (identity : Identity) :
    (goOn (.lookup identity)).run = .call (.lock .identities) fun _ => (read identity).run := rfl

end Query

/-! ### Turns -/

section Settle

variable {upkeep : Upkeep} {query : Query} {now : Nat} {kept : Kept Mappings}
  {first second : Outcome Mappings} {mappings : Mappings} {fault : Fault}

theorem settle_goOn :
    settle .identities now query.goOn.run kept false = ⟨query.goOn.run, kept, false⟩ := by
  cases query <;> rfl

/-- With the lock, the refresh is over if it finds the snapshot fresh. -/
theorem settle_enter_of_fresh (h : kept.expiry.isFresh now = true) :
    settle .identities now (query.enter upkeep).run kept true = ⟨query.goOn.run, kept, false⟩ :=
  (Session.settle_inspect_of_fresh h).trans settle_goOn

/-- If it does not, it begins to load. -/
theorem settle_enter_of_stale (h : ¬kept.expiry.isFresh now = true) :
    settle .identities now (query.enter upkeep).run kept true =
      ⟨query.loading upkeep, kept, true⟩ :=
  Session.settle_inspect_of_stale h

/-- With an answer of either source, the refresh publishes. -/
theorem settle_publish_ok (h : combine first second = .ok mappings) :
    settle .identities now (query.publish upkeep first second).run kept true =
      ⟨query.goOn.run, ⟨mappings, .after now upkeep.lifetime⟩, false⟩ := by
  unfold Query.publish
  rw [h]
  exact settle_goOn

/-- Without one, it fails. -/
theorem settle_publish_error (h : combine first second = .error fault) :
    settle .identities now (query.publish upkeep first second).run kept true =
      ⟨.done (.error fault), kept, false⟩ := by
  unfold Query.publish
  rw [h]
  rfl

theorem settle_read {identity : Identity} :
    settle .identities now (Query.read identity).run kept true =
      ⟨.done (.ok (.found (kept.value.behind identity))), kept, false⟩ := rfl

end Settle

end SharedCache

/-! ### Caches with callers -/

/-- One of the callers of a cache. -/
structure SharedCache.Caller where
  query : SharedCache.Query
  /-- What it has left to do; nothing if it was dropped. -/
  rest : Option SharedCache.Rest

/-- A cache and those who have come to use it, in the order in which they came. -/
structure SharedCache extends LockedShelf .identities where
  callers : List SharedCache.Caller

namespace SharedCache

/-- What can happen to a cache. -/
inductive Event where
  /-- The clock has come to a time. -/
  | passed (later : Nat)
  | arrived (query : Query)
  /-- A caller that waits for the lock gets it. -/
  | entered (i : Nat)
  /-- Both sources have answered a caller. -/
  | loaded (i : Nat) (first second : Outcome Mappings)
  | dropped (i : Nat)

variable {upkeep : Upkeep} {query : Query} {rest : Rest} {cache after begin mid : SharedCache}
  {event : Event} {i j : Nat}

/-- A cache that nobody has used. -/
def new (now : Nat) : SharedCache := ⟨⟨now, ⟨.empty, .stale⟩, none⟩, []⟩

/-- The cache after the turn of a caller. -/
def turn (cache : SharedCache) (i : Nat) (query : Query) (rest : Rest) (holds : Bool) :
    SharedCache :=
  let pause := settle .identities cache.now rest cache.kept holds
  ⟨cache.after i pause, cache.callers.set i ⟨query, some pause.rest⟩⟩

/-- Something happens. -/
inductive Does (upkeep : Upkeep) (cache : SharedCache) : Event → SharedCache → Prop
  | passed {later : Nat} (h : cache.now ≤ later) :
      Does upkeep cache (.passed later) { cache with now := later }
  | arrived (query : Query) : Does upkeep cache (.arrived query)
      { cache with callers := cache.callers ++ [⟨query, some (query.session upkeep).run⟩] }
  | entered {i : Nat} {query : Query} {next : Unit → Rest}
      (hcaller : cache.callers[i]? = some ⟨query, some (.call (.lock .identities) next)⟩)
      (hfree : cache.holder = none) :
      Does upkeep cache (.entered i) (cache.turn i query (next ()) true)
  | loaded {i : Nat} {query : Query} {sources : Request Mappings × Request Mappings}
      {next : Outcome Mappings × Outcome Mappings → Rest}
      (hcaller : cache.callers[i]? =
        some ⟨query, some (.call (.sideBySide sources.1 sources.2) next)⟩)
      (first second : Outcome Mappings) :
      Does upkeep cache (.loaded i first second)
        (cache.turn i query (next (first, second)) (cache.holder = some i))
  | dropped {i : Nat} {query : Query} {rest : Rest}
      (hcaller : cache.callers[i]? = some ⟨query, some rest⟩)
      (hrest : ∀ outcome, rest ≠ .done outcome) :
      Does upkeep cache (.dropped i)
        ⟨cache.release i, cache.callers.set i ⟨query, none⟩⟩

/-- A caller has come and has not ended. -/
def Pending (cache : SharedCache) (i : Nat) : Prop :=
  ∃ query rest, cache.callers[i]? = some ⟨query, some rest⟩ ∧ ∀ outcome, rest ≠ .done outcome

/-- A caller waits for the answers to two requests. -/
def Asks (cache : SharedCache) (i : Nat) (first second : Request Mappings) : Prop :=
  ∃ query next, cache.callers[i]? = some ⟨query, some (.call (.sideBySide first second) next)⟩

/-- A caller reads the sources. -/
def Loading (cache : SharedCache) (i : Nat) : Prop :=
  ∃ first second, cache.Asks i first second

/-! ### Where the callers are -/

/-- Where a caller is that was not dropped. -/
inductive Stage (upkeep : Upkeep) (query : Query) (rest : Rest) : Prop
  | waiting (h : rest = (query.session upkeep).run)
  | loading (h : rest = query.loading upkeep)
  | refreshed (h : rest = query.goOn.run)
  | ended (outcome : Outcome Answer) (h : rest = .done outcome)

/-- Every caller is somewhere in its program, and the one that loads has the lock. -/
structure Sound (upkeep : Upkeep) (cache : SharedCache) : Prop where
  stage : ∀ (i : Nat) (query : Query) (rest : Rest),
    cache.callers[i]? = some ⟨query, some rest⟩ → Stage upkeep query rest
  holder_iff : ∀ i : Nat, cache.holder = some i ↔
    ∃ query, cache.callers[i]? = some ⟨query, some (query.loading upkeep)⟩

theorem sound_new (now : Nat) : (new now).Sound upkeep where
  stage i query rest h := by cases h
  holder_iff i := by simp [new]

theorem goOn_ne_sideBySide {first second : Request Mappings}
    {next : Outcome Mappings × Outcome Mappings → Rest} :
    query.goOn.run ≠ .call (.sideBySide first second) next := by
  intro h
  cases query <;> cases h

theorem goOn_ne_loading {other : Query} : query.goOn.run ≠ other.loading upkeep :=
  goOn_ne_sideBySide

theorem session_ne_loading {other : Query} :
    (query.session upkeep).run ≠ other.loading upkeep := by
  intro h
  rw [Query.run_session] at h
  cases h

/-- Who reads the sources is in its load. -/
theorem Sound.loads (h : cache.Sound upkeep) {first second : Request Mappings}
    {next : Outcome Mappings × Outcome Mappings → Rest}
    (hcaller : cache.callers[i]? = some ⟨query, some (.call (.sideBySide first second) next)⟩) :
    Program.call (Step.sideBySide first second) next = query.loading upkeep := by
  cases h.stage i query _ hcaller with
  | waiting hrest =>
      rw [Query.run_session] at hrest
      cases hrest
  | loading hrest => exact hrest
  | refreshed hrest => exact absurd hrest.symm goOn_ne_sideBySide
  | ended outcome hrest => cases hrest

theorem Sound.loading_iff (h : cache.Sound upkeep) : cache.Loading i ↔ cache.holder = some i := by
  rw [h.holder_iff]
  refine ⟨?_, ?_⟩
  · intro hloading
    obtain ⟨first, second, query, next, hcaller⟩ := hloading
    exact ⟨query, h.loads hcaller ▸ hcaller⟩
  · intro hholder
    obtain ⟨query, hcaller⟩ := hholder
    exact ⟨_, _, query, _, hcaller⟩

/-! ### What can happen -/

/-- What happens to a cache whose callers are where they should be. -/
inductive Shift (upkeep : Upkeep) (cache : SharedCache) : Event → SharedCache → Prop
  | passed {later : Nat} (h : cache.now ≤ later) :
      Shift upkeep cache (.passed later) { cache with now := later }
  | arrived (query : Query) : Shift upkeep cache (.arrived query)
      { cache with callers := cache.callers ++ [⟨query, some (query.session upkeep).run⟩] }
  /-- A refresh finds the snapshot fresh. -/
  | spared {i : Nat} {query : Query}
      (hcaller : cache.callers[i]? = some ⟨query, some (query.session upkeep).run⟩)
      (hfree : cache.holder = none) (hfresh : cache.Fresh) :
      Shift upkeep cache (.entered i)
        { cache with callers := cache.callers.set i ⟨query, some query.goOn.run⟩ }
  /-- A refresh begins to load. -/
  | began {i : Nat} {query : Query}
      (hcaller : cache.callers[i]? = some ⟨query, some (query.session upkeep).run⟩)
      (hfree : cache.holder = none) (hstale : ¬cache.Fresh) :
      Shift upkeep cache (.entered i)
        { cache with
          holder := some i
          callers := cache.callers.set i ⟨query, some (query.loading upkeep)⟩ }
  /-- A lookup reads the snapshot. -/
  | answered {i : Nat} {identity : Identity}
      (hcaller : cache.callers[i]? =
        some ⟨.lookup identity, some (Query.goOn (.lookup identity)).run⟩)
      (hfree : cache.holder = none) :
      Shift upkeep cache (.entered i)
        { cache with
          callers := cache.callers.set i
            ⟨.lookup identity, some (.done (.ok (.found (cache.kept.value.behind identity))))⟩ }
  | published {i : Nat} {query : Query} {first second : Outcome Mappings} {mappings : Mappings}
      (hcaller : cache.callers[i]? = some ⟨query, some (query.loading upkeep)⟩)
      (hholder : cache.holder = some i) (hok : combine first second = .ok mappings) :
      Shift upkeep cache (.loaded i first second)
        { cache with
          kept := ⟨mappings, .after cache.now upkeep.lifetime⟩
          holder := none
          callers := cache.callers.set i ⟨query, some query.goOn.run⟩ }
  | failed {i : Nat} {query : Query} {first second : Outcome Mappings} {fault : Fault}
      (hcaller : cache.callers[i]? = some ⟨query, some (query.loading upkeep)⟩)
      (hholder : cache.holder = some i) (herror : combine first second = .error fault) :
      Shift upkeep cache (.loaded i first second)
        { cache with
          holder := none
          callers := cache.callers.set i ⟨query, some (.done (.error fault))⟩ }
  | dropped {i : Nat} {query : Query} {rest : Rest}
      (hcaller : cache.callers[i]? = some ⟨query, some rest⟩)
      (hrest : ∀ outcome, rest ≠ .done outcome) :
      Shift upkeep cache (.dropped i)
        ⟨cache.release i, cache.callers.set i ⟨query, none⟩⟩

section Turn

variable {rest' : Rest} {kept : Kept Mappings}

theorem turn_eq {holds : Bool} {pause : Pause .identities (Outcome Answer)}
    (h : settle .identities cache.now rest cache.kept holds = pause) :
    cache.turn i query rest holds =
      ⟨cache.after i pause, cache.callers.set i ⟨query, some pause.rest⟩⟩ := by
  rw [← h]
  rfl

/-- A caller gets the lock and gives it back in the same turn. -/
theorem turn_of_free (hfree : cache.holder = none)
    (h : settle .identities cache.now rest cache.kept true = ⟨rest', cache.kept, false⟩) :
    cache.turn i query rest true =
      { cache with callers := cache.callers.set i ⟨query, some rest'⟩ } := by
  rw [turn_eq h, LockedShelf.after_of_free hfree]

/-- A caller that has the lock gives it back. -/
theorem turn_of_holder (hholder : cache.holder = some i)
    (h : settle .identities cache.now rest cache.kept true = ⟨rest', kept, false⟩) :
    cache.turn i query rest (cache.holder = some i) =
      { cache with
        kept
        holder := none
        callers := cache.callers.set i ⟨query, some rest'⟩ } := by
  rw [decide_eq_true hholder, turn_eq h, LockedShelf.after_of_holder hholder]

end Turn

/-- What happens is one line of the table. -/
theorem Does.shift (h : Does upkeep cache event after) (hsound : cache.Sound upkeep) :
    Shift upkeep cache event after := by
  cases h with
  | passed h => exact .passed h
  | arrived query => exact .arrived query
  | dropped hcaller hrest => exact .dropped hcaller hrest
  | @entered i query next hcaller hfree =>
      cases hsound.stage i query _ hcaller with
      | waiting hrest =>
          rw [hrest] at hcaller
          rw [Query.run_session] at hrest
          have hnext : next () = (query.enter upkeep).run :=
            congrFun (eq_of_heq (Program.call.inj hrest).2) ()
          by_cases hfresh : cache.Fresh
          · rw [hnext, turn_of_free hfree (settle_enter_of_fresh hfresh)]
            exact .spared hcaller hfree hfresh
          · rw [hnext, turn_eq (settle_enter_of_stale hfresh)]
            exact .began hcaller hfree hfresh
      | loading hrest => cases hrest
      | refreshed hrest =>
          cases query with
          | refresh => cases hrest
          | lookup identity =>
              rw [hrest] at hcaller
              rw [Query.run_goOn_lookup] at hrest
              have hnext : next () = (Query.read identity).run :=
                congrFun (eq_of_heq (Program.call.inj hrest).2) ()
              rw [hnext, turn_of_free hfree settle_read]
              exact .answered hcaller hfree
      | ended outcome hrest => cases hrest
  | @loaded i query sources next hcaller first second =>
      have hload := hsound.loads hcaller
      rw [hload] at hcaller
      have hholder := (hsound.holder_iff i).2 ⟨query, hcaller⟩
      have hnext : next (first, second) = (query.publish upkeep first second).run :=
        congrFun (eq_of_heq (Program.call.inj hload).2) (first, second)
      cases hcombine : combine first second with
      | ok mappings =>
          rw [hnext, turn_of_holder hholder (settle_publish_ok hcombine)]
          exact .published hcaller hholder hcombine
      | error fault =>
          rw [hnext, turn_of_holder hholder (settle_publish_error hcombine)]
          exact .failed hcaller hholder hcombine

theorem does_load (hcaller : cache.callers[i]? = some ⟨query, some (query.loading upkeep)⟩)
    (first second : Outcome Mappings) : Does upkeep cache (.loaded i first second)
      (cache.turn i query (query.publish upkeep first second).run (cache.holder = some i)) :=
  @Does.loaded upkeep cache i query
    (AwsAuth.readMappings, AccessEntry.readMappings upkeep.maxPages)
    (fun read => (query.publish upkeep read.1 read.2).run) hcaller first second

/-- Every line of the table can happen. -/
theorem Shift.does (h : Shift upkeep cache event after) : Does upkeep cache event after := by
  cases h with
  | passed h => exact .passed h
  | arrived query => exact .arrived query
  | dropped hcaller hrest => exact .dropped hcaller hrest
  | @spared i query hcaller hfree hfresh =>
      rw [← turn_of_free hfree (settle_enter_of_fresh hfresh)]
      rw [Query.run_session] at hcaller
      exact .entered hcaller hfree
  | @began i query hcaller hfree hstale =>
      rw [Query.run_session] at hcaller
      have hdoes : Does upkeep cache (.entered i) _ := .entered hcaller hfree
      rw [turn_eq (settle_enter_of_stale hstale)] at hdoes
      exact hdoes
  | @answered i identity hcaller hfree =>
      rw [← turn_of_free hfree settle_read]
      rw [Query.run_goOn_lookup] at hcaller
      exact .entered hcaller hfree
  | @published i query first second mappings hcaller hholder hok =>
      rw [← turn_of_holder hholder (settle_publish_ok hok)]
      exact does_load hcaller first second
  | @failed i query first second fault hcaller hholder herror =>
      have hdoes := does_load hcaller first second
      rw [turn_of_holder hholder (settle_publish_error herror)] at hdoes
      exact hdoes

/-! ### Runs -/

/-- Something that has happened, with the cache before and after it. -/
abbrev Move := ClusterAccess.Move SharedCache Event

/-- Any number of moves, one after another. -/
abbrev Run (upkeep : Upkeep) (begin : SharedCache) : List Move → SharedCache → Prop :=
  Trace (Does upkeep) begin

variable {moves : List Move} {m : Move} {c d old : Caller} {callers : List Caller}

theorem getElem?_set_cases (h : (callers.set i c)[j]? = some d) :
    j = i ∧ d = c ∨ j ≠ i ∧ callers[j]? = some d := by
  rw [List.getElem?_set] at h
  by_cases hij : i = j
  · rw [if_pos hij] at h
    split at h
    · exact Or.inl ⟨hij.symm, (Option.some.inj h).symm⟩
    · cases h
  · rw [if_neg hij] at h
    exact Or.inr ⟨fun hji => hij hji.symm, h⟩

theorem getElem?_set_self (h : callers[i]? = some old) : (callers.set i c)[i]? = some c := by
  rw [List.getElem?_set_self (List.getElem?_eq_some_iff.1 h).1]

theorem getElem?_arrived_cases (h : (callers ++ [c])[j]? = some d) :
    callers[j]? = some d ∨ j = callers.length ∧ d = c := by
  rw [List.getElem?_append] at h
  split at h
  · exact Or.inl h
  · next hlength =>
      rcases Nat.eq_zero_or_pos (j - callers.length) with hj | hj
      · rw [hj] at h
        exact Or.inr ⟨by omega, (Option.some.inj h).symm⟩
      · rw [List.getElem?_eq_none (show [c].length ≤ j - callers.length from hj)] at h
        cases h

theorem getElem?_arrived (h : callers[j]? = some d) : (callers ++ [c])[j]? = some d := by
  rw [List.getElem?_append_left (List.getElem?_eq_some_iff.1 h).1, h]

theorem rest_inj {query' : Query} {rest' : Rest}
    (h : (⟨query, some rest⟩ : Caller) = ⟨query', some rest'⟩) : rest = rest' :=
  Option.some.inj (Caller.mk.inj h).2

/-- The turn of one caller moves nobody else. -/
theorem Sound.set (h : cache.Sound upkeep) (kept : Kept Mappings) {holder : Option Nat}
    (hcaller : cache.callers[i]? = some old)
    (hstage : ∀ query rest, c = ⟨query, some rest⟩ → Stage upkeep query rest)
    (hself : holder = some i ↔ ∃ query, c = ⟨query, some (query.loading upkeep)⟩)
    (hother : ∀ j, j ≠ i → (holder = some j ↔ cache.holder = some j)) :
    Sound upkeep { cache with kept, holder, callers := cache.callers.set i c } where
  stage j query rest hj := by
    rcases getElem?_set_cases hj with ⟨-, hd⟩ | ⟨-, hj⟩
    · exact hstage query rest hd.symm
    · exact h.stage j query rest hj
  holder_iff j := by
    show holder = some j ↔ ∃ query, (cache.callers.set i c)[j]? = _
    by_cases hji : j = i
    · subst hji
      rw [hself, getElem?_set_self hcaller]
      simp only [Option.some.injEq]
    · rw [hother j hji, h.holder_iff, List.getElem?_set_ne fun hij => hji hij.symm]

/-- Callers stay where they should be. -/
theorem Shift.sound (h : Shift upkeep cache event after) (hsound : cache.Sound upkeep) :
    after.Sound upkeep := by
  cases h with
  | passed h => exact ⟨hsound.stage, hsound.holder_iff⟩
  | arrived query =>
      refine ⟨fun i query' rest hi => ?_, fun i => ?_⟩
      · rcases getElem?_arrived_cases hi with hold | ⟨-, hnew⟩
        · exact hsound.stage i query' rest hold
        · cases hnew
          exact .waiting rfl
      · refine (hsound.holder_iff i).trans ⟨?_, ?_⟩
        · intro hold
          obtain ⟨query', hi⟩ := hold
          exact ⟨query', getElem?_arrived hi⟩
        · intro hnew
          obtain ⟨query', hi⟩ := hnew
          rcases getElem?_arrived_cases hi with hold | ⟨-, hnew⟩
          · exact ⟨query', hold⟩
          · obtain ⟨rfl, hrest⟩ := Caller.mk.inj hnew
            exact absurd (Option.some.inj hrest).symm session_ne_loading
  | @spared i query hcaller hfree hfresh =>
      refine hsound.set _ hcaller ?_ ?_ fun j _ => Iff.rfl
      · intro query' rest heq
        cases heq
        exact .refreshed rfl
      · rw [hfree]
        exact ⟨nofun, fun ⟨query', heq⟩ => absurd (rest_inj heq) goOn_ne_loading⟩
  | @began i query hcaller hfree hstale =>
      refine hsound.set _ hcaller ?_ ⟨fun _ => ⟨query, rfl⟩, fun _ => rfl⟩ fun j hji => ?_
      · intro query' rest heq
        cases heq
        exact .loading rfl
      · rw [hfree]
        exact ⟨fun h => absurd (Option.some.inj h).symm hji, nofun⟩
  | @answered i identity hcaller hfree =>
      refine hsound.set _ hcaller ?_ ?_ fun j _ => Iff.rfl
      · intro query' rest heq
        cases heq
        exact .ended _ rfl
      · rw [hfree]
        exact ⟨nofun, fun ⟨query', heq⟩ => absurd (rest_inj heq) nofun⟩
  | @published i query first second mappings hcaller hholder hok =>
      refine hsound.set _ hcaller ?_ ?_ fun j hji => ?_
      · intro query' rest heq
        cases heq
        exact .refreshed rfl
      · exact ⟨nofun, fun ⟨query', heq⟩ => absurd (rest_inj heq) goOn_ne_loading⟩
      · rw [hholder]
        exact ⟨nofun, fun h => absurd (Option.some.inj h).symm hji⟩
  | @failed i query first second fault hcaller hholder herror =>
      refine hsound.set _ hcaller ?_ ?_ fun j hji => ?_
      · intro query' rest heq
        cases heq
        exact .ended _ rfl
      · exact ⟨nofun, fun ⟨query', heq⟩ => absurd (rest_inj heq) nofun⟩
      · rw [hholder]
        exact ⟨nofun, fun h => absurd (Option.some.inj h).symm hji⟩
  | @dropped i query rest hcaller hrest =>
      refine hsound.set _ hcaller nofun ⟨?_, nofun⟩ fun j hji => ?_
      · intro h
        exact absurd rfl (LockedShelf.release_holder_iff.1 h).2
      · refine LockedShelf.release_holder_iff.trans ⟨?_, ?_⟩
        · exact fun h => h.1
        · exact fun h => ⟨h, hji⟩

/-- In every run the callers are where they should be. -/
theorem Run.sound_of_sound (h : Run upkeep begin moves cache) (hbegin : begin.Sound upkeep) :
    cache.Sound upkeep :=
  h.invariant hbegin fun hsound hdoes => (hdoes.shift hsound).sound hsound

theorem Run.sound {start : Nat} (h : Run upkeep (new start) moves cache) : cache.Sound upkeep :=
  h.sound_of_sound (sound_new start)

theorem Run.shift_of_mem {start : Nat} (h : Run upkeep (new start) moves cache) (hm : m ∈ moves) :
    Shift upkeep m.before m.event m.after := by
  obtain ⟨earlier, later, rfl⟩ := List.append_of_mem hm
  obtain ⟨hearlier, hdoes, -⟩ := h.split
  exact hdoes.shift (Run.sound hearlier)

/-- What a load publishes. -/
theorem Shift.published_of_ok {first second : Outcome Mappings} {mappings : Mappings}
    (h : Shift upkeep cache (.loaded i first second) after)
    (hok : combine first second = .ok mappings) :
    after.kept = ⟨mappings, .after cache.now upkeep.lifetime⟩ ∧ after.holder = none := by
  cases h with
  | published hcaller hholder hcombine =>
      rw [hcombine] at hok
      cases hok
      exact ⟨rfl, rfl⟩
  | failed hcaller hholder herror =>
      rw [hok] at herror
      cases herror

/-- A cache whose first caller has just published. -/
def firstPublished (upkeep : Upkeep) (start : Nat) (query : Query) (mappings : Mappings) :
    SharedCache :=
  ⟨⟨start, ⟨mappings, .after start upkeep.lifetime⟩, none⟩, [⟨query, some query.goOn.run⟩]⟩

theorem exists_run_firstPublished (upkeep : Upkeep) (start : Nat) (query : Query)
    {first second : Outcome Mappings} {mappings : Mappings}
    (hok : combine first second = .ok mappings) : ∃ moves,
      Run upkeep (new start) moves (firstPublished upkeep start query mappings) ∧
        ∃ m ∈ moves, m.event = .loaded 0 first second := by
  have hnew : Run upkeep (new start) [] (new start) := .nil
  have harrived := hnew.snoc (.arrived query)
  have hbegan := harrived.snoc (Shift.does (@Shift.began _ _ 0 query rfl rfl Bool.false_ne_true))
  have hpublished := hbegan.snoc (Shift.does (@Shift.published _ _ 0 query _ _ _ rfl rfl hok))
  exact ⟨_, hpublished, _, List.mem_append_right _ (List.mem_singleton_self _), rfl⟩

end SharedCache

end ClusterAccess
