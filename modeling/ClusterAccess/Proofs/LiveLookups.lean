/-
Every lookup is answered from a snapshot that was live.

A lookup has the lock twice: once for its refresh, and once more to read.  In between others may
load, fail to load, and let the snapshot expire.  Yet what it reads was fresh, and was the
snapshot that anybody would have found, at some moment while the lookup was pending (`Seen`).
After its own refresh that is so because the snapshot was found fresh or has just been published;
and whenever someone else publishes another one, that one is fresh at that moment, since a
lifetime is more than no time at all.
-/
import ClusterAccess.Proofs.SharedCache

namespace ClusterAccess.SharedCache

open Identity (combine)

variable {upkeep : Upkeep} {cache after : SharedCache} {event : Event} {moves : List Move}
  {m : Move} {i j start : Nat} {kept : Kept Mappings} {rest : Rest} {caller : Caller}
  {identity : Identity} {answer : Answer} {query : Query}

/-! ### Publications -/

/-- A snapshot was published in one of the moves. -/
def Published (moves : List Move) (kept : Kept Mappings) : Prop :=
  ∃ m ∈ moves, ∃ i first second, m.event = .loaded i first second ∧
    combine first second = .ok kept.value ∧ m.after.kept = kept

theorem Published.snoc (h : Published moves kept) : Published (moves ++ [m]) kept := by
  obtain ⟨publication, hmem, hrest⟩ := h
  exact ⟨publication, List.mem_append_left _ hmem, hrest⟩

/-- The snapshot stays what it is, unless a load publishes another one. -/
theorem Shift.kept_cases (h : Shift upkeep cache event after) :
    after.kept = cache.kept ∨ ∃ i first second, event = .loaded i first second ∧
      combine first second = .ok after.kept.value := by
  cases h with
  | published hcaller hholder hok => exact Or.inr ⟨_, _, _, rfl, hok⟩
  | _ => exact Or.inl rfl

/-- Any snapshot but the first was published. -/
theorem Run.published_of_ne_stale (h : Run upkeep (new start) moves cache)
    (hexpiry : cache.kept.expiry ≠ .stale) : Published moves cache.kept := by
  induction h with
  | nil => exact absurd rfl hexpiry
  | @snoc moves cache after event hrun hdoes ih =>
      rcases (hdoes.shift (Run.sound hrun)).kept_cases with hkept | ⟨i, first, second, hevent, hok⟩
      · rw [hkept] at hexpiry ⊢
        exact (ih hexpiry).snoc
      · exact ⟨⟨cache, event, after⟩, by simp, i, first, second, hevent, hok, rfl⟩

theorem Run.published_of_fresh (h : Run upkeep (new start) moves cache) (hfresh : cache.Fresh) :
    Published moves cache.kept := by
  refine h.published_of_ne_stale fun hstale => ?_
  rw [LockedShelf.Fresh, hstale] at hfresh
  cases hfresh

/-! ### What a pending caller has seen -/

/-- At a moment after a caller came and before it ended, a snapshot was the one that was kept, was
fresh, and had been published. -/
def Seen (moves : List Move) (i : Nat) (kept : Kept Mappings) : Prop :=
  ∃ earlier m later, moves = earlier ++ m :: later ∧ m.after.Pending i ∧ m.after.Fresh ∧
    m.after.kept = kept ∧ Published (earlier ++ [m]) kept

theorem Seen.snoc (h : Seen moves i kept) : Seen (moves ++ [m]) i kept := by
  obtain ⟨earlier, moment, later, rfl, hrest⟩ := h
  exact ⟨earlier, moment, later ++ [m], by simp, hrest⟩

theorem goOn_ne_done {outcome : Outcome Answer} :
    (Query.goOn (.lookup identity)).run ≠ .done outcome := by
  intro h
  cases h

theorem session_ne_done {outcome : Outcome Answer} :
    (query.session upkeep).run ≠ .done outcome := by
  intro h
  rw [Query.run_session] at h
  cases h

/-- A lookup that has come is not one that is done with its refresh: with the lock and nothing
kept, the one loads and the other answers. -/
theorem session_ne_goOn : (query.session upkeep).run ≠ (Query.goOn (.lookup identity)).run := by
  intro h
  rw [Query.run_session, Query.run_goOn_lookup] at h
  have hnext := congrFun (eq_of_heq (Program.call.inj h).2) ()
  have henter : settle .identities 0 (query.enter upkeep).run ⟨.empty, .stale⟩ true = _ :=
    settle_enter_of_stale Bool.false_ne_true
  rw [hnext, settle_read] at henter
  cases henter

/-- What is kept after a move has been seen in it by whoever is pending then. -/
theorem Run.seen (h : Run upkeep (new start) moves cache) (hdoes : Does upkeep cache event after)
    (hpending : after.Pending i) (hfresh : after.Fresh) :
    Seen (moves ++ [⟨cache, event, after⟩]) i after.kept :=
  ⟨moves, _, [], rfl, hpending, hfresh, rfl, Run.published_of_fresh (h.snoc hdoes) hfresh⟩

/-! ### Lookups -/

/-- What a lookup goes by: once its refresh is over it has seen the snapshot that is kept, and it
answers from one that it has seen. -/
structure Caller.Informed (moves : List Move) (kept : Kept Mappings) (i : Nat) (caller : Caller) :
    Prop where
  refreshed : ∀ identity, caller = ⟨.lookup identity, some (Query.goOn (.lookup identity)).run⟩ →
    Seen moves i kept
  answered : ∀ identity answer, caller = ⟨.lookup identity, some (.done (.ok answer))⟩ →
    ∃ old, Seen moves i old ∧ answer = .found (old.value.behind identity)

theorem Caller.Informed.snoc (h : caller.Informed moves kept i) :
    caller.Informed (moves ++ [m]) kept i where
  refreshed identity hcaller := (h.refreshed identity hcaller).snoc
  answered identity answer hcaller := by
    obtain ⟨old, hseen, hanswer⟩ := h.answered identity answer hcaller
    exact ⟨old, hseen.snoc, hanswer⟩

/-- A caller that is neither done with its refresh nor with an answer goes by nothing. -/
theorem Caller.informed_of_ne
    (hgoOn : ∀ identity, rest ≠ (Query.goOn (.lookup identity)).run)
    (hdone : ∀ answer, rest ≠ .done (.ok answer)) :
    (⟨query, some rest⟩ : Caller).Informed moves kept i where
  refreshed identity hcaller := absurd (rest_inj hcaller) (hgoOn identity)
  answered _ answer hcaller := absurd (rest_inj hcaller) (hdone answer)

/-- Every caller goes by what it has seen. -/
def Informed (moves : List Move) (cache : SharedCache) : Prop :=
  ∀ (i : Nat) (caller : Caller),
    cache.callers[i]? = some caller → caller.Informed moves cache.kept i

/-- A move of one caller that keeps the snapshot informs no other. -/
theorem Informed.set (h : Informed moves cache) (hkept : after.kept = cache.kept)
    (hcallers : after.callers = cache.callers.set i caller)
    (hcaller : caller.Informed (moves ++ [m]) cache.kept i) : Informed (moves ++ [m]) after := by
  intro j other hj
  rw [hcallers] at hj
  rw [hkept]
  rcases getElem?_set_cases hj with ⟨rfl, rfl⟩ | ⟨-, hold⟩
  · exact hcaller
  · exact (h j other hold).snoc

/-- **What one move preserves.** -/
theorem Informed.does (hlife : 0 < upkeep.lifetime) (hrun : Run upkeep (new start) moves cache)
    (h : Informed moves cache) (hdoes : Does upkeep cache event after) :
    Informed (moves ++ [⟨cache, event, after⟩]) after := by
  have hseen : ∀ {i}, after.Pending i → after.Fresh →
      Seen (moves ++ [⟨cache, event, after⟩]) i after.kept := hrun.seen hdoes
  cases hdoes.shift hrun.sound with
  | passed hle =>
      intro i caller hi
      exact (h i caller hi).snoc
  | arrived query =>
      intro i caller hi
      rcases getElem?_arrived_cases hi with hold | ⟨-, rfl⟩
      · exact (h i caller hold).snoc
      · exact Caller.informed_of_ne (fun _ => session_ne_goOn) (fun _ => session_ne_done)
  | @spared i query hcaller hfree hfresh =>
      refine h.set rfl rfl ⟨?_, ?_⟩
      · intro identity heq
        obtain ⟨rfl, -⟩ := Caller.mk.inj heq
        exact hseen ⟨_, _, getElem?_set_self hcaller, fun _ => goOn_ne_done⟩ hfresh
      · intro identity answer heq
        obtain ⟨rfl, hrest⟩ := Caller.mk.inj heq
        exact absurd (Option.some.inj hrest) goOn_ne_done
  | @began i query hcaller hfree hstale =>
      refine h.set rfl rfl (Caller.informed_of_ne ?_ nofun)
      exact fun _ => goOn_ne_loading.symm
  | @answered i identity hcaller hfree =>
      refine h.set rfl rfl ⟨?_, ?_⟩
      · intro identity' heq
        exact absurd (rest_inj heq).symm goOn_ne_done
      · -- It has seen what it reads.
        intro identity' answer heq
        obtain ⟨hquery, hrest⟩ := Caller.mk.inj heq
        cases hquery
        cases hrest
        exact ⟨cache.kept, ((h i _ hcaller).refreshed identity rfl).snoc, rfl⟩
  | @published i query first second mappings hcaller hholder hok =>
      -- Whoever is done with its refresh is pending while the new snapshot is published.
      intro j other hj
      refine ⟨?_, ?_⟩
      · intro identity heq
        rw [heq] at hj
        exact hseen ⟨_, _, hj, fun _ => goOn_ne_done⟩
          (Expiry.isFresh_after (Nat.lt_add_of_pos_right hlife))
      · intro identity answer heq
        rcases getElem?_set_cases hj with ⟨-, rfl⟩ | ⟨-, hold⟩
        · obtain ⟨rfl, hrest⟩ := Caller.mk.inj heq
          exact absurd (Option.some.inj hrest) goOn_ne_done
        · exact ((h j other hold).snoc).answered identity answer heq
  | @failed i query first second fault hcaller hholder herror =>
      refine h.set rfl rfl (Caller.informed_of_ne ?_ nofun)
      exact fun _ => goOn_ne_done.symm
  | @dropped i query rest hcaller hrest =>
      exact h.set rfl rfl ⟨nofun, nofun⟩

theorem Run.informed (hlife : 0 < upkeep.lifetime) (h : Run upkeep (new start) moves cache) :
    Informed moves cache := by
  induction h with
  | nil =>
      intro i caller hi
      cases hi
  | snoc hrun hdoes ih => exact ih.does hlife hrun hdoes

end ClusterAccess.SharedCache
