/-
One load at a time, and none before its time.

The lock of the identity cache is held from the check of the expiry to the end of the load.  So
of all the callers at most one reads the sources at any time.  What a load publishes is fresh for
its lifetime, and who finds it fresh does not load: nobody reads the sources again before the
lifetime is over, and nobody ever does when it reaches past the end of the clock (`Spares`).  A
load that fails or is dropped publishes nothing, and since nobody else can publish while it lasts,
it leaves the snapshot as it found it (`began_of_loading`).
-/
import ClusterAccess.Proofs.SharedCache

namespace ClusterAccess.SharedCache

open Identity (combine)

variable {upkeep : Upkeep} {cache after begin : SharedCache} {event : Event} {moves : List Move}
  {m : Move} {i j start time : Nat} {first second : Outcome Mappings} {mappings : Mappings}

/-! ### After a publication -/

/-- Since a publication at a time the snapshot is fresh for its lifetime, and who reads the
sources does it after that. -/
structure Spares (upkeep : Upkeep) (time : Nat) (cache : SharedCache) : Prop where
  fresh : ∀ now, now < time + upkeep.lifetime ∨ Expiry.clockEnd ≤ time + upkeep.lifetime →
    cache.kept.expiry.isFresh now = true
  late : ∀ j, cache.holder = some j →
    time + upkeep.lifetime < Expiry.clockEnd ∧ time + upkeep.lifetime ≤ cache.now

theorem isFresh_after_of_end {now : Nat} (h : Expiry.clockEnd ≤ time + upkeep.lifetime) :
    (Expiry.after time upkeep.lifetime).isFresh now = true := by
  unfold Expiry.after
  rw [if_neg (Nat.not_lt.2 h)]
  rfl

/-- A publication spares what comes after it. -/
theorem spares_of_published
    (hkept : cache.kept = ⟨mappings, .after time upkeep.lifetime⟩) (hfree : cache.holder = none) :
    Spares upkeep time cache where
  fresh now hnow := by
    rw [hkept]
    rcases hnow with hnow | hend
    · exact Expiry.isFresh_after hnow
    · exact isFresh_after_of_end hend
  late j hj := by
    rw [hfree] at hj
    cases hj

/-- Nothing that happens takes the time back. -/
theorem Shift.now_le (h : Shift upkeep cache event after) : cache.now ≤ after.now := by
  cases h with
  | passed h => exact h
  | _ => exact Nat.le_refl _

theorem Spares.shift (h : Spares upkeep time cache) (hshift : Shift upkeep cache event after) :
    Spares upkeep time after := by
  have hnow := hshift.now_le
  cases hshift with
  | passed hle =>
      refine ⟨h.fresh, ?_⟩
      intro j hj
      obtain ⟨hbound, hlate⟩ := h.late j hj
      exact ⟨hbound, Nat.le_trans hlate hle⟩
  | arrived query => exact ⟨h.fresh, h.late⟩
  | spared hcaller hfree hfresh => exact ⟨h.fresh, h.late⟩
  | answered hcaller hfree => exact ⟨h.fresh, h.late⟩
  | began hcaller hfree hstale =>
      -- The snapshot is no longer fresh, so its lifetime is over.
      refine ⟨h.fresh, ?_⟩
      intro j _
      have hover : ¬(cache.now < time + upkeep.lifetime ∨
          Expiry.clockEnd ≤ time + upkeep.lifetime) := by
        intro hnot
        exact hstale (h.fresh cache.now hnot)
      omega
  | @published i query first second mappings hcaller hholder hok =>
      obtain ⟨hbound, hlate⟩ := h.late i hholder
      refine ⟨?_, nofun⟩
      intro now hnow
      have hbefore : now < time + upkeep.lifetime := by omega
      exact Expiry.isFresh_after (Nat.lt_of_lt_of_le hbefore (by omega))
  | failed hcaller hholder herror => exact ⟨h.fresh, nofun⟩
  | dropped hcaller hrest =>
      refine ⟨h.fresh, ?_⟩
      intro j hj
      exact h.late j (LockedShelf.release_holder_iff.1 hj).1

theorem Spares.run (h : Spares upkeep time begin) (hrun : Run upkeep begin moves cache)
    (hsound : begin.Sound upkeep) : Spares upkeep time cache := by
  have hkeeps : ∀ {s s' : SharedCache} {event : Event}, s.Sound upkeep ∧ Spares upkeep time s →
      Does upkeep s event s' → s'.Sound upkeep ∧ Spares upkeep time s' := by
    intro s s' event hs hdoes
    have hshift := hdoes.shift hs.1
    exact ⟨hshift.sound hs.1, hs.2.shift hshift⟩
  exact (hrun.invariant ⟨hsound, h⟩ hkeeps).2

/-! ### During a load -/

/-- What leaves a caller with the lock publishes nothing. -/
theorem Shift.kept_of_holder (h : Shift upkeep cache event after) (hafter : after.holder = some i) :
    after.kept = cache.kept := by
  cases h with
  | published hcaller hholder hok => cases hafter
  | _ => rfl

/-- A load begins in a move. -/
def Move.Begins (m : Move) (i : Nat) : Prop :=
  ¬m.before.Loading i ∧ m.after.Loading i

/-- The load that a caller has under way after some moves began in one of them. -/
def Began (moves : List Move) (i : Nat) (begun : Move) : Prop :=
  Since (fun m : Move => m.Begins i) (fun m => m.after.Loading i) moves begun

/-- A load has left the snapshot as it was when it began. -/
theorem Run.began_of_loading (h : Run upkeep (new start) moves cache) (hloading : cache.Loading i) :
    ∃ begun, Began moves i begun ∧ cache.kept = begun.before.kept := by
  induction h with
  | nil =>
      obtain ⟨_, _, query, _, hcaller⟩ := hloading
      cases hcaller
  | @snoc moves cache after event hrun hdoes ih =>
      have hsound := Run.sound hrun
      have hshift := hdoes.shift hsound
      have hafter := (hshift.sound hsound).loading_iff.1 hloading
      have hkept := hshift.kept_of_holder hafter
      by_cases hbefore : cache.Loading i
      · obtain ⟨begun, hbegan, hsame⟩ := ih hbefore
        exact ⟨begun, hbegan.snoc hloading, hkept.trans hsame⟩
      · exact ⟨⟨cache, event, after⟩, since_self ⟨hbefore, hloading⟩, hkept⟩

/-! ### Runs -/

/-- What is true of the loads of a run. -/
structure SingleFlight (upkeep : Upkeep) (moves : List Move) (cache : SharedCache) : Prop where
  /-- One caller at most reads the sources. -/
  single : ∀ i j, cache.Loading i → cache.Loading j → i = j
  /-- With an answer of either source, the mappings are published for their lifetime. -/
  published : ∀ m ∈ moves, ∀ i first second, m.event = .loaded i first second →
    (first.isOk = true ∨ second.isOk = true) → ∃ mappings,
      combine first second = .ok mappings ∧
        m.after.kept = ⟨mappings, .after m.before.now upkeep.lifetime⟩
  /-- After that nobody reads the sources before the lifetime is over, if it ever is. -/
  spared : ∀ earlier m later, moves = earlier ++ m :: later → ∀ i first second,
    m.event = .loaded i first second → (first.isOk = true ∨ second.isOk = true) →
      ∀ j, cache.Loading j → m.before.now + upkeep.lifetime < Expiry.clockEnd ∧
        m.before.now + upkeep.lifetime ≤ cache.now
  /-- A load in which neither source answers leaves the snapshot and its expiry as they were when
  it began, and its caller gets both causes. -/
  failed : ∀ prior last later, moves = prior ++ last :: later → ∀ i document entries,
    last.event = .loaded i (.error document) (.error entries) →
      (∃ begun, Began prior i begun ∧ last.after.kept = begun.before.kept) ∧
        ∃ query, last.after.callers[i]? =
          some ⟨query, some (.done (.error (.sourcesUnavailable document entries)))⟩
  /-- So does a load that is dropped. -/
  abandoned : ∀ prior last later, moves = prior ++ last :: later → ∀ i,
    last.before.Loading i → last.event = .dropped i →
      ∃ begun, Began prior i begun ∧ last.after.kept = begun.before.kept

theorem combine_of_isOk (h : first.isOk = true ∨ second.isOk = true) :
    ∃ mappings, combine first second = .ok mappings := by
  cases first with
  | ok document => cases second <;> exact ⟨_, rfl⟩
  | error fault =>
      cases second with
      | ok entries => exact ⟨_, rfl⟩
      | error other => rcases h with h | h <;> cases h

/-- **One load at a time, and none before its time.**  This holds of every run: whoever comes and
whenever, in whatever order they get the lock, whatever the sources answer, however the clock
advances, and whoever is dropped wherever it waits. -/
theorem Run.singleFlight (hrun : Run upkeep (new start) moves cache) :
    SingleFlight upkeep moves cache where
  single i j hi hj := by
    have hholder := (hrun.sound.loading_iff.1 hi).symm.trans (hrun.sound.loading_iff.1 hj)
    exact Option.some.inj hholder
  published m hm i first second hevent hok := by
    have hshift := hrun.shift_of_mem hm
    rw [hevent] at hshift
    obtain ⟨mappings, hcombine⟩ := combine_of_isOk hok
    exact ⟨mappings, hcombine, (hshift.published_of_ok hcombine).1⟩
  spared earlier m later hmoves i first second hevent hok j hj := by
    subst hmoves
    obtain ⟨hearlier, hdoes, hlater⟩ := hrun.split
    have hshift := hdoes.shift (Run.sound hearlier)
    have hsound := hshift.sound (Run.sound hearlier)
    rw [hevent] at hshift
    obtain ⟨mappings, hcombine⟩ := combine_of_isOk hok
    obtain ⟨hkept, hfree⟩ := hshift.published_of_ok hcombine
    have hspares := (spares_of_published hkept hfree).run hlater hsound
    exact hspares.late j ((Run.sound_of_sound hlater hsound).loading_iff.1 hj)
  failed prior last later hmoves i document entries hevent := by
    subst hmoves
    obtain ⟨hprior, hdoes, -⟩ := hrun.split
    have hsound := Run.sound hprior
    have hshift := hdoes.shift hsound
    have hbegan := @Run.began_of_loading _ _ _ i _ hprior
    rw [hevent] at hshift
    generalize hafter : last.after = after at hshift ⊢
    generalize hbefore : last.before = before at hsound hshift hbegan
    cases hshift with
    | published hcaller hholder hok => cases hok
    | @failed _ query _ _ fault hcaller hholder herror =>
        cases herror
        exact ⟨hbegan (hsound.loading_iff.2 hholder), query, getElem?_set_self hcaller⟩
  abandoned prior last later hmoves i hloading hevent := by
    subst hmoves
    obtain ⟨hprior, hdoes, -⟩ := hrun.split
    have hshift := hdoes.shift (Run.sound hprior)
    have hbegan := Run.began_of_loading hprior hloading
    rw [hevent] at hshift
    generalize hafter : last.after = after at hshift ⊢
    generalize hbefore : last.before = before at hshift hbegan
    cases hshift with
    | dropped hcaller hrest => exact hbegan

/-- One caller publishes an empty snapshot that may be used for a second, and another one loads
again when that is over. -/
theorem exists_run_again : ∃ moves cache, Run ⟨1000, 1⟩ (new 0) moves cache ∧ cache.Loading 1 := by
  have hok : combine (.ok .empty) (.error default) = .ok .empty := rfl
  obtain ⟨moves, hpublished, -⟩ := exists_run_firstPublished ⟨1000, 1⟩ 0 .refresh hok
  have hpassed := hpublished.snoc (.passed (Nat.zero_le 1000))
  have harrived := hpassed.snoc (.arrived .refresh)
  have hstale : ¬(Expiry.after 0 1000).isFresh 1000 = true := by decide
  have hagain := harrived.snoc (Shift.does (@Shift.began _ _ 1 .refresh rfl rfl hstale))
  exact ⟨_, _, hagain, _, _, .refresh, _, rfl⟩

theorem singleFlight_again : ∃ moves cache, Run ⟨1000, 1⟩ (new 0) moves cache ∧ cache.Loading 1 ∧
    SingleFlight ⟨1000, 1⟩ moves cache := by
  obtain ⟨moves, cache, hrun, hloading⟩ := exists_run_again
  exact ⟨moves, cache, hrun, hloading, hrun.singleFlight⟩

end ClusterAccess.SharedCache
