/-
What happens to a system, one move after another.

A move is something that happens, with the states of the system before and after it.  What can
happen in a state is a relation that is given, so a trace is any number of moves of which each
begins where the last one ended.

Three things are true of every trace, whatever the system is.

  * What is true at first and is kept by every step is true in the end (`invariant`).
  * A trace of moves put end to end is a trace and another one that goes on from it
    (`append_iff`, `split`).
  * If something was true once and is not true in the end, then there is a last move that ended it
    (`holds_or_ended`, `not_holds_iff_ended`).

What has begun and still goes on is told by the move that it began with (`Since`).
-/
import Mathlib.Data.List.Induction

namespace ClusterAccess

/-- Something that has happened, with the states before and after it. -/
structure Move (σ ε : Type) where
  before : σ
  event : ε
  after : σ

/-- Any number of moves, one after another. -/
inductive Trace {σ ε : Type} (step : σ → ε → σ → Prop) (begin : σ) : List (Move σ ε) → σ → Prop
  | nil : Trace step begin [] begin
  | snoc {moves : List (Move σ ε)} {state after : σ} {event : ε}
      (h : Trace step begin moves state) (hstep : step state event after) :
      Trace step begin (moves ++ [⟨state, event, after⟩]) after

/-- Something was true at some time. -/
def Once {σ ε : Type} (holds : σ → Prop) (begin : σ) (moves : List (Move σ ε)) : Prop :=
  holds begin ∨ ∃ m ∈ moves, holds m.after

/-- A move of a certain kind has ended something, which has not been true since. -/
def Ended {σ ε : Type} (holds : σ → Prop) (kind : Move σ ε → Prop) (moves : List (Move σ ε)) :
    Prop :=
  ∃ earlier m later, moves = earlier ++ m :: later ∧ kind m ∧ holds m.before ∧
    ∀ m' ∈ m :: later, ¬holds m'.after

/-- A move of a certain kind has begun something that every move since then goes on with. -/
def Since {σ ε : Type} (kind lasts : Move σ ε → Prop) (moves : List (Move σ ε))
    (begun : Move σ ε) : Prop :=
  kind begun ∧ ∃ earlier mid, moves = earlier ++ begun :: mid ∧ ∀ m ∈ mid, lasts m

variable {σ ε : Type} {step : σ → ε → σ → Prop} {begin state final : σ}
  {moves earlier later : List (Move σ ε)} {m begun : Move σ ε} {holds : σ → Prop}
  {kind lasts : Move σ ε → Prop}

/-! ### Traces and their parts -/

namespace Trace

/-- What every step keeps, every trace keeps. -/
theorem invariant (h : Trace step begin moves state) (hbegin : holds begin)
    (hkeeps : ∀ {s s' : σ} {event : ε}, holds s → step s event s' → holds s') : holds state := by
  induction h with
  | nil => exact hbegin
  | snoc _ hstep ih => exact hkeeps ih hstep

/-- The last move of a trace comes after a trace of the others. -/
theorem of_snoc (h : Trace step begin (moves ++ [m]) state) :
    Trace step begin moves m.before ∧ step m.before m.event m.after ∧ m.after = state := by
  generalize hwhole : moves ++ [m] = whole at h
  cases h with
  | nil => simp at hwhole
  | @snoc most mid after event h hstep =>
      obtain ⟨rfl, hlast⟩ := List.append_inj' hwhole rfl
      obtain rfl := List.singleton_inj.1 hlast
      exact ⟨h, hstep, rfl⟩

theorem append_iff : Trace step begin (earlier ++ later) final ↔
    ∃ mid, Trace step begin earlier mid ∧ Trace step mid later final := by
  refine ⟨?_, ?_⟩
  · intro h
    induction later using List.reverseRecOn generalizing final with
    | nil =>
        rw [List.append_nil] at h
        exact ⟨final, h, .nil⟩
    | append_singleton later m ih =>
        rw [← List.append_assoc] at h
        obtain ⟨hmost, hstep, rfl⟩ := h.of_snoc
        obtain ⟨mid, hearlier, hlater⟩ := ih hmost
        exact ⟨mid, hearlier, .snoc hlater hstep⟩
  · intro h
    obtain ⟨mid, hearlier, hlater⟩ := h
    induction hlater with
    | nil =>
        rw [List.append_nil]
        exact hearlier
    | snoc _ hstep ih =>
        rw [← List.append_assoc]
        exact .snoc ih hstep

/-- A trace is what came before a move, the move, and what came after it. -/
theorem split (h : Trace step begin (earlier ++ m :: later) final) :
    Trace step begin earlier m.before ∧ step m.before m.event m.after ∧
      Trace step m.after later final := by
  rw [List.append_cons] at h
  obtain ⟨mid, hfront, hlater⟩ := append_iff.1 h
  obtain ⟨hearlier, hstep, rfl⟩ := hfront.of_snoc
  exact ⟨hearlier, hstep, hlater⟩

end Trace

/-! ### What is true at one time and not at another -/

theorem Once.snoc (h : Once holds begin moves) (m : Move σ ε) :
    Once holds begin (moves ++ [m]) := by
  rcases h with hbegin | ⟨m', hm', hholds⟩
  · exact Or.inl hbegin
  · exact Or.inr ⟨m', List.mem_append_left _ hm', hholds⟩

theorem since_self (h : kind m) : Since kind lasts (moves ++ [m]) m :=
  ⟨h, moves, [], rfl, nofun⟩

theorem Since.snoc (h : Since kind lasts moves begun) (hm : lasts m) :
    Since kind lasts (moves ++ [m]) begun := by
  obtain ⟨hkind, earlier, mid, rfl, hmid⟩ := h
  refine ⟨hkind, earlier, mid ++ [m], by simp, ?_⟩
  intro m' hm'
  rcases List.mem_append.1 hm' with hold | hnew
  · exact hmid m' hold
  · rw [List.mem_singleton.1 hnew]
    exact hm

theorem Ended.snoc (h : Ended holds kind moves) (hm : ¬holds m.after) :
    Ended holds kind (moves ++ [m]) := by
  obtain ⟨earlier, last, later, rfl, hkind, hbefore, hnever⟩ := h
  refine ⟨earlier, last, later ++ [m], by simp, hkind, hbefore, ?_⟩
  intro m' hm'
  rw [← List.cons_append] at hm'
  rcases List.mem_append.1 hm' with hold | hnew
  · exact hnever m' hold
  · rw [List.mem_singleton.1 hnew]
    exact hm

/-- What has been ended is not true in the end. -/
theorem Ended.not_holds (h : Ended holds kind moves) (htrace : Trace step begin moves final) :
    ¬holds final := by
  obtain ⟨earlier, m, later, heq, -, -, hnever⟩ := h
  cases htrace with
  | nil => simp at heq
  | @snoc _ state _ event _ _ =>
      have hlast : (m :: later).getLast? = some ⟨state, event, final⟩ := by
        simpa using (congrArg List.getLast? heq).symm
      exact hnever _ (List.mem_of_getLast? hlast)

/-- What was true once is true in the end, or a move was the last to end it. -/
theorem Trace.holds_or_ended (h : Trace step begin moves final) (honce : Once holds begin moves)
    (hkind : ∀ m ∈ moves, holds m.before → ¬holds m.after → kind m) :
    holds final ∨ Ended holds kind moves := by
  induction h with
  | nil =>
      rcases honce with hbegin | ⟨m, hm, -⟩
      · exact Or.inl hbegin
      · cases hm
  | @snoc moves state after event _ _ ih =>
      by_cases hafter : holds after
      · exact Or.inl hafter
      refine Or.inr ?_
      -- It is not true now, so it was true before this move.
      have hearlier : Once holds begin moves := by
        rcases honce with hbegin | ⟨m, hm, hholds⟩
        · exact Or.inl hbegin
        rcases List.mem_append.1 hm with hold | hnew
        · exact Or.inr ⟨m, hold, hholds⟩
        · rw [List.mem_singleton.1 hnew] at hholds
          exact absurd hholds hafter
      rcases ih hearlier fun m hm => hkind m (List.mem_append_left _ hm) with hbefore | hended
      · have hthis := hkind ⟨state, event, after⟩ (by simp) hbefore hafter
        refine ⟨moves, _, [], rfl, hthis, hbefore, ?_⟩
        intro m hm
        rw [List.mem_singleton.1 hm]
        exact hafter
      · exact hended.snoc hafter

/-- **What was true once is not true in the end exactly if a move has ended it for good.** -/
theorem Trace.not_holds_iff_ended (h : Trace step begin moves final)
    (honce : Once holds begin moves)
    (hkind : ∀ m ∈ moves, holds m.before → ¬holds m.after → kind m) :
    ¬holds final ↔ Ended holds kind moves := by
  have hor := h.holds_or_ended honce hkind
  exact ⟨fun hnot => hor.resolve_left hnot, fun hended => hended.not_holds h⟩

end ClusterAccess
