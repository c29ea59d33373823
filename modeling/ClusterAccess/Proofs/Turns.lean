/-
Turns at a shelf with a lock.

Many callers use what is kept on one shelf.  Each of them runs a program, and is suspended where
that waits: for the lock, or for an answer from outside.  A turn is what it does from there to
where it is suspended again or has ended (`settle`).  No time passes meanwhile, and nobody else
takes a turn, so a turn changes the shelf in one go (`LockedShelf.after`).

A caller that has the lock gives it back by a step of its program, or by being dropped.  What a
turn leaves of the lock is said here for every shelf, and so is the one decision that those who
have the lock make: to use what is kept if it is fresh, or else to read it anew.
-/
import ClusterAccess.Session

namespace ClusterAccess

/-- What a step that need not wait gives, and what it leaves on a shelf and of its lock. -/
def Step.atOnce? (shelf : Shelf) (now : Nat) (kept : Kept shelf.Value) (holds : Bool) :
    (step : Step) → Option (step.Reply × Kept shelf.Value × Bool)
  | .clock => some (now, kept, holds)
  | .look other => if h : shelf = other then some (h ▸ kept, kept, holds) else none
  | .keep other new => if h : other = shelf then some ((), h ▸ new, holds) else none
  | .unlock other => if other = shelf then some ((), kept, false) else none
  | _ => none

/-- What a turn leaves: the rest of the program, what is kept, and whether the lock is held. -/
structure Pause (shelf : Shelf) (α : Type) where
  rest : Program Step Step.Reply α
  kept : Kept shelf.Value
  holds : Bool

/-- Runs a program until it has to wait or has ended. -/
def settle {α : Type} (shelf : Shelf) (now : Nat) :
    Program Step Step.Reply α → Kept shelf.Value → Bool → Pause shelf α
  | .call step next, kept, holds =>
    match step.atOnce? shelf now kept holds with
    | some (reply, kept, holds) => settle shelf now (next reply) kept holds
    | none => ⟨.call step next, kept, holds⟩
  | rest, kept, holds => ⟨rest, kept, holds⟩

section Settle

variable {shelf : Shelf} {α : Type} {now : Nat} {kept : Kept shelf.Value} {holds : Bool}

@[simp] theorem settle_clock {next : Nat → Program Step Step.Reply α} :
    settle shelf now (.call .clock next) kept holds = settle shelf now (next now) kept holds :=
  rfl

@[simp] theorem settle_look {next : Kept shelf.Value → Program Step Step.Reply α} :
    settle shelf now (.call (.look shelf) next) kept holds =
      settle shelf now (next kept) kept holds := by
  simp [settle, Step.atOnce?]

end Settle

/-! ### With the lock -/

namespace Session

/-- Looks at what is kept, and goes on by whether it is fresh. -/
def inspect {α : Type} (shelf : Shelf) (fresh : Kept shelf.Value → Session α) (stale : Session α) :
    Session α := do
  let kept ← take (.look shelf)
  let now ← take .clock
  if kept.expiry.isFresh now then fresh kept else stale

variable {shelf : Shelf} {α β : Type} {now : Nat} {kept : Kept shelf.Value} {holds : Bool}
  {fresh : Kept shelf.Value → Session α} {stale : Session α} {leave : Outcome α → Session β}

theorem settle_inspect : settle shelf now (attempt (inspect shelf fresh stale) >>= leave).run kept
    holds = settle shelf now
      (attempt (if kept.expiry.isFresh now then fresh kept else stale) >>= leave).run kept holds :=
  settle_look.trans settle_clock

theorem settle_inspect_of_fresh (h : kept.expiry.isFresh now = true) :
    settle shelf now (attempt (inspect shelf fresh stale) >>= leave).run kept holds =
      settle shelf now (attempt (fresh kept) >>= leave).run kept holds := by
  rw [settle_inspect, if_pos h]

theorem settle_inspect_of_stale (h : ¬kept.expiry.isFresh now = true) :
    settle shelf now (attempt (inspect shelf fresh stale) >>= leave).run kept holds =
      settle shelf now (attempt stale >>= leave).run kept holds := by
  rw [settle_inspect, if_neg h]

end Session

/-! ### Shelves -/

/-- A shelf as those who share it find it. -/
structure LockedShelf (shelf : Shelf) where
  now : Nat
  kept : Kept shelf.Value
  /-- Who has the lock. -/
  holder : Option Nat

namespace LockedShelf

variable {shelf : Shelf} {α : Type}

/-- What is kept may be used. -/
def Fresh (s : LockedShelf shelf) : Prop :=
  s.kept.expiry.isFresh s.now = true

/-- The shelf without a caller, who gives back the lock if it has it. -/
def release (s : LockedShelf shelf) (i : Nat) : LockedShelf shelf :=
  { s with holder := s.holder.filter (· ≠ i) }

/-- The shelf after the turn of a caller. -/
def after (s : LockedShelf shelf) (i : Nat) (pause : Pause shelf α) : LockedShelf shelf where
  now := s.now
  kept := pause.kept
  holder := if pause.holds then some i else (s.release i).holder

variable {s : LockedShelf shelf} {i j : Nat} {rest : Program Step Step.Reply α}
  {kept : Kept shelf.Value}

theorem release_holder_iff : (s.release i).holder = some j ↔ s.holder = some j ∧ j ≠ i := by
  simp [release, Option.filter_eq_some_iff]

/-- A caller gets the lock and gives it back in the same turn. -/
theorem after_of_free (hfree : s.holder = none) : s.after i ⟨rest, s.kept, false⟩ = s := by
  have hholder : (s.release i).holder = s.holder := by simp [release, hfree]
  show (⟨s.now, s.kept, (s.release i).holder⟩ : LockedShelf shelf) = s
  rw [hholder]

/-- A caller that has the lock gives it back. -/
theorem after_of_holder (hholder : s.holder = some i) :
    s.after i ⟨rest, kept, false⟩ = { s with kept, holder := none } := by
  simp [after, release, hholder]

/-- Or it keeps it, and waits. -/
theorem after_of_waits (hholder : s.holder = some i) : s.after i ⟨rest, s.kept, true⟩ = s := by
  show (⟨s.now, s.kept, some i⟩ : LockedShelf shelf) = s
  rw [← hholder]

end LockedShelf

end ClusterAccess
