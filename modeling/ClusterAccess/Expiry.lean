/-
How long an observation may be used.

What was observed is kept for a while and observed again when it has expired.  An
observation has expired before it was ever made; after that its lifetime counts from
the moment it is kept.  A lifetime that reaches past the end of the clock never ends.
-/
namespace ClusterAccess

/-- When an observation has to be made again; times are in milliseconds. -/
inductive Expiry where
  /-- Nothing has been observed yet. -/
  | stale
  /-- From this time on. -/
  | at (time : Nat)
  | never
  deriving DecidableEq, Repr

namespace Expiry

/-- The end of the clock: no time is as late. -/
def clockEnd : Nat := Nat.pow 2 63 * 1000

/-- The expiry of what is kept now. -/
def after (now lifetime : Nat) : Expiry :=
  if now + lifetime < clockEnd then .at (now + lifetime) else .never

/-- May the observation still be used? -/
def isFresh (expiry : Expiry) (now : Nat) : Bool :=
  match expiry with
  | .stale => false
  | .at time => now < time
  | .never => true

/-- Before the end of its lifetime what was kept is fresh. -/
theorem isFresh_after {kept now lifetime : Nat} (h : now < kept + lifetime) :
    (after kept lifetime).isFresh now = true := by
  unfold after
  split <;> simp [isFresh, h]

/-- What is fresh in time was kept less than its lifetime ago. -/
theorem lt_of_isFresh_after {kept now lifetime : Nat}
    (h : (after kept lifetime).isFresh now = true) (hnow : now < clockEnd) :
    now < kept + lifetime := by
  unfold after at h
  split at h
  · exact of_decide_eq_true h
  · omega

/-- What is fresh was so before. -/
theorem isFresh_of_le {expiry : Expiry} {now later : Nat} (hle : now ≤ later)
    (h : expiry.isFresh later = true) : expiry.isFresh now = true := by
  cases expiry with
  | stale => cases h
  | «at» time => exact decide_eq_true (Nat.lt_of_le_of_lt hle (of_decide_eq_true h))
  | never => rfl

end Expiry

/-- An observation and its expiry. -/
structure Kept (α : Type) where
  value : α
  expiry : Expiry := .stale
  deriving Repr

end ClusterAccess
