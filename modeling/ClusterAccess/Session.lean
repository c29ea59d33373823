/-
Sessions.

A session is a program that makes calls and also uses what a connector keeps between
requests: the identity mappings and the namespace names.  Each of the two has a lock.
A session takes the lock, looks at what is kept, makes the calls that read it anew if
it has expired, and keeps what it read, so that of many sessions that come at once only
one reads.  A session that is dropped gives back its locks and keeps nothing.
-/
import ClusterAccess.Expiry
import ClusterAccess.Call

namespace ClusterAccess

/-- What a connector keeps between requests. -/
inductive Shelf where
  | identities
  | namespaces
  deriving DecidableEq, Repr

/-- The type of what is kept. -/
abbrev Shelf.Value : Shelf → Type
  | .identities => Mappings
  | .namespaces => List String

/-- One step of a session. -/
inductive Step where
  | call (made : Call)
  /-- Makes the calls of two requests at the same time, and waits for both. -/
  | sideBySide (first second : Request Mappings)
  /-- Tells the time in milliseconds. -/
  | clock
  /-- Waits for a lock, in the order of arrival. -/
  | lock (shelf : Shelf)
  | unlock (shelf : Shelf)
  /-- Looks at what is kept. -/
  | look (shelf : Shelf)
  /-- Keeps something in place of what was kept before. -/
  | keep (shelf : Shelf) (kept : Kept shelf.Value)

/-- What a step gives. -/
abbrev Step.Reply : Step → Type
  | .call made => made.Reply
  | .sideBySide _ _ => Outcome Mappings × Outcome Mappings
  | .clock => Nat
  | .lock _ => Unit
  | .unlock _ => Unit
  | .look place => Kept place.Value
  | .keep _ _ => Unit

/-- A program of steps that can fail. -/
abbrev Session := ExceptT Fault (Program Step Step.Reply)

namespace Session

/-- Takes a step. -/
def take (step : Step) : Session step.Reply :=
  ExceptT.mk (.call step fun reply => .done (.ok reply))

/-- A request as part of a session. -/
def ofRequest (request : Request α) : Session α :=
  ExceptT.mk (request.run.embed Step.call fun _ reply => reply)

/-- Holds a lock during a session, whether it fails or not. -/
def holding (shelf : Shelf) (session : Session α) : Session α := do
  take (.lock shelf)
  let outcome ← attempt session
  take (.unlock shelf)
  ofOutcome outcome

/-- Keeps a value from now on for its lifetime. -/
def keepFor (lifetime : Nat) (shelf : Shelf) (value : shelf.Value) : Session Unit := do
  let now ← take .clock
  take (.keep shelf ⟨value, .after now lifetime⟩)

end Session

/-- How a value is kept up: how long it may be used, in milliseconds, and how many pages of a
listing may be asked for. -/
structure Upkeep where
  lifetime : Nat
  maxPages : Nat
  deriving Repr

end ClusterAccess
