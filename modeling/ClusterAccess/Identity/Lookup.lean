/-
Looking up who is behind an identity.

A lookup is answered from a snapshot of the mappings of both sources.  The snapshot is
refreshed first if it has expired.  A refresh holds the lock from the check to the
end, so that those who come meanwhile wait for it instead of reading too.  A source
that cannot be read is left out; if neither can, the refresh fails and the snapshot
stays what it was.
-/
import ClusterAccess.Identity.Sources
import ClusterAccess.Session

namespace ClusterAccess.Identity

/-- The mappings of both sources together: those of the mapping document first. -/
def combine : Outcome Mappings → Outcome Mappings → Outcome Mappings
  | .ok document, .ok entries => .ok (document.merge entries)
  | .ok document, .error _ => .ok document
  | .error _, .ok entries => .ok entries
  | .error document, .error entries => .error (.sourcesUnavailable document entries)

/-- Reads both sources. -/
def load (maxPages : Nat) : Session Mappings := do
  let read ← Session.take (.sideBySide AwsAuth.readMappings (AccessEntry.readMappings maxPages))
  ofOutcome (combine read.1 read.2)

/-- Reads the sources again if the snapshot has expired. -/
def refresh (upkeep : Upkeep) : Session Unit :=
  Session.holding .identities do
    let kept ← Session.take (.look .identities)
    let now ← Session.take .clock
    if kept.expiry.isFresh now then pure ()
    else
      let mappings ← load upkeep.maxPages
      Session.keepFor upkeep.lifetime .identities mappings

/-- The snapshot as it is, expired or not. -/
def cached : Session Mappings :=
  Session.holding .identities do
    let kept ← Session.take (.look .identities)
    pure kept.value

/-- The snapshot, refreshed first if it has expired. -/
def snapshot (upkeep : Upkeep) : Session Mappings := do
  refresh upkeep
  cached

/-- The principals behind an identity. -/
def lookup (upkeep : Upkeep) (identity : Identity) : Session (List String) := do
  let mappings ← snapshot upkeep
  pure (mappings.behind identity)

/-! ### Lookups at the same time

Lookups that come at once queue for the lock in their order.  As long as nobody has had
to wait, a lookup reads the snapshot right after its refresh.  From then on, a lookup
that is done with its refresh queues up again behind the others before it reads. -/

/-- A lookup that came together with others: answered, or about to read the snapshot. -/
inductive Turn where
  | answered (outcome : Outcome (List String))
  | queued (identity : Identity)

/-- The first turn of a lookup; `start` is when the lookups came. -/
def firstTurn (upkeep : Upkeep) (start : Nat) (identity : Identity) : Session Turn := do
  match ← attempt (refresh upkeep) with
  | .error fault => pure (.answered (.error fault))
  | .ok () =>
    let now ← Session.take .clock
    if now = start then
      let mappings ← cached
      pure (.answered (.ok (mappings.behind identity)))
    else pure (.queued identity)

/-- The last turn of a lookup. -/
def lastTurn : Turn → Session (Outcome (List String))
  | .answered outcome => pure outcome
  | .queued identity => do
    let mappings ← cached
    pure (.ok (mappings.behind identity))

/-- The principals behind each of several identities that are looked up at the same time. -/
def lookupAll (upkeep : Upkeep) (identities : List Identity) :
    Session (List (Outcome (List String))) := do
  let start ← Session.take .clock
  let turns ← identities.mapM (firstTurn upkeep start)
  turns.mapM lastTurn

end ClusterAccess.Identity
