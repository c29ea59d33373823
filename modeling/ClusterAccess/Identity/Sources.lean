/-
The two sources of identity mappings.

Mappings come from the mapping document of the cluster and from its access entries.
The document is read in one call.  The access entries are listed page by page and
then described one by one; an entry that is gone, that cannot be described or that
is not of the standard type maps nobody, and does not stand in the way of the others.
-/
import ClusterAccess.Directory

namespace ClusterAccess

namespace AwsAuth

/-- What the mapping document is called as a source of mappings. -/
def sourceName : String := "aws-auth"

/-- The mappings of the mapping document, which has to exist. -/
def readMappings : Request Mappings := do
  let document ← load
  pure document.mappings

end AwsAuth

namespace AccessEntry

/-- What the access entries are called as a source of mappings. -/
def sourceName : String := "access-entries"

/-- The type of the entries that map a principal; the other types are those of nodes. -/
def standardType : String := "STANDARD"

/-- The row that an entry stands for. -/
def row (entry : AccessEntry) : MappingRow :=
  ⟨entry.principal, entry.username, entry.groups⟩

/-- One page of principals with an entry; an empty token ends the listing. -/
def listPage (token : Option String) : Request (Page String) := do
  let page ← send (.listAccessEntries token)
  pure (⟨page.items, endToken page.next⟩ : Page String)

/-- The row of one principal, if its entry can be read and maps it. -/
def readRow (principal : String) : Request (List MappingRow) := do
  match ← attempt (send (.describeAccessEntry principal)) with
  | .ok (some entry) =>
    pure (if AccessEntry.type entry = standardType then [row entry] else [])
  | .ok none => pure []
  | .error _ => pure []

/-- The mappings of the access entries of users and roles, from at most so many pages. -/
def readMappings (maxPages : Nat) : Request Mappings := do
  let principals ← collectPages listPage maxPages none
  let rows ← gather readRow (principals.filter Arn.isUserOrRole)
  pure (.ofRows rows)

end AccessEntry

end ClusterAccess
