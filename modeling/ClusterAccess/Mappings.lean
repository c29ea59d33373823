/-
Identity mappings.

A mapping row says which username and which groups a principal has in the cluster.
Read the other way round, a table of mappings tells which principals stand behind a
username or a group: in the order of the rows, and once for every row that names
them.
-/
namespace ClusterAccess

/-- A row that maps a principal. -/
structure MappingRow where
  principal : String
  username : Option String := none
  groups : List String := []
  deriving DecidableEq, Repr

namespace MappingRow

/-- The username of a row: a principal without one has its own name. -/
def effectiveUsername (row : MappingRow) : String :=
  match row.username with
  | some name => if name = "" then row.principal else name
  | none => row.principal

end MappingRow

/-! ### Tables of principals -/

/-- Lists of principals under names, in the order in which the names came up. -/
abbrev PrincipalTable := List (String × List String)

namespace PrincipalTable

/-- The principals under a name. -/
def find (name : String) : PrincipalTable → List String
  | [] => []
  | (key, principals) :: rest => if key = name then principals else find name rest

/-- Adds principals after those under a name. -/
def append (name : String) (more : List String) : PrincipalTable → PrincipalTable
  | [] => [(name, more)]
  | (key, principals) :: rest =>
    if key = name then (key, principals ++ more) :: rest
    else (key, principals) :: append name more rest

/-- Adds every entry of another table after the ones held. -/
def merge (table other : PrincipalTable) : PrincipalTable :=
  other.foldl (fun table entry => append entry.1 entry.2 table) table

end PrincipalTable

/-- What principals are looked up by. -/
inductive Identity where
  | username (name : String)
  | group (name : String)
  deriving DecidableEq, Repr

/-- The principals behind each username and each group. -/
structure Mappings where
  users : PrincipalTable := []
  groups : PrincipalTable := []
  deriving DecidableEq, Repr

namespace Mappings

/-- The table without mappings. -/
def empty : Mappings := {}

/-- Records a row, under the principal itself when the username is missing or empty.  The empty
group does not count. -/
def record (m : Mappings) (row : MappingRow) : Mappings where
  users := m.users.append ((row.username.filter (· ≠ "")).getD row.principal) [row.principal]
  groups := (row.groups.filter (· ≠ "")).foldl
    (fun table group => table.append group [row.principal]) m.groups

/-- Records rows one after another. -/
def ofRows (rows : List MappingRow) : Mappings :=
  rows.foldl record empty

/-- Adds every mapping of another table after the ones held. -/
def merge (m other : Mappings) : Mappings :=
  ⟨m.users.merge other.users, m.groups.merge other.groups⟩

/-- The principals behind a username. -/
def forUsername (m : Mappings) (username : String) : List String :=
  m.users.find username

/-- The principals in a group. -/
def forGroup (m : Mappings) (group : String) : List String :=
  m.groups.find group

/-- The principals behind an identity. -/
def behind (m : Mappings) : Identity → List String
  | .username name => m.forUsername name
  | .group name => m.forGroup name

/-- Is nothing mapped? -/
def isEmpty (m : Mappings) : Bool :=
  m.users.isEmpty && m.groups.isEmpty

end Mappings

end ClusterAccess
