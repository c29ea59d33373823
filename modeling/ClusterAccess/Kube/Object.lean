/-
Cluster objects.

Every object has metadata; what else it holds depends on its kind.  The fields of the
metadata that this library looks at are fields of a structure, and the others are
kept in their normal form, so that an object that is read and written back loses
nothing it is known to have.
-/
import ClusterAccess.Kube.Shape

namespace ClusterAccess.Kube

/-- The metadata of an object. -/
structure Metadata where
  name : Option String := none
  ns : Option String := none
  uid : Option String := none
  /-- The version of the object that was read; a write may insist on it. -/
  resourceVersion : Option String := none
  /-- When the object was created, in the form of timestamps. -/
  created : Option String := none
  labels : Option (List (String × String)) := none
  annotations : Option (List (String × String)) := none
  /-- The other fields, in their normal form. -/
  others : List (String × Json) := []
  deriving Repr, BEq

/-- The texts of a table of texts. -/
def textTable : Json → List (String × String)
  | .object fields => fields.filterMap fun (name, value) => value.text?.map fun text => (name, text)
  | _ => []

/-- A table of texts as a value. -/
def ofTextTable (table : List (String × String)) : Json :=
  .object (table.map fun (name, text) => (name, .string text))

namespace Metadata

/-- The names of the fields that have a place of their own. -/
def ownFields : List String :=
  ["name", "namespace", "uid", "resourceVersion", "creationTimestamp", "labels", "annotations"]

/-- The metadata of an object in its normal form. -/
def ofJson (value : Json) : Metadata where
  name := (value.get? "name").bind Json.text?
  ns := (value.get? "namespace").bind Json.text?
  uid := (value.get? "uid").bind Json.text?
  resourceVersion := (value.get? "resourceVersion").bind Json.text?
  created := (value.get? "creationTimestamp").bind Json.text?
  labels := (value.get? "labels").map textTable
  annotations := (value.get? "annotations").map textTable
  others := (value.fields?.getD []).filter fun field => !ownFields.contains field.1

/-- A field that is left out when it is absent. -/
def optional (name : String) (value : Option Json) : List (String × Json) :=
  match value with
  | some value => [(name, value)]
  | none => []

/-- The metadata as a value. -/
def toJson (m : Metadata) : Json :=
  .object (optional "name" (m.name.map .string) ++ optional "namespace" (m.ns.map .string)
    ++ optional "uid" (m.uid.map .string)
    ++ optional "resourceVersion" (m.resourceVersion.map .string)
    ++ optional "creationTimestamp" (m.created.map .string)
    ++ optional "labels" (m.labels.map ofTextTable)
    ++ optional "annotations" (m.annotations.map ofTextTable) ++ m.others)

end Metadata

/-- An object of a listing: its metadata and its other fields in their normal form. -/
structure Object where
  metadata : Metadata
  fields : List (String × Json) := []
  deriving Repr, BEq

namespace Object

/-- Reads an object of a kind. -/
def ofJson? (kind : Kind) (value : Json) : Option Object :=
  (kind.normal? value).map fun fields =>
    ⟨.ofJson ((Json.field? "metadata" fields).getD (.object [])),
      fields.filter fun field => field.1 ≠ "metadata"⟩

/-- Writes an object of a kind. -/
def toJson (kind : Kind) (object : Object) : Json :=
  kind.object (("metadata", object.metadata.toJson) :: object.fields)

/-- The name of an object, unless it is missing or empty. -/
def properName? (object : Object) : Option String :=
  object.metadata.name.filter (· ≠ "")

/-- The namespace of an object, unless it is missing or empty. -/
def properNs? (object : Object) : Option String :=
  object.metadata.ns.filter (· ≠ "")

end Object

/-- A namespace of which nothing but the name is known. -/
def namedNamespace (name : Option String) : Object :=
  ⟨{ name }, []⟩

end ClusterAccess.Kube
