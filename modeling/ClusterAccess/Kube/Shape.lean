/-
The shapes of Kubernetes objects.

An object is read leniently: a field that is absent or null takes its empty default,
a field that no shape knows is dropped, and of a repeated field the last one counts.
A value of the wrong type is an error all the same.  Reading an object by its shape
gives its normal form, in which the fields that are always written are present and
the empty optional ones are not.
-/
import ClusterAccess.Json.Record
import ClusterAccess.Timestamp

namespace ClusterAccess.Kube

/-- What a field may hold. -/
inductive Shape where
  | text
  /-- An integer of so many bits. -/
  | whole (bits : Nat)
  | flag
  | time
  /-- Any value, kept as it is. -/
  | anything
  | list (members : Shape)
  /-- A table from names to values. -/
  | table (values : Shape)
  /-- A record: the name of each field, whether it is written even when empty, and its shape. -/
  | record (fields : List (String × Bool × Shape))
  deriving Repr

namespace Shape

/-- The value of a field that is always written and was absent. -/
def empty : Shape → Json
  | .text => .string ""
  | .whole _ => .number "0"
  | .flag => .bool false
  | .time => .string ""
  | .anything => .null
  | .list _ => .array []
  | .table _ => .object []
  | .record _ => .object []

/-- Keeps the last of the fields that share a name. -/
def lastOfEach : List (String × Json) → List (String × Json)
  | [] => []
  | field :: rest =>
    if rest.any fun later => later.1 = field.1 then lastOfEach rest else field :: lastOfEach rest

/-- Is the integer within the range of so many bits? -/
def inRange (bits : Nat) (n : Int) : Bool :=
  let bound := Int.ofNat (Nat.pow 2 (bits - 1))
  n < bound && -bound ≤ n

mutual

/-- The normal form of a value. -/
def normal? : Shape → Json → Option Json
  | .text, .string s => some (.string s)
  | .whole bits, .number literal =>
    match Json.integer? literal with
    | some n => if inRange bits n then some (.number literal) else none
    | none => none
  | .flag, .bool value => some (.bool value)
  | .time, .string s => (Timestamp.parse? s).map fun t => .string t.render
  | .anything, value => if value.isHoldable 100 then some value else none
  | .list members, .array items => (items.mapM (normal? members)).map .array
  | .table values, .object fields =>
    (fields.mapM fun field =>
      (normal? values field.2).map fun value => (field.1, value)).map
        fun fields => .object (lastOfEach fields)
  | .record shapes, .object fields => (normalFields? shapes fields).map .object
  | _, _ => none

/-- The normal forms of the fields of a record, in the order of its shape. -/
def normalFields? : List (String × Bool × Shape) → List (String × Json) →
    Option (List (String × Json))
  | [], _ => some []
  | field :: rest, values => do
    let head ← normalField? field values
    let tail ← normalFields? rest values
    some (head ++ tail)

/-- The normal form of one field of a record: every occurrence has to fit, and the last counts. -/
def normalField? : String × Bool × Shape → List (String × Json) → Option (List (String × Json))
  | (name, always, shape), values =>
    let blank := if always then [(name, shape.empty)] else []
    (values.filter fun field => field.1 = name).foldlM
      (fun _ field =>
        match field.2 with
        | .null => some blank
        | value => (normal? shape value).map fun value => [(name, value)])
      blank

end

end Shape

/-! ### The shapes of the objects that are read here -/

/-- A list of texts. -/
def texts : Shape := .list .text

/-- A table of texts. -/
def labels : Shape := .table .text

/-- An optional field. -/
def opt (name : String) (shape : Shape) : String × Bool × Shape := (name, false, shape)

/-- A field that is always written. -/
def req (name : String) (shape : Shape) : String × Bool × Shape := (name, true, shape)

/-- The metadata of an object. -/
def metadataShape : Shape :=
  .record [
    opt "annotations" labels, opt "creationTimestamp" .time,
    opt "deletionGracePeriodSeconds" (.whole 64), opt "deletionTimestamp" .time,
    opt "finalizers" texts, opt "generateName" .text, opt "generation" (.whole 64),
    opt "labels" labels,
    opt "managedFields" (.list (.record [
      opt "apiVersion" .text, opt "fieldsType" .text, opt "fieldsV1" .anything,
      opt "manager" .text, opt "operation" .text, opt "subresource" .text, opt "time" .time])),
    opt "name" .text, opt "namespace" .text,
    opt "ownerReferences" (.list (.record [
      req "apiVersion" .text, opt "blockOwnerDeletion" .flag, opt "controller" .flag,
      req "kind" .text, req "name" .text, req "uid" .text])),
    opt "resourceVersion" .text, opt "selfLink" .text, opt "uid" .text]

/-- The metadata of a list. -/
def listMetadataShape : Shape :=
  .record [
    opt "continue" .text, opt "remainingItemCount" (.whole 64), opt "resourceVersion" .text,
    opt "selfLink" .text]

/-- A rule of a role. -/
def ruleShape : Shape :=
  .record [
    opt "apiGroups" texts, opt "nonResourceURLs" texts, opt "resourceNames" texts,
    opt "resources" texts, req "verbs" texts]

/-- How a cluster role collects the rules of others. -/
def aggregationShape : Shape :=
  .record [
    opt "clusterRoleSelectors" (.list (.record [
      opt "matchExpressions" (.list (.record [
        req "key" .text, req "operator" .text, opt "values" texts])),
      opt "matchLabels" labels]))]

/-- What a binding points at. -/
def roleRefShape : Shape :=
  .record [req "apiGroup" .text, req "kind" .text, req "name" .text]

/-- Who is bound. -/
def subjectShape : Shape :=
  .record [opt "apiGroup" .text, req "kind" .text, req "name" .text, opt "namespace" .text]

/-! ### Kinds of objects -/

/-- A kind of object: its API version, its name, and the shape of its fields. -/
structure Kind where
  apiVersion : String
  name : String
  fields : List (String × Bool × Shape)

/-- The version of the RBAC API. -/
def rbacVersion : String := "rbac.authorization.k8s.io/v1"

/-- Cluster roles. -/
def clusterRoleKind : Kind :=
  ⟨rbacVersion, "ClusterRole",
    [opt "aggregationRule" aggregationShape, req "metadata" metadataShape,
      opt "rules" (.list ruleShape)]⟩

/-- Roles. -/
def roleKind : Kind :=
  ⟨rbacVersion, "Role", [req "metadata" metadataShape, opt "rules" (.list ruleShape)]⟩

/-- Namespaces. -/
def namespaceKind : Kind :=
  ⟨"v1", "Namespace",
    [req "metadata" metadataShape, opt "spec" (.record [opt "finalizers" texts]),
      opt "status" (.record [
        opt "conditions" (.list (.record [
          opt "lastTransitionTime" .time, opt "message" .text, opt "reason" .text,
          req "status" .text, req "type" .text])),
        opt "phase" .text])]⟩

/-- Config maps. -/
def configMapKind : Kind :=
  ⟨"v1", "ConfigMap",
    [opt "binaryData" labels, opt "data" labels, opt "immutable" .flag,
      req "metadata" metadataShape]⟩

/-- The fields of a binding. -/
def bindingFields : List (String × Bool × Shape) :=
  [req "metadata" metadataShape, req "roleRef" roleRefShape, opt "subjects" (.list subjectShape)]

/-- Role bindings. -/
def roleBindingKind : Kind := ⟨rbacVersion, "RoleBinding", bindingFields⟩

/-- Cluster role bindings. -/
def clusterRoleBindingKind : Kind := ⟨rbacVersion, "ClusterRoleBinding", bindingFields⟩

namespace Kind

/-- Does every occurrence of a field hold this text? -/
def saysOnly (name expected : String) (fields : List (String × Json)) : Bool :=
  (fields.filter fun field => field.1 = name).all fun field => field.2 == .string expected

/-- The normal form of the fields of an object of this kind, type fields left out. -/
def normal? (kind : Kind) : Json → Option (List (String × Json))
  | .object fields =>
    if saysOnly "apiVersion" kind.apiVersion fields && saysOnly "kind" kind.name fields then
      Shape.normalFields? kind.fields fields
    else none
  | _ => none

/-- An object of this kind with its type fields. -/
def object (kind : Kind) (fields : List (String × Json)) : Json :=
  .object (("apiVersion", .string kind.apiVersion) :: ("kind", .string kind.name) :: fields)

end Kind

end ClusterAccess.Kube
