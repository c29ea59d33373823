/-
Bindings of roles to subjects.

A binding gives a role to a list of subjects: in one namespace, or in the whole
cluster.  The library writes bindings under a name it derives from the role and the
scope, marks them as its own, and adds and removes users among their subjects.
-/
import ClusterAccess.Kube.Object
import ClusterAccess.Rbac.Role

namespace ClusterAccess

open Kube

/-- Somebody a role is bound to. -/
structure Subject where
  apiGroup : Option String := none
  kind : String
  name : String
  ns : Option String := none
  deriving DecidableEq, Repr

namespace Subject

/-- The kind of subjects that are users. -/
def userKind : String := "User"

/-- A user of the cluster. -/
def user (username : String) : Subject where
  apiGroup := some rbacGroup
  kind := userKind
  name := username

/-- Is the subject this user?  Groups and service accounts of the name are not. -/
def isUser (subject : Subject) (username : String) : Bool :=
  subject.kind = userKind && subject.name = username

end Subject

/-- Where the subjects of a binding hold its role. -/
inductive Reach where
  /-- In the namespace of the binding. -/
  | namespaced
  /-- Everywhere. -/
  | clusterWide
  deriving DecidableEq, Repr

/-- A role binding or a cluster role binding. -/
structure Binding where
  reach : Reach
  metadata : Metadata
  roleRef : RoleRef
  /-- The subjects; a binding without the list has none. -/
  subjectList : Option (List Subject)
  deriving Repr, BEq

/-- What the names of the library's own bindings start with, and the value of their mark. -/
def ownerName : String := "eksbridge"

/-- The label that marks the library's own bindings. -/
def ownerLabel : String := "app.kubernetes.io/managed-by"

/-- The name under which a role is bound at a scope.  In a namespace, bindings of roles carry a
marker of their own, because a cluster role may have the name of a role. -/
def canonicalBindingName (role : RoleTarget) (scope : Scope) : String :=
  match role, scope with
  | role, .cluster => ownerName ++ "-" ++ role.name ++ "-binding"
  | .clusterRole name, .inNamespace ns => ownerName ++ "-" ++ name ++ "-" ++ ns ++ "-binding"
  | .role _ name, .inNamespace ns => ownerName ++ "-role-" ++ name ++ "-" ++ ns ++ "-binding"

namespace Binding

/-- A new binding of a role at a scope with one user. -/
def newForUser (role : RoleTarget) (scope : Scope) (username : String) : Binding where
  reach := if scope = .cluster then .clusterWide else .namespaced
  metadata := {
    name := some (canonicalBindingName role scope)
    ns := scope.ns?
    labels := some [(ownerLabel, ownerName)] }
  roleRef := role.ref
  subjectList := some [.user username]

/-- The name of a binding; a missing one is empty. -/
def name (b : Binding) : String :=
  b.metadata.name.getD ""

/-- The namespace a binding is about; a cluster role binding is about none. -/
def ns? (b : Binding) : Option String :=
  match b.reach with
  | .namespaced => b.metadata.ns
  | .clusterWide => none

/-- The subjects of a binding. -/
def subjects (b : Binding) : List Subject :=
  b.subjectList.getD []

/-- Replaces the subjects. -/
def setSubjects (b : Binding) (subjects : List Subject) : Binding :=
  { b with subjectList := some subjects }

/-- Is the user among the subjects? -/
def hasUser (b : Binding) (username : String) : Bool :=
  b.subjects.any fun subject => subject.isUser username

/-- Adds a user after the other subjects. -/
def addUser (b : Binding) (username : String) : Binding :=
  b.setSubjects (b.subjects ++ [.user username])

/-- Removes a user from the subjects, every time it is listed. -/
def removeUser (b : Binding) (username : String) : Binding :=
  b.setSubjects (b.subjects.filter fun subject => !subject.isUser username)

/-- How faults and logs call a binding. -/
def describe (b : Binding) : String :=
  match b.reach with
  | .namespaced => "RoleBinding " ++ b.ns?.getD "" ++ "/" ++ b.name
  | .clusterWide => "ClusterRoleBinding " ++ b.name

/-- Does the binding hold at the scope? -/
def isAt (b : Binding) (scope : Scope) : Bool :=
  match scope with
  | .cluster => b.reach = .clusterWide
  | .inNamespace ns => b.reach = .namespaced && b.metadata.ns = some ns

/-! ### Bindings as objects of the API -/

/-- The kind of a binding. -/
def kind (b : Binding) : Kind :=
  match b.reach with
  | .namespaced => roleBindingKind
  | .clusterWide => clusterRoleBindingKind

/-- The text of a field of an object in its normal form. -/
def textAt (name : String) (value : Json) : String :=
  ((value.get? name).bind Json.text?).getD ""

/-- Reads what a binding points at, from its normal form. -/
def readRef (value : Json) : RoleRef :=
  ⟨textAt "apiGroup" value, textAt "kind" value, textAt "name" value⟩

/-- Reads a subject from its normal form. -/
def readSubject (value : Json) : Subject where
  apiGroup := (value.get? "apiGroup").bind Json.text?
  kind := textAt "kind" value
  name := textAt "name" value
  ns := (value.get? "namespace").bind Json.text?

/-- Reads a binding of the given reach. -/
def ofJson? (reach : Reach) (value : Json) : Option Binding :=
  let kind :=
    match reach with
    | .namespaced => roleBindingKind
    | .clusterWide => clusterRoleBindingKind
  (kind.normal? value).map fun fields =>
    { reach
      metadata := .ofJson ((Json.field? "metadata" fields).getD (.object []))
      roleRef := readRef
        ((Json.field? "roleRef" fields).getD
          (.object [("apiGroup", .string ""), ("kind", .string ""), ("name", .string "")]))
      subjectList := ((Json.field? "subjects" fields).bind Json.items?).map
        fun items => items.map readSubject }

/-- What a binding points at, as a value. -/
def refJson (ref : RoleRef) : Json :=
  .object [("apiGroup", .string ref.apiGroup), ("kind", .string ref.kind),
    ("name", .string ref.name)]

/-- A subject as a value. -/
def subjectJson (subject : Subject) : Json :=
  .object (Metadata.optional "apiGroup" (subject.apiGroup.map .string)
    ++ [("kind", .string subject.kind), ("name", .string subject.name)]
    ++ Metadata.optional "namespace" (subject.ns.map .string))

/-- A binding as an object of the API. -/
def toJson (b : Binding) : Json :=
  b.kind.object ([("metadata", b.metadata.toJson), ("roleRef", refJson b.roleRef)]
    ++ Metadata.optional "subjects"
      (b.subjectList.map fun subjects => .array (subjects.map subjectJson)))

end Binding

/-! ### The bindings of a role -/

/-- The bindings that point at a role. -/
structure RoleBindings where
  namespaced : List Binding := []
  clusterWide : List Binding := []
  deriving Repr, BEq

namespace RoleBindings

/-- Sorts bindings by their reach. -/
def ofList (bindings : List Binding) : RoleBindings where
  namespaced := bindings.filter fun b => b.reach = .namespaced
  clusterWide := bindings.filter fun b => b.reach = .clusterWide

/-- The bindings that hold at a scope. -/
def narrow (bindings : RoleBindings) : Scope → List Binding
  | .cluster => bindings.clusterWide
  | .inNamespace ns => bindings.namespaced.filter fun b => b.metadata.ns = some ns

/-- All the bindings, those of the whole cluster first. -/
def toList (bindings : RoleBindings) : List Binding :=
  bindings.clusterWide ++ bindings.namespaced

/-- Does nothing point at the role? -/
def isEmpty (bindings : RoleBindings) : Bool :=
  bindings.namespaced.isEmpty && bindings.clusterWide.isEmpty

end RoleBindings

end ClusterAccess
