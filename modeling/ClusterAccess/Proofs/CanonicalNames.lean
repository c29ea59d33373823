/-
The names of the library's own bindings.

The library binds a role at a scope under a name that it puts together from the name of the
role and the namespace, with dashes in between and nothing quoted.  Two such bindings are one
object when they are in one place, and so at one scope.  Then the names differ in the middle
only, in what they say of the role, and that tells cluster roles from one another, and the
roles of a namespace too.

What it does not always tell is a cluster role from a role.  The marker in front of a role's
name sets it apart from the cluster role of the same name, but a cluster role may have a name
that begins with the marker.  That is the only way in which two bindings meet
(`Binding.place_newForUser_eq_iff`).
-/
import ClusterAccess.Proofs.ListedPlaces

namespace ClusterAccess

namespace RoleTarget

/-- What the name of a binding in a namespace says of the role. -/
def label : RoleTarget → String
  | .clusterRole name => name
  | .role _ name => "role-" ++ name

/-- The first is a cluster role, and is called like the second one, a role, behind the marker. -/
def IsCalledLike (a b : RoleTarget) : Prop :=
  ∃ ns name, a = .clusterRole ("role-" ++ name) ∧ b = .role ns name

variable {role other : RoleTarget} {ns : String}

/-- In a namespace a name is told by the label. -/
theorem canonicalBindingName_inNamespace (role : RoleTarget) (ns : String) :
    canonicalBindingName role (.inNamespace ns) =
      ownerName ++ "-" ++ role.label ++ "-" ++ ns ++ "-binding" := by
  cases role with
  | clusterRole name => rfl
  | role home name =>
      apply String.toList_inj.1
      simp [canonicalBindingName, label]

theorem canonicalBindingName_inNamespace_inj :
    canonicalBindingName role (.inNamespace ns) = canonicalBindingName other (.inNamespace ns) ↔
      role.label = other.label := by
  rw [canonicalBindingName_inNamespace, canonicalBindingName_inNamespace, ← String.toList_inj,
    ← String.toList_inj]
  simp

theorem canonicalBindingName_cluster_inj :
    canonicalBindingName role .cluster = canonicalBindingName other .cluster ↔
      role.name = other.name := by
  rw [← String.toList_inj, ← String.toList_inj]
  simp [canonicalBindingName]

/-- Two roles that can be bound in a namespace have one label when they are the same, or when one
is called like the other behind the marker. -/
theorem label_eq_iff (hrole : role.admits (.inNamespace ns) = true)
    (hother : other.admits (.inNamespace ns) = true) :
    role.label = other.label ↔
      role = other ∨ role.IsCalledLike other ∨ other.IsCalledLike role := by
  cases role with
  | clusterRole name =>
      cases other with
      | clusterRole name' => simp [label, IsCalledLike]
      | role home name' => simp [label, IsCalledLike]
  | role home name =>
      cases other with
      | clusterRole name' => simp [label, IsCalledLike, eq_comm]
      | role home' name' =>
          -- Both are roles of this namespace, so only their names can tell them apart.
          have hhome : Scope.inNamespace ns = .inNamespace home := of_decide_eq_true hrole
          have hhome' : Scope.inNamespace ns = .inNamespace home' := of_decide_eq_true hother
          obtain rfl := Scope.inNamespace.inj hhome
          obtain rfl := Scope.inNamespace.inj hhome'
          have hname : "role-" ++ name = "role-" ++ name' ↔ name = name' := by
            rw [← String.toList_inj, ← String.toList_inj]
            simp
          simp [label, IsCalledLike, hname]

end RoleTarget

/-- Bindings of the library are in one place only when they are at one scope. -/
theorem canonicalPlace_eq_iff {role other : RoleTarget} {scope elsewhere : Scope} :
    canonicalPlace role scope = canonicalPlace other elsewhere ↔
      scope = elsewhere ∧ canonicalBindingName role scope = canonicalBindingName other scope := by
  cases scope with
  | cluster =>
      cases elsewhere with
      | cluster => simp [canonicalPlace, BindingStore.placeNamed, Scope.ns?]
      | inNamespace ns => simp [canonicalPlace, BindingStore.placeNamed, Scope.ns?]
  | inNamespace ns =>
      cases elsewhere with
      | cluster => simp [canonicalPlace, BindingStore.placeNamed, Scope.ns?]
      | inNamespace ns' =>
          have hplace : canonicalPlace role (.inNamespace ns) =
              canonicalPlace other (.inNamespace ns') ↔ ns = ns' ∧
                canonicalBindingName role (.inNamespace ns) =
                  canonicalBindingName other (.inNamespace ns') := by
            simp [canonicalPlace, BindingStore.placeNamed, Scope.ns?]
          rw [hplace, Scope.inNamespace.injEq]
          refine and_congr_right fun hns => ?_
          rw [hns]

namespace Binding

variable {role other : RoleTarget} {scope elsewhere : Scope} {username username' : String}

/-- **Two bindings that the library makes are one object in one case only.**  They are for one role
at one scope, or one is for a role in its namespace, and the other is for a cluster role, in the
same namespace, that is called like the role with the marker in front. -/
theorem place_newForUser_eq_iff (hrole : role.admits scope = true)
    (hother : other.admits elsewhere = true) :
    (newForUser role scope username).place = (newForUser other elsewhere username').place ↔
      scope = elsewhere ∧
        (role = other ∨ role.IsCalledLike other ∨ other.IsCalledLike role) := by
  rw [place_newForUser, place_newForUser, canonicalPlace_eq_iff]
  refine and_congr_right fun hscope => ?_
  subst hscope
  cases scope with
  | inNamespace ns =>
      rw [RoleTarget.canonicalBindingName_inNamespace_inj]
      exact RoleTarget.label_eq_iff hrole hother
  | cluster =>
      -- Only cluster roles can be bound in the whole cluster.
      rw [RoleTarget.canonicalBindingName_cluster_inj]
      cases role with
      | role ns name => cases hrole
      | clusterRole name =>
          cases other with
          | role ns name' => cases hother
          | clusterRole name' => simp [RoleTarget.name, RoleTarget.IsCalledLike]

/-- The cluster role of a role's name, also one that begins with the marker, does not meet it. -/
theorem place_newForUser_ne_of_same_name :
    (RoleTarget.role "default" "role-view").admits (.inNamespace "default") = true ∧
      (RoleTarget.clusterRole "role-view").admits (.inNamespace "default") = true ∧
      (newForUser (.role "default" "role-view") (.inNamespace "default") "alice").place ≠
        (newForUser (.clusterRole "role-view") (.inNamespace "default") "alice").place := by
  have hrole : (RoleTarget.role "default" "role-view").admits (.inNamespace "default") = true := rfl
  have hother : (RoleTarget.clusterRole "role-view").admits (.inNamespace "default") = true := rfl
  refine ⟨hrole, hother, fun heq => ?_⟩
  obtain ⟨-, hsame | ⟨ns, name, hcluster, -⟩ | ⟨ns, name, hname, hrole⟩⟩ :=
    (place_newForUser_eq_iff hrole hother).1 heq
  · cases hsame
  · cases hcluster
  · cases hrole
    exact absurd hname (by decide)

/-- The binding of the role `view` in its namespace is the same object as that of the cluster role
`role-view` there, and cannot be created beside it. -/
theorem newForUser_meets_cluster_role :
    (RoleTarget.role "default" "view").admits (.inNamespace "default") = true ∧
      (RoleTarget.clusterRole "role-view").admits (.inNamespace "default") = true ∧
      RoleTarget.role "default" "view" ≠ .clusterRole "role-view" ∧
      (newForUser (.role "default" "view") (.inNamespace "default") "alice").place =
        (newForUser (.clusterRole "role-view") (.inNamespace "default") "bob").place ∧
      ((BindingStore.empty.put
          (newForUser (.clusterRole "role-view") (.inNamespace "default") "bob")).create
        (newForUser (.role "default" "view") (.inNamespace "default") "alice")).1.isOk = false :=
  ⟨rfl, rfl, by decide, by decide, by decide⟩

end Binding

end ClusterAccess
