/-
What a resource offers.

Membership of a resource is offered at a scope, and the scope stands at the end of the
entitlement's id.  So an offer is told by its id: it says the kind and the name of the resource and
then the scope, as that is spelled, and it is read back as that membership (`Offers`).

A list of offers enumerates a list of scopes if it has one for each, in order (`Enumerates`).  No
id comes up more often than its scope then, since no two scopes are spelled alike.  There is one
exception: the namespace called `cluster` is spelled `ns:cluster`, and so would be a namespace that
is called just that.  A cluster has none, for it is no label.
-/
import ClusterAccess.Catalog.Resource
import ClusterAccess.Proofs.EntitlementGrammar

namespace ClusterAccess

/-! ### Spellings -/

namespace Scope

variable {scope other : Scope}

/-- How a scope is spelled in an id. -/
def spelling : Scope → String
  | .cluster => "cluster"
  | .inNamespace ns => if ns = "cluster" then "ns:cluster" else ns

theorem toString_eq_spelling (scope : Scope) : toString scope = scope.spelling := by
  cases scope with
  | cluster => rfl
  | inNamespace ns =>
      show String.ofList (toChars (.inNamespace ns)) = _
      simp only [toChars, spelling]
      by_cases hns : ns = "cluster"
      · subst hns
        rfl
      · have hchars : ns.toList ≠ clusterWord := fun h => hns (String.toList_injective h)
        rw [if_neg hchars, if_neg hns, String.ofList_toList]

/-- Scopes are told apart by their spellings, but for the escape as the name of a namespace. -/
theorem spelling_inj (hscope : scope ≠ .inNamespace "ns:cluster")
    (hescape : scope = .inNamespace "cluster" → other ≠ .inNamespace "ns:cluster") :
    other.spelling = scope.spelling ↔ other = scope := by
  refine ⟨?_, fun h => by rw [h]⟩
  intro h
  cases scope with
  | cluster =>
      cases other with
      | cluster => rfl
      | inNamespace ns =>
          simp only [spelling] at h
          split at h
          · exact absurd h (by decide)
          · exact absurd h ‹_›
  | inNamespace name =>
      simp only [ne_eq, inNamespace.injEq] at hscope hescape
      cases other with
      | cluster =>
          simp only [spelling] at h
          split at h
          · exact absurd h (by decide)
          · exact absurd h.symm ‹_›
      | inNamespace ns =>
          simp only [inNamespace.injEq] at hescape
          simp only [spelling] at h
          by_cases hns : ns = "cluster" <;> by_cases hname : name = "cluster"
          · rw [hns, hname]
          · rw [if_pos hns, if_neg hname] at h
            exact absurd h.symm hscope
          · rw [if_neg hns, if_pos hname] at h
            exact absurd h (hescape hname)
          · rw [if_neg hns, if_neg hname] at h
            rw [h]

end Scope

/-! ### Offers -/

/-- An entitlement is the membership of a resource at a scope. -/
structure Offers (kind : String) (resource : Resource) (scope : Scope) (e : Entitlement) :
    Prop where
  resource_eq : e.resource = resource.id
  id_eq : e.id = kind ++ ":" ++ resource.id.resource ++ ":assigned:" ++ scope.spelling
  /-- The id is read back, unless the namespace is the one whose ids are misread. -/
  reads : resource.id.resource ≠ "" → scope.Valid → scope ≠ .inNamespace "assumes" →
    EntitlementId.decode e.id = .ok (.assigned kind resource.id.resource scope)

variable {kind displayName description : String} {resource : Resource} {scope other : Scope}
  {scopes : List Scope} {e f : Entitlement} {entitlements : List Entitlement}

theorem offers_entitlement (hkind : kind ≠ "" ∧ ':' ∉ kind.toList) {holders : List ResourceType} :
    Offers kind resource scope
      (resource.entitlement (.assigned kind resource.id.resource scope) displayName description
        holders) where
  resource_eq := rfl
  id_eq := by
    show toString (EntitlementId.assigned kind resource.id.resource scope) = _
    rw [EntitlementId.toString_eq_append, EntitlementId.assigned,
      EntitlementId.ofList_formChars_assigned, ← String.append_assoc,
      ← scope.toString_eq_spelling]
    rfl
  reads := by
    intro hresource hvalid hne
    refine EntitlementId.decode_eq_ok_iff.2 ⟨⟨hkind.1, hkind.2, hresource, hvalid⟩, rfl, ?_⟩
    intro h
    exact hne (EntitlementForm.assigned.inj h)

/-- Two offers of a resource are told apart by their ids. -/
theorem Offers.id_eq_iff (he : Offers kind resource scope e) (hf : Offers kind resource other f)
    (hscope : scope ≠ .inNamespace "ns:cluster")
    (hescape : scope = .inNamespace "cluster" → other ≠ .inNamespace "ns:cluster") :
    f.id = e.id ↔ other = scope := by
  rw [he.id_eq, hf.id_eq, String.append_right_inj]
  exact Scope.spelling_inj hscope hescape

/-- The entitlements are the offers of a resource at these scopes, one for each, in order. -/
structure Enumerates (kind : String) (resource : Resource) (scopes : List Scope)
    (entitlements : List Entitlement) : Prop where
  offered : List.Forall₂ (Offers kind resource) scopes entitlements
  /-- An id comes up as often as its scope, unless a namespace is called like the escape. -/
  count_eq : ∀ scope e, Offers kind resource scope e → scope ≠ .inNamespace "ns:cluster" →
    (scope = .inNamespace "cluster" → .inNamespace "ns:cluster" ∉ scopes) →
      (entitlements.map Entitlement.id).count e.id = scopes.count scope

/-- An id comes up as often as its scope. -/
theorem count_id (h : List.Forall₂ (Offers kind resource) scopes entitlements)
    (he : Offers kind resource scope e) (hscope : scope ≠ .inNamespace "ns:cluster")
    (hescape : scope = .inNamespace "cluster" → .inNamespace "ns:cluster" ∉ scopes) :
    (entitlements.map Entitlement.id).count e.id = scopes.count scope := by
  induction h with
  | nil => rfl
  | @cons place f places rest hfirst _ ih =>
      have hplace : scope = .inNamespace "cluster" → place ≠ .inNamespace "ns:cluster" := by
        intro h hplace
        exact hescape h (by simp [hplace])
      have hplaces : scope = .inNamespace "cluster" → .inNamespace "ns:cluster" ∉ places := by
        intro h hmem
        exact hescape h (List.mem_cons_of_mem _ hmem)
      have hiff : f.id = e.id ↔ place = scope := he.id_eq_iff hfirst hscope hplace
      simp [List.count_cons, ih hplaces, hiff]

theorem Enumerates.of_forall₂ (h : List.Forall₂ (Offers kind resource) scopes entitlements) :
    Enumerates kind resource scopes entitlements where
  offered := h
  count_eq _ _ he hscope hescape := count_id h he hscope hescape

/-- What is offered at each scope, one after another, enumerates the scopes. -/
theorem enumerates_map {offer : Scope → Entitlement}
    (h : ∀ scope, Offers kind resource scope (offer scope)) (scopes : List Scope) :
    Enumerates kind resource scopes (scopes.map offer) := by
  refine .of_forall₂ ?_
  induction scopes with
  | nil => exact .nil
  | cons scope rest ih => exact .cons (h scope) ih

/-- The ids that enumerate the scopes. -/
theorem Enumerates.map_id (h : Enumerates kind resource scopes entitlements) :
    entitlements.map Entitlement.id = scopes.map fun scope =>
      kind ++ ":" ++ resource.id.resource ++ ":assigned:" ++ scope.spelling := by
  have hoffered := h.offered
  clear h
  induction hoffered with
  | nil => rfl
  | cons hfirst _ ih => rw [List.map_cons, List.map_cons, hfirst.id_eq, ih]

end ClusterAccess
