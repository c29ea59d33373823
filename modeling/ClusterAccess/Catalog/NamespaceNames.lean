/-
The names of the namespaces.

Every cluster role can be granted in every namespace, so the names are asked for often.
They are listed once, all pages of them, and kept.  The lock is held from the check to
the end; a listing that breaks off leaves what was kept as it was.
-/
import ClusterAccess.Session

namespace ClusterAccess.Catalog

/-- One page of namespace names.  A namespace without a name is left out. -/
def namespacePage (token : Option String) : Request (Page String) := do
  let page ← send (.listObjects .namespaces token)
  pure (⟨List.filterMap (fun (o : Kube.Object) => o.metadata.name) (Page.items page),
    Page.next page⟩ : Page String)

/-- The names of all the namespaces, listed again if those that are kept have expired. -/
def namespaceNames (upkeep : Upkeep) : Session (List String) :=
  Session.holding .namespaces do
    let kept ← Session.take (.look .namespaces)
    let now ← Session.take .clock
    if kept.expiry.isFresh now then pure kept.value
    else
      let names ← Session.ofRequest (collectPages namespacePage upkeep.maxPages none)
      Session.keepFor upkeep.lifetime .namespaces names
      pure names

end ClusterAccess.Catalog
