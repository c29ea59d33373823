/-
Two enumerations of the namespaces that agree.

A cluster role can be granted in every namespace, and so can an access policy.  The entitlements of
a cluster role come all at once: the pages of the listing are collected, and the names are kept.
Those of a policy come page by page, and whoever wants them all follows the tokens.  Both are served
by the same listing here, split into pages in any way: pages may be empty, namespaces may have no
name, and the last page has no token or an empty one (`PagedNamespaces`).

Either way every page is asked for once, with the token of the page before it, and both enumerate
the named namespaces in the order of the listing: there is one entitlement for each, and its id says
which it is for (`Enumerates`, `PagedNamespaces.enumerated_alike`).  What the two have in common is
stated once, for any way to read the pages (`Trial.run_collectPages`).
-/
import ClusterAccess.Catalog.PolicyHolders
import ClusterAccess.Catalog.RoleMembers
import ClusterAccess.Proofs.ListPages
import ClusterAccess.Proofs.OfferedScopes
import ClusterAccess.Proofs.SharedNames
import ClusterAccess.Proofs.Snapshots

namespace ClusterAccess

open Kube (HttpRequest ListPage Rule Server pageRequest)
open Program (After)

/-! ### Running programs of one call, and sessions of one request -/

namespace Trial

variable {σ α β : Type} {s s' : σ} {limit : Option Nat}

/-- A program that ends after one reply runs like the action that gives it. -/
theorem run_of_after {Op : Type} {Reply : Op → Type} {action : (op : Op) → Run σ (Reply op)}
    {p : Program Op Reply α} {op : Op} {reply : Reply op} {value : α}
    (h : After p [⟨op, reply⟩] (.done value)) (hreply : (action op).run s = (some reply, s')) :
    (p.run action).run s = (some value, s') := by
  cases h with
  | reply h =>
      refine run_bind_eq_some.2 ⟨reply, s', hreply, ?_⟩
      rw [← h.eq_of_nil]
      rfl

/-- A part that succeeds leaves the rest to be run. -/
theorem run_bind_of_ok {Op : Type} {Reply : Op → Type} {action : (op : Op) → Run σ (Reply op)}
    {p : ExceptT Fault (Program Op Reply) α} {f : α → ExceptT Fault (Program Op Reply) β}
    {value : α} (h : (p.run.run action).run s = (some (.ok value), s')) :
    ((p >>= f).run.run action).run s = ((f value).run.run action).run s' := by
  rw [Request.run_bind, program_run_bind, run_bind, h]

/-- The requests of a session run as they do alone. -/
theorem run_embed {p : Program Call Call.Reply α} {value : α} {t after : Trial}
    (shelves : Shelves) (h : (p.run (perform limit)).run t = (some value, after)) :
    ((p.embed Step.call fun _ reply => reply).run (takeStep limit)).run (shelves, t) =
      (some value, (shelves, after)) := by
  induction p generalizing t with
  | done result =>
      cases h
      rfl
  | call call next ih =>
      obtain ⟨reply, mid, hperform, hnext⟩ := run_bind_eq_some.1 h
      refine run_bind_eq_some.2 ⟨reply, (shelves, mid), ?_, ih reply hnext⟩
      refine run_bind_eq_some.2 ⟨(shelves, t), (shelves, t), rfl, ?_⟩
      dsimp only
      rw [hperform]
      rfl
  | unfinished => cases h

end Trial

/-! ### A server with pages -/

namespace Kube.ListPage

/-- The names on a page of namespaces. -/
def names (page : ListPage .namespaces) : List String :=
  page.objects.filterMap fun object => object.metadata.name

/-- The rule that answers one request with a page. -/
def rule (page : ListPage .namespaces) : Rule where
  method := "GET"
  path := "/api/v1/namespaces"
  times := some 1
  reaction := .text page.text

end Kube.ListPage

/-- The rules of a server that has served some pages and is to serve others. -/
def pageRules (served pages : List (ListPage .namespaces)) : List Rule :=
  served.map (fun page => page.rule.used) ++ pages.map fun page => page.rule

/-- A request for namespaces is answered with the next page. -/
theorem react_pageRules {token : Option String} {served pages : List (ListPage .namespaces)}
    {page : ListPage .namespaces} :
    Server.react (pageRequest .namespaces token) (pageRules served (page :: pages)) =
      (page.answer, pageRules (served ++ [page]) pages) := by
  induction served with
  | nil => rfl
  | cons used served ih =>
      have hused : used.rule.used.fits (pageRequest .namespaces token) = false := by
        simp [Rule.fits, Rule.used, ListPage.rule]
      show Server.react _ (used.rule.used :: pageRules served (page :: pages)) = _
      rw [Server.react, hused, ih]
      rfl

namespace Trial

/-- The trial with a server that has served some pages and is to serve others. -/
def servingPages (t : Trial) (place : Kube.DocumentPlace)
    (served pages : List (ListPage .namespaces)) (requests : List HttpRequest) : Trial :=
  { t with server := some (place, ⟨pageRules served pages, requests⟩) }

variable {limit : Option Nat} {t : Trial} {place : Kube.DocumentPlace}
  {served pages : List (ListPage .namespaces)} {page : ListPage .namespaces}
  {requests : List HttpRequest} {token : Option String}

/-- The next page is read, whatever token it is asked for with. -/
theorem perform_listObjects :
    (perform limit (.listObjects .namespaces token)).run
        (t.servingPages place served (page :: pages) requests) =
      (some (.ok page.read), t.servingPages place (served ++ [page]) pages
        (pageRequest .namespaces token :: requests)) := by
  have hsend : (sendHttp place (pageRequest .namespaces token)).run
      (t.servingPages place served (page :: pages) requests) =
        (some page.answer, t.servingPages place (served ++ [page]) pages
          (pageRequest .namespaces token :: requests)) := by
    refine run_bind_eq_some.2 ⟨_, _, rfl, ?_⟩
    dsimp only [servingPages, Server.serve]
    rw [react_pageRules]
    rfl
  refine run_bind_eq_some.2 ⟨_, _, rfl, ?_⟩
  exact run_of_after (Kube.after_listObjects page token) hsend

/-! ### Collecting pages -/

variable {α : Type} {full : List (ListPage .namespaces)} {last : ListPage .namespaces}
  {fetch : Option String → Request (Page α)} {f : Page Kube.Object → Page α}

/-- The next page is fetched, whatever is made of it. -/
theorem run_fetch
    (hfetch : fetch token = send (.listObjects .namespaces token) >>= fun page => pure (f page)) :
    (runRequest limit (fetch token)).run (t.servingPages place served (page :: pages) requests) =
      (some (.ok (f page.read)), t.servingPages place (served ++ [page]) pages
        (pageRequest .namespaces token :: requests)) := by
  rw [hfetch]
  exact run_bind_of_ok (run_bind_eq_some.2 ⟨_, _, perform_listObjects, rfl⟩)

/-- All pages are fetched, each with the token of the one before it. -/
theorem run_collectPages
    (hfetch : ∀ token, fetch token =
      send (.listObjects .namespaces token) >>= fun page => pure (f page))
    (hnext : ∀ page, (f page).next = page.next)
    (hmore : ∀ page ∈ full, ∃ next, page.token = some next ∧ next ≠ "")
    (hends : last.token = none ∨ last.token = some "") {bound : Nat}
    (hbound : full.length < bound) :
    (runRequest limit (collectPages fetch bound token)).run
        (t.servingPages place served (full ++ [last]) requests) =
      (some (.ok ((full ++ [last]).flatMap fun page => (f page.read).items)),
        t.servingPages place (served ++ (full ++ [last])) []
          (((token :: full.map ListPage.token).map (pageRequest .namespaces)).reverse ++
            requests)) := by
  induction full generalizing served requests token bound with
  | nil =>
      obtain ⟨bound, rfl⟩ := Nat.exists_eq_add_one_of_ne_zero (Nat.ne_of_gt hbound)
      have hlast : (f last.read).next = none := by
        rw [hnext]
        exact endToken_of_end hends
      refine (run_bind_of_ok (run_fetch (hfetch token))).trans ?_
      rw [hlast, List.nil_append, List.flatMap_singleton]
      rfl
  | cons page full ih =>
      obtain ⟨bound, rfl⟩ :=
        Nat.exists_eq_add_one_of_ne_zero (Nat.ne_of_gt (Nat.zero_lt_of_lt hbound))
      obtain ⟨⟨next, htoken, hne⟩, hrest⟩ := List.forall_mem_cons.1 hmore
      have hpage : (f page.read).next = some next := by
        rw [hnext, ListPage.read, htoken]
        exact endToken_of_ne hne
      refine (run_bind_of_ok (run_fetch (hfetch token))).trans ?_
      rw [hpage]
      refine (run_bind_of_ok (ih hrest (Nat.lt_of_succ_lt_succ hbound))).trans ?_
      have hserved : served ++ [page] ++ (full ++ [last]) = served ++ (page :: full ++ [last]) := by
        simp
      have hrequests :
          ((some next :: full.map ListPage.token).map (pageRequest .namespaces)).reverse ++
            pageRequest .namespaces token :: requests =
          ((token :: (page :: full).map ListPage.token).map (pageRequest .namespaces)).reverse ++
            requests := by
        simp [htoken]
      rw [hserved, hrequests]
      rfl

end Trial

/-! ### Listings -/

/-- A listing of the namespaces, split into pages. -/
structure PagedNamespaces where
  /-- The pages that are not the last one. -/
  full : List (ListPage .namespaces)
  last : ListPage .namespaces
  more : ∀ page ∈ full, ∃ next, page.token = some next ∧ next ≠ ""
  /-- The last page has no token, or an empty one. -/
  ends : last.token = none ∨ last.token = some ""

namespace PagedNamespaces

variable (paged : PagedNamespaces)

def pages : List (ListPage .namespaces) :=
  paged.full ++ [paged.last]

/-- The names of the namespaces, in the order of the listing. -/
def names : List String :=
  paged.pages.flatMap ListPage.names

/-- The tokens that the pages are to be asked for with. -/
def tokens : List (Option String) :=
  none :: paged.full.map ListPage.token

/-- The trial with a server that is to serve the listing. -/
def serve (t : Trial) (place : Kube.DocumentPlace) : Trial :=
  t.servingPages place [] paged.pages []

/-- The trial when every page has been asked for once, with its token. -/
def served (t : Trial) (place : Kube.DocumentPlace) : Trial :=
  t.servingPages place paged.pages [] (paged.tokens.map (pageRequest .namespaces)).reverse

/-- The requests that a server got are those for the pages, each made once: the method, the path,
and the token that is passed on. -/
def AskedOnce (after : Trial) : Prop :=
  ∃ place server, after.server = some (place, server) ∧
    server.requests.reverse.map (fun request => (request.method.word, request.path,
      request.continued)) = paged.tokens.map fun token => ("GET", "/api/v1/namespaces", token)

theorem askedOnce_served (t : Trial) (place : Kube.DocumentPlace) :
    paged.AskedOnce (paged.served t place) := by
  refine ⟨place, _, rfl, ?_⟩
  rw [List.reverse_reverse, List.map_map]
  refine List.map_congr_left fun token _ => ?_
  show ("GET", "/api/v1/namespaces", (pageRequest .namespaces token).continued) = _
  rw [Kube.continued_pageRequest]

variable {paged} {limit : Option Nat} {upkeep : Upkeep} {t : Trial} {place : Kube.DocumentPlace}
  {shelves : Trial.Shelves} {α : Type} {policy : Resource}

/-- Whatever is made of the pages, they are all asked for once. -/
theorem run_collect {fetch : Option String → Request (Page α)} {f : Page Kube.Object → Page α}
    (hfetch : ∀ token, fetch token =
      send (.listObjects .namespaces token) >>= fun page => pure (f page))
    (hnext : ∀ page, (f page).next = page.next) {bound : Nat}
    (hbound : paged.pages.length ≤ bound) :
    (Trial.runRequest limit (collectPages fetch bound none)).run (paged.serve t place) =
      (some (.ok (paged.pages.flatMap fun page => (f page.read).items)),
        paged.served t place) := by
  have hfull : paged.full.length < bound := by
    simpa [pages] using hbound
  refine (Trial.run_collectPages hfetch hnext paged.more paged.ends hfull).trans ?_
  rw [List.append_nil]
  rfl

/-! ### The two enumerations -/

/-- A list of names that has expired is listed anew and kept. -/
theorem run_namespaceNames (hbound : paged.pages.length ≤ upkeep.maxPages)
    (hstale : ¬shelves.namespaces.expiry.isFresh t.now = true) :
    (Trial.runSession limit (Catalog.namespaceNames upkeep)).run (shelves, paged.serve t place) =
      (some (.ok paged.names),
        (shelves.keep .namespaces ⟨paged.names, .after t.now upkeep.lifetime⟩,
          paged.served t place)) := by
  let namesOn : Page Kube.Object → Page String := fun page =>
    ⟨SharedNames.pageNames page, page.next⟩
  have hfetch : ∀ token, Catalog.namespacePage token =
      send (.listObjects .namespaces token) >>= fun page => pure (namesOn page) := fun _ => rfl
  have hcollect : ((Session.ofRequest
      (collectPages Catalog.namespacePage upkeep.maxPages none)).run.run (Trial.takeStep limit)).run
        (shelves, paged.serve t place) =
          (some (.ok paged.names), (shelves, paged.served t place)) :=
    Trial.run_embed shelves (run_collect hfetch (fun _ => rfl) hbound)
  -- With the lock the list is found to have expired, and fetched.
  show ((attempt (if shelves.namespaces.expiry.isFresh t.now then pure shelves.namespaces.value
    else _) >>= SharedNames.leave).run.run (Trial.takeStep limit)).run (shelves, _) = _
  rw [if_neg hstale, SharedNames.enter_of_stale]
  unfold SharedNames.fetching
  rw [Trial.program_run_bind, Trial.run_bind, hcollect]
  rfl

/-- The pages of what can be granted on a policy, each asked for with the token of the one before
it. -/
def policyPages (policy : Resource) (bound : Nat) : Request (List (Page Entitlement)) :=
  collectPages (fun token => Catalog.policyEntitlements policy token >>= fun page =>
    pure ⟨[page], page.next⟩) bound none

/-- The scopes of some namespaces. -/
def scopes (names : List String) : List Scope :=
  names.map .inNamespace

/-- What the page of a policy holds that was made of a page of namespaces. -/
def policyPage (policy : Resource) (page : ListPage .namespaces) (rest : List Scope)
    (next : Option String) : Page Entitlement :=
  ⟨(scopes page.names ++ rest).map (Catalog.policyEntitlement policy), next⟩

theorem run_policyPages {bound : Nat} (hbound : paged.pages.length ≤ bound) :
    (Trial.runRequest limit (policyPages policy bound)).run (paged.serve t place) =
      (some (.ok (paged.full.map (fun page => policyPage policy page [] page.token) ++
          [policyPage policy paged.last [.cluster] none])),
        paged.served t place) := by
  let onPage : Page Kube.Object → Page Entitlement := fun page =>
    ⟨(Catalog.pageScopes page).map (Catalog.policyEntitlement policy), page.next⟩
  let alone : Page Kube.Object → Page (Page Entitlement) := fun page => ⟨[onPage page], page.next⟩
  have hfetch : ∀ token, (Catalog.policyEntitlements policy token >>= fun page =>
      pure ⟨[page], page.next⟩ : Request (Page (Page Entitlement))) =
        send (.listObjects .namespaces token) >>= fun page => pure (alone page) :=
    fun _ => Request.bind_assoc
  have hscopes : ∀ page : ListPage .namespaces,
      (page.objects.filterMap fun object => object.metadata.name.map Scope.inNamespace) =
        scopes page.names := by
    intro page
    rw [ListPage.names, scopes, List.map_filterMap]
  have hfull : ∀ page ∈ paged.full, onPage page.read = policyPage policy page [] page.token := by
    intro page hpage
    obtain ⟨next, htoken, hne⟩ := paged.more page hpage
    simp [onPage, Catalog.pageScopes, ListPage.read, policyPage, hscopes, htoken,
      endToken_of_ne hne]
  have hlast : onPage paged.last.read = policyPage policy paged.last [.cluster] none := by
    simp [onPage, Catalog.pageScopes, ListPage.read, policyPage, hscopes,
      endToken_of_end paged.ends]
  refine (run_collect (f := alone) hfetch (fun _ => rfl) hbound).trans ?_
  have hpages : (paged.pages.flatMap fun page => (alone page.read).items) =
      paged.full.map (fun page => onPage page.read) ++ [onPage paged.last.read] := by
    rw [pages, List.flatMap_append, List.map_eq_flatMap, List.flatMap_singleton]
  rw [hpages, List.map_congr_left hfull, hlast]

/-! ### What is offered -/

theorem offers_clusterRole (role : Resource) (scope : Scope) :
    Offers "cluster_role" role scope (Catalog.clusterRoleEntitlement role scope) := by
  unfold Catalog.clusterRoleEntitlement
  cases scope with
  | cluster => exact offers_entitlement (by decide)
  | inNamespace ns => exact offers_entitlement (by decide)

theorem offers_policy (policy : Resource) (scope : Scope) :
    Offers "access_policy" policy scope (Catalog.policyEntitlement policy scope) := by
  unfold Catalog.policyEntitlement
  cases scope with
  | cluster => exact offers_entitlement (by decide)
  | inNamespace ns => exact offers_entitlement (by decide)

/-- The pages of a policy, put end to end, hold what is offered at the scopes of all pages. -/
theorem flatMap_policyPages (policy : Resource) :
    (paged.full.map (fun page => policyPage policy page [] page.token) ++
        [policyPage policy paged.last [.cluster] none]).flatMap Page.items =
      (scopes paged.names ++ [Scope.cluster]).map (Catalog.policyEntitlement policy) := by
  simp [List.flatMap_map, List.map_flatMap, names, pages, policyPage, scopes]

/-- **Both enumerations list the same namespaces.**  Whatever the pages, each of the two asks for
every page once, with the token of the page before it, unchanged.  The entitlements of a cluster
role are the one for the whole cluster and then one for each named namespace, and the names are
kept.  Those of an access policy come with their pages, one for each named namespace, and on the
last page there is one for the whole cluster after them and no token. -/
theorem enumerated_alike (hbound : paged.pages.length ≤ upkeep.maxPages)
    (hstale : ¬shelves.namespaces.expiry.isFresh t.now = true) (role policy : Resource) :
    (∃ entitlements after,
      (Trial.runSession limit (Catalog.clusterRoleEntitlements upkeep role)).run
        (shelves, paged.serve t place) =
          (some (.ok entitlements),
            (shelves.keep .namespaces ⟨paged.names, .after t.now upkeep.lifetime⟩, after)) ∧
        paged.AskedOnce after ∧
        Enumerates "cluster_role" role (.cluster :: scopes paged.names) entitlements) ∧
      ∃ full last after, (Trial.runRequest limit (policyPages policy upkeep.maxPages)).run
        (paged.serve t place) = (some (.ok (full ++ [last])), after) ∧
        paged.AskedOnce after ∧
        List.Forall₂ (fun page read => read.next = page.token ∧
          Enumerates "access_policy" policy (scopes page.names) read.items) paged.full full ∧
        last.next = none ∧
        Enumerates "access_policy" policy (scopes paged.last.names ++ [.cluster]) last.items ∧
        Enumerates "access_policy" policy (scopes paged.names ++ [.cluster])
          ((full ++ [last]).flatMap Page.items) := by
  have hpolicy := enumerates_map (offers_policy policy)
  refine ⟨⟨_, _, ?_, paged.askedOnce_served t place,
      enumerates_map (offers_clusterRole role) (.cluster :: scopes paged.names)⟩,
    _, _, _, run_policyPages hbound, paged.askedOnce_served t place, ?_, rfl, hpolicy _, ?_⟩
  · refine (Trial.run_bind_of_ok (run_namespaceNames hbound hstale)).trans ?_
    rfl
  · rw [List.forall₂_map_right_iff]
    refine List.forall₂_same.2 ?_
    intro page _
    refine ⟨rfl, ?_⟩
    show Enumerates _ policy _ ((scopes page.names ++ []).map _)
    rw [List.append_nil]
    exact hpolicy _
  · rw [flatMap_policyPages]
    exact hpolicy _

/-- A page without namespaces, and with a token for the next one. -/
def emptyPage : ListPage .namespaces where
  text := "\x7b\"kind\":\"NamespaceList\",\"apiVersion\":\"v1\"," ++
    "\"metadata\":\x7b\"continue\":\"a+b &c\"\x7d,\"items\":[]\x7d"
  metadata := [("continue", .string "a+b &c")]
  token := some "a+b &c"
  items := []
  objects := []
  parses := by rfl
  readable := by rfl
  continued := by rfl
  reads := by rfl

/-- A page with a namespace that has no name and one that has, and with an empty token. -/
def lastPage : ListPage .namespaces where
  text := "\x7b\"kind\":\"NamespaceList\",\"apiVersion\":\"v1\"," ++
    "\"metadata\":\x7b\"continue\":\"\"\x7d," ++
    "\"items\":[\x7b\x7d,\x7b\"metadata\":\x7b\"name\":\"dev\"\x7d\x7d]\x7d"
  metadata := [("continue", .string "")]
  token := some ""
  items := [.object [], .object [("metadata", .object [("name", .string "dev")])]]
  objects := [Kube.namedNamespace none, Kube.namedNamespace (some "dev")]
  parses := by rfl
  readable := by rfl
  continued := by rfl
  reads := by rfl

/-- A listing of the two pages. -/
def twoPages : PagedNamespaces where
  full := [emptyPage]
  last := lastPage
  more page hpage := ⟨"a+b &c", by rw [List.mem_singleton.1 hpage]; rfl, by decide⟩
  ends := Or.inr rfl

/-- A cluster role. -/
def adminRole : Resource :=
  { id := ResourceType.clusterRole.resourceId "admin", displayName := "admin" }

/-- An access policy, whose name is an ARN. -/
def eksPolicy : Resource :=
  (Catalog.standardPolicy "View" "allow to view resources.").resource

theorem enumerated_alike_twoPages :
    (∃ entitlements after,
      (Trial.runSession none (Catalog.clusterRoleEntitlements ⟨1000, 2⟩ adminRole)).run
        ({}, twoPages.serve {} ⟨"kube-system", "aws-auth"⟩) =
          (some (.ok entitlements), ({ namespaces := ⟨["dev"], .after 0 1000⟩ }, after)) ∧
        entitlements.map Entitlement.id =
          ["cluster_role:admin:assigned:cluster", "cluster_role:admin:assigned:dev"]) ∧
      ∃ full last after, (Trial.runRequest none (policyPages eksPolicy 2)).run
        (twoPages.serve {} ⟨"kube-system", "aws-auth"⟩) = (some (.ok (full ++ [last])), after) ∧
        ((full ++ [last]).flatMap Page.items).map Entitlement.id =
          ["access_policy:arn:aws:eks::aws:cluster-access-policy/View:assigned:dev",
            "access_policy:arn:aws:eks::aws:cluster-access-policy/View:assigned:cluster"] := by
  have hbound : twoPages.pages.length ≤ (⟨1000, 2⟩ : Upkeep).maxPages := by decide
  have hstale : ¬({} : Trial.Shelves).namespaces.expiry.isFresh ({} : Trial).now = true := by decide
  obtain ⟨⟨entitlements, after, hroles, -, hrole⟩, full, last, after', hpages, -, -, -, -, hall⟩ :=
    enumerated_alike hbound hstale adminRole eksPolicy
  exact ⟨⟨entitlements, after, hroles, hrole.map_id⟩, full, last, after', hpages, hall.map_id⟩

end PagedNamespaces

end ClusterAccess
