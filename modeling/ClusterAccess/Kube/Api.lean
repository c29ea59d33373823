/-
Calls as exchanges with the cluster API.

The calls about the mapping document, the bindings and the listed objects are served by
the API of the cluster.  Each becomes one request, or two when the bindings of a
cluster role are collected.  An error status is read as a status object; below that the
answer has to be the object that was asked for.  A request that cannot be sent, or an
answer that cannot be read, is a fault without a status.
-/
import ClusterAccess.Json.Reader
import ClusterAccess.Json.Record
import ClusterAccess.Kube.Http
import ClusterAccess.Text.Percent
import ClusterAccess.Call

namespace ClusterAccess.Kube

open Text

/-! ### Answers -/

/-- How many levels of nesting a field of an answer may have. -/
def depthLimit : Nat := 126

/-- The reason for an error status that comes without a status object. -/
def unreadableStatus : String := "Failed to parse error data"

/-- The status object of an error, as far as faults tell of it. -/
def readStatus? (value : Json) : Option ApiFailure :=
  match value.record? ["status", "message", "reason", "code"] with
  | some [some (.string _), message, reason, some code] => do
    let message ← (message.getD (.string "")).text?
    let reason ← (reason.getD (.string "")).text?
    let code ← code.nat64?
    if code < Nat.pow 2 16 then some (.status code reason message) else none
  | _ => none

/-- What an error status says. -/
def failureOf (answer : HttpAnswer) : ApiFailure :=
  ((Json.parse? answer.text).bind readStatus?).getD
    (.status answer.status unreadableStatus answer.text)

/-- Sends a request and reads the answer. -/
def exchange (operation : String) (request : Option HttpRequest) (read : Json → Option α) :
    Exchange α :=
  match request with
  | none => throw (.api operation (.noStatus "the request cannot be sent"))
  | some request => do
    let answer : HttpAnswer ← ExceptT.mk (.call request fun answer => .done (.ok answer))
    if answer.status ≥ 400 then throw (.api operation (failureOf answer))
    else
      match (Json.parse? answer.text).bind read with
      | some value => pure value
      | none => throw (.api operation (.noStatus "the answer cannot be read"))

/-- Reads a list of objects and the token for the next page.  The list may be of any kind. -/
def readList? (read : Json → Option α) : Json → Option (Page α)
  | .object fields => do
    let items ← Json.soleField "items" fields
    let metadata ← Json.soleField "metadata" fields
    let others := fields.filter fun field => field.1 ≠ "items" && field.1 ≠ "metadata"
    let items ←
      match items with
      | some .null => some []
      | some (.array items) => items.mapM read
      | _ => none
    let metadata ← listMetadataShape.normal? (metadata.getD (.object []))
    if Json.fieldsHoldable depthLimit others then
      some ⟨items, endToken ((metadata.get? "continue").bind Json.text?)⟩
    else none
  | _ => none

/-- Reads the answer to a deletion: the object that is gone, or a status. -/
def readDeleted? (read : Json → Option α) (value : Json) : Option Unit :=
  if !value.isHoldable (depthLimit + 1) then none
  else if value.get? "kind" == some (.string "Status") then some ()
  else (read value).map fun _ => ()

/-! ### Requests -/

/-- The path of a collection in a namespace, or of one in all namespaces. -/
def collection (root : String) (ns : Option String) (plural : String) : String :=
  match ns with
  | some ns => root ++ "/namespaces/" ++ ns ++ "/" ++ plural
  | none => root ++ "/" ++ plural

/-- The root of the core API. -/
def coreRoot : String := "/api/v1"

/-- The root of the RBAC API. -/
def rbacRoot : String := "/apis/" ++ rbacVersion

/-- The content type of objects. -/
def jsonType : String := "application/json"

/-- A request about a collection. -/
def requestAll (method : Method) (path : String) (query : List Char) (body : Option Body) :
    Option HttpRequest :=
  HttpRequest.ofTarget? method (path.toList ++ '?' :: query) body

/-- A request about the object of a name, which must not be empty. -/
def requestOne (method : Method) (path name : String) (body : Option Body) : Option HttpRequest :=
  if name = "" then none else requestAll method (path ++ "/" ++ name) [] body

/-! ### The mapping document -/

/-- Where the mapping document of a cluster is. -/
structure DocumentPlace where
  ns : String
  name : String
  deriving DecidableEq, Repr

namespace DocumentPlace

/-- The path of the config maps in the document's namespace. -/
def path (place : DocumentPlace) : String :=
  collection coreRoot (some place.ns) "configmaps"

/-- How faults name an operation on the document. -/
def operation (place : DocumentPlace) (verb : String) : String :=
  verb ++ " ConfigMap " ++ place.ns ++ "/" ++ place.name

/-- Is it the fault of an object that is not there? -/
def isMissing : Fault → Bool
  | .api _ (.status code _ _) => code = 404
  | _ => false

/-- Reads the document, if there is one. -/
def get (place : DocumentPlace) : Exchange (Option AwsAuth) := do
  let request := requestOne .get place.path place.name none
  match ← attempt (exchange (place.operation "get") request configMapKind.normal?) with
  | .ok fields => pure (some (.ofConfigMap fields))
  | .error fault => if isMissing fault then pure none else throw fault

/-- What a write of the document sends: its entries, and the version that it insists on. -/
def patch (document : AwsAuth) : Json :=
  configMapKind.object [
    ("metadata", .object (Metadata.optional "resourceVersion"
      (document.resourceVersion.map .string))),
    ("data", ofTextTable document.data)]

/-- Writes the document. -/
def update (place : DocumentPlace) (document : AwsAuth) : Exchange Unit := do
  let body : Body := ⟨patch document, "application/merge-patch+json"⟩
  let _ ← exchange (place.operation "update") (requestOne .patch place.path place.name (some body))
    configMapKind.normal?
  pure ()

end DocumentPlace

/-! ### Listings -/

/-- How many objects a page of a listing may have. -/
def pageLimit : Nat := 100

/-- The query of a page. -/
def pageQuery (token : Option String) : List Char :=
  let limit := "limit=".toList ++ (Nat.repr pageLimit).toList
  match token with
  | some token => limit ++ "&continue=".toList ++ formEncode token
  | none => limit

/-- The kind of the objects of a listing. -/
def listedKind : ObjectListing → Kind
  | .clusterRoles => clusterRoleKind
  | .roles => roleKind
  | .namespaces => namespaceKind

/-- The path of a listing. -/
def listedPath : ObjectListing → String
  | .clusterRoles => collection rbacRoot none "clusterroles"
  | .roles => collection rbacRoot none "roles"
  | .namespaces => collection coreRoot none "namespaces"

/-- Lists one page of objects. -/
def listObjects (listing : ObjectListing) (token : Option String) : Exchange (Page Object) :=
  let kind := listedKind listing
  exchange ("list " ++ kind.name ++ "s")
    (requestAll .get (listedPath listing) (pageQuery token) none)
    (readList? (Object.ofJson? kind))

/-! ### Bindings -/

/-- The path of the role bindings of a namespace or of all namespaces. -/
def roleBindingsPath (ns : Option String) : String :=
  collection rbacRoot ns "rolebindings"

/-- The path of the cluster role bindings. -/
def clusterRoleBindingsPath : String :=
  collection rbacRoot none "clusterrolebindings"

/-- The bindings of a collection that point at a role. -/
def listBindings (role : RoleTarget) (reach : Reach) (path operation : String) :
    Exchange (List Binding) := do
  let page ← exchange operation (requestAll .get path [] none) (readList? (Binding.ofJson? reach))
  pure (page.items.filter fun b => role.isRef b.roleRef)

/-- The bindings that point at a role.  Those of a role are in its namespace. -/
def matchingBindings (role : RoleTarget) : Exchange RoleBindings := do
  let namespaced ←
    listBindings role .namespaced (roleBindingsPath role.ns?) "list RoleBindings"
  match role with
  | .role _ _ => pure { namespaced }
  | .clusterRole _ =>
    let clusterWide ←
      listBindings role .clusterWide clusterRoleBindingsPath "list ClusterRoleBindings"
    pure { namespaced, clusterWide }

/-- The path of the collection a binding is in, the name of the binding, and what faults call it.
A role binding has to have a namespace, and every binding a name. -/
def placeOf (b : Binding) : Outcome (String × String × String) := do
  let path ←
    match b.reach with
    | .clusterWide => .ok clusterRoleBindingsPath
    | .namespaced =>
      match b.metadata.ns with
      | some ns => .ok (roleBindingsPath (some ns))
      | none => .error (.invalidField "metadata.namespace" "RoleBinding has no namespace")
  match b.metadata.name with
  | some name => .ok (path, name, b.describe)
  | none => .error (.invalidField "metadata.name" "binding has no name")

/-- A binding as a body. -/
def bindingBody (b : Binding) : Option Body :=
  some ⟨b.toJson, jsonType⟩

/-- Creates a binding. -/
def createBinding (b : Binding) : Exchange Unit := do
  let (path, _, described) ← ofOutcome (placeOf b)
  let _ ← exchange ("create " ++ described) (requestAll .post path [] (bindingBody b))
    (Binding.ofJson? b.reach)
  pure ()

/-- Replaces a binding. -/
def updateBinding (b : Binding) : Exchange Unit := do
  let (path, name, described) ← ofOutcome (placeOf b)
  let _ ← exchange ("update " ++ described) (requestOne .put path name (bindingBody b))
    (Binding.ofJson? b.reach)
  pure ()

/-- Deletes the role binding of a namespace, or else the cluster role binding, of a name. -/
def deleteBinding (ns : Option String) (name : String) : Exchange Unit :=
  let body : Option Body := some ⟨.object [], jsonType⟩
  match ns with
  | some ns =>
    exchange ("delete RoleBinding " ++ ns ++ "/" ++ name)
      (requestOne .delete (roleBindingsPath (some ns)) name body)
      (readDeleted? (Binding.ofJson? .namespaced))
  | none =>
    exchange ("delete ClusterRoleBinding " ++ name)
      (requestOne .delete clusterRoleBindingsPath name body)
      (readDeleted? (Binding.ofJson? .clusterWide))

/-! ### Calls -/

/-- The exchange that serves a call, for the calls that the cluster serves. -/
def serve? (place : DocumentPlace) : (call : Call) → Option (Exchange call.Answer)
  | .getAwsAuth => some place.get
  | .updateAwsAuth document => some (place.update document)
  | .listObjects listing token => some (listObjects listing token)
  | .matchingBindings role => some (matchingBindings role)
  | .createBinding b => some (createBinding b)
  | .updateBinding b => some (updateBinding b)
  | .deleteBinding ns name => some (deleteBinding ns name)
  | _ => none

end ClusterAccess.Kube
