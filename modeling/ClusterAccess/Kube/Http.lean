/-
Requests to the cluster API and its answers.

A request has a method, a target and perhaps a body.  The target is a path and a query;
not every text can be sent as one.
-/
import ClusterAccess.Json.Value
import ClusterAccess.Program
import ClusterAccess.Text.Split

namespace ClusterAccess.Kube

open Text

/-- The methods of requests. -/
inductive Method where
  | get
  | post
  | put
  | patch
  | delete
  deriving DecidableEq, Repr

/-- The word for a method. -/
def Method.word : Method → String
  | .get => "GET"
  | .post => "POST"
  | .put => "PUT"
  | .patch => "PATCH"
  | .delete => "DELETE"

/-- The body of a request. -/
structure Body where
  content : Json
  contentType : String
  deriving Repr

/-- A request. -/
structure HttpRequest where
  method : Method
  path : String
  /-- The parameters of the query, their values as they are sent. -/
  query : List (String × String) := []
  body : Option Body := none
  deriving Repr

/-- An answer. -/
structure HttpAnswer where
  status : Nat
  text : String
  deriving DecidableEq, Repr

/-- Can a path hold the character?  Question marks and number signs end the path. -/
def isPathChar (c : Char) : Bool :=
  ' ' < c && c ≠ '<' && c ≠ '>' && c ≠ '\x60'

/-- Can a query hold the character?  A number sign ends the query. -/
def isQueryChar (c : Char) : Bool :=
  ' ' < c && c ≠ '\x22' && c ≠ '<' && c ≠ '>'

/-- A parameter of a query. -/
def parameter (text : List Char) : String × String :=
  match splitOnce '=' text with
  | some (name, value) => (String.ofList name, String.ofList value)
  | none => (String.ofList text, "")

/-- The request of a target, if the target can be sent. -/
def HttpRequest.ofTarget? (method : Method) (target : List Char) (body : Option Body) :
    Option HttpRequest :=
  let visible := target.takeWhile (· ≠ '#')
  let (path, query) := (splitOnce '?' visible).getD (visible, [])
  if path.all isPathChar && query.all isQueryChar then
    some {
      method
      path := String.ofList path
      query := ((pieces '&' query).filter (· ≠ [])).map parameter
      body }
  else none

/-- A program of requests to the cluster API that can fail. -/
abbrev Exchange := ExceptT Fault (Program HttpRequest fun _ => HttpAnswer)

end ClusterAccess.Kube
