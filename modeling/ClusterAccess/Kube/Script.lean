/-
A scripted API server.

The server answers requests by rules.  The first rule that fits the method, the path
and, if it names one, the query of a request answers it; a rule may be good for a number
of answers only.  What no rule fits is not found.  The server remembers the requests.
-/
import ClusterAccess.Json.Writer
import ClusterAccess.Kube.Http

namespace ClusterAccess.Kube

/-- What a rule answers with. -/
inductive Reaction where
  | text (body : String)
  /-- The body of the request. -/
  | echo
  deriving DecidableEq, Repr

/-- A rule of the server. -/
structure Rule where
  method : String
  path : String
  /-- The query that a request has to have, if it matters. -/
  query : Option (List (String × String)) := none
  /-- How many answers are left, if they are counted. -/
  times : Option Nat := none
  status : Nat := 200
  reaction : Reaction
  deriving Repr

namespace Rule

/-- Are two queries the same, in whatever order? -/
def sameQuery (a b : List (String × String)) : Bool :=
  a.length = b.length && a.all fun parameter => b.contains parameter

/-- Does the rule fit a request? -/
def fits (rule : Rule) (request : HttpRequest) : Bool :=
  rule.method = request.method.word && rule.path = request.path
    && (match rule.query with
      | some query => sameQuery query request.query
      | none => true)
    && rule.times ≠ some 0

/-- The answer of the rule to a request. -/
def answer (rule : Rule) (request : HttpRequest) : HttpAnswer where
  status := rule.status
  text :=
    match rule.reaction with
    | .text body => body
    | .echo =>
      match request.body with
      | some body => body.content.render
      | none => ""

/-- The rule after it has answered. -/
def used (rule : Rule) : Rule :=
  { rule with times := rule.times.map (· - 1) }

end Rule

/-- The answer when no rule fits. -/
def notFoundAnswer : HttpAnswer where
  status := 404
  text := (Json.object [("apiVersion", .string "v1"), ("kind", .string "Status"),
    ("status", .string "Failure"), ("message", .string "not found"),
    ("reason", .string "NotFound"), ("code", .ofNat 404)]).render

/-- A scripted server: its rules, and the requests it got, the last one first. -/
structure Server where
  rules : List Rule := []
  requests : List HttpRequest := []
  deriving Repr

namespace Server

/-- The answer of the first rule that fits, and the rules after it has answered. -/
def react (request : HttpRequest) : List Rule → HttpAnswer × List Rule
  | [] => (notFoundAnswer, [])
  | rule :: rest =>
    if rule.fits request then (rule.answer request, rule.used :: rest)
    else
      let (answer, rest) := react request rest
      (answer, rule :: rest)

/-- Answers a request. -/
def serve (server : Server) (request : HttpRequest) : HttpAnswer × Server :=
  let (answer, rules) := react request server.rules
  (answer, ⟨rules, request :: server.requests⟩)

end Server

end ClusterAccess.Kube
