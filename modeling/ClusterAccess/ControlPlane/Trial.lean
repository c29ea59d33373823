/-
Running requests against a control plane in memory.

A trial carries out the calls of a program one after another.  It keeps a clock that
stands still except where a call is slow, counts the calls, makes the ones fail that
its rules say should fail, and remembers the writes.  When the cluster side is served by
an API server instead, the calls that the cluster serves become exchanges with it; only
the calls to the cloud are then timed, counted and made to fail.

A program may be given until some time.  A call that is not done by then stops the
program, and the clock, right there; a call that is done at that very time is in time.
-/
import ClusterAccess.ControlPlane.CallName
import ClusterAccess.ControlPlane.State
import ClusterAccess.Kube.Api
import ClusterAccess.Kube.Script
import ClusterAccess.Provisioning
import ClusterAccess.Session

namespace ClusterAccess

/-- A rule that makes calls fail. -/
structure FaultRule where
  call : String
  /-- The argument of the calls that are meant, if not all are. -/
  argument : Option String := none
  /-- How many calls are let pass first. -/
  skip : Nat := 0
  /-- How many calls fail, if not all do. -/
  times : Option Nat := none
  fault : Fault
  deriving Repr

namespace FaultRule

/-- Is the rule about a call? -/
def isAbout (rule : FaultRule) (call : Call) : Bool :=
  rule.call = call.name && (rule.argument.isNone || rule.argument = some call.argument)

/-- The fault that the rules hold for a call, and the rules afterwards. -/
def search (call : Call) : List FaultRule → Option Fault × List FaultRule
  | [] => (none, [])
  | rule :: rest =>
    let pass (rule : FaultRule) :=
      let (fault, rest) := search call rest
      (fault, rule :: rest)
    if !rule.isAbout call then pass rule
    else
      match rule.skip, rule.times with
      | skip + 1, _ => pass { rule with skip }
      | 0, some 0 => pass rule
      | 0, some (times + 1) => (some rule.fault, { rule with times := some times } :: rest)
      | 0, none => (some rule.fault, rule :: rest)

end FaultRule

/-- How often each label came up, in the order in which they first did. -/
def tally (label : String) : List (String × Nat) → List (String × Nat)
  | [] => [(label, 1)]
  | (other, count) :: rest =>
    if other = label then (other, count + 1) :: rest else (other, count) :: tally label rest

/-- A control plane, the time, and what happened so far. -/
structure Trial where
  plane : ControlPlane := {}
  /-- How long calls take, in milliseconds, by their names. -/
  delays : List (String × Nat) := []
  faults : List FaultRule := []
  /-- The API server of the cluster and the place of the document there, when there is one. -/
  server : Option (Kube.DocumentPlace × Kube.Server) := none
  /-- The time in milliseconds. -/
  now : Nat := 0
  /-- How often each call was made. -/
  counts : List (String × Nat) := []
  /-- The calls that changed something, the last one first. -/
  writes : List Call := []

namespace Trial

/-- Actions on a state that may be stopped on the way, which leaves the state as it is then. -/
abbrev Run (σ : Type) := OptionT (StateM σ)

/-- The end of an action at most so late, if there is a limit. -/
def isInTime (limit : Option Nat) (due : Nat) : Bool :=
  match limit with
  | some time => due ≤ time
  | none => true

/-- Lets time pass until a call is done, or until the limit. -/
def wait (limit : Option Nat) (duration : Nat) : Run Trial Unit := do
  let trial ← get
  let due := trial.now + duration
  if duration = 0 then pure ()
  else if isInTime limit due then set { trial with now := due }
  else
    set { trial with now := limit.getD due }
    failure

/-- Carries out a call on the control plane. -/
def callPlane (limit : Option Nat) (call : Call) : Run Trial call.Reply := do
  modify fun trial => { trial with counts := tally call.label trial.counts }
  wait limit (((← get).delays.lookup call.name).getD 0)
  let trial ← get
  match FaultRule.search call trial.faults with
  | (some fault, faults) =>
    set { trial with faults }
    pure (.error fault)
  | (none, faults) =>
    let (reply, plane) := trial.plane.act call
    let writes := if call.isWrite && reply.isOk then call :: trial.writes else trial.writes
    set { trial with faults, plane, writes }
    pure reply

/-- Has a request answered by the API server. -/
def sendHttp (place : Kube.DocumentPlace) (request : Kube.HttpRequest) :
    Run Trial Kube.HttpAnswer := do
  let trial ← get
  match trial.server with
  | none => failure
  | some (_, server) =>
    let (answer, server) := server.serve request
    set { trial with server := some (place, server) }
    pure answer

/-- Carries out a call. -/
def perform (limit : Option Nat) (call : Call) : Run Trial call.Reply := do
  match (← get).server with
  | none => callPlane limit call
  | some (place, _) =>
    match Kube.serve? place call with
    | some exchange => exchange.run.run (sendHttp place)
    | none => callPlane limit call

/-- Runs a request. -/
def runRequest (limit : Option Nat) (request : Request α) : Run Trial (Outcome α) :=
  request.run.run (perform limit)

/-- Runs two requests that start at the same time.  It takes as long as the longer one. -/
def runBoth (limit : Option Nat) (first second : Request α) :
    Run Trial (Outcome α × Outcome α) := do
  let start := (← get).now
  let (a, trial) := (runRequest limit first).run (← get)
  let (b, after) := (runRequest limit second).run { trial with now := start }
  set { after with now := max trial.now after.now }
  match a, b with
  | some a, some b => pure (a, b)
  | _, _ => failure

/-! ### Sessions -/

/-- What a connector keeps. -/
structure Shelves where
  identities : Kept Mappings := ⟨.empty, .stale⟩
  namespaces : Kept (List String) := ⟨[], .stale⟩

/-- Looks at a shelf. -/
def Shelves.look (shelves : Shelves) : (shelf : Shelf) → Kept shelf.Value
  | .identities => shelves.identities
  | .namespaces => shelves.namespaces

/-- Puts something on a shelf. -/
def Shelves.keep (shelves : Shelves) : (shelf : Shelf) → Kept shelf.Value → Shelves
  | .identities, kept => { shelves with identities := kept }
  | .namespaces, kept => { shelves with namespaces := kept }

/-- An action on a trial next to the shelves. -/
def besides (action : Run Trial α) : Run (Shelves × Trial) α := do
  let (shelves, trial) ← get
  let (result, trial) := action.run trial
  set (shelves, trial)
  match result with
  | some value => pure value
  | none => failure

/-- Takes a step of the only session that is running, for which every lock is free. -/
def takeStep (limit : Option Nat) : (step : Step) → Run (Shelves × Trial) step.Reply
  | .call made => besides (perform limit made)
  | .sideBySide first second => besides (runBoth limit first second)
  | .clock => do
    let (_, trial) ← get
    pure trial.now
  | .lock _ => pure ()
  | .unlock _ => pure ()
  | .look shelf => do
    let (shelves, _) ← get
    pure (shelves.look shelf)
  | .keep shelf kept => modify fun (shelves, trial) => (shelves.keep shelf kept, trial)

/-- Runs a session. -/
def runSession (limit : Option Nat) (session : Session α) : Run (Shelves × Trial) (Outcome α) :=
  session.run.run (takeStep limit)

/-! ### Deadlines -/

/-- Runs a request under its deadline; one that misses it has a fault as its outcome. -/
def runTimed (timed : Provisioning.Timed α) : Run Trial (Outcome α) := do
  let trial ← get
  let limit := timed.deadline.map fun seconds => trial.now + seconds * 1000
  let (result, after) := (runRequest limit timed.request).run trial
  set after
  match result with
  | some outcome => pure outcome
  | none => pure timed.missed

end Trial

end ClusterAccess
