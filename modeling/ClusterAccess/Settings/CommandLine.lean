/-
Settings from the command line and the environment.

Every field is an option that takes one value, attached with an equals sign or as
the next argument, and may be given once.  An option that is absent may come from
its environment variable, and then from its default; the cluster name has none.

Of several mistakes the one reported is the first to be noticed.  An unknown
argument is noticed when it is met.  The value of an option is looked at when the
next option starts, or at the end; only then is it noticed that the value is missing,
that the option was given before, or that the value is not a number.
-/
import ClusterAccess.Settings.Basic
import ClusterAccess.Text.Digits
import ClusterAccess.Text.Split

namespace ClusterAccess.Settings

open Text

/-- The ways a command line can fail to give settings. -/
inductive UsageError where
  | missingRequired
  | unknownArgument
  /-- An option without its value. -/
  | noValue
  /-- An option given twice. -/
  | repeated
  /-- A value that is not a number of 64 bits. -/
  | notANumber
  /-- A value for an option that takes none. -/
  | unwantedValue
  /-- No mistake: the help text was asked for. -/
  | helpWanted
  deriving DecidableEq, Repr

/-- The options, in the order of the fields. -/
inductive Setting where
  | clusterName
  | region
  | assumedRole
  | awsAuthNs
  | awsAuthName
  | identityLifetime
  | namespaceLifetime
  | requestDeadline
  deriving DecidableEq, Repr

namespace Setting

/-- Every option. -/
def all : List Setting :=
  [.clusterName, .region, .assumedRole, .awsAuthNs, .awsAuthName, .identityLifetime,
    .namespaceLifetime, .requestDeadline]

/-- The name of an option, without its dashes. -/
def flag : Setting → String
  | .clusterName => "cluster-name"
  | .region => "region"
  | .assumedRole => "assume-role-arn"
  | .awsAuthNs => "aws-auth-namespace"
  | .awsAuthName => "aws-auth-name"
  | .identityLifetime => "identity-cache-ttl-secs"
  | .namespaceLifetime => "namespace-cache-ttl-secs"
  | .requestDeadline => "request-timeout-secs"

/-- The environment variable of an option. -/
def variableName : Setting → String
  | .clusterName => "EKSBRIDGE_CLUSTER_NAME"
  | .region => "EKSBRIDGE_REGION"
  | .assumedRole => "EKSBRIDGE_ASSUME_ROLE_ARN"
  | .awsAuthNs => "EKSBRIDGE_AWS_AUTH_NAMESPACE"
  | .awsAuthName => "EKSBRIDGE_AWS_AUTH_NAME"
  | .identityLifetime => "EKSBRIDGE_IDENTITY_CACHE_TTL_SECS"
  | .namespaceLifetime => "EKSBRIDGE_NAMESPACE_CACHE_TTL_SECS"
  | .requestDeadline => "EKSBRIDGE_REQUEST_TIMEOUT_SECS"

/-- The option of a name. -/
def ofFlag? (name : List Char) : Option Setting :=
  all.find? fun option => option.flag.toList = name

/-- Puts the value of an option into the settings. -/
def set (option : Setting) (value : String) (s : Settings) : Except UsageError Settings :=
  match option with
  | .clusterName => .ok { s with clusterName := value }
  | .region => .ok { s with region := some value }
  | .assumedRole => .ok { s with assumedRole := some value }
  | .awsAuthNs => .ok { s with awsAuthNs := value }
  | .awsAuthName => .ok { s with awsAuthName := value }
  | .identityLifetime =>
    match unsigned? 64 value.toList with
    | some n => .ok { s with identityLifetime := n }
    | none => .error .notANumber
  | .namespaceLifetime =>
    match unsigned? 64 value.toList with
    | some n => .ok { s with namespaceLifetime := n }
    | none => .error .notANumber
  | .requestDeadline =>
    match unsigned? 64 value.toList with
    | some n => .ok { s with requestDeadline := n }
    | none => .error .notANumber

end Setting

/-- A command line in the middle of being read. -/
structure Usage where
  settings : Settings := {}
  /-- The options given so far. -/
  given : List Setting := []
  /-- The option whose value has not been looked at, and that value once it was met. -/
  pending : Option (Setting × Option String) := none

namespace Usage

/-- Looks at the value of an option. -/
def accept (u : Usage) (option : Setting) (value : Option String) : Except UsageError Usage :=
  match value with
  | none => .error .noValue
  | some value =>
    if option ∈ u.given then .error .repeated
    else do
      let settings ← option.set value u.settings
      .ok ⟨settings, option :: u.given, none⟩

/-- Looks at the value that is pending. -/
def settle (u : Usage) : Except UsageError Usage :=
  match u.pending with
  | none => .ok u
  | some (option, value) => { u with pending := none }.accept option value

/-- Takes an argument with two dashes in front. -/
def takeLong (u : Usage) (text : List Char) : Except UsageError Usage :=
  let (name, value) :=
    match splitOnce '=' text with
    | some (name, value) => (name, some (String.ofList value))
    | none => (text, none)
  if name = "help".toList then
    match value with
    | some _ => .error .unwantedValue
    | none => do
      let _ ← u.settle
      .error .helpWanted
  else
    match Setting.ofFlag? name with
    | none => .error .unknownArgument
    | some option => do
      let u ← u.settle
      match value with
      | some value => u.accept option (some value)
      | none => .ok { u with pending := some (option, none) }

/-- Takes an argument that is not an option: the value of the pending one, or a mistake. -/
def takeValue (u : Usage) (arg : String) : Except UsageError Usage :=
  match u.pending with
  | some (option, none) => .ok { u with pending := some (option, some arg) }
  | _ => .error .unknownArgument

/-- Takes the arguments one after another. -/
def takeAll (u : Usage) : List String → Except UsageError Usage
  | [] => u.settle
  | arg :: rest =>
    match arg.toList with
    | ['-', '-'] =>
      -- What follows is no option, and nothing else is expected here.
      if rest = [] then u.settle else .error .unknownArgument
    | '-' :: '-' :: text => do
      let u ← u.takeLong text
      u.takeAll rest
    | '-' :: 'h' :: _ => do
      let _ ← u.settle
      .error .helpWanted
    | '-' :: _ :: _ => .error .unknownArgument
    | _ => do
      let u ← u.takeValue arg
      u.takeAll rest

/-- Fills the options that were not given from the environment. -/
def fill (environment : List (String × String)) (u : Usage) : List Setting → Except UsageError Usage
  | [] => .ok u
  | option :: rest =>
    match environment.lookup option.variableName with
    | some value =>
      if option ∈ u.given then u.fill environment rest
      else do
        let u ← u.accept option (some value)
        u.fill environment rest
    | none => u.fill environment rest

end Usage

/-- The settings of a command line and an environment. -/
def ofCommandLine (args : List String) (environment : List (String × String)) :
    Except UsageError Settings := do
  let u ← Usage.takeAll {} args
  let u ← u.fill environment Setting.all
  if Setting.clusterName ∈ u.given then .ok u.settings else .error .missingRequired

end ClusterAccess.Settings
