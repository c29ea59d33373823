/-
Settings as a JSON document.

Every field may be left out and takes its default then; the region and the assumed
role may also be null.
-/
import ClusterAccess.Settings.Basic
import ClusterAccess.Json.Reader
import ClusterAccess.Json.Record

namespace ClusterAccess.Settings

/-- The names of the fields, in order. -/
def fieldNames : List String :=
  ["clusterName", "region", "assumeRoleArn", "awsAuthNamespace", "awsAuthName",
    "identityCacheTtlSecs", "namespaceCacheTtlSecs", "requestTimeoutSecs"]

/-- A field, or its default when it is left out. -/
def fieldOr (value : Option Json) (default : α) (read : Json → Option α) : Option α :=
  match value with
  | none => some default
  | some value => read value

/-- Reads settings from a JSON value. -/
def ofJson? (value : Json) : Option Settings :=
  match value.record? fieldNames with
  | some [cluster, region, role, ns, name, identity, namespaces, deadline] => do
    let base : Settings := {}
    some {
      clusterName := ← fieldOr cluster base.clusterName Json.text?
      region := ← fieldOr region base.region Json.nullable?
      assumedRole := ← fieldOr role base.assumedRole Json.nullable?
      awsAuthNs := ← fieldOr ns base.awsAuthNs Json.text?
      awsAuthName := ← fieldOr name base.awsAuthName Json.text?
      identityLifetime := ← fieldOr identity base.identityLifetime Json.nat64?
      namespaceLifetime := ← fieldOr namespaces base.namespaceLifetime Json.nat64?
      requestDeadline := ← fieldOr deadline base.requestDeadline Json.nat64?
    }
  | _ => none

/-- Reads settings from a document. -/
def parse? (text : String) : Option Settings :=
  (Json.parse? text).bind ofJson?

/-- Settings as a JSON value. -/
def toJson (s : Settings) : Json :=
  .object (fieldNames.zip
    [.string s.clusterName, .ofText? s.region, .ofText? s.assumedRole, .string s.awsAuthNs,
      .string s.awsAuthName, .ofNat s.identityLifetime, .ofNat s.namespaceLifetime,
      .ofNat s.requestDeadline])

end ClusterAccess.Settings
