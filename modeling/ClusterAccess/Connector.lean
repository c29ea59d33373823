/-
The connector of a cluster.

A connector is made from settings that pass their check.  It says how long what it
keeps may be used and where the mapping document is; what can be asked of it are the
listings of the catalog, the lookups of identities, and the requests of provisioning.
-/
import ClusterAccess.Kube.Api
import ClusterAccess.Provisioning

namespace ClusterAccess

/-- A connector: settings that pass their check. -/
structure Connector where
  settings : Settings
  checked : settings.check = .ok ()

namespace Connector

/-- Makes a connector, if the settings pass their check. -/
def ofSettings (settings : Settings) : Outcome Connector :=
  match h : settings.check with
  | .ok () => .ok ⟨settings, h⟩
  | .error fault => .error fault

/-- The most pages that one listing is followed for. -/
def maxPages : Nat := 1000000

/-- How the identity mappings are kept up. -/
def identityUpkeep (connector : Connector) : Upkeep :=
  ⟨connector.settings.identityLifetime * 1000, maxPages⟩

/-- How the namespace names are kept up. -/
def namespaceUpkeep (connector : Connector) : Upkeep :=
  ⟨connector.settings.namespaceLifetime * 1000, maxPages⟩

/-- Where the mapping document of the cluster is. -/
def documentPlace (connector : Connector) : Kube.DocumentPlace :=
  ⟨connector.settings.awsAuthNs, connector.settings.awsAuthName⟩

/-- Grants an entitlement to a principal. -/
def grant (connector : Connector) (principal : ResourceId) (entitlement : String) :
    Provisioning.Timed GrantResult :=
  Provisioning.grant connector.settings principal entitlement

/-- Revokes an entitlement from a principal. -/
def revoke (connector : Connector) (principal : ResourceId) (entitlement : String) :
    Provisioning.Timed RevokeResult :=
  Provisioning.revoke connector.settings principal entitlement

end Connector

end ClusterAccess
