import ClusterAccess.Arn
import ClusterAccess.AwsAuth
import ClusterAccess.Call
import ClusterAccess.Catalog.BindingGrants
import ClusterAccess.Catalog.NamespaceNames
import ClusterAccess.Catalog.PolicyHolders
import ClusterAccess.Catalog.Resource
import ClusterAccess.Catalog.RoleMembers
import ClusterAccess.Catalog.TrustedUsers
import ClusterAccess.Connector
import ClusterAccess.ControlPlane.CallName
import ClusterAccess.ControlPlane.State
import ClusterAccess.ControlPlane.Trial
import ClusterAccess.Directory
import ClusterAccess.Entitlement
import ClusterAccess.Expiry
import ClusterAccess.Fault
import ClusterAccess.Identity.Lookup
import ClusterAccess.Identity.Sources
import ClusterAccess.Json.Number
import ClusterAccess.Json.Reader
import ClusterAccess.Json.Record
import ClusterAccess.Json.Token
import ClusterAccess.Json.Value
import ClusterAccess.Json.Writer
import ClusterAccess.Kube.Api
import ClusterAccess.Kube.Http
import ClusterAccess.Kube.Object
import ClusterAccess.Kube.Script
import ClusterAccess.Kube.Shape
import ClusterAccess.LogFilter
import ClusterAccess.Mappings
import ClusterAccess.Number.Binary64
import ClusterAccess.Page
import ClusterAccess.Policy
import ClusterAccess.Program
import ClusterAccess.Provisioned
import ClusterAccess.Provisioning
import ClusterAccess.Rbac.Assignment
import ClusterAccess.Rbac.Binding
import ClusterAccess.Rbac.Role
import ClusterAccess.Session
import ClusterAccess.Settings.Basic
import ClusterAccess.Settings.CommandLine
import ClusterAccess.Settings.Document
import ClusterAccess.Text.Blank
import ClusterAccess.Text.Digits
import ClusterAccess.Text.Letters
import ClusterAccess.Text.Percent
import ClusterAccess.Text.Split
import ClusterAccess.Timestamp
import ClusterAccess.TrustPolicy
import ClusterAccess.Yaml.Node
import ClusterAccess.Yaml.Token
import ClusterAccess.Yaml.Value
import ClusterAccess.Yaml.Writer
import ClusterAccess.Proofs.BindingStore
import ClusterAccess.Proofs.EntitlementCodec
import ClusterAccess.Proofs.Errands
import ClusterAccess.Proofs.AccessSet
import ClusterAccess.Proofs.Interleaving
import ClusterAccess.Proofs.LostGrants
import ClusterAccess.Proofs.Worlds
import ClusterAccess.Proofs.PolicyRegistry
import ClusterAccess.Proofs.PolicyScopes
import ClusterAccess.Proofs.Trace
import ClusterAccess.Proofs.Crowd
import ClusterAccess.Proofs.PolicyCalls
import ClusterAccess.Proofs.LostScopes
import ClusterAccess.Proofs.RequestBounds
import ClusterAccess.Proofs.Usernames
import ClusterAccess.Proofs.TrialRuns
import ClusterAccess.Proofs.Snapshots
import ClusterAccess.Proofs.RoleListing
import ClusterAccess.Proofs.RoleRequests
import ClusterAccess.Proofs.ListedGrants
import ClusterAccess.Proofs.RemainingGrants
import ClusterAccess.Proofs.Retries
import ClusterAccess.Proofs.Turns
import ClusterAccess.Proofs.SharedCache
import ClusterAccess.Proofs.SingleFlight
import ClusterAccess.Proofs.LiveLookups
import ClusterAccess.Proofs.DocumentRows
import ClusterAccess.Proofs.MergedMappings
import ClusterAccess.Proofs.EntitlementGrammar
import ClusterAccess.Proofs.ListedPlaces
import ClusterAccess.Proofs.TidyBindings
import ClusterAccess.Proofs.LastingRevokes
import ClusterAccess.Proofs.SharedDocument
import ClusterAccess.Proofs.CanonicalNames
import ClusterAccess.Proofs.Holdings
import ClusterAccess.Proofs.LeftOutSubjects
import ClusterAccess.Proofs.PolicyListing
import ClusterAccess.Proofs.PolicyRevokes
import ClusterAccess.Proofs.AppendedRows
import ClusterAccess.Proofs.SharedNames
import ClusterAccess.Proofs.CompleteNames
import ClusterAccess.Proofs.FormText
import ClusterAccess.Proofs.ListPages
import ClusterAccess.Proofs.OfferedScopes
import ClusterAccess.Proofs.PagedNamespaces
import ClusterAccess.Proofs.TrustGrammar
import ClusterAccess.Proofs.TrustForms
import ClusterAccess.Proofs.TrustGrants
import ClusterAccess.Proofs.UrlText
import ClusterAccess.Proofs.ArnGrammar
import ClusterAccess.Proofs.ListedRoles
import ClusterAccess.Proofs.UsernameDirections
