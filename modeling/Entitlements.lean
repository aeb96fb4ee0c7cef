import Entitlements.Access.Codec
import Entitlements.Access.Expiry
import Entitlements.Administration.Assignments
import Entitlements.Audit.Event
import Entitlements.Audit.Redaction
import Entitlements.Bundle.Checksum
import Entitlements.Bundle.Compile
import Entitlements.Catalog
import Entitlements.CommandLine.Commands
import Entitlements.Engine.AccessStore
import Entitlements.Engine.AuditLog
import Entitlements.Engine.Basic
import Entitlements.Engine.BundleCache
import Entitlements.Engine.Directory
import Entitlements.Evaluation
import Entitlements.Generation
import Entitlements.Main
import Entitlements.Maintenance
import Entitlements.Proofs.Access.Content
import Entitlements.Proofs.Administration.Atomicity
import Entitlements.Proofs.Administration.BestEffort
import Entitlements.Proofs.Administration.GrantedExpiry
import Entitlements.Proofs.Administration.Granting
import Entitlements.Proofs.Administration.Lifecycle
import Entitlements.Proofs.Administration.SystemRecords
import Entitlements.Proofs.Administration.Updates
import Entitlements.Proofs.Audit.AppendOnly
import Entitlements.Proofs.Audit.Replay
import Entitlements.Proofs.Bundle.Content
import Entitlements.Proofs.Catalog.Listing
import Entitlements.Proofs.Catalog.Ownership
import Entitlements.Proofs.Engine.Stranding
import Entitlements.Proofs.Evaluation.Agreement
import Entitlements.Proofs.Evaluation.Batch
import Entitlements.Proofs.Evaluation.Inheritance
import Entitlements.Proofs.Evaluation.Redundancy
import Entitlements.Proofs.Generation.EqualRights
import Entitlements.Proofs.Generation.FeatureCheck
import Entitlements.Proofs.Generation.Recomputation
import Entitlements.Proofs.Generation.Runs
import Entitlements.Proofs.Generation.StoredBundles
import Entitlements.Proofs.Maintenance.CleanUp
import Entitlements.Proofs.Maintenance.ExpirePass
import Entitlements.Proofs.Permission.Acceptance
import Entitlements.Proofs.Tenancy.Guard
import Entitlements.Proofs.Tenancy.Noninterference
import Entitlements.Settings.Derived
import Entitlements.Store.Access
import Entitlements.Store.AuditLog
import Entitlements.Store.BundleCache
import Entitlements.Store.Catalog
import Entitlements.Store.Codec
import Entitlements.Store.Directory
