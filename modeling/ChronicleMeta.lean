import ChronicleMeta.Attribute
import ChronicleMeta.Blueprint.Basic
import ChronicleMeta.Blueprint.Edit
import ChronicleMeta.Blueprint.Resolution
import ChronicleMeta.Builtin
import ChronicleMeta.Cache.Basic
import ChronicleMeta.Cache.Sharing
import ChronicleMeta.Cache.Storing
import ChronicleMeta.Calendar.Date
import ChronicleMeta.Calendar.Reading
import ChronicleMeta.Catalog.Basic
import ChronicleMeta.Catalog.Definition
import ChronicleMeta.Catalog.Loading
import ChronicleMeta.Catalog.Reading
import ChronicleMeta.Chronicle
import ChronicleMeta.Command
import ChronicleMeta.CommandLine.Arguments
import ChronicleMeta.CommandLine.Execution
import ChronicleMeta.CommandLine.Folder
import ChronicleMeta.Component
import ChronicleMeta.Config
import ChronicleMeta.Container.Basic
import ChronicleMeta.Container.Index
import ChronicleMeta.Database.Basic
import ChronicleMeta.Database.Chronicles
import ChronicleMeta.Database.Properties
import ChronicleMeta.Database.Schemas
import ChronicleMeta.Definitions
import ChronicleMeta.Encoding.Config
import ChronicleMeta.Encoding.Surrogate
import ChronicleMeta.Encoding.Value
import ChronicleMeta.Error
import ChronicleMeta.Identity
import ChronicleMeta.Inspection.Chronicle
import ChronicleMeta.Inspection.Definition
import ChronicleMeta.Inspection.Error
import ChronicleMeta.Inspection.Schema
import ChronicleMeta.Json.Basic
import ChronicleMeta.Json.Reader
import ChronicleMeta.Json.Writer
import ChronicleMeta.Main
import ChronicleMeta.Naming
import ChronicleMeta.Number.Binary64
import ChronicleMeta.Number.Integer
import ChronicleMeta.Number.Reading
import ChronicleMeta.Number.Shortest
import ChronicleMeta.Outcome
import ChronicleMeta.Permission
import ChronicleMeta.Problem
import ChronicleMeta.Proofs.Acceptance
import ChronicleMeta.Proofs.Arising
import ChronicleMeta.Proofs.Attribute
import ChronicleMeta.Proofs.Blueprint.Changes
import ChronicleMeta.Proofs.Blueprint.EditMode
import ChronicleMeta.Proofs.Blueprint.Effect
import ChronicleMeta.Proofs.Blueprint.Failure
import ChronicleMeta.Proofs.Blueprint.Structure
import ChronicleMeta.Proofs.Blueprint.Walk
import ChronicleMeta.Proofs.Cache.Accounting
import ChronicleMeta.Proofs.Cache.Backing
import ChronicleMeta.Proofs.Cache.Effect
import ChronicleMeta.Proofs.Cache.InPlace
import ChronicleMeta.Proofs.Cache.Ledger
import ChronicleMeta.Proofs.Cache.Names
import ChronicleMeta.Proofs.Cache.PropertyUses
import ChronicleMeta.Proofs.Cache.Providing
import ChronicleMeta.Proofs.Cache.Recency
import ChronicleMeta.Proofs.Cache.Refinement
import ChronicleMeta.Proofs.Cache.Request
import ChronicleMeta.Proofs.Cache.SchemaUses
import ChronicleMeta.Proofs.Cache.Sharing
import ChronicleMeta.Proofs.Cache.Snapshots
import ChronicleMeta.Proofs.Cache.Storing
import ChronicleMeta.Proofs.Calendar.Reading
import ChronicleMeta.Proofs.Catalog.Acceptance
import ChronicleMeta.Proofs.Catalog.Definition
import ChronicleMeta.Proofs.Catalog.Entry
import ChronicleMeta.Proofs.Catalog.Listing
import ChronicleMeta.Proofs.Catalog.Loading
import ChronicleMeta.Proofs.Catalog.Rounds
import ChronicleMeta.Proofs.Chain
import ChronicleMeta.Proofs.Coincidence
import ChronicleMeta.Proofs.Completeness
import ChronicleMeta.Proofs.Composition
import ChronicleMeta.Proofs.Container.Acceptance
import ChronicleMeta.Proofs.Container.Alike
import ChronicleMeta.Proofs.Container.Coincidence
import ChronicleMeta.Proofs.Container.Draft
import ChronicleMeta.Proofs.Container.Index
import ChronicleMeta.Proofs.Container.Inheritance
import ChronicleMeta.Proofs.Container.Invariant
import ChronicleMeta.Proofs.Container.Listing
import ChronicleMeta.Proofs.Container.Names
import ChronicleMeta.Proofs.Container.Rebuild
import ChronicleMeta.Proofs.Container.Relaying
import ChronicleMeta.Proofs.Container.Request
import ChronicleMeta.Proofs.Container.Sealed
import ChronicleMeta.Proofs.Container.Transaction
import ChronicleMeta.Proofs.Database.Changes
import ChronicleMeta.Proofs.Database.Chronicles
import ChronicleMeta.Proofs.Database.Creation
import ChronicleMeta.Proofs.Database.Defaults
import ChronicleMeta.Proofs.Database.Deletion
import ChronicleMeta.Proofs.Database.Depth
import ChronicleMeta.Proofs.Database.EditMode
import ChronicleMeta.Proofs.Database.Frame
import ChronicleMeta.Proofs.Database.Integrity
import ChronicleMeta.Proofs.Database.Names
import ChronicleMeta.Proofs.Database.Operation
import ChronicleMeta.Proofs.Database.Outdated
import ChronicleMeta.Proofs.Database.Permission
import ChronicleMeta.Proofs.Database.Providing
import ChronicleMeta.Proofs.Database.Reading
import ChronicleMeta.Proofs.Database.Request
import ChronicleMeta.Proofs.Database.Saving
import ChronicleMeta.Proofs.Database.Session
import ChronicleMeta.Proofs.Database.Sound
import ChronicleMeta.Proofs.Database.Transparency
import ChronicleMeta.Proofs.Database.Tree
import ChronicleMeta.Proofs.Definitions
import ChronicleMeta.Proofs.InPlace
import ChronicleMeta.Proofs.Merging
import ChronicleMeta.Proofs.Naming
import ChronicleMeta.Proofs.Number.Integer
import ChronicleMeta.Proofs.Numbering
import ChronicleMeta.Proofs.Outcome
import ChronicleMeta.Proofs.PropertyMap
import ChronicleMeta.Proofs.Removal
import ChronicleMeta.Proofs.Renewal
import ChronicleMeta.Proofs.Resolution
import ChronicleMeta.Proofs.Runs
import ChronicleMeta.Proofs.Sealed
import ChronicleMeta.Proofs.SortedMap
import ChronicleMeta.Proofs.Store.Depth
import ChronicleMeta.Proofs.Store.Effect
import ChronicleMeta.Proofs.Store.Forest
import ChronicleMeta.Proofs.Store.Properties
import ChronicleMeta.Proofs.Store.Renewal
import ChronicleMeta.Proofs.Store.Representation
import ChronicleMeta.Proofs.Store.Request
import ChronicleMeta.Proofs.Store.Sealed
import ChronicleMeta.Proofs.Store.Sound
import ChronicleMeta.Proofs.Store.Table
import ChronicleMeta.Proofs.Surrogate
import ChronicleMeta.Proofs.Text.Wildcard
import ChronicleMeta.Proofs.Transaction
import ChronicleMeta.Proofs.ValueType
import ChronicleMeta.Property
import ChronicleMeta.Report.Basic
import ChronicleMeta.Report.Cache
import ChronicleMeta.Report.Property
import ChronicleMeta.Report.Schema
import ChronicleMeta.Schema
import ChronicleMeta.Series
import ChronicleMeta.SortedMap
import ChronicleMeta.Store
import ChronicleMeta.Surrogate
import ChronicleMeta.Text.Basic
import ChronicleMeta.Text.Printable
import ChronicleMeta.Text.Quoted
import ChronicleMeta.Text.Wildcard
import ChronicleMeta.Toml.Reader
import ChronicleMeta.Toml.Scalar
import ChronicleMeta.Toml.Table
import ChronicleMeta.Toml.Text
import ChronicleMeta.Value
import ChronicleMeta.ValueType
