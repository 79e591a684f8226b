import Governance.Asset.Archetype
import Governance.Asset.Architecture
import Governance.Asset.DefaultValues
import Governance.Asset.Kind
import Governance.Asset.Parameter
import Governance.Asset.PolicyAssignment
import Governance.Asset.PolicyDefinition
import Governance.Asset.PolicySetDefinition
import Governance.Asset.Reference
import Governance.Asset.RoleDefinition
import Governance.Catalog.Basic
import Governance.Catalog.Entry
import Governance.Catalog.Error
import Governance.Catalog.Library
import Governance.Catalog.Source
import Governance.Catalog.Versions
import Governance.Command.Access
import Governance.Command.Arguments
import Governance.Command.Run
import Governance.Decimal.Binary64
import Governance.Decimal.Integer
import Governance.Decimal.Shortest
import Governance.Digest.NameUuid
import Governance.Digest.Sha1
import Governance.Expression.Builtin
import Governance.Expression.Error
import Governance.Expression.Evaluation
import Governance.Expression.Format
import Governance.Expression.Token
import Governance.Expression.Tree
import Governance.Files.Disk
import Governance.Files.Error
import Governance.Files.Path
import Governance.Files.Tree
import Governance.Hierarchy.Assets
import Governance.Hierarchy.Deployment
import Governance.Hierarchy.Derivation
import Governance.Hierarchy.Edit
import Governance.Hierarchy.Error
import Governance.Hierarchy.Export
import Governance.Hierarchy.Grant
import Governance.Hierarchy.Group
import Governance.Hierarchy.Growth
import Governance.Hierarchy.Outline
import Governance.Hierarchy.Query
import Governance.Hierarchy.View
import Governance.Json.Basic
import Governance.Json.Document
import Governance.Json.Printer
import Governance.Json.Record
import Governance.Json.Source
import Governance.Json.Token
import Governance.Main
import Governance.Order.Map
import Governance.Order.Set
import Governance.Proofs.Asset.Architecture
import Governance.Proofs.Asset.Forest
import Governance.Proofs.Asset.Rereading
import Governance.Proofs.Catalog.Answers
import Governance.Proofs.Catalog.Bases
import Governance.Proofs.Catalog.Contents
import Governance.Proofs.Catalog.History
import Governance.Proofs.Catalog.Listing
import Governance.Proofs.Catalog.Loading
import Governance.Proofs.Catalog.Overrides
import Governance.Proofs.Catalog.Ranking
import Governance.Proofs.Decimal
import Governance.Proofs.Expression.Bounds
import Governance.Proofs.Expression.Extension
import Governance.Proofs.Expression.Failure
import Governance.Proofs.Expression.Grammar
import Governance.Proofs.Expression.Height
import Governance.Proofs.Expression.ParameterCall
import Governance.Proofs.Expression.Reading
import Governance.Proofs.Expression.Respelling
import Governance.Proofs.Expression.Scanning
import Governance.Proofs.Expression.Spelling
import Governance.Proofs.Expression.Template
import Governance.Proofs.Expression.Writing
import Governance.Proofs.Files.Place
import Governance.Proofs.Hierarchy.Addition
import Governance.Proofs.Hierarchy.Anchor
import Governance.Proofs.Hierarchy.Assets
import Governance.Proofs.Hierarchy.Checked
import Governance.Proofs.Hierarchy.Copies
import Governance.Proofs.Hierarchy.Defaults
import Governance.Proofs.Hierarchy.Demands
import Governance.Proofs.Hierarchy.Deployment
import Governance.Proofs.Hierarchy.Derivation
import Governance.Proofs.Hierarchy.Environment
import Governance.Proofs.Hierarchy.Export
import Governance.Proofs.Hierarchy.Failures
import Governance.Proofs.Hierarchy.Growth
import Governance.Proofs.Hierarchy.History
import Governance.Proofs.Hierarchy.Modifications
import Governance.Proofs.Hierarchy.Naming
import Governance.Proofs.Hierarchy.Outline
import Governance.Proofs.Hierarchy.Owners
import Governance.Proofs.Hierarchy.Pins
import Governance.Proofs.Hierarchy.Pointing
import Governance.Proofs.Hierarchy.Redeployment
import Governance.Proofs.Hierarchy.RoleNames
import Governance.Proofs.Hierarchy.Rows
import Governance.Proofs.Hierarchy.Siblings
import Governance.Proofs.Hierarchy.SingleMember
import Governance.Proofs.Hierarchy.Stamps
import Governance.Proofs.Hierarchy.Stopping
import Governance.Proofs.Hierarchy.Tree
import Governance.Proofs.Hierarchy.Union
import Governance.Proofs.Json.Rereading
import Governance.Proofs.Order.Map
import Governance.Proofs.Query
import Governance.Proofs.ResourceId
import Governance.Proofs.ResourceId.Shape
import Governance.Proofs.ResourceId.Template
import Governance.Proofs.Source
import Governance.Proofs.Text.Cells
import Governance.Proofs.Version
import Governance.Region
import Governance.ResourceId
import Governance.Settings.Basic
import Governance.Settings.File
import Governance.Text.Alphabetic
import Governance.Text.Ascii
import Governance.Text.Blank
import Governance.Text.CaseMapping
import Governance.Text.Numeric
import Governance.Text.Reading
import Governance.Text.Search
import Governance.Toml.Basic
import Governance.Toml.DateTime
import Governance.Toml.Document
import Governance.Toml.Number
import Governance.Toml.Quoted
import Governance.Toml.Table
import Governance.Toml.Value
import Governance.Version
