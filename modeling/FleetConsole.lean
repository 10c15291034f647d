import FleetConsole.Catalog
import FleetConsole.Config
import FleetConsole.Database.Column
import FleetConsole.Database.Entities
import FleetConsole.Database.Migration
import FleetConsole.Database.Rehearsal
import FleetConsole.Database.Reports
import FleetConsole.Database.Server
import FleetConsole.Fault
import FleetConsole.Group
import FleetConsole.Http.Encoding
import FleetConsole.Http.Request
import FleetConsole.Http.Response
import FleetConsole.Http.Service
import FleetConsole.Http.Target
import FleetConsole.Id
import FleetConsole.Instant
import FleetConsole.Inventory.Basic
import FleetConsole.Inventory.Demo
import FleetConsole.Inventory.Rows
import FleetConsole.Inventory.Store
import FleetConsole.Json
import FleetConsole.Message
import FleetConsole.Navigation.Controller
import FleetConsole.Navigation.Detail
import FleetConsole.Navigation.Outage
import FleetConsole.Navigation.Route
import FleetConsole.Navigation.ViewPath
import FleetConsole.Navigation.ViewTask
import FleetConsole.Network.SocketAddress
import FleetConsole.Number.Decimal
import FleetConsole.Number.Double
import FleetConsole.Number.Numeral
import FleetConsole.Number.Rounding
import FleetConsole.Permission
import FleetConsole.Proofs.NodeIds
import FleetConsole.Proofs.ParentFirst
import FleetConsole.Proofs.Placement
import FleetConsole.Report.Alert
import FleetConsole.Report.Channel
import FleetConsole.Report.Criteria
import FleetConsole.Report.Csv
import FleetConsole.Report.Filter
import FleetConsole.Report.Format
import FleetConsole.Report.Kind
import FleetConsole.Report.Link
import FleetConsole.Report.Options
import FleetConsole.Report.Outage
import FleetConsole.Report.Page
import FleetConsole.Report.Row
import FleetConsole.Report.Stream
import FleetConsole.Report.Xml
import FleetConsole.Resource
import FleetConsole.Server
import FleetConsole.Settings
import FleetConsole.Text.Blank
import FleetConsole.Text.Case
import FleetConsole.Text.CaseTable
import FleetConsole.Text.HiddenTable
import FleetConsole.Text.Markup
import FleetConsole.Text.Plural
import FleetConsole.Text.Quoted
import FleetConsole.Text.Split
import FleetConsole.Tree.Checked
import FleetConsole.Tree.Clusters
import FleetConsole.Tree.Icon
import FleetConsole.Tree.Node
import FleetConsole.Tree.Order
import FleetConsole.Tree.ParentFirst
import FleetConsole.Tree.Resources
import FleetConsole.Wire.Exchanges
import FleetConsole.Wire.Faults
import FleetConsole.Wire.Inventory
import FleetConsole.Wire.Models
import FleetConsole.Wire.Reports
import FleetConsole.Wire.Settings
import FleetConsole.Wire.Trees
import FleetConsole.Wire.Views
import FleetConsole.Proofs.TreeOrder
import FleetConsole.Proofs.BuildNodes
import FleetConsole.Proofs.LazyTree
import FleetConsole.Proofs.DetailViews
import FleetConsole.Proofs.NavigationHistory
import FleetConsole.Proofs.RequestQueue
import FleetConsole.Proofs.NavigationFailures
import FleetConsole.Proofs.Paging
import FleetConsole.Proofs.ReportStream
import FleetConsole.Proofs.InventoryReports
import FleetConsole.Proofs.ClusterIds
import FleetConsole.Proofs.ClusterForest
import FleetConsole.Proofs.RowOrder
import FleetConsole.Proofs.StrayResources
import FleetConsole.Proofs.TypeCounts
import FleetConsole.Proofs.ViewPaths
import FleetConsole.Proofs.DetailLinks
import FleetConsole.Proofs.AdministrationPages
import FleetConsole.Proofs.RecentlyViewed
import FleetConsole.Proofs.ClusterKeyText
import FleetConsole.Proofs.QuotedLines
import FleetConsole.Proofs.Entities
import FleetConsole.Proofs.LeastArrangement
import FleetConsole.Proofs.NodeParents
import FleetConsole.Proofs.SanitizedLines
import FleetConsole.Proofs.XmlDocuments
import FleetConsole.Proofs.FilledFolders
import FleetConsole.Proofs.RepeatedRows
import FleetConsole.Proofs.AutoGroupNames
import FleetConsole.Proofs.SortedPreorder
import FleetConsole.Proofs.CategoryFolders
import FleetConsole.Proofs.OrderViolations
import FleetConsole.Proofs.DetailTargets
import FleetConsole.Proofs.DisplayedPaths
import FleetConsole.Proofs.Separators
import FleetConsole.Proofs.Negotiation
import FleetConsole.Proofs.RefusedForms
import FleetConsole.Proofs.AncestryTexts
import FleetConsole.Proofs.NameFilters
import FleetConsole.Proofs.EditedSettings
import FleetConsole.Proofs.SavedSettings
import FleetConsole.Proofs.DriftTexts
import FleetConsole.Proofs.EscapedNames
import FleetConsole.Proofs.MessageHistory
import FleetConsole.Proofs.SubCategoryWalk
import FleetConsole.Proofs.XmlCharacters
import FleetConsole.Proofs.StoredPages
