import Scaffold.App.Artifacts
import Scaffold.App.Name
import Scaffold.App.Spec
import Scaffold.Attribute
import Scaffold.CommandLine.Grammar
import Scaffold.CommandLine.Request
import Scaffold.CommandLine.Run
import Scaffold.CommandLine.Word
import Scaffold.Config.Basic
import Scaffold.Config.Environment
import Scaffold.Config.File
import Scaffold.Config.Port
import Scaffold.Console.Basic
import Scaffold.Console.Layout
import Scaffold.Console.Markup
import Scaffold.Console.Message
import Scaffold.Console.Styled
import Scaffold.Disk.Basic
import Scaffold.Disk.Create
import Scaffold.Disk.Text
import Scaffold.Entries
import Scaffold.Failure
import Scaffold.Json.Basic
import Scaffold.Json.Double
import Scaffold.Json.Number
import Scaffold.Json.Printer
import Scaffold.Json.Reader
import Scaffold.Json.StringLiteral
import Scaffold.Main
import Scaffold.Manifest
import Scaffold.Path.Basic
import Scaffold.Path.Location
import Scaffold.Plan
import Scaffold.Project.Argument
import Scaffold.Project.Artifacts
import Scaffold.Project.Spec
import Scaffold.Proofs.Disk.Growth
import Scaffold.Proofs.Outcome
import Scaffold.Query
import Scaffold.Scaffolder
import Scaffold.Schema
import Scaffold.Store.Memory
import Scaffold.Store.Workspace
import Scaffold.Template.Basic
import Scaffold.Template.Library
import Scaffold.Template.Render
import Scaffold.Text.Basic
import Scaffold.Text.Blank
import Scaffold.Text.Case
import Scaffold.Text.CaseTable
import Scaffold.Text.Cluster
import Scaffold.Text.CodePoints
import Scaffold.Text.Digit
import Scaffold.Text.Quoted
import Scaffold.Text.Raw
import Scaffold.Text.UnprintableTable
import Scaffold.Text.Width
import Scaffold.Text.WidthTable
import Scaffold.Text.Wrap
import Scaffold.Validation
import Scaffold.Proofs.Store.Growth
import Scaffold.Proofs.Session
import Scaffold.Proofs.Disk.Place
import Scaffold.Proofs.Disk.Ancestors
import Scaffold.Proofs.Plan.Layout
import Scaffold.Proofs.Store.Disk
import Scaffold.Proofs.Config.Fields
import Scaffold.Proofs.Text.Integer
import Scaffold.Proofs.Config.Environment
import Scaffold.Proofs.Config.File
import Scaffold.Proofs.CommandLine.Task
import Scaffold.Proofs.CommandLine.RealRun
import Scaffold.Proofs.Store.Memory
import Scaffold.Proofs.CommandLine.DryRun
import Scaffold.Proofs.Template.Segments
import Scaffold.Proofs.Text.Marker
import Scaffold.Proofs.Template.Supply
import Scaffold.Proofs.Template.Reading
import Scaffold.Proofs.App.Fields
import Scaffold.Proofs.App.Files
import Scaffold.Proofs.App.Naming
import Scaffold.Proofs.Text.Strip
import Scaffold.Proofs.Entries
import Scaffold.Proofs.Schema.Tokens
import Scaffold.Proofs.Schema.RoundTrip
import Scaffold.Proofs.Json.StringLiteral
import Scaffold.Proofs.Json.Number
import Scaffold.Proofs.Json.Grammar
import Scaffold.Proofs.Json.Map
import Scaffold.Proofs.Json.Printer
import Scaffold.Proofs.Disk.Text
import Scaffold.Proofs.Store.Written
import Scaffold.Proofs.Store.Refusal
import Scaffold.Proofs.Template.Names
import Scaffold.Proofs.Template.Members
import Scaffold.Proofs.Project.Manifest
import Scaffold.Proofs.Project.Environment
import Scaffold.Proofs.Project.Creation
import Scaffold.Proofs.Project.Name
import Scaffold.Proofs.Project.Agreement
import Scaffold.Proofs.Disk.Way
import Scaffold.Proofs.Store.Message
import Scaffold.Proofs.Store.Root
import Scaffold.Proofs.Store.Conflict
import Scaffold.Proofs.Store.Recording
import Scaffold.Proofs.Store.Sibling
import Scaffold.Proofs.App.Checks
import Scaffold.Proofs.App.Order
import Scaffold.Proofs.App.Root
import Scaffold.Proofs.Disk.Descent
import Scaffold.Proofs.Store.Presence
import Scaffold.Proofs.Disk.Vacant
import Scaffold.Proofs.Store.Series
import Scaffold.Proofs.Project.Arrangement
import Scaffold.Proofs.Store.Consistency
import Scaffold.Proofs.Template.Missing
import Scaffold.Proofs.App.Script
import Scaffold.Proofs.Text.Runs
import Scaffold.Proofs.App.Query
import Scaffold.Proofs.Config.Variables
import Scaffold.Proofs.Path.Spelling
import Scaffold.Proofs.Project.Location
import Scaffold.Proofs.Template.Source
import Scaffold.Proofs.Project.Renderings
import Scaffold.Proofs.Project.Argument
import Scaffold.Proofs.Project.Lines
import Scaffold.Proofs.Json.Depth
import Scaffold.Proofs.Json.Compact
import Scaffold.Proofs.Template.Json
import Scaffold.Proofs.Json.Limits
import Scaffold.Proofs.Json.Soundness
import Scaffold.Proofs.Project.Declared
import Scaffold.Proofs.Text.Case
import Scaffold.Proofs.App.Suggestion
import Scaffold.Proofs.Text.CamelCase
import Scaffold.Proofs.Config.PortText
import Scaffold.Proofs.Config.Port
import Scaffold.Proofs.Schema.Occurrences
import Scaffold.Proofs.App.Imports
import Scaffold.Proofs.Text.Legible
import Scaffold.Proofs.Text.Width
import Scaffold.Proofs.Console.Line
import Scaffold.Proofs.Console.Markup
import Scaffold.Proofs.Console.Rendering
import Scaffold.Proofs.Console.Message
import Scaffold.Proofs.Console.Table
import Scaffold.Proofs.CommandLine.Report
import Scaffold.Proofs.CommandLine.ShownRoot
import Scaffold.Proofs.CommandLine.NewRun
