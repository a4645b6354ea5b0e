import TemplateBindings.Audit.Event
import TemplateBindings.Audit.Log
import TemplateBindings.Audit.Records
import TemplateBindings.Build.Batch
import TemplateBindings.Build.Discovery
import TemplateBindings.Build.Marker
import TemplateBindings.Build.Outcome
import TemplateBindings.Build.Outputs
import TemplateBindings.Build.Report
import TemplateBindings.Build.Run
import TemplateBindings.Build.Source
import TemplateBindings.Build.Stale
import TemplateBindings.Clock.Calendar
import TemplateBindings.Clock.Double
import TemplateBindings.Clock.Stamp
import TemplateBindings.CommandLine.Arguments
import TemplateBindings.CommandLine.Flag
import TemplateBindings.CommandLine.Run
import TemplateBindings.Config.Basic
import TemplateBindings.Config.Load
import TemplateBindings.Config.Merge
import TemplateBindings.Document.Ids
import TemplateBindings.ElementType
import TemplateBindings.Files.Disk
import TemplateBindings.Files.Entry
import TemplateBindings.Files.Error
import TemplateBindings.Files.Locate
import TemplateBindings.Files.Operation
import TemplateBindings.Files.Path
import TemplateBindings.GeneratedModule
import TemplateBindings.Identifier
import TemplateBindings.Json.Basic
import TemplateBindings.Json.Parse
import TemplateBindings.Main
import TemplateBindings.Markup.Attribute
import TemplateBindings.Markup.Node
import TemplateBindings.Markup.Print
import TemplateBindings.Markup.Reference
import TemplateBindings.Markup.Reference.Names
import TemplateBindings.Markup.StartTag
import TemplateBindings.Markup.Token
import TemplateBindings.Markup.Token.Scan
import TemplateBindings.Markup.Tree
import TemplateBindings.Proofs.Audit.Lines
import TemplateBindings.Proofs.Audit.ReadBack
import TemplateBindings.Proofs.Audit.Since
import TemplateBindings.Proofs.Audit.Tolerance
import TemplateBindings.Proofs.Build.Again
import TemplateBindings.Proofs.Build.Clearing
import TemplateBindings.Proofs.Build.Current
import TemplateBindings.Proofs.Build.Discovered
import TemplateBindings.Proofs.Build.Discovering
import TemplateBindings.Proofs.Build.Due
import TemplateBindings.Proofs.Build.History
import TemplateBindings.Proofs.Build.Isolation
import TemplateBindings.Proofs.Build.Ledger
import TemplateBindings.Proofs.Build.Making
import TemplateBindings.Proofs.Build.Markers
import TemplateBindings.Proofs.Build.Milliseconds
import TemplateBindings.Proofs.Build.Outside
import TemplateBindings.Proofs.Build.Overlap
import TemplateBindings.Proofs.Build.Phases
import TemplateBindings.Proofs.Build.Places
import TemplateBindings.Proofs.Build.Reconcile
import TemplateBindings.Proofs.Build.Recovery
import TemplateBindings.Proofs.Build.Removing
import TemplateBindings.Proofs.Build.Returning
import TemplateBindings.Proofs.Build.Sources
import TemplateBindings.Proofs.Build.Step
import TemplateBindings.Proofs.Build.Through
import TemplateBindings.Proofs.Build.Trace
import TemplateBindings.Proofs.Build.Unhindered
import TemplateBindings.Proofs.Clock.Calendar
import TemplateBindings.Proofs.Clock.Modified
import TemplateBindings.Proofs.Clock.Order
import TemplateBindings.Proofs.Clock.Rounding
import TemplateBindings.Proofs.Clock.Stamp
import TemplateBindings.Proofs.CommandLine.Ends
import TemplateBindings.Proofs.Config.Layers
import TemplateBindings.Proofs.Config.Settled
import TemplateBindings.Proofs.Document.Constants
import TemplateBindings.Proofs.Document.Reading
import TemplateBindings.Proofs.Document.Tags
import TemplateBindings.Proofs.Files.Directories
import TemplateBindings.Proofs.Files.Effect
import TemplateBindings.Proofs.Files.Plain
import TemplateBindings.Proofs.Files.Replace
import TemplateBindings.Proofs.Files.Sight
import TemplateBindings.Proofs.Files.Views
import TemplateBindings.Proofs.Files.Walks
import TemplateBindings.Proofs.Files.Work
import TemplateBindings.Proofs.GeneratedModule.ClassModule
import TemplateBindings.Proofs.GeneratedModule.Names
import TemplateBindings.Proofs.Identifier.Collisions
import TemplateBindings.Proofs.Markup.Outline
import TemplateBindings.Proofs.Markup.Values
import TemplateBindings.Proofs.Script.Template
import TemplateBindings.Proofs.Stylesheet.Collisions
import TemplateBindings.Proofs.Stylesheet.Constants
import TemplateBindings.Proofs.Stylesheet.Merged
import TemplateBindings.Proofs.Stylesheet.Positions
import TemplateBindings.Proofs.Template.Admitted
import TemplateBindings.Proofs.Template.Emitted
import TemplateBindings.Proofs.Template.Places
import TemplateBindings.Proofs.Template.Renamed
import TemplateBindings.Proofs.Template.Rendered
import TemplateBindings.Proofs.Template.Stripped
import TemplateBindings.Proofs.Text.Integer
import TemplateBindings.Proofs.Text.Numeral
import TemplateBindings.Proofs.Text.Order
import TemplateBindings.Settings.Value
import TemplateBindings.Stylesheet.ClassNames
import TemplateBindings.Stylesheet.Constants
import TemplateBindings.Template.Fragment
import TemplateBindings.Template.Refs
import TemplateBindings.Template.Render
import TemplateBindings.Template.Strip
import TemplateBindings.Text.Basic
import TemplateBindings.Text.Blank
import TemplateBindings.Text.Case
import TemplateBindings.Text.Case.Classes
import TemplateBindings.Text.Case.Mappings
import TemplateBindings.Text.Integer
import TemplateBindings.Text.Lines
import TemplateBindings.Text.Printable
import TemplateBindings.Text.Quoted
import TemplateBindings.Text.Utf8
import TemplateBindings.Toml.Document
import TemplateBindings.Toml.Lexeme
import TemplateBindings.Toml.Scalar
import TemplateBindings.Toml.Table
import TemplateBindings.Toml.Value
import TemplateBindings.Proofs.Build.Delivered
import TemplateBindings.Proofs.Files.Adding
