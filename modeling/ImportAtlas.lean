import ImportAtlas.Build
import ImportAtlas.Console.Argument
import ImportAtlas.Console.Command
import ImportAtlas.Console.Plain
import ImportAtlas.Console.Screen
import ImportAtlas.Console.Table
import ImportAtlas.Console.Wrap
import ImportAtlas.Dictionary
import ImportAtlas.Dot.Diagram
import ImportAtlas.Error
import ImportAtlas.Failure
import ImportAtlas.Graph.Basic
import ImportAtlas.Graph.Component
import ImportAtlas.Graph.Cycle
import ImportAtlas.Graph.Query
import ImportAtlas.Graph.Walk
import ImportAtlas.Host
import ImportAtlas.Import.Candidate
import ImportAtlas.Import.Kind
import ImportAtlas.Import.Locator
import ImportAtlas.Import.Resolve
import ImportAtlas.Import.Statement
import ImportAtlas.Inventory
import ImportAtlas.Log
import ImportAtlas.Main
import ImportAtlas.Numbering
import ImportAtlas.Path.Basic
import ImportAtlas.Path.Relative
import ImportAtlas.Pattern.Exclusion
import ImportAtlas.Pattern.Glob
import ImportAtlas.Proofs.Act
import ImportAtlas.Proofs.Artifact
import ImportAtlas.Proofs.Assembly
import ImportAtlas.Proofs.Build
import ImportAtlas.Proofs.Console.Build
import ImportAtlas.Proofs.Console.Imports
import ImportAtlas.Proofs.Console.Plain
import ImportAtlas.Proofs.Console.Report
import ImportAtlas.Proofs.Console.Screen
import ImportAtlas.Proofs.Console.Verbatim
import ImportAtlas.Proofs.Describing
import ImportAtlas.Proofs.Dot.Diagram
import ImportAtlas.Proofs.Dot.Reader
import ImportAtlas.Proofs.Founding
import ImportAtlas.Proofs.Graph.Component
import ImportAtlas.Proofs.Graph.Cycle
import ImportAtlas.Proofs.Graph.Insertion
import ImportAtlas.Proofs.Graph.Pathless
import ImportAtlas.Proofs.Graph.Query
import ImportAtlas.Proofs.Graph.Texts
import ImportAtlas.Proofs.Graph.Walk
import ImportAtlas.Proofs.Host
import ImportAtlas.Proofs.Import.Candidate
import ImportAtlas.Proofs.Import.Layout
import ImportAtlas.Proofs.Import.Relative
import ImportAtlas.Proofs.Import.Respelling
import ImportAtlas.Proofs.Import.Span
import ImportAtlas.Proofs.Import.Target
import ImportAtlas.Proofs.Inventory
import ImportAtlas.Proofs.Inventory.Agree
import ImportAtlas.Proofs.Inventory.Ends
import ImportAtlas.Proofs.Inventory.Members
import ImportAtlas.Proofs.Inventory.Verdict
import ImportAtlas.Proofs.List
import ImportAtlas.Proofs.Log
import ImportAtlas.Proofs.Naming
import ImportAtlas.Proofs.Path.Normal
import ImportAtlas.Proofs.Pattern.Exclusion
import ImportAtlas.Proofs.Pattern.Glob
import ImportAtlas.Proofs.Quiet
import ImportAtlas.Proofs.Rerun.Building
import ImportAtlas.Proofs.Rerun.Listing
import ImportAtlas.Proofs.Rerun.Respelled
import ImportAtlas.Proofs.Rerun.Run
import ImportAtlas.Proofs.Run
import ImportAtlas.Proofs.Setting.Again
import ImportAtlas.Proofs.Setting.Classifier
import ImportAtlas.Proofs.Setting.Gather
import ImportAtlas.Proofs.Setting.Load
import ImportAtlas.Proofs.Setting.Priority
import ImportAtlas.Proofs.Setting.Read
import ImportAtlas.Proofs.Setting.Root
import ImportAtlas.Proofs.Setting.Source
import ImportAtlas.Proofs.Steps
import ImportAtlas.Proofs.Store.Atomic
import ImportAtlas.Proofs.Store.Bind
import ImportAtlas.Proofs.Store.Connect
import ImportAtlas.Proofs.Store.Follow
import ImportAtlas.Proofs.Store.Load
import ImportAtlas.Proofs.Store.Mirror
import ImportAtlas.Proofs.Store.Open
import ImportAtlas.Proofs.Store.Query
import ImportAtlas.Proofs.Store.Renew
import ImportAtlas.Proofs.Store.Roundtrip
import ImportAtlas.Proofs.Store.Rules
import ImportAtlas.Proofs.Store.Save
import ImportAtlas.Proofs.Store.Session
import ImportAtlas.Proofs.Survey
import ImportAtlas.Proofs.Text.Lines
import ImportAtlas.Proofs.Text.Quoted
import ImportAtlas.Proofs.Text.Utf8
import ImportAtlas.Proofs.Text.Words
import ImportAtlas.Proofs.Tree.Acyclic
import ImportAtlas.Proofs.Tree.Canonical
import ImportAtlas.Proofs.Tree.Growth
import ImportAtlas.Proofs.Tree.Keeps
import ImportAtlas.Proofs.Tree.Leads
import ImportAtlas.Proofs.Tree.Outline
import ImportAtlas.Proofs.Tree.Plain
import ImportAtlas.Proofs.Tree.Walk
import ImportAtlas.Proofs.Writing
import ImportAtlas.Render
import ImportAtlas.Report
import ImportAtlas.Run
import ImportAtlas.Setting.Basic
import ImportAtlas.Setting.Classifier
import ImportAtlas.Setting.Floating
import ImportAtlas.Setting.Load
import ImportAtlas.Setting.Moment
import ImportAtlas.Setting.Pair
import ImportAtlas.Setting.Value
import ImportAtlas.Source
import ImportAtlas.Store.Address
import ImportAtlas.Store.Column
import ImportAtlas.Store.Connection
import ImportAtlas.Store.Graph
import ImportAtlas.Store.Numeral
import ImportAtlas.Store.Place
import ImportAtlas.Store.Table
import ImportAtlas.Text.Binary
import ImportAtlas.Text.Blank
import ImportAtlas.Text.Decimal
import ImportAtlas.Text.Digit
import ImportAtlas.Text.Form
import ImportAtlas.Text.Hex
import ImportAtlas.Text.Integer
import ImportAtlas.Text.Line
import ImportAtlas.Text.Printable
import ImportAtlas.Text.Quoted
import ImportAtlas.Text.Range
import ImportAtlas.Text.ShellWord
import ImportAtlas.Text.Utf8
import ImportAtlas.Toml.Document
import ImportAtlas.Toml.Moment
import ImportAtlas.Toml.Number
import ImportAtlas.Toml.Space
import ImportAtlas.Toml.Text
import ImportAtlas.Toml.Value
import ImportAtlas.Tree.Basic
import ImportAtlas.Tree.Canonical
import ImportAtlas.Tree.Locate
import ImportAtlas.Tree.Update
