import Splice.Binary64.Basic
import Splice.Text.Blank
import Splice.Text.LowerCase
import Splice.Text.Lines
import Splice.Text.Quoted
import Splice.Text.Percent
import Splice.Text.Digit
import Splice.Text.WordTable
import Splice.Binary64.Printer
import Splice.Text.Numeral
import Splice.Calendar
import Splice.Value.Basic
import Splice.Value.Printer
import Splice.Json.Writer
import Splice.Json.Reader
import Splice.Color.Basic
import Splice.EditConfig.Reader
import Splice.Yaml.Token.Lexer
import Splice.Yaml.Document
import Splice.EditConfig.Text
import Splice.PathVariable
import Splice.Font
import Splice.Timing
import Splice.CameraEffect
import Splice.Blend
import Splice.Overlay
import Splice.FilterGraph.Basic
import Splice.Soundtrack
import Splice.Program
import Splice.Diagnostic
import Splice.Log.Record
import Splice.FileTree
import Splice.Settings.Reader
import Splice.Store.Basic
import Splice.Machine
import Splice.Clip.Reader
import Splice.Storage
import Splice.Worker
import Splice.Command.Run
import Splice.Main
import Splice.Proofs.FilterGraph.WellFormed
import Splice.Proofs.Program.Chains
import Splice.Proofs.Program.Layout
import Splice.Proofs.FilterGraph.Quoting
import Splice.Proofs.FilterGraph.Reading
import Splice.Proofs.Overlay
import Splice.Proofs.Program.Reading
import Splice.Proofs.Store.Changes
import Splice.Proofs.Store.Workers
import Splice.Proofs.Action
import Splice.Proofs.Jobs
import Splice.Proofs.FileTree
import Splice.Proofs.Path
import Splice.Proofs.Frame
import Splice.Proofs.Store.Age
import Splice.Proofs.Worker.Poll
import Splice.Proofs.Worker.Runs
import Splice.Proofs.Storage
import Splice.Proofs.Invocation
import Splice.Proofs.Pipeline.Render
import Splice.Proofs.Pipeline.Process
import Splice.Proofs.Pipeline.Outcome
import Splice.Proofs.Pipeline.Places
import Splice.Proofs.Pipeline.Stored
import Splice.Proofs.Worker.Library
import Splice.Proofs.Path.Normal
import Splice.Proofs.Storage.Containment
import Splice.Proofs.EditConfig.Checked
import Splice.Proofs.EditConfig.Files
import Splice.Proofs.Binary64.Rounding
import Splice.Proofs.Binary64.Shortest
import Splice.Proofs.Binary64.Text
import Splice.Proofs.EditConfig.Kept
import Splice.Proofs.Yaml.Making
import Splice.Proofs.Yaml.Stored
import Splice.Proofs.EditConfig.Stored
import Splice.Proofs.Calendar
import Splice.Proofs.Store.Lawful
import Splice.Proofs.Store.Operations
import Splice.Proofs.Store.Queue
import Splice.Proofs.Invocation.Outcome
import Splice.Proofs.Pipeline.Steps
import Splice.Proofs.Program.Windows
import Splice.Proofs.Text.Trimming
import Splice.Proofs.Text.Order
import Splice.Proofs.EditConfig.Spellings
import Splice.Proofs.EditConfig.Renaming
import Splice.Proofs.Text.Codes
import Splice.Proofs.Text.Percent
import Splice.Proofs.Storage.Download
import Splice.Proofs.Storage.RoundTrip
import Splice.Proofs.Settings.Outcome
import Splice.Proofs.Settings.Precedence
import Splice.Proofs.FilterGraph.Verdict
import Splice.Proofs.Diagnostic.Selection
import Splice.Proofs.Binary64.Order
import Splice.Proofs.Program.Outcome
import Splice.Proofs.Binary64.Places
import Splice.Proofs.Program.Lengths
import Splice.Proofs.CameraEffect.Zoom
import Splice.Proofs.Binary64.Accuracy
import Splice.Proofs.Color.Shares
import Splice.Proofs.Color.Forms
import Splice.Proofs.Color.EngineText
import Splice.Proofs.CameraEffect.Pan
import Splice.Proofs.Program.Blends
import Splice.Proofs.PathVariable
import Splice.Proofs.Text.Words
import Splice.Proofs.Invocation.Filters
import Splice.Proofs.FilterGraph.Pads
import Splice.Proofs.CameraEffect.Crop
import Splice.Proofs.Log.Outlet
