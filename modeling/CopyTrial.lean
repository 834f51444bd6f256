import CopyTrial.Json.Canonical
import CopyTrial.Json.Printer
import CopyTrial.Json.Cause
import CopyTrial.Json.Skip
import CopyTrial.Json.Variant
import CopyTrial.Trial
import CopyTrial.Bench
import CopyTrial.Pattern
import CopyTrial.Fill
import CopyTrial.Primitive.Kind
import CopyTrial.Text.Lines
import CopyTrial.Timestamp
import CopyTrial.Sha256
import CopyTrial.Path
import CopyTrial.Machine
import CopyTrial.Fixture.Load
import CopyTrial.Log.Emitter
import CopyTrial.Log.Validation
import CopyTrial.Campaign.Run
import CopyTrial.Campaign.Report
import CopyTrial.Artifact
import CopyTrial.Command.Perform
import CopyTrial.Main
import CopyTrial.Proofs.FirstDivergence
import CopyTrial.Proofs.Json.Reads
import CopyTrial.Proofs.Json.RoundTrip
import CopyTrial.Proofs.Json.Record
import CopyTrial.Proofs.Json.Steady
import CopyTrial.Proofs.Log.Contract
import CopyTrial.Proofs.Log.RoundTrip
import CopyTrial.Proofs.Text.Lines
import CopyTrial.Proofs.Json.OneLine
import CopyTrial.Proofs.Log.Lines
import CopyTrial.Proofs.Numeral
import CopyTrial.Proofs.Log.TraceId
import CopyTrial.Proofs.Log.LineByLine
import CopyTrial.Proofs.Campaign.Logged
import CopyTrial.Proofs.FileTree.Walk
import CopyTrial.Proofs.FileTree.Change
import CopyTrial.Proofs.Machine.Files
import CopyTrial.Proofs.Log.File
import CopyTrial.Proofs.Campaign.LogFile
import CopyTrial.Proofs.Command.Log
import CopyTrial.Proofs.Command.Run
import CopyTrial.Proofs.Fixture.Load
import CopyTrial.Proofs.Command.Refusal
import CopyTrial.Proofs.Json.Means
import CopyTrial.Proofs.Campaign.Report
import CopyTrial.Proofs.FileTree.Extension
import CopyTrial.Proofs.Command.Report
import CopyTrial.Proofs.Command.Suite
import CopyTrial.Proofs.Campaign.Tally
import CopyTrial.Proofs.Command.Agreement
import CopyTrial.Proofs.Command.Index
import CopyTrial.Proofs.Copy
import CopyTrial.Proofs.Fixture.Document
import CopyTrial.Proofs.Log.Means
import CopyTrial.Proofs.Campaign.Faithful
import CopyTrial.Proofs.Calendar.Dates
import CopyTrial.Proofs.Calendar.Words
import CopyTrial.Proofs.Timestamp
import CopyTrial.Proofs.Campaign.Masking
import CopyTrial.Proofs.Log.Twins
import CopyTrial.Proofs.Text.Pieces
import CopyTrial.Proofs.Log.WellFormedIds
import CopyTrial.Proofs.Primitive.Names
import CopyTrial.Proofs.Calendar.Order
import CopyTrial.Proofs.Campaign.Stamps
import CopyTrial.Proofs.Command.Stamps
import CopyTrial.Proofs.Campaign.Table
import CopyTrial.Proofs.TwoFills
import CopyTrial.Proofs.Wording
import CopyTrial.Proofs.Diagnostics
import CopyTrial.Proofs.Bench
import CopyTrial.Proofs.Campaign.Replay
import CopyTrial.Proofs.Numeral.Spelling
import CopyTrial.Proofs.Fill
import CopyTrial.Proofs.Sha256
import CopyTrial.Proofs.Artifact
import CopyTrial.Proofs.Text.ByteOrder
import CopyTrial.Proofs.FileTree.Listing
import CopyTrial.Proofs.Fixture.Directory
import CopyTrial.Proofs.Except
import CopyTrial.Proofs.Json.Numbers
import CopyTrial.Proofs.Json.Skip
import CopyTrial.Proofs.Json.Agreement
import CopyTrial.Proofs.Json.Variation
import CopyTrial.Proofs.Fixture.Variations
import CopyTrial.Proofs.Pattern
