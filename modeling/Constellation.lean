import Constellation.Binary64.Basic
import Constellation.Binary64.Layout
import Constellation.Binary64.Notation
import Constellation.Binary64.Shortest
import Constellation.Command.All
import Constellation.Command.Analyze
import Constellation.Command.Arguments
import Constellation.Command.Check
import Constellation.Command.Console
import Constellation.Command.Execute
import Constellation.Command.Failure
import Constellation.Command.Generate
import Constellation.Csv
import Constellation.Duration
import Constellation.Experiment.Axes
import Constellation.Experiment.Basic
import Constellation.Experiment.Expansion
import Constellation.Experiment.Fault
import Constellation.Experiment.LossRatio
import Constellation.Experiment.Run
import Constellation.Experiment.Template
import Constellation.FileTree.Basic
import Constellation.FileTree.Files
import Constellation.FileTree.Search
import Constellation.History.Analyzer
import Constellation.History.Records
import Constellation.History.Scan
import Constellation.Json.Basic
import Constellation.Json.Format
import Constellation.Json.Number
import Constellation.Json.Problem
import Constellation.Json.Reading
import Constellation.Lexicographic
import Constellation.Main
import Constellation.Path
import Constellation.Proofs.Binary64.Characters
import Constellation.Proofs.Command.Agreement
import Constellation.Proofs.Command.Generating
import Constellation.Proofs.Command.Refusing
import Constellation.Proofs.Csv.Lines
import Constellation.Proofs.Csv.Numbering
import Constellation.Proofs.Csv.Rows
import Constellation.Proofs.Experiment.Choices
import Constellation.Proofs.Experiment.Filling
import Constellation.Proofs.Experiment.Generated
import Constellation.Proofs.Experiment.Materializing
import Constellation.Proofs.Experiment.Names
import Constellation.Proofs.Experiment.Outcome
import Constellation.Proofs.Experiment.Outputs
import Constellation.Proofs.Experiment.Overriding
import Constellation.Proofs.Experiment.Places
import Constellation.Proofs.Experiment.Separation
import Constellation.Proofs.Experiment.Storing
import Constellation.Proofs.FileTree.Bringing
import Constellation.Proofs.FileTree.Clearing
import Constellation.Proofs.FileTree.Descending
import Constellation.Proofs.FileTree.Following
import Constellation.Proofs.FileTree.Making
import Constellation.Proofs.FileTree.Relating
import Constellation.Proofs.FileTree.Resetting
import Constellation.Proofs.FileTree.Searching
import Constellation.Proofs.FileTree.Walking
import Constellation.Proofs.FileTree.Writing
import Constellation.Proofs.History.Agreeing
import Constellation.Proofs.History.Columns
import Constellation.Proofs.History.Condensing
import Constellation.Proofs.History.Distances
import Constellation.Proofs.History.Prefixes
import Constellation.Proofs.History.Recorded
import Constellation.Proofs.History.Refusals
import Constellation.Proofs.History.Sightings
import Constellation.Proofs.History.Tables
import Constellation.Proofs.History.Tracking
import Constellation.Proofs.Json.Documents
import Constellation.Proofs.Json.Formats
import Constellation.Proofs.Json.Grammar
import Constellation.Proofs.Json.Meanings
import Constellation.Proofs.Json.Tokens
import Constellation.Proofs.Session.Conformance
import Constellation.Proofs.Session.Counting
import Constellation.Proofs.Session.Ending
import Constellation.Proofs.Session.Expiring
import Constellation.Proofs.Session.Ledger
import Constellation.Proofs.Session.Logging
import Constellation.Proofs.Session.Occupancy
import Constellation.Proofs.Session.Protocol
import Constellation.Proofs.Session.ShellWords
import Constellation.Proofs.Session.Steps
import Constellation.Proofs.Snapshot.Discovery
import Constellation.Proofs.Snapshot.Grammar
import Constellation.Proofs.Snapshot.Inference
import Constellation.Proofs.Snapshot.Locating
import Constellation.Proofs.Snapshot.Naming
import Constellation.Proofs.Snapshot.Opening
import Constellation.Proofs.Snapshot.Pairs
import Constellation.Proofs.Snapshot.StepTimes
import Constellation.Proofs.Snapshot.Times
import Constellation.Proofs.Text.Numerals
import Constellation.Proofs.Text.Scanning
import Constellation.Session.Job
import Constellation.Session.Listing
import Constellation.Session.Rehearsal
import Constellation.Session.Scheduler
import Constellation.Session.Screen
import Constellation.Snapshot.Fault
import Constellation.Snapshot.Index
import Constellation.Snapshot.Name
import Constellation.Snapshot.Route
import Constellation.Snapshot.Source
import Constellation.Text.Blank
import Constellation.Text.DecimalDigit
import Constellation.Text.Lines
import Constellation.Text.Numeral
import Constellation.Text.Printable
import Constellation.Text.Quoted
import Constellation.Text.Substitution
import Constellation.Text.Symbol
