import IslandPlots.Coord
import IslandPlots.Lattice
import IslandPlots.Spiral
import IslandPlots.Exclusion
import IslandPlots.Text.Blank
import IslandPlots.Text.Numeral
import IslandPlots.Text.Utf8
import IslandPlots.Text.Lines
import IslandPlots.Record.Owner
import IslandPlots.Record
import IslandPlots.Ledger
import IslandPlots.Yaml.Problem
import IslandPlots.Yaml.Cursor
import IslandPlots.Yaml.Token
import IslandPlots.Yaml.Scalar
import IslandPlots.Yaml.Property
import IslandPlots.Yaml.Scanner
import IslandPlots.Yaml.Node
import IslandPlots.Yaml.Integer
import IslandPlots.Disk.Path
import IslandPlots.Disk
import IslandPlots.Config.Problem
import IslandPlots.Config
import IslandPlots.Journal.Fault
import IslandPlots.Journal
import IslandPlots.Journal.Memory
import IslandPlots.Journal.File
import IslandPlots.Failure
import IslandPlots.Notice
import IslandPlots.Store
import IslandPlots.Pool
import IslandPlots.Allocator
import IslandPlots.Allocator.Open
import IslandPlots.Audit
import IslandPlots.Calendar
import IslandPlots.Diary
import IslandPlots.Command
import IslandPlots.Program
import IslandPlots.Main
import IslandPlots.Proofs.Allocator.Erasure
import IslandPlots.Proofs.Allocator.Holding
import IslandPlots.Proofs.Allocator.Restart
import IslandPlots.Proofs.Allocator.Reuse
import IslandPlots.Proofs.Journal.Detached
import IslandPlots.Proofs.Allocator.Turn
import IslandPlots.Proofs.Allocator.Quarantine
import IslandPlots.Proofs.Allocator.Twin
import IslandPlots.Proofs.Allocator.Forward
import IslandPlots.Proofs.Record.Misread
import IslandPlots.Proofs.Store.Compaction
import IslandPlots.Proofs.Store.Crash
import IslandPlots.Proofs.Spiral.Walk
import IslandPlots.Proofs.Journal.Sharing
import IslandPlots.Proofs.Journal.Extension
import IslandPlots.Proofs.Spiral.Outside
import IslandPlots.Proofs.Store.Format
import IslandPlots.Proofs.Allocator.Stretch
import IslandPlots.Proofs.Ledger.Outline
import IslandPlots.Proofs.Journal.Outline
import IslandPlots.Proofs.Store.Alike
import IslandPlots.Proofs.Allocator.Alike
import IslandPlots.Proofs.Journal.Writable
import IslandPlots.Proofs.Store.Stepwise
import IslandPlots.Proofs.Allocator.Refusals
import IslandPlots.Proofs.Ledger.Interleaving
import IslandPlots.Proofs.Store.Interleaving
import IslandPlots.Proofs.Ledger.Skipped
import IslandPlots.Proofs.Spiral.Ring
import IslandPlots.Proofs.Spiral.Step
import IslandPlots.Proofs.Store.Cleaned
import IslandPlots.Proofs.Record.Grammar
import IslandPlots.Proofs.Ledger.Balance
import IslandPlots.Proofs.Audit
import IslandPlots.Proofs.Calendar.Date
import IslandPlots.Proofs.Calendar.Moment
import IslandPlots.Proofs.Journal.Intrusion
import IslandPlots.Proofs.Allocator.First
