import BenchLedger.Disk.Course
import BenchLedger.Main
import BenchLedger.Proofs.Binary64.Nearest
import BenchLedger.Proofs.Ledger.Aggregation
import BenchLedger.Proofs.Binary64.RoundTrip
import BenchLedger.Proofs.Binary64.Rounding
import BenchLedger.Proofs.Binary64.Mean
import BenchLedger.Proofs.Ledger.Means
import BenchLedger.Proofs.Text.Fields
import BenchLedger.Proofs.Ledger.Grammar
import BenchLedger.Proofs.Ledger.RoundTrip
import BenchLedger.Proofs.RunLog.Sections
import BenchLedger.Proofs.Disk.Names
import BenchLedger.Proofs.Disk.Walk
import BenchLedger.Proofs.Disk.Replace
import BenchLedger.Proofs.Disk.ReadBack
import BenchLedger.Proofs.Ledger.Update
import BenchLedger.Proofs.Disk.Reach
import BenchLedger.Proofs.Disk.Vacant
import BenchLedger.Proofs.Disk.Endings
import BenchLedger.Proofs.Disk.Watched
import BenchLedger.Proofs.Disk.Rollback
import BenchLedger.Proofs.Disk.Placement
import BenchLedger.Proofs.Disk.Effect
import BenchLedger.Proofs.Disk.Readers
import BenchLedger.Proofs.Disk.Moved
import BenchLedger.Proofs.Ledger.Failure
import BenchLedger.Proofs.Ledger.Links
import BenchLedger.Proofs.RunLog.Blocks
import BenchLedger.Proofs.RunLog.Joined
import BenchLedger.Proofs.RunLog.History
import BenchLedger.Proofs.RunLog.SectionOrder
import BenchLedger.Proofs.Text.Quiet
import BenchLedger.Proofs.RunLog.RunText
import BenchLedger.Proofs.RunLog.Written
import BenchLedger.Proofs.RunLog.LineEnds
import BenchLedger.Proofs.RunLog.FirstRun
import BenchLedger.Proofs.RunLog.DigitRuns
import BenchLedger.Proofs.RunLog.Overflow
import BenchLedger.Proofs.RunLog.Statements
import BenchLedger.Proofs.RunLog.Verbatim
import BenchLedger.Proofs.CommandLine.Effects
import BenchLedger.Proofs.CommandLine.Notes
import BenchLedger.Proofs.CommandLine.Levels
import BenchLedger.Proofs.CommandLine.Tables
import BenchLedger.Proofs.RunLog.TwoReaders
import BenchLedger.Table.Writer
import BenchLedger.Proofs.Table.Rows
import BenchLedger.Proofs.Table.Columns
import BenchLedger.Proofs.Table.Titles
import BenchLedger.Proofs.Ledger.Repeats
import BenchLedger.Proofs.RunLog.Worst
import BenchLedger.Proofs.RunLog.Groups
import BenchLedger.Proofs.Binary64.Fewest
import BenchLedger.Proofs.Disk.Siblings
import BenchLedger.Proofs.Ledger.Points
