import LogGuard.Main
import LogGuard.Proofs.Import.Insertion
import LogGuard.Proofs.Import.Duplicate
import LogGuard.Proofs.Import.Intact
import LogGuard.Proofs.Glob.Stem
import LogGuard.Proofs.Path.Relative
import LogGuard.Proofs.Run.Deduplication
import LogGuard.Proofs.Run.Prediction
import LogGuard.Proofs.Run.Rerun
import LogGuard.Proofs.Run.SafetyModule
import LogGuard.Proofs.Settings.ModuleName
import LogGuard.Proofs.Run.Exclusion
import LogGuard.Proofs.Run.Frame
import LogGuard.Proofs.Run.Interruption
import LogGuard.Proofs.Import.Resolution
import LogGuard.Proofs.Run.Isolation
import LogGuard.Proofs.Command.Format
import LogGuard.Proofs.Command.StrictCheck
import LogGuard.Proofs.Call.Occurrence
import LogGuard.Proofs.Run.Accounting
import LogGuard.Proofs.Report.Reading
import LogGuard.Proofs.Run.Rearrangement
import LogGuard.Proofs.Import.Braces
import LogGuard.Proofs.Import.LineEnding
import LogGuard.Proofs.Import.ByteOrderMark
import LogGuard.Proofs.Call.Enumeration
import LogGuard.Proofs.Import.Succession
import LogGuard.Proofs.FileSystem.WalkOrder
import LogGuard.Proofs.Run.CandidateOrder
import LogGuard.Proofs.FileSystem.NewFile
import LogGuard.Proofs.FileSystem.Atomic
import LogGuard.Proofs.Import.Demand
import LogGuard.Proofs.Run.Extensions
import LogGuard.Proofs.Call.Gaps
import LogGuard.Proofs.Call.Lines
import LogGuard.Proofs.Call.LineEnding
