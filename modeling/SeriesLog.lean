import SeriesLog.Main
import SeriesLog.Proofs.Block.Codec
import SeriesLog.Proofs.Block.Sequence
import SeriesLog.Proofs.Cli.Operand
import SeriesLog.Proofs.Descriptor.Exact
import SeriesLog.Proofs.Reader.Crash
import SeriesLog.Proofs.Reader.Limits
import SeriesLog.Proofs.Reader.Samples
import SeriesLog.Proofs.Reader.Session
import SeriesLog.Proofs.Repair.Agreement
import SeriesLog.Proofs.Repair.Destination
import SeriesLog.Proofs.Repair.Failure
import SeriesLog.Proofs.Repair.Reserved
import SeriesLog.Proofs.Repair.Twice
import SeriesLog.Proofs.Scan.Concatenation
import SeriesLog.Proofs.Scan.DataBlocks
import SeriesLog.Proofs.Scan.Faults
import SeriesLog.Proofs.Scan.File
import SeriesLog.Proofs.Scan.Tiling
import SeriesLog.Proofs.Series.Identity
import SeriesLog.Proofs.Text.Preview
import SeriesLog.Proofs.Writer.Consistency
import SeriesLog.Proofs.Writer.Declaration
import SeriesLog.Proofs.Writer.FullSink
import SeriesLog.Proofs.Writer.Lookup
import SeriesLog.Proofs.Writer.Phases
import SeriesLog.Proofs.Writer.Position
import SeriesLog.Proofs.Writer.Redeclaration
import SeriesLog.Proofs.Writer.Rejection
import SeriesLog.Proofs.Writer.SealedFile
import SeriesLog.Proofs.Writer.Shapes
import SeriesLog.Reader.Messages
import SeriesLog.Reader.Samples
import SeriesLog.Writer.Messages
import SeriesLog.Writer.Run
