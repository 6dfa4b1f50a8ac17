import DiffSections.Main
import DiffSections.Proofs.Reader.Moves
import DiffSections.Proofs.Reader.Runs
import DiffSections.Proofs.Reader.Locality
import DiffSections.Proofs.Reader.BodyLines
import DiffSections.Proofs.Reader.Alike
import DiffSections.Proofs.Reader.Respelled
import DiffSections.Proofs.Reader.Faults
import DiffSections.Proofs.Reader.Continues
import DiffSections.Proofs.Reader.Extension
import DiffSections.Proofs.Conservation
import DiffSections.Proofs.Lookahead
import DiffSections.Proofs.Hunk.Body
import DiffSections.Proofs.Section
import DiffSections.Proofs.HunkAccounting
import DiffSections.Proofs.Bytes
import DiffSections.Proofs.Checked
import DiffSections.Proofs.Text.Utf8
import DiffSections.Proofs.Hunk.Header
import DiffSections.Proofs.Header
import DiffSections.Proofs.Path.Boundary
import DiffSections.Proofs.Writer
import DiffSections.Proofs.Writer.Hunk
import DiffSections.Proofs.RoundTrip
import DiffSections.Proofs.BodyText
import DiffSections.Proofs.SelfContained
import DiffSections.Proofs.SectionStarts
import DiffSections.Proofs.Concatenation
import DiffSections.Proofs.FailFast
import DiffSections.Proofs.ViablePrefix
import DiffSections.Proofs.LastLine
import DiffSections.Proofs.LineEnds
import DiffSections.Proofs.Path.Slices
import DiffSections.Proofs.Loop.Builder
import DiffSections.Proofs.Loop.Registers
import DiffSections.Proofs.Loop.Simulation
import DiffSections.Proofs.Loop.Sound
import DiffSections.Proofs.Header.Lines
import DiffSections.Proofs.Header.Effect
import DiffSections.Proofs.HeaderOrder
import DiffSections.Proofs.Header.Sound
import DiffSections.Proofs.Reader.Records
import DiffSections.Proofs.Reader.Headers
import DiffSections.Proofs.Consistency
import DiffSections.Proofs.Hunk.Lines
import DiffSections.Proofs.SharedText
import DiffSections.Proofs.Settings
import DiffSections.Proofs.Input
import DiffSections.Proofs.Stages
import DiffSections.Proofs.Path.Spelling
import DiffSections.Proofs.Path.BoundaryForms
import DiffSections.Proofs.Header.Edit
import DiffSections.Proofs.Header.Grammar
import DiffSections.Proofs.Text.LineFeed
import DiffSections.Proofs.Path.Source
import DiffSections.Proofs.Reader.Paths
import DiffSections.Proofs.ReportLines
import DiffSections.Proofs.Hunk.Grammar
import DiffSections.Proofs.Hunk.Markers
import DiffSections.Proofs.Markers
import DiffSections.Proofs.Path.Decoding
import DiffSections.Proofs.Loop.Calls
import DiffSections.Proofs.LineIndex
import DiffSections.Proofs.LineContent
import DiffSections.Proofs.Loop.Turns
import DiffSections.Proofs.Histogram
import DiffSections.Proofs.Totals
