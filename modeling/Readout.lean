import Readout.Arithmetic
import Readout.Binary
import Readout.Bisection
import Readout.BitRange
import Readout.Bitstring.Basic
import Readout.Bitstring.Reading
import Readout.Chord
import Readout.CorrelationMatrix
import Readout.Coverage
import Readout.Decimal.Fixed
import Readout.Decimal.Percent
import Readout.Decoder
import Readout.DistributionTable
import Readout.Duration
import Readout.Error
import Readout.Experiment
import Readout.Fit
import Readout.Json.Basic
import Readout.Json.Numeral
import Readout.Json.Reader
import Readout.Logging
import Readout.Logging.Directive
import Readout.Naturals
import Readout.OrderedMap
import Readout.Playback
import Readout.Poem
import Readout.Ranking
import Readout.Recorded
import Readout.Report
import Readout.Sampling
import Readout.Scale
import Readout.Sonification
import Readout.Text.Alphanumeric
import Readout.Text.Blank
import Readout.Text.Quoted
import Readout.Text.Ranges
import Readout.Text.Unprintable
import Readout.Timeline
import Readout.Word
import Readout.WordBank
import Readout.WordStream
import Readout.Proofs.Lists
import Readout.Proofs.WordSums
import Readout.Proofs.Rationals
import Readout.Proofs.BitSlices
import Readout.Proofs.Overlap
import Readout.Proofs.Decoder.Acceptance
import Readout.Proofs.Decoder.RoundTrip
import Readout.Proofs.Decoder.FieldOrder
import Readout.Proofs.Decoder.Locality
import Readout.Proofs.Draw.Proportion
import Readout.Proofs.Draw.Support
import Readout.Proofs.Draw.Histograms
import Readout.Proofs.Draw.ZeroCounts
import Readout.Proofs.Fit.Divisions
import Readout.Proofs.Fit.ClosedForm
import Readout.Proofs.Draw.Inversion
import Readout.Proofs.Matrix.Lines
import Readout.Proofs.Matrix.PairedDraw
import Readout.Proofs.Decoder.Decoding
import Readout.Proofs.Poem.PairedPoem
import Readout.Proofs.Playback.Families
import Readout.Proofs.Playback.TaskLists
import Readout.Proofs.Playback.Sounding
import Readout.Proofs.Bitstring.Texts
import Readout.Proofs.Bitstring.Slices
import Readout.Proofs.Bitstring.Numerals
import Readout.Proofs.Bitstring.NumericOrder
import Readout.Proofs.Bitstring.SetPositions
import Readout.Proofs.Table.Acceptance
import Readout.Proofs.Table.Lookup
import Readout.Proofs.Table.Refusals
import Readout.Proofs.Table.Ranking
import Readout.Proofs.Matrix.Transpose
import Readout.Proofs.Matrix.Sums
import Readout.Proofs.Matrix.EmptyLines
import Readout.Proofs.Matrix.Diagonal
import Readout.Proofs.Timeline.Sequence
import Readout.Proofs.Sonification.DrawnSounds
import Readout.Proofs.Sonification.Pitches
import Readout.Proofs.Sonification.Loudness
import Readout.Proofs.Json.Counts
import Readout.Proofs.Text.ByteOrder
import Readout.Proofs.Experiment.Shape
import Readout.Proofs.Experiment.ByShape
import Readout.Proofs.Experiment.MemberOrder
import Readout.Proofs.Experiment.RepeatedNames
import Readout.Proofs.Decoder.SideBySide
import Readout.Proofs.Poem.Calls
