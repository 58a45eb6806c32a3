import Readout.CorrelationMatrix
import Readout.Decoder
import Readout.Ranking

/-!
# Poems

A poem has three lines, each a word of a three-field decoder. Recorded outcomes give whole poems;
the first and the last line can also be drawn as a pair from joint counts, with the middle line
given.
-/

namespace Readout

/-- A decoded poem with the recorded count of its outcome and the total of the table. -/
structure Poem where
  artifact : Artifact
  count : Nat
  total : Nat
  deriving DecidableEq

namespace Poem

/-- The outcome that reads as the poem. -/
def key (p : Poem) : Bitstring := p.artifact.key

/-- The lines. -/
def lines (p : Poem) : List String := p.artifact.words

/-- The recorded share of the poem. -/
def probability (α : Type) [Arithmetic α] (p : Poem) : α := Arithmetic.share α p.count p.total

/-- The lines and below them the outcome with its count. -/
def text (p : Poem) : String :=
  p.artifact.text ++ s!"\n  -- |{p.key.text}>, {p.count}/{p.total} shots"

end Poem

/-- A poem whose first and last lines were drawn as a pair. -/
structure CorrelatedPoem where
  artifact : Artifact
  draw : CorrelatedDraw
  deriving DecidableEq

/-- The lines and below them whether the last one agrees with the first. -/
def CorrelatedPoem.text (p : CorrelatedPoem) : String :=
  let verdict := if p.draw.held then "correlation held" else "noise broke the correlation"
  p.artifact.text ++ s!"\n  -- {verdict} ({p.draw.first} -> {p.draw.last})"

/-- Recorded poems, a decoder of three lines, and joint counts of the first and the last. The
weights are those of the table, kept for drawing. -/
structure PoemGenerator where
  table : DistributionTable
  weights : List Nat
  decoder : Decoder
  matrix : CorrelationMatrix
  weights_eq : weights = table.weights
  width_eq : table.width = decoder.width
  first : Field
  middle : Field
  last : Field
  fields_eq : decoder.fields = [first, middle, last]
  size_first : first.bank.size = matrix.size
  size_last : last.bank.size = matrix.size

namespace PoemGenerator

/-- The fault of a word bank that does not fit the joint counts. -/
def lineBankFault (f : Field) (m : CorrelationMatrix) : Error :=
  .invalidBinding (.lineBankSize f.bank.role f.bank.size m.size)

/-- Puts a table, a decoder and joint counts together, if they fit each other. -/
def ofParts (table : DistributionTable) (decoder : Decoder) (matrix : CorrelationMatrix) :
    Except Error PoemGenerator :=
  if hwidth : table.width = decoder.width then
    match hfields : decoder.fields with
    | [first, middle, last] =>
      if hfirst : first.bank.size = matrix.size then
        if hlast : last.bank.size = matrix.size then
          .ok ⟨table, table.weights, decoder, matrix, rfl, hwidth, first, middle, last, hfields,
            hfirst, hlast⟩
        else .error (lineBankFault last matrix)
      else .error (lineBankFault first matrix)
    | fields => .error (.invalidBinding (.lineCount fields.length))
  else .error (.widthMismatch decoder.width table.width)

/-- The poem of a sample. -/
def poemOfSample (g : PoemGenerator) (sample : Sample) : Except Error Poem :=
  match g.decoder.decode sample.key with
  | .error e => .error e
  | .ok artifact => .ok ⟨artifact, sample.count, sample.total⟩

/-- The poem of an outcome, recorded or not. -/
def poemOfKey (g : PoemGenerator) (key : Bitstring) : Except Error Poem :=
  g.poemOfSample ⟨key, g.table.count key, g.table.total⟩

/-- Draws a recorded outcome and reads it as a poem. -/
def draw (α : Type) [Arithmetic α] (g : PoemGenerator) (s : WordStream) :
    Except Error Poem × WordStream :=
  let (sample, rest) := g.table.sampleBy α g.weights s
  (g.poemOfSample sample, rest)

/-- The poem of a pair and a middle line. -/
def poemOfDraw (g : PoemGenerator) (d : CorrelatedDraw) (middle : Nat) :
    Except Error CorrelatedPoem :=
  match g.decoder.encode [d.first, middle, d.last] with
  | .error e => .error e
  | .ok key =>
    match g.decoder.decode key with
    | .error e => .error e
    | .ok artifact => .ok ⟨artifact, d⟩

/-- Fixes the first line (a row) or the last (a column), draws the other one, and takes the middle
line as given. -/
def drawCorrelated (α : Type) [Arithmetic α] (g : PoemGenerator) (axis : Axis) (middle : Nat)
    (s : WordStream) : Except Error CorrelatedPoem × WordStream :=
  match g.matrix.drawAlong α axis s with
  | (.error e, rest) => (.error e, rest)
  | (.ok d, rest) => (g.poemOfDraw d middle, rest)

/-- The `n` most frequent poems with their places. -/
def ranking (g : PoemGenerator) (n : Nat) : Except Error (List (RankedEntry × Poem)) :=
  (g.table.ranking n).mapM fun entry => (g.poemOfKey entry.key).map fun poem => (entry, poem)

end PoemGenerator

end Readout
