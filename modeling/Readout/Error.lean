import Readout.BitRange
import Readout.Text.Quoted

/-!
# Errors

Every way in which recorded data or the wiring of a decoder can be refused, as causes that carry the
numbers and names they are about. `Error.message` is the one place where they are put into words.
Each family of causes ends in `stated`, the cause that a caller gives in words of its own.
-/

namespace Readout

/-- Why a table of counts is refused. -/
inductive TableFault
  | mixedWidth (key : String) (width tableWidth : Nat)
  | duplicateKey (key : String)
  | noEntries
  | totalTooLarge
  | allZero
  | stated (text : String)
  deriving DecidableEq

/-- Why bit ranges, fields or word banks do not fit together. -/
inductive BindingFault
  | noWidth
  | emptyRange (start : Nat)
  | overlap (range : BitRange)
  | unbound (first stop : Nat)
  | overrun (covered width : Nat)
  | rangeTooWide (range : BitRange)
  | bankSize (role : String) (size : Nat)
  | fieldWidth (role : String) (width needed : Nat)
  | indexCount (given fields : Nat)
  | lineCount (fields : Nat)
  | lineBankSize (role : String) (size lines : Nat)
  | stated (text : String)
  deriving DecidableEq

/-- The two directions in which a square table is read. -/
inductive LineKind
  | row
  | column
  deriving DecidableEq

/-- Why a square table of joint counts is refused. -/
inductive MatrixFault
  | noRows
  | notSquare (row columns size : Nat)
  | totalTooLarge
  | emptyLine (kind : LineKind) (index : Nat)
  | stated (text : String)
  deriving DecidableEq

/-- Why a document is not a record of counts. -/
inductive DocumentFault
  | notJson (label : String)
  | wrongShape (label : String)
  | noBases (label : String)
  | stated (text : String)
  deriving DecidableEq

/-- What an index was looked up in. -/
inductive Place
  | bitstringOfWidth (width : Nat)
  | wordBank (role : String)
  | matrixLine (kind : LineKind)
  | qubitSweep
  | stated (text : String)
  deriving DecidableEq

/-- A refusal. -/
inductive Error
  | malformedTable (label : Option String) (fault : TableFault)
  | invalidBitstring (input : String)
  | widthMismatch (expected found : Nat)
  | invalidBinding (fault : BindingFault)
  | indexOutOfRange (index size : Nat) (place : Place)
  | invalidMatrix (fault : MatrixFault)
  | ingestion (fault : DocumentFault)
  deriving DecidableEq

/-- The cause in words. -/
def TableFault.message : TableFault → String
  | mixedWidth key width tableWidth =>
    s!"key '{key}' has {width} bits but the table uses {tableWidth}"
  | duplicateKey key => s!"duplicate key '{key}'"
  | noEntries => "table has no entries"
  | totalTooLarge => "shot total overflows u64"
  | allZero => "all counts are zero"
  | stated text => text

/-- The cause in words. -/
def BindingFault.message : BindingFault → String
  | noWidth => "decoder width must be positive"
  | emptyRange start => s!"bit range starting at {start} is empty"
  | overlap range => s!"bit range {range.text} overlaps a previous field"
  | unbound first stop => s!"bits [{first}..{stop}) are not bound to any field"
  | overrun covered width => s!"fields cover {covered} bits but the bitstring has {width}"
  | rangeTooWide range => s!"bit range {range.text} is too wide to index into a word bank"
  | bankSize role size => s!"word bank '{role}' has {size} entries, expected a power of two >= 2"
  | fieldWidth role width needed =>
    s!"field '{role}' reads {width} bits but its word bank needs {needed}"
  | indexCount given fields => s!"{given} indices given for {fields} fields"
  | lineCount fields => s!"a poem needs 3 lines, decoder has {fields} fields"
  | lineBankSize role size lines =>
    s!"word bank '{role}' has {size} entries but the correlation matrix is {lines}x{lines}"
  | stated text => text

/-- The word for the direction. -/
def LineKind.name : LineKind → String
  | row => "row"
  | column => "column"

/-- The cause in words. -/
def MatrixFault.message : MatrixFault → String
  | noRows => "matrix has no rows"
  | notSquare row columns size => s!"row {row} has {columns} columns, expected {size}"
  | totalTooLarge => "matrix counts overflow u64"
  | emptyLine kind index => s!"{kind.name} {index} has no recorded counts"
  | stated text => text

/-- The cause in words. -/
def DocumentFault.message : DocumentFault → String
  | notJson label => s!"'{label}' is neither a flat nor a per-basis count map: <json>"
  | wrongShape label =>
    s!"'{label}' is neither a flat nor a per-basis count map: " ++
      "data did not match any variant of untagged enum RawCounts"
  | noBases label => s!"'{label}' has no bases"
  | stated text => text

/-- The place in words. -/
def Place.name : Place → String
  | bitstringOfWidth width => s!"{width}-bit bitstring"
  | wordBank role => s!"word bank '{role}'"
  | matrixLine kind => s!"correlation matrix {kind.name}"
  | qubitSweep => "GHZ qubit sweep (2..=4)"
  | stated text => text

/-- The refusal in words. -/
def Error.message : Error → String
  | malformedTable (some label) fault => s!"Malformed Table '{label}': {fault.message}"
  | malformedTable none fault => s!"Malformed Table: {fault.message}"
  | invalidBitstring input =>
    s!"Invalid Bitstring: {Text.quoted input} is not a non-empty string of 0/1"
  | widthMismatch expected found => s!"Width Mismatch: expected {expected} bits, found {found}"
  | invalidBinding fault => s!"Invalid Binding: {fault.message}"
  | indexOutOfRange index size place =>
    s!"Index Out Of Range ({place.name}): index {index} but only {size} entries"
  | invalidMatrix fault => s!"Invalid Matrix: {fault.message}"
  | ingestion fault => s!"Ingestion Error: {fault.message}"

end Readout
