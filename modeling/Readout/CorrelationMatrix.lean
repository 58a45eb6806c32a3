import Readout.Error
import Readout.Naturals
import Readout.Sampling

/-!
# Joint counts and paired draws

A correlation matrix holds how often a first choice (its row) was recorded together with a last
choice (its column). Fixing one of the two and drawing the other from the matching line reproduces
the recorded correlation, noise included; equal indices mean that the correlation held.
-/

namespace Readout

/-- Joint counts: a square table that is not empty and whose total fits a word. -/
structure CorrelationMatrix where
  rows : List (List Nat)
  rows_ne_nil : rows ≠ []
  length_row : ∀ r ∈ rows, r.length = rows.length
  total_le : rows.flatten.sum ≤ maxWord
  deriving DecidableEq

/-- The line that a draw is made from: the fixed choice is the row or the column with an index. -/
inductive Axis
  | row (index : Nat)
  | column (index : Nat)
  deriving DecidableEq

/-- The direction of the line. -/
def Axis.kind : Axis → LineKind
  | row _ => .row
  | column _ => .column

/-- The fixed choice. -/
def Axis.index : Axis → Nat
  | row i => i
  | column j => j

/-- A pair of choices, one of them fixed and the other drawn. -/
structure CorrelatedDraw where
  first : Nat
  last : Nat
  /-- The joint count of the pair. -/
  weight : Nat
  /-- The sum of the line that the draw was made from. -/
  lineTotal : Nat
  /-- Whether the line was empty, so that the fixed index stands on both sides. -/
  fallback : Bool
  deriving DecidableEq

/-- Whether both choices are the same. -/
def CorrelatedDraw.held (d : CorrelatedDraw) : Bool := d.first == d.last

/-- The share of the line that the pair has. -/
def CorrelatedDraw.probability (α : Type) [Arithmetic α] (d : CorrelatedDraw) : α :=
  Arithmetic.share α d.weight d.lineTotal

namespace CorrelationMatrix

/-- The matrix of a list of rows. A row of the wrong length is refused before the total is looked
at. Room for as many cells as the square of the number of rows is taken for granted; how many there
can be room for, and that the rows are not looked at where there is too little, is left out. -/
def ofRows (rows : List (List Nat)) : Except Error CorrelationMatrix :=
  if hne : rows = [] then .error (.invalidMatrix .noRows)
  else
    match hfind : rows.zipIdx.find? (fun r => r.1.length ≠ rows.length) with
    | some (row, i) => .error (.invalidMatrix (.notSquare i row.length rows.length))
    | none =>
      if hle : rows.flatten.sum ≤ maxWord then
        .ok ⟨rows, hne, fun r hr => by
          obtain ⟨i, hi, rfl⟩ := List.getElem_of_mem hr
          have hmem : (rows[i], i) ∈ rows.zipIdx := by
            rw [List.mem_zipIdx_iff_getElem?]
            exact List.getElem?_eq_getElem hi
          simpa using List.find?_eq_none.mp hfind _ hmem, hle⟩
      else .error (.invalidMatrix .totalTooLarge)

/-- The number of rows, which is the number of columns. -/
def size (m : CorrelationMatrix) : Nat := m.rows.length

/-- A cell. -/
def get? (m : CorrelationMatrix) (row column : Nat) : Option Nat := do
  let cells ← m.rows[row]?
  cells[column]?

/-- The cells of a column, from the first row on. -/
def cellsOfColumn (m : CorrelationMatrix) (j : Nat) : List Nat := m.rows.map fun r => r.getD j 0

/-- A row. -/
def row (m : CorrelationMatrix) (i : Nat) : Except Error (List Nat) :=
  match m.rows[i]? with
  | some cells => .ok cells
  | none => .error (.indexOutOfRange i m.size (.matrixLine .row))

/-- A column. -/
def column (m : CorrelationMatrix) (j : Nat) : Except Error (List Nat) :=
  if j < m.size then .ok (m.cellsOfColumn j)
  else .error (.indexOutOfRange j m.size (.matrixLine .column))

/-- The sum of a row. -/
def rowTotal (m : CorrelationMatrix) (i : Nat) : Except Error Nat := (m.row i).map List.sum

/-- The sum of a column. -/
def columnTotal (m : CorrelationMatrix) (j : Nat) : Except Error Nat := (m.column j).map List.sum

/-- The sum of all cells. -/
def total (m : CorrelationMatrix) : Nat := m.rows.flatten.sum

/-- The sum of the cells on the diagonal. -/
def diagonalTotal (m : CorrelationMatrix) : Nat :=
  ((List.range m.size).map fun i => (m.get? i i).getD 0).sum

/-- The share of the recorded pairs in which the correlation held. -/
def heldShare (α : Type) [Arithmetic α] (m : CorrelationMatrix) : α :=
  Arithmetic.share α m.diagonalTotal m.total

/-- The line of an axis. -/
def line (m : CorrelationMatrix) : Axis → Except Error (List Nat)
  | .row i => m.row i
  | .column j => m.column j

/-- Whether rows and columns agree; each cell below the diagonal is compared with the one across
it. -/
def isSymmetric (m : CorrelationMatrix) : Bool :=
  (List.range m.size).all fun i => (List.range i).all fun j => m.get? i j == m.get? j i

/-- The first row or column without counts; of one index the row comes first. -/
def emptyLine? (m : CorrelationMatrix) : Option (LineKind × Nat) :=
  (List.range m.size).findSome? fun i =>
    if (m.rows.getD i []).sum = 0 then some (.row, i)
    else if (m.cellsOfColumn i).sum = 0 then some (.column, i)
    else none

/-- Refuses a matrix that has a row or a column without counts. -/
def checkPositiveLines (m : CorrelationMatrix) : Except Error Unit :=
  match m.emptyLine? with
  | some (kind, i) => .error (.invalidMatrix (.emptyLine kind i))
  | none => .ok ()

/-- Draws the other side of a pair from the line of the fixed one. An empty line takes no word and
gives the fixed index on both sides. -/
def drawAlong (α : Type) [Arithmetic α] (m : CorrelationMatrix) (axis : Axis) (s : WordStream) :
    Except Error CorrelatedDraw × WordStream :=
  match m.line axis with
  | .error e => (.error e, s)
  | .ok line =>
    let (index, rest) := drawIndex α line line.sum s
    let drawn := index.getD axis.index
    let weight := line.getD drawn 0
    match axis with
    | .row i => (.ok ⟨i, drawn, weight, line.sum, index.isNone⟩, rest)
    | .column j => (.ok ⟨drawn, j, weight, line.sum, index.isNone⟩, rest)

/-- A number with blanks in front of it up to a width. -/
def padLeft (width n : Nat) : String :=
  let digits := toString n
  String.ofList (List.replicate (width - digits.length) ' ') ++ digits

/-- The matrix as text: a line for each row, the cells five characters wide. -/
def text (m : CorrelationMatrix) : String :=
  String.join (m.rows.map fun r => String.intercalate " " (r.map (padLeft 5)) ++ "\n")

end CorrelationMatrix

end Readout
