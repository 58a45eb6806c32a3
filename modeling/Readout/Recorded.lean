import Readout.CorrelationMatrix
import Readout.Experiment
import Readout.Poem

/-!
# Recorded results

Counts of circuits that were run. A Bell pair or a GHZ state was measured in 1024 shots. Outcomes
that never occurred may be left out.
-/

namespace Readout.Recorded

/-- A Bell pair measured in the Z basis. -/
def bellZ : List (String × Nat) :=
  [("00", 496), ("01", 14), ("10", 19), ("11", 495)]

/-- A Bell pair measured in the X basis. -/
def bellX : List (String × Nat) :=
  [("00", 488), ("01", 21), ("10", 17), ("11", 498)]

/-- A GHZ state of two qubits. -/
def ghz2 : List (String × Nat) :=
  [("00", 501), ("01", 9), ("10", 12), ("11", 502)]

/-- A GHZ state of three qubits. -/
def ghz3 : List (String × Nat) :=
  [("000", 478), ("001", 14), ("010", 11), ("011", 9), ("100", 13), ("101", 10), ("110", 27),
   ("111", 462)]

/-- A GHZ state of four qubits. -/
def ghz4 : List (String × Nat) :=
  [("0000", 431), ("0001", 17), ("0010", 12), ("0100", 15), ("0111", 11), ("1000", 19),
   ("1011", 9), ("1101", 13), ("1110", 22), ("1111", 475)]

/-- The poem circuit of nine qubits, three bits for each line, the first line in the high bits. -/
def poems : List (String × Nat) :=
  [("000000000", 79), ("000001000", 118), ("000011000", 46), ("000011010", 12),
   ("001000001", 219), ("001110001", 150), ("010001010", 111), ("010011101", 46),
   ("010101010", 31), ("010111010", 116), ("011001011", 112), ("011011011", 71),
   ("011011110", 91), ("100010100", 155), ("100100100", 38), ("100111100", 113),
   ("101010101", 89), ("101011101", 156), ("101100101", 100), ("110011110", 278),
   ("110100110", 129), ("110111110", 55), ("111001111", 60), ("111110111", 173),
   ("111111111", 32)]

/-- Joint counts of the first line (row) and the last line (column) of the poem circuit. -/
def linePairs : List (List Nat) :=
  [[487, 25, 14, 2, 21, 0, 2, 0],
   [25, 470, 18, 12, 3, 16, 1, 2],
   [14, 18, 492, 20, 2, 1, 15, 3],
   [2, 12, 20, 468, 1, 3, 2, 17],
   [21, 3, 2, 1, 479, 22, 13, 2],
   [0, 16, 1, 3, 22, 481, 2, 14],
   [2, 1, 15, 2, 13, 2, 474, 19],
   [0, 2, 3, 17, 2, 14, 19, 488]]

/-- The words of the first line. -/
def firstLines : List String :=
  ["cold qubits at rest",
   "a photon hesitates",
   "two spins share one breath",
   "the gate opens wide",
   "silence in the fridge",
   "a coin that never lands",
   "phases drift apart",
   "the readout glows green"]

/-- The words of the middle line. -/
def middleLines : List String :=
  ["both answers held in one hand",
   "noise hums through the copper lines",
   "the measurement waits its turn",
   "amplitudes fold into light",
   "a whisper crosses the chip",
   "every path is walked at once",
   "the ancilla keeps its watch",
   "entangled, they choose as one"]

/-- The words of the last line. -/
def lastLines : List String :=
  ["zero, and then still",
   "one bright certain bit",
   "the wave comes to rest",
   "a choice is recorded",
   "morning in the lab",
   "the pair agrees again",
   "noise takes what it will",
   "the poem is sampled"]

/-- The width of the index of one poem line. -/
def lineIndexBits : Nat := 3

/-- The Bell pair in the Z basis. -/
def bellZTable : Except Error DistributionTable := DistributionTable.ofCounts (some "DIST_Z") bellZ

/-- The Bell pair in the X basis. -/
def bellXTable : Except Error DistributionTable := DistributionTable.ofCounts (some "DIST_X") bellX

/-- The GHZ state of three qubits. -/
def ghz3Table : Except Error DistributionTable := DistributionTable.ofCounts (some "DIST_GHZ") ghz3

/-- The GHZ state of two, three or four qubits. -/
def ghzTable (qubits : Nat) : Except Error DistributionTable :=
  match qubits with
  | 2 => DistributionTable.ofCounts (some "DIST_GHZ_2") ghz2
  | 3 => ghz3Table
  | 4 => DistributionTable.ofCounts (some "DIST_GHZ_4") ghz4
  | _ => .error (.indexOutOfRange qubits 5 .qubitSweep)

/-- The Bell pair in both bases. -/
def bellTables : Except Error ExperimentCounts := do
  let z ← DistributionTable.ofCounts (some "bell/Z") bellZ
  let x ← DistributionTable.ofCounts (some "bell/X") bellX
  return .perBasis (.ofList [("Z", z), ("X", x)])

/-- The joint counts of the poem circuit. -/
def linePairMatrix : Except Error CorrelationMatrix := CorrelationMatrix.ofRows linePairs

/-- The outcomes of the poem circuit. -/
def poemTable : Except Error DistributionTable :=
  DistributionTable.ofCounts (some "DIST_POEM") poems

/-- The word banks of the three lines. -/
def lineBanks : Except Error (List WordBank) := do
  let first ← WordBank.ofList "line1" firstLines
  let middle ← WordBank.ofList "line2" middleLines
  let last ← WordBank.ofList "line3" lastLines
  return [first, middle, last]

/-- The recorded poems, the first line in the high bits. -/
def poemGenerator : Except Error PoemGenerator := do
  let banks ← lineBanks
  let decoder ← Decoder.ofBanks .highToLow banks
  let table ← poemTable
  let matrix ← linePairMatrix
  PoemGenerator.ofParts table decoder matrix

end Readout.Recorded
