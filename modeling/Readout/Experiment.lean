import Readout.DistributionTable
import Readout.Json.Reader

/-!
# Recorded experiments

An experiment was measured in one basis or in several. Its document says which by its shape alone:
an object of counts is one histogram, and an object of such objects is one histogram for each basis.
Names are put into ascending order before any table is made, and of two members with one name the
later stays.
-/

namespace Readout

/-- The tables of one experiment. -/
inductive ExperimentCounts
  | flat (table : DistributionTable)
  | perBasis (tables : OrderedMap String DistributionTable)
  deriving DecidableEq

/-- The counts of a document, sorted by name, before any name was read as an outcome. -/
inductive RawCounts
  | flat (counts : OrderedMap String Nat)
  | perBasis (bases : OrderedMap String (OrderedMap String Nat))
  deriving DecidableEq

namespace RawCounts

/-- An object of counts. -/
def countMap? (document : Json) : Option (OrderedMap String Nat) :=
  (document.membersBy? Json.count?).map OrderedMap.ofList

/-- The counts of a document that has one of the two shapes. -/
def ofJson? (document : Json) : Option RawCounts :=
  match countMap? document with
  | some counts => some (.flat counts)
  | none => (document.membersBy? countMap?).map fun bases => .perBasis (OrderedMap.ofList bases)

/-- Makes the tables of the bases in order and adds them to those made before. -/
def addTables (label : String) (made : OrderedMap String DistributionTable) :
    List (String × OrderedMap String Nat) → Except Error (OrderedMap String DistributionTable)
  | [] => .ok made
  | (basis, counts) :: rest =>
    match DistributionTable.ofCounts (some (label ++ "/" ++ basis)) counts.entries with
    | .error e => .error e
    | .ok table => addTables label (made.insert basis table) rest

/-- The tables under a label; those of several bases bear the name of the basis behind it. -/
def toExperiment (label : String) : RawCounts → Except Error ExperimentCounts
  | flat counts => (DistributionTable.ofCounts (some label) counts.entries).map .flat
  | perBasis bases =>
    if bases.entries = [] then .error (.ingestion (.noBases label))
    else (addTables label ∅ bases.entries).map .perBasis

end RawCounts

namespace ExperimentCounts

/-- The tables of a document. The shape is looked at before anything behind the first value. -/
def ofText (label text : String) : Except Error ExperimentCounts :=
  match Json.readFirst text with
  | none => .error (.ingestion (.notJson label))
  | some (document, rest) =>
    match RawCounts.ofJson? document with
    | none => .error (.ingestion (.wrongShape label))
    | some raw =>
      if rest.all Json.isBlank then raw.toExperiment label
      else .error (.ingestion (.notJson label))

/-- The table of an experiment in one basis. -/
def flat? : ExperimentCounts → Option DistributionTable
  | flat table => some table
  | perBasis _ => none

/-- The table of a basis. -/
def basis? (c : ExperimentCounts) (basis : String) : Option DistributionTable :=
  match c with
  | flat _ => none
  | perBasis tables => tables.get? basis

/-- The names of the bases, ascending; none where only one basis was measured. -/
def bases : ExperimentCounts → List String
  | flat _ => []
  | perBasis tables => tables.keys

end ExperimentCounts

end Readout
