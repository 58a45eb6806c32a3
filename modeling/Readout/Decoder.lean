import Readout.Bitstring.Reading
import Readout.Coverage
import Readout.Naturals
import Readout.WordBank

/-!
# Decoders

A decoder cuts a bitstring of its width into fields. Each field reads its range as a binary number
and so chooses one word of its bank; `Decoder.encode` goes the other way and writes an index into
each field's range.
-/

namespace Readout

/-- A range of positions and the words it chooses from. -/
structure Field where
  range : BitRange
  bank : WordBank
  deriving DecidableEq

/-- Whether the first word bank reads the leftmost bits or the rightmost. -/
inductive BitOrder
  | highToLow
  | lowToHigh
  deriving DecidableEq

/-- Fields that read as many bits as their banks need and cover the bits of one width. -/
structure Decoder where
  width : Nat
  fields : List Field
  width_range : ∀ f ∈ fields, f.range.width = f.bank.indexBits
  covers : checkCoverage width (fields.map (·.range)) = .ok ()

/-- One field of a decoded bitstring. -/
structure ArtifactField where
  role : String
  index : Nat
  word : String
  deriving DecidableEq

/-- A bitstring with the words that its fields choose. -/
structure Artifact where
  key : Bitstring
  fields : List ArtifactField
  deriving DecidableEq

namespace Artifact

/-- The words, in the order of the fields. -/
def words (a : Artifact) : List String := a.fields.map (·.word)

/-- The word of the first field with a role. -/
def word? (a : Artifact) (role : String) : Option String :=
  (a.fields.find? fun f => f.role = role).map (·.word)

/-- The words, one on each line. -/
def text (a : Artifact) : String := String.intercalate "\n" a.words

end Artifact

/-- Writes bits over a list from a position on. Bits beyond the end of the list are dropped. -/
def overwrite : (position : Nat) → (new old : List Bool) → List Bool
  | _, _, [] => []
  | 0, [], old => old
  | 0, b :: new, _ :: old => b :: overwrite 0 new old
  | position + 1, new, b :: old => b :: overwrite position new old

namespace Decoder

/-- The decoder of a list of fields. The first field that does not fit its bank is refused before
the coverage is looked at. -/
def ofFields (width : Nat) (fields : List Field) : Except Error Decoder :=
  match hfind : fields.find? (fun f => f.range.width ≠ f.bank.indexBits) with
  | some f =>
    .error (.invalidBinding (.fieldWidth f.bank.role f.range.width f.bank.indexBits))
  | none =>
    match hcover : checkCoverage width (fields.map (·.range)) with
    | .error fault => .error (.invalidBinding fault)
    | .ok () =>
      .ok ⟨width, fields, fun f hf => by simpa using List.find?_eq_none.mp hfind f hf, hcover⟩

/-- Fields for the banks side by side, the first of them `offset` bits from the end that the order
starts at. -/
def fieldsFrom (order : BitOrder) (width offset : Nat) : List WordBank → List Field
  | [] => []
  | bank :: rest =>
    let start := match order with
      | .highToLow => offset
      | .lowToHigh => width - offset - bank.indexBits
    ⟨⟨start, bank.indexBits⟩, bank⟩ :: fieldsFrom order width (offset + bank.indexBits) rest

/-- The decoder that gives each bank as many bits as it needs, side by side. -/
def ofBanks (order : BitOrder) (banks : List WordBank) : Except Error Decoder :=
  let width := (banks.map (·.indexBits)).sum
  ofFields width (fieldsFrom order width 0 banks)

/-- Refuses a bitstring of another width. -/
def checkWidth (d : Decoder) (s : Bitstring) : Except Error Unit :=
  if s.width = d.width then .ok () else .error (.widthMismatch d.width s.width)

/-- The index that each field reads. -/
def indices (d : Decoder) (s : Bitstring) : Except Error (List Nat) :=
  match d.checkWidth s with
  | .error e => .error e
  | .ok () => d.fields.mapM fun f => s.slice f.range

/-- What one field reads. -/
def readField (s : Bitstring) (f : Field) : Except Error ArtifactField :=
  match s.slice f.range with
  | .error e => .error e
  | .ok index =>
    match f.bank.get index with
    | .error e => .error e
    | .ok word => .ok ⟨f.bank.role, index, word⟩

/-- What all fields read. -/
def decode (d : Decoder) (s : Bitstring) : Except Error Artifact :=
  match d.checkWidth s with
  | .error e => .error e
  | .ok () =>
    match d.fields.mapM (readField s) with
    | .error e => .error e
    | .ok fields => .ok ⟨s, fields⟩

/-- Writes indices into the ranges of the fields, field by field. -/
def writeFields (bits : List Bool) : List Field → List Nat → Except Error (List Bool)
  | f :: fields, index :: indices =>
    match f.bank.get index with
    | .error e => .error e
    | .ok _ =>
      match Bitstring.ofIndex index f.range.width with
      | .error e => .error e
      | .ok slice => writeFields (overwrite f.range.start slice.bits bits) fields indices
  | _, _ => .ok bits

/-- The bitstring whose fields read the given indices. -/
def encode (d : Decoder) (indices : List Nat) : Except Error Bitstring :=
  if indices.length ≠ d.fields.length then
    .error (.invalidBinding (.indexCount indices.length d.fields.length))
  else
    match writeFields (List.replicate d.width false) d.fields indices with
    | .error e => .error e
    | .ok bits =>
      match Bitstring.ofBits? bits with
      | some s => .ok s
      | none => .error (.invalidBitstring "")

/-- The decoder as text: a heading and a line for each field. -/
def text (d : Decoder) : String :=
  s!"Decoder ({d.width} bits):\n" ++ String.join (d.fields.map fun f =>
    s!"  {f.range.text} -> {f.bank.role} ({f.bank.size} entries)\n")

end Decoder

end Readout
