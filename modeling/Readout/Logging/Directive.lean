import Readout.Text.Alphanumeric
import Readout.Text.Blank

/-!
# Log directives

A directive says from which level on something is logged: a target, or a span of a target in square
brackets, or both, and behind an equals sign a level. A directive without a level turns everything
on for its target, and one that is only a level holds for every target.
-/

namespace Readout.Logging

/-- The names of the levels. -/
def levelNames : List String := ["off", "error", "warn", "info", "debug", "trace"]

/-- Whether characters are a number that stands for a level: decimal digits, with a plus sign or
without, and a value below six. -/
def isLevelNumber (cs : List Char) : Bool :=
  let digits := if cs.head? = some '+' then cs.drop 1 else cs
  !digits.isEmpty && digits.all Char.isDigit &&
    decide (digits.foldl (fun n c => 10 * n + (c.toNat - '0'.toNat)) 0 < 6)

/-- Whether characters name a level, in capitals or not. None at all stand for the lowest. -/
def isLevel (cs : List Char) : Bool :=
  cs.isEmpty || levelNames.contains (String.ofList cs).toLower || isLevelNumber cs

/-- Whether a target may begin with a character. -/
def mayBegin (c : Char) : Bool := Text.isAlphanumeric c || c = '-' || c = ':' || c = '_'

/-- What stands behind a span with fields in braces, given what follows the opening brace. Between
the braces there has to be something; what it says is not looked into. -/
def behindFields? (cs : List Char) : Option (List Char) :=
  match cs.span (· != '\x7d') with
  | ([], _) => none
  | (_, _ :: ']' :: rest) => some rest
  | _ => none

/-- What stands behind a span, given what follows its opening bracket. -/
def behindSpan? (cs : List Char) : Option (List Char) :=
  match cs.dropWhile fun c => c != ']' && c != '\x7b' with
  | ']' :: rest => some rest
  | '\x7b' :: rest => behindFields? rest
  | _ => none

/-- What stands behind the target and the span of a directive. -/
def behindTarget? (cs : List Char) : Option (List Char) :=
  match cs with
  | [] => none
  | '[' :: rest => behindSpan? rest
  | c :: _ =>
    if mayBegin c then
      match cs.dropWhile fun c => c != '=' && c != '[' with
      | '[' :: rest => behindSpan? rest
      | rest => some rest
    else none

/-- Whether a directive can be read. Blanks may stand before it and behind it, but not if it has an
equals sign. -/
def isDirective (cs : List Char) : Bool :=
  match behindTarget? (cs.dropWhile Text.isBlank) with
  | none => false
  | some ('=' :: level) => !cs.head?.any Text.isBlank && isLevel level
  | some rest => rest.all Text.isBlank

/-- Whether every directive of a list with commas can be read. Between two commas there may be
nothing. -/
def isFilter (directives : String) : Bool :=
  (directives.splitOn ",").all fun d => d.isEmpty || isDirective d.toList

end Readout.Logging
