import Readout.Logging.Directive

/-!
# Logging settings

What is logged is chosen by a list of directives. Only one log can be installed in a process.
-/

namespace Readout.Logging

/-- How a log is set up. -/
structure Settings where
  /-- Directives that were asked for. -/
  directives : Option String
  /-- The directive where none were asked for. -/
  defaultDirective : String
  /-- Whether targets are shown. -/
  targets : Bool
  /-- Whether colours are used. -/
  ansi : Bool
  deriving DecidableEq

namespace Settings

/-- Everything from the level of information on, with targets and colours. -/
def standard : Settings := ⟨none, "info", true, true⟩

/-- Plain output of everything from the level of debugging on. -/
def forTests : Settings := { standard with defaultDirective := "debug", ansi := false }

end Settings

/-- Why a log is not installed. -/
inductive Error
  | invalidFilter (directives : String)
  | alreadyInstalled
  deriving DecidableEq

namespace Error

/-- The beginning of the message, which tells the two cases apart. -/
def opening : Error → String
  | invalidFilter _ => "invalid tracing directive: "
  | alreadyInstalled => "failed to install tracing subscriber: "

/-- What the message says behind its opening. -/
def detail : Error → String
  | invalidFilter directives => directives
  | alreadyInstalled => "a global default trace dispatcher has already been set"

/-- The message. -/
def message (e : Error) : String := e.opening ++ e.detail

/-- Whether another error lies behind this one. -/
def hasSource : Error → Bool
  | invalidFilter _ => false
  | alreadyInstalled => true

end Error

/-- Installs a log, where `installed` says whether there is one already. Directives that cannot be
read are refused first. -/
def install (installed : Bool) (settings : Settings) : Except Error Unit :=
  match settings.directives with
  | some directives =>
    if isFilter directives then if installed then .error .alreadyInstalled else .ok ()
    else .error (.invalidFilter directives)
  | none => if installed then .error .alreadyInstalled else .ok ()

/-- Installs a log, or leaves the one that is there. -/
def ensureInstalled (installed : Bool) (settings : Settings) : Except Error Unit :=
  match install installed settings with
  | .error .alreadyInstalled => .ok ()
  | outcome => outcome

end Readout.Logging
