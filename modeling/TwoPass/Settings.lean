import TwoPass.Text.Blank
import TwoPass.Text.Numeral

/-!
Settings of a run. The ranges that every use relies on are part of the type, so settings
change only through `Settings.update?`, which refuses what is out of range.
-/
namespace TwoPass

open Text

/-- How a program is read and written. -/
structure Settings where
  /-- The program's name in the object program. -/
  programName : String := "PROG"
  /-- The most bytes of object code in one text record. -/
  capacity : Nat := 30
  /-- What a comment line begins with. -/
  commentMarker : String := "."
  /-- What stands in place of a label where there is none. -/
  placeholder : String := "-"
  /-- Whether the label of START names the program. -/
  nameFromLabel : Bool := false
  /-- Whether undefined and duplicate symbols are errors. -/
  strict : Bool := false
  /-- The number of errors that ends a run. -/
  errorLimit : Nat := 100
  capacity_pos : 0 < capacity := by decide
  capacity_le : capacity ≤ 255 := by decide
  errorLimit_pos : 0 < errorLimit := by decide
  deriving DecidableEq, Repr

/-- Why settings are refused. -/
inductive SettingsFault
  | capacity (value : Int)
  | errorLimit (value : Int)
  deriving DecidableEq, Repr

def SettingsFault.message : SettingsFault → String
  | .capacity value => "text record capacity must be between 1 and 255 bytes, got " ++ toString value
  | .errorLimit value => "max_errors must be positive, got " ++ toString value

/-- New values for some of the settings. -/
structure SettingsChange where
  programName : Option String := none
  capacity : Option Int := none
  commentMarker : Option String := none
  placeholder : Option String := none
  nameFromLabel : Option Bool := none
  strict : Option Bool := none
  errorLimit : Option Int := none

namespace Settings

/-- The settings with new values, if the capacity and the error limit are in range. -/
def update? (settings : Settings) (change : SettingsChange) : Except SettingsFault Settings :=
  let capacity := change.capacity.getD settings.capacity
  let errorLimit := change.errorLimit.getD settings.errorLimit
  if fits : 1 ≤ capacity ∧ capacity ≤ 255 then
    if positive : 1 ≤ errorLimit then
      .ok
        { programName := change.programName.getD settings.programName
          capacity := capacity.toNat
          commentMarker := change.commentMarker.getD settings.commentMarker
          placeholder := change.placeholder.getD settings.placeholder
          nameFromLabel := change.nameFromLabel.getD settings.nameFromLabel
          strict := change.strict.getD settings.strict
          errorLimit := errorLimit.toNat
          capacity_pos := by omega
          capacity_le := by omega
          errorLimit_pos := by omega }
    else .error (.errorLimit errorLimit)
  else .error (.capacity capacity)

/-- The settings with new values, or as they are if a value is refused. -/
def updateIfValid (settings : Settings) (change : SettingsChange) : Settings :=
  match settings.update? change with
  | .ok changed => changed
  | .error _ => settings

/-- The words that switch a setting on. -/
def isAffirmative (text : String) : Bool :=
  ["1", "true", "yes"].contains (String.ofList ((trimBlanks text.toList).map Char.toLower))

/-- The integer that a text denotes, if it denotes one. -/
def readInt? (text : String) : Option Int :=
  (readInt .ten text).toOption

/-- The variables of an environment that change settings. -/
def variableNames : List String :=
  ["SICASM_PROGRAM_NAME", "SICASM_TEXT_RECORD_CAPACITY", "SICASM_STRICT", "SICASM_NAME_FROM_START_LABEL",
    "SICASM_MAX_ERRORS"]

/-- The settings that an environment asks for. Empty variables count as absent, and
    numbers that are malformed or out of range are passed over. -/
def ofEnvironment (lookup : String → Option String) : Settings :=
  let value? := fun name => (lookup name).filter (!·.isEmpty)
  let settings : Settings := {}
  let settings := settings.updateIfValid { programName := value? "SICASM_PROGRAM_NAME" }
  let settings := settings.updateIfValid { capacity := (value? "SICASM_TEXT_RECORD_CAPACITY").bind readInt? }
  let settings := settings.updateIfValid { strict := (value? "SICASM_STRICT").map isAffirmative }
  let settings := settings.updateIfValid
    { nameFromLabel := (value? "SICASM_NAME_FROM_START_LABEL").map isAffirmative }
  settings.updateIfValid { errorLimit := (value? "SICASM_MAX_ERRORS").bind readInt? }

end Settings

end TwoPass
