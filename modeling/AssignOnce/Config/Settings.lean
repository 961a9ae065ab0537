import AssignOnce.Config.Basic
import AssignOnce.Config.Number

/-!
# Settings of a linter runner

A linter runner gives the settings as a table of values. Keys are matched without regard to case; a
key that is not known or a value of the wrong kind spoils all settings. A setting without a value,
or with the value `null`, keeps its default. The runner leaves out generated files itself, so they
are always checked.
-/

namespace AssignOnce

/-- A value of a setting. -/
inductive SettingValue where
  | null
  | bool (b : Bool)
  | number (x : Decimal)
  | text (s : String)
  | list (items : List SettingValue)
  | table (fields : List (String × SettingValue))
  deriving Inhabited

/-- The settings of a linter runner. -/
structure Settings where
  reassign : Option Bool
  unused : Option Bool
  outArgs : Option Bool
  params : Option Bool
  maxTries : Option Int
  deriving DecidableEq, Repr

namespace SettingValue

/-- The truth value of a setting, which may be missing; none if the value is of another kind. -/
def bool? : SettingValue → Option (Option Bool)
  | .null => some none
  | .bool b => some (some b)
  | _ => none

/-- The integer of a setting, which may be missing; none if the value is no integer that fits. -/
def int? : SettingValue → Option (Option Int)
  | .null => some none
  | .number x => x.int64?.map some
  | _ => none

end SettingValue

namespace Settings

/-- The settings without any values. -/
def empty : Settings := ⟨none, none, none, none, none⟩

/-- A character without its case. Two letters outside ASCII have an ASCII letter as their other
case: the long `s` and the Kelvin sign. -/
def foldCase (c : Char) : Char :=
  if c.toNat = 0x17F then 's' else if c.toNat = 0x212A then 'k' else c.toLower

/-- The settings with the value for a key. -/
def set? (s : Settings) (key : String) (value : SettingValue) : Option Settings :=
  let key := key.map foldCase
  if key = "reassign" then value.bool?.map fun v => { s with reassign := v }
  else if key = "unused" then value.bool?.map fun v => { s with unused := v }
  else if key = "outargs" then value.bool?.map fun v => { s with outArgs := v }
  else if key = "params" then value.bool?.map fun v => { s with params := v }
  else if key = "max-tries" then value.int?.map fun v => { s with maxTries := v }
  else none

/-- The settings of a table, whose keys are taken in order. -/
def ofFields? (fields : List (String × SettingValue)) : Option Settings :=
  (fields.mergeSort fun a b => decide (a.1 ≤ b.1)).foldlM (fun s (key, value) => s.set? key value)
    empty

/-- The settings that a value stands for. -/
def ofValue? : SettingValue → Option Settings
  | .null => some empty
  | .table fields => ofFields? fields
  | _ => none

/-- The options for the settings that have values. -/
def options (s : Settings) : List ConfigOption :=
  (s.reassign.toList.map Setting.reassign ++ s.unused.toList.map Setting.unused ++
    s.outArgs.toList.map Setting.outArgs ++ s.params.toList.map Setting.params ++
    s.maxTries.toList.map Setting.maxTries).map .setting

/-- The configuration of the check in a linter runner. -/
def config (s : Settings) : Config :=
  ConfigOption.configure (s.options ++ [.setting (.generated true)])

/-- What the check needs to know of a package. -/
def loadMode : String := "typesinfo"

end Settings

end AssignOnce
