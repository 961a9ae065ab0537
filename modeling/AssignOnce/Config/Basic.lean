import AssignOnce.Config.Flags
import AssignOnce.Fix.FreshName
import AssignOnce.Text.Utf8

/-!
# Configuration

What is checked and how. A configuration is built from options, which may be nested and may be
absent; they are applied from left to right, so the last option for a setting wins.
-/

namespace AssignOnce

/-- Gives the content of the file with a path, if it can be read. -/
abbrev Reader := Bytes → Option Bytes

/-- What is checked and how. -/
structure Config where
  /-- The checks that are made. -/
  checks : Flags
  /-- How they are made. -/
  behavior : Flags
  /-- The number of candidates for the name of a new variable. -/
  maxTries : Int
  /-- Reads the files instead of the reader that comes with the package. -/
  reader : Option Reader

namespace Config

/-- The check for disallowed writes. -/
def reassignMask : BitVec 8 := 1

/-- The check for unnecessary permissions. -/
def unusedMask : BitVec 8 := 2

/-- Generated files are checked as well. -/
def generatedMask : BitVec 8 := 1

/-- Arguments `&x` count as writes. -/
def outArgsMask : BitVec 8 := 2

/-- Parameters are presumed to be assigned once. -/
def paramsMask : BitVec 8 := 4

/-- The checks made by default. -/
def defaultChecks : Flags := .ofMasks [reassignMask, unusedMask]

/-- The behavior by default. -/
def defaultBehavior : Flags := .ofMasks [outArgsMask, paramsMask]

/-- The configuration without any options. -/
def initial : Config where
  checks := defaultChecks
  behavior := defaultBehavior
  maxTries := Namer.defaultTries
  reader := none

end Config

/-- A value for a setting of the configuration. -/
inductive Setting where
  | generated (on : Bool)
  | outArgs (on : Bool)
  | params (on : Bool)
  | reassign (on : Bool)
  | unused (on : Bool)
  | maxTries (n : Int)
  | reader (r : Option Reader)

namespace Setting

/-- The configuration with a setting changed. -/
def apply (c : Config) : Setting → Config
  | .generated on => { c with behavior := c.behavior.set Config.generatedMask on }
  | .outArgs on => { c with behavior := c.behavior.set Config.outArgsMask on }
  | .params on => { c with behavior := c.behavior.set Config.paramsMask on }
  | .reassign on => { c with checks := c.checks.set Config.reassignMask on }
  | .unused on => { c with checks := c.checks.set Config.unusedMask on }
  | .maxTries n => { c with maxTries := n }
  | .reader r => { c with reader := r }

end Setting

/-- An option: a setting, a list of options, or nothing. -/
inductive ConfigOption where
  | absent
  | setting (s : Setting)
  | group (options : List ConfigOption)
  deriving Inhabited

namespace ConfigOption

mutual

/-- The configuration with an option applied. -/
def apply (c : Config) : ConfigOption → Config
  | .absent => c
  | .setting s => s.apply c
  | .group options => applyAll c options

/-- The configuration with options applied from left to right. -/
def applyAll (c : Config) : List ConfigOption → Config
  | [] => c
  | o :: rest => applyAll (apply c o) rest

end

/-- The configuration that options build. -/
def configure (options : List ConfigOption) : Config :=
  applyAll .initial options

end ConfigOption

/-- The value of an option in a log. -/
inductive LogValue where
  | bool (b : Bool)
  | int (n : Int)
  | text (s : String)
  deriving DecidableEq, Repr

/-- An option in a log. -/
structure LogEntry where
  key : String
  value : LogValue
  deriving DecidableEq, Repr

namespace Setting

/-- How a setting is logged; of a reader only its presence is. -/
def log : Setting → LogEntry
  | .generated on => ⟨"generated", .bool on⟩
  | .outArgs on => ⟨"outargs", .bool on⟩
  | .params on => ⟨"params", .bool on⟩
  | .reassign on => ⟨"reassign", .bool on⟩
  | .unused on => ⟨"unused", .bool on⟩
  | .maxTries n => ⟨"max-tries", .int n⟩
  | .reader r => ⟨"readfile", .bool r.isSome⟩

end Setting

namespace ConfigOption

mutual

/-- How an option is logged: lists are written out, and absent options are shown. -/
def log : ConfigOption → List LogEntry
  | .absent => [⟨"nil", .text "<nil>"⟩]
  | .setting s => [s.log]
  | .group options => logAll options

/-- How options are logged. -/
def logAll : List ConfigOption → List LogEntry
  | [] => []
  | o :: rest => log o ++ logAll rest

end

/-- The key under which options are logged together. -/
def logKey : String := "options"

end ConfigOption

end AssignOnce
