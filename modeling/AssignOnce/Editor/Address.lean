import AssignOnce.Text.Ascii
import AssignOnce.Text.Quoted

/-!
# Network addresses

An address of version 4 has four octets in decimal, with dots between them. An address of version 6
has eight groups of up to four hexadecimal digits, with colons between them, of which octets may
replace the last two; one gap `::` stands for one or more groups of zeros, and a zone may follow a
percent sign. `Address.version` gives the version of an address, or says what is wrong with it.
-/

namespace AssignOnce

/-- What is wrong with an address. Where a rest is given, it is the part of the address that starts
at the fault. -/
inductive AddressFault where
  /-- The text has neither dots nor colons. -/
  | unknownForm
  /-- A zone follows no address. -/
  | missingAddress
  | emptyZone
  | octetWithLeadingZero
  | octetTooLarge
  | missingOctet (rest : Bytes)
  | tooManyOctets
  | tooFewOctets
  | unexpectedByte (rest : Bytes)
  | groupTooLong (rest : Bytes)
  | missingGroup (rest : Bytes)
  /-- Octets stand elsewhere than in place of the last two groups. -/
  | misplacedOctets (rest : Bytes)
  /-- Octets follow seven groups. -/
  | noRoomForOctets (rest : Bytes)
  | missingColon (rest : Bytes)
  | finalColon (rest : Bytes)
  | secondGap (rest : Bytes)
  | tooManyGroups (rest : Bytes)
  | tooFewGroups
  /-- A gap stands beside eight groups. -/
  | emptyGap
  deriving DecidableEq, Repr

namespace AddressFault

/-- What a fault is, and the rest at which it shows. -/
def describe : AddressFault → String × Bytes
  | .unknownForm => ("unable to parse IP", [])
  | .missingAddress => ("missing IPv6 address", [])
  | .emptyZone => ("zone must be a non-empty string", [])
  | .octetWithLeadingZero => ("IPv4 field has octet with leading zero", [])
  | .octetTooLarge => ("IPv4 field has value >255", [])
  | .missingOctet rest => ("IPv4 field must have at least one digit", rest)
  | .tooManyOctets => ("IPv4 address too long", [])
  | .tooFewOctets => ("IPv4 address too short", [])
  | .unexpectedByte rest => ("unexpected character", rest)
  | .groupTooLong rest => ("each group must have 4 or less digits", rest)
  | .missingGroup rest => ("each colon-separated field must have at least one digit", rest)
  | .misplacedOctets rest =>
    ("embedded IPv4 address must replace the final 2 fields of the address", rest)
  | .noRoomForOctets rest =>
    ("too many hex fields to fit an embedded IPv4 at the end of the address", rest)
  | .missingColon rest => ("unexpected character, want colon", rest)
  | .finalColon rest => ("colon must be followed by more characters", rest)
  | .secondGap rest => ("multiple :: in address", rest)
  | .tooManyGroups rest => ("trailing garbage after address", rest)
  | .tooFewGroups => ("address string too short", [])
  | .emptyGap => ("the :: must expand to at least one field of zeros", [])

/-- What is said of a faulty address. -/
def message (address : Bytes) (fault : AddressFault) : String :=
  let (what, rest) := fault.describe
  let place := if rest = [] then "" else " (at " ++ Quoted.render rest ++ ")"
  "ParseAddr(" ++ Quoted.render address ++ "): " ++ what ++ place

end AddressFault

namespace Address

open Ascii (byte isDigit isHexDigit isOneOf)

/-- The versions of addresses. -/
inductive Version where
  | four
  | six
  deriving DecidableEq, Repr

/-- The number of groups of an address of version 6. -/
def groupCount : Nat := 8

/-- Checks octets, of which those before `dots` dots have been read, and the first `digits` digits
of the next one, which give `value`. -/
def checkOctets (dots value digits : Nat) : Bytes → Except AddressFault Unit
  | [] => if dots < 3 then .error .tooFewOctets else .ok ()
  | b :: rest =>
    if isDigit b then
      let next := 10 * value + (b - byte '0').toNat
      if digits = 1 ∧ value = 0 then .error .octetWithLeadingZero
      else if 255 < next then .error .octetTooLarge
      else checkOctets dots next (digits + 1) rest
    else if b = byte '.' then
      if digits = 0 ∨ rest = [] then .error (.missingOctet (b :: rest))
      else if dots = 3 then .error .tooManyOctets
      else checkOctets (dots + 1) 0 0 rest
    else .error (.unexpectedByte (b :: rest))

/-- Checks what is left when as many groups have been read as could be. -/
def checkEnd (count : Nat) (gap : Bool) (rest : Bytes) : Except AddressFault Unit :=
  if rest ≠ [] then .error (.tooManyGroups rest)
  else if count < groupCount then (if gap then .ok () else .error .tooFewGroups)
  else if gap then .error .emptyGap
  else .ok ()

/-- Checks octets in place of the last two groups, behind `count` groups. -/
def checkFinalOctets (count : Nat) (gap : Bool) (text : Bytes) : Except AddressFault Unit :=
  if !gap && count + 2 != groupCount then .error (.misplacedOctets text)
  else if groupCount < count + 2 then .error (.noRoomForOctets text)
  else
    match checkOctets 0 0 0 text with
    | .ok _ => checkEnd (count + 2) gap []
    | .error fault => .error fault

/-- Checks the groups that follow `count` groups, among which there was a gap or not. -/
def checkGroups (count : Nat) (gap : Bool) (text : Bytes) : Except AddressFault Unit :=
  if groupCount ≤ count then checkEnd count gap text
  else
    let digits := text.takeWhile isHexDigit
    if 4 < digits.length then .error (.groupTooLong text)
    else if digits = [] then .error (.missingGroup text)
    else
      match text.dropWhile isHexDigit with
      | [] => checkEnd (count + 1) gap []
      | b :: rest =>
        if b = byte '.' then checkFinalOctets count gap text
        else if b ≠ byte ':' then .error (.missingColon (b :: rest))
        else
          match rest with
          | [] => .error (.finalColon [b])
          | c :: after =>
            if c ≠ byte ':' then checkGroups (count + 1) gap rest
            else if gap then .error (.secondGap rest)
            else if after = [] then checkEnd (count + 1) true []
            else checkGroups (count + 1) true after
termination_by groupCount - count
decreasing_by all_goals omega

/-- Checks an address of version 6 without its zone. -/
def checkSix (text : Bytes) : Except AddressFault Unit :=
  if [byte ':', byte ':'].isPrefixOf text then
    if text.length = 2 then .ok () else checkGroups 0 true (text.drop 2)
  else checkGroups 0 false text

/-- The version of an address, which its first mark tells. -/
def version (address : Bytes) : Except AddressFault Version :=
  match address.find? (isOneOf ".:%") with
  | none => .error .unknownForm
  | some mark =>
    if mark = byte '.' then (checkOctets 0 0 0 address).map fun _ => .four
    else if mark = byte '%' then .error .missingAddress
    else if address.dropWhile (· != byte '%') = [byte '%'] then .error .emptyZone
    else (checkSix (address.takeWhile (· != byte '%'))).map fun _ => .six

end Address

end AssignOnce
