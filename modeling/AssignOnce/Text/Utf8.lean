/-!
# Bytes and characters

Source text is a list of bytes. `Utf8.encode` writes a string as bytes, `Utf8.first?` reads the
character at the front of a text, and `Utf8.decode` reads a whole text. Reading never fails: a
byte that begins no well-formed sequence stands for the replacement character and takes one byte.
-/

namespace AssignOnce

/-- Text as it stands in a file. -/
abbrev Bytes := List UInt8

namespace Utf8

/-- The bytes of a text. -/
def encode (s : String) : Bytes :=
  s.toList.flatMap String.utf8EncodeChar

/-- The number of bytes a list of characters takes. -/
def width : List Char → Nat
  | [] => 0
  | c :: rest => c.utf8Size + width rest

/-- The replacement character, read for a byte that begins no character. -/
def replacement : Char :=
  Char.ofNat 0xFFFD

/-- The character at the front of a text, if its bytes are well formed. No character takes more
than four bytes. -/
def first? (text : Bytes) : Option Char :=
  (text.take 4).toByteArray.utf8DecodeChar? 0

/-- The character at the front of a text and the number of bytes it takes. -/
def next (text : Bytes) : Char × Nat :=
  match first? text with
  | some c => (c, c.utf8Size)
  | none => (replacement, 1)

/-- All characters of a text. -/
def decode : Bytes → List Char
  | [] => []
  | b :: rest =>
    let (c, size) := next (b :: rest)
    c :: decode (rest.drop (size - 1))
termination_by text => text.length
decreasing_by simp only [List.length_drop, List.length_cons]; omega

/-- The string that a text spells. -/
def toString (text : Bytes) : String :=
  String.ofList (decode text)

theorem next_size_pos (text : Bytes) : 0 < (next text).2 := by
  unfold next
  split
  · exact Char.utf8Size_pos _
  · exact Nat.one_pos

@[simp] theorem width_nil : width [] = 0 := rfl

@[simp] theorem width_cons (c : Char) (cs : List Char) :
    width (c :: cs) = c.utf8Size + width cs := rfl

@[simp] theorem width_append (cs ds : List Char) : width (cs ++ ds) = width cs + width ds := by
  induction cs with
  | nil => simp
  | cons c cs ih => simp [ih, Nat.add_assoc]

end Utf8

end AssignOnce
