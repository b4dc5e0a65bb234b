/-!
# Text — UTF-8

Characters as bytes, and bytes as characters.  A *symbol* is a character or the remains of a
malformed one; a byte string always decodes to a list of symbols, and the malformed places are
the maximal beginnings of a well-formed character, or a single byte where there is none.
-/

namespace Inspection.Text

/-- A character, or `none` for bytes that form no character. -/
abbrev Symbol := Option Char

/-- The bytes of a text. -/
def encode (s : String) : List UInt8 := s.toList.flatMap String.utf8EncodeChar

/-- A character begun: the bits read so far, the bytes still to come after the next one, and the
bounds on the next one. -/
structure Pending where
  bits : Nat
  further : Nat
  low : UInt8 := 0x80
  high : UInt8 := 0xBF

/-- What a byte begins. -/
inductive Lead
  | whole (c : Char)
  | opens (p : Pending)
  | stray

/-- Leading bytes.  The bounds on the second byte admit the shortest form only, no surrogate and
nothing beyond the last code point. -/
def lead (b : UInt8) : Lead :=
  if b < 0x80 then .whole (Char.ofNat b.toNat)
  else if b < 0xC2 then .stray
  else if b < 0xE0 then .opens { bits := b.toNat % 32, further := 0 }
  else if b = 0xE0 then .opens { bits := 0, further := 1, low := 0xA0 }
  else if b = 0xED then .opens { bits := 13, further := 1, high := 0x9F }
  else if b < 0xF0 then .opens { bits := b.toNat % 16, further := 1 }
  else if b = 0xF0 then .opens { bits := 0, further := 2, low := 0x90 }
  else if b < 0xF4 then .opens { bits := b.toNat % 8, further := 2 }
  else if b = 0xF4 then .opens { bits := 4, further := 2, high := 0x8F }
  else .stray

/-- The symbols of the bytes that follow a character begun, if there is one. -/
def symbolsFrom : Option Pending → List UInt8 → List Symbol
  | none, [] => []
  | some _, [] => [none]
  | none, b :: rest =>
    match lead b with
    | .whole c => some c :: symbolsFrom none rest
    | .opens p => symbolsFrom (some p) rest
    | .stray => none :: symbolsFrom none rest
  | some p, b :: rest =>
    if p.low ≤ b ∧ b ≤ p.high then
      let bits := p.bits * 64 + b.toNat % 64
      match p.further with
      | 0 => some (Char.ofNat bits) :: symbolsFrom none rest
      | further + 1 => symbolsFrom (some { bits, further }) rest
    else
      none :: match lead b with
        | .whole c => some c :: symbolsFrom none rest
        | .opens p => symbolsFrom (some p) rest
        | .stray => none :: symbolsFrom none rest

/-- The symbols of a byte string. -/
def symbols (bytes : List UInt8) : List Symbol := symbolsFrom none bytes

/-- The text of a byte string that is UTF-8 throughout. -/
def decode? (bytes : List UInt8) : Option String :=
  ((symbols bytes).mapM id).map String.ofList

/-- The text of a byte string, with U+FFFD in every malformed place. -/
def decodeLossy (bytes : List UInt8) : String :=
  String.ofList ((symbols bytes).map (·.getD '\uFFFD'))

end Inspection.Text
