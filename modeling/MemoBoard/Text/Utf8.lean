/-! Bytes as text. A `Glyph` is a character, or `none` for one maximal run of bytes that begins a
character and breaks off, or that begins none. Decoding never fails: the three ways to go on from
there (refuse, substitute, or let a later reader decide) are functions of the list of glyphs. -/

namespace MemoBoard.Text

abbrev Glyph := Option Char

namespace Utf8

/-- A character that has begun: the bits read so far, how many bytes are still to come, and the bounds
of the next of them. The bounds are what rules out overlong forms and surrogates. -/
structure Pending where
  bits : Nat
  missing : Nat
  low : Nat
  high : Nat
  deriving DecidableEq

/-- What a first byte announces; an ASCII byte is complete at once. -/
def lead? (b : Nat) : Option Pending :=
  if b < 0x80 then some ⟨b, 0, 0x80, 0xBF⟩
  else if b < 0xC2 then none
  else if b < 0xE0 then some ⟨b - 0xC0, 1, 0x80, 0xBF⟩
  else if b < 0xF0 then
    some ⟨b - 0xE0, 2, if b = 0xE0 then 0xA0 else 0x80, if b = 0xED then 0x9F else 0xBF⟩
  else if b < 0xF5 then
    some ⟨b - 0xF0, 3, if b = 0xF0 then 0x90 else 0x80, if b = 0xF4 then 0x8F else 0xBF⟩
  else none

/-- The glyphs finished by a byte that begins a character, and the character then in progress. -/
def start (b : Nat) : List Glyph × Option Pending :=
  match lead? b with
  | none => ([none], none)
  | some p => if p.missing = 0 then ([some (Char.ofNat p.bits)], none) else ([], some p)

/-- One byte more. A byte out of bounds ends the character in progress and begins anew. -/
def step (progress : Option Pending) (b : Nat) : List Glyph × Option Pending :=
  match progress with
  | none => start b
  | some p =>
      if p.low ≤ b ∧ b ≤ p.high then
        let bits := p.bits * 64 + b % 64
        if p.missing = 1 then ([some (Char.ofNat bits)], none)
        else ([], some ⟨bits, p.missing - 1, 0x80, 0xBF⟩)
      else
        let next := start b
        (none :: next.1, next.2)

def decodeFrom : Option Pending → List UInt8 → List Glyph
  | none, [] => []
  | some _, [] => [none]
  | progress, b :: rest =>
      let next := step progress b.toNat
      next.1 ++ decodeFrom next.2 rest

def decode (bytes : List UInt8) : List Glyph := decodeFrom none bytes

/-- The character that bytes begin with, of which none has more than four. -/
def leading? (bytes : List UInt8) : Option Char :=
  [1, 2, 3, 4].findSome? fun n =>
    match decode (bytes.take n) with
    | [glyph] => glyph
    | _ => none

/-- The least number of bytes that glyphs can come from: what is no character has at least one. -/
def leastSize : List Glyph → Nat
  | [] => 0
  | some c :: rest => c.utf8Size + leastSize rest
  | none :: rest => 1 + leastSize rest

def encode (chars : List Char) : List UInt8 := chars.flatMap String.utf8EncodeChar

/-- The text of well-formed bytes. -/
def text? (bytes : List UInt8) : Option String :=
  ((decode bytes).mapM id).map String.ofList

/-- The text of any bytes, with U+FFFD for what is no character. -/
def lossy (bytes : List UInt8) : String :=
  String.ofList ((decode bytes).map (·.getD '\uFFFD'))

end Utf8

def bytes (s : String) : List UInt8 := Utf8.encode s.toList

def glyphs (s : String) : List Glyph := s.toList.map some

end MemoBoard.Text
