import MemoBoard.Decimal.Reading
import MemoBoard.Json.Basic
import MemoBoard.Text.Utf8

/-! The words of a document, read from glyphs. Each reader takes a source from its first glyph and
gives what it read with the rest, or the first fault it met and what it had not taken by then: the text
ended early, is no document here, or is a document of another shape than the one asked for. Which of
the three comes first in the text decides, so every reader keeps to the order of the glyphs. -/

namespace MemoBoard.Json

inductive Fault where
  | truncated
  | malformed
  | mismatched
  deriving DecidableEq, Repr

abbrev Source := List Text.Glyph

/-- A fault, and what had not been taken when it was met. -/
structure Halt where
  fault : Fault
  rest : Source

abbrev Scan (α : Type) := Except Halt (α × Source)

/-- A reader that keeps nothing of what it reads. -/
abbrev Skip := Except Halt Source

def stop {α : Type} (fault : Fault) (rest : Source) : Except Halt α := .error ⟨fault, rest⟩

def ended {α : Type} : Except Halt α := stop .truncated []

def refuse {α : Type} (rest : Source) : Except Halt α := stop .malformed rest

def isBlank : Text.Glyph → Bool
  | some ' ' | some '\n' | some '\t' | some '\r' => true
  | _ => false

def skipBlanks (source : Source) : Source := source.dropWhile isBlank

/-- The rest after exactly these characters. -/
def expect : List Char → Source → Skip
  | [], source => .ok source
  | _ :: _, [] => ended
  | c :: cs, g :: rest => if g = some c then expect cs rest else refuse rest

def hexDigit? : Text.Glyph → Option Nat
  | none => none
  | some c =>
      if '0' ≤ c ∧ c ≤ '9' then some (c.toNat - 48)
      else if 'a' ≤ c ∧ c ≤ 'f' then some (c.toNat - 87)
      else if 'A' ≤ c ∧ c ≤ 'F' then some (c.toNat - 55)
      else none

/-- The number that four hexadecimal digits write. -/
def unit? (a b c d : Text.Glyph) : Option Nat := do
  let a ← hexDigit? a
  let b ← hexDigit? b
  let c ← hexDigit? c
  let d ← hexDigit? d
  some (((a * 16 + b) * 16 + c) * 16 + d)

/-- Where fewer than four glyphs are left for four digits: the text has ended if fewer than four bytes
are left. -/
def shortUnit {α : Type} (rest : Source) : Except Halt α :=
  if Text.Utf8.leastSize rest < 4 then ended else refuse []

/-- The character that a one-letter escape stands for. -/
def letter? : Char → Option Char
  | '"' => some '"'
  | '\\' => some '\\'
  | '/' => some '/'
  | 'b' => some '\x08'
  | 'f' => some '\x0c'
  | 'n' => some '\n'
  | 'r' => some '\r'
  | 't' => some '\t'
  | _ => none

def isHighHalf (n : Nat) : Bool := 0xD800 ≤ n && n < 0xDC00

def isLowHalf (n : Nat) : Bool := 0xDC00 ≤ n && n < 0xE000

def joinHalves (high low : Nat) : Char := Char.ofNat ((high - 0xD800) * 1024 + (low - 0xDC00) + 0x10000)

def prepend (c : Char) : Scan (List Char) → Scan (List Char)
  | .ok (cs, rest) => .ok (c :: cs, rest)
  | .error halt => .error halt

/-- The rest after one byte, if that byte is a character. -/
def afterByte : Source → Source
  | some c :: rest => if c.toNat < 128 then rest else some c :: rest
  | source => source

/-- The characters up to the closing quote. Both halves of a pair of units have to be there; in place of
the second half a byte is taken, whatever it is. What is no character is found when the string is at
its end. -/
def scanText : Source → Scan (List Char)
  | [] => ended
  | none :: rest =>
      match scanText rest with
      | .ok (_, rest) => refuse rest
      | .error halt => .error halt
  | some '"' :: rest => .ok ([], rest)
  | some '\\' :: [] => ended
  | some '\\' :: none :: rest => refuse rest
  | some '\\' :: some 'u' :: a :: b :: c :: d :: rest =>
      match unit? a b c d with
      | none => refuse rest
      | some unit =>
          if isLowHalf unit then refuse rest
          else if isHighHalf unit then
            match rest with
            | [] => ended
            | some '\\' :: [] => ended
            | some '\\' :: some 'u' :: e :: f :: g :: h :: rest =>
                match unit? e f g h with
                | none => refuse rest
                | some low =>
                    if isLowHalf low then prepend (joinHalves unit low) (scanText rest)
                    else refuse rest
            | some '\\' :: some 'u' :: rest => shortUnit rest
            | some '\\' :: rest => refuse (afterByte rest)
            | rest => refuse (afterByte rest)
          else prepend (Char.ofNat unit) (scanText rest)
  | some '\\' :: some 'u' :: rest => shortUnit rest
  | some '\\' :: some c :: rest =>
      match letter? c with
      | some d => prepend d (scanText rest)
      | none => refuse rest
  | some c :: rest => if c.toNat < 32 then refuse rest else prepend c (scanText rest)

/-- The rest after the closing quote of a string that nobody asked for: its escapes have to be escapes,
but they need not make characters. -/
def skipText : Source → Skip
  | [] => ended
  | none :: rest => skipText rest
  | some '"' :: rest => .ok rest
  | some '\\' :: [] => ended
  | some '\\' :: none :: rest => refuse rest
  | some '\\' :: some 'u' :: a :: b :: c :: d :: rest =>
      if (unit? a b c d).isSome then skipText rest else refuse rest
  | some '\\' :: some 'u' :: rest => shortUnit rest
  | some '\\' :: some c :: rest => if (letter? c).isSome then skipText rest else refuse rest
  | some c :: rest => if c.toNat < 32 then refuse rest else skipText rest

/-! ### Numbers -/

def scanDigits : Source → List Char × Source
  | some c :: rest =>
      if c.isDigit then
        let (ds, rest) := scanDigits rest
        (c :: ds, rest)
      else ([], some c :: rest)
  | source => ([], source)

/-- At least one digit. -/
def scanSomeDigits (source : Source) : Scan (List Char) :=
  match scanDigits source with
  | ([], []) => ended
  | ([], rest) => refuse rest
  | found => .ok found

structure Exponent where
  negative : Bool
  digits : List Char

def Exponent.value (e : Exponent) : Int :=
  let size := Nat.ofDigitChars 10 e.digits 0
  if e.negative then -size else size

/-- The digits left when a number has outgrown 32 bits. -/
def outgrown (size : Nat) : List Char → List Char
  | [] => []
  | c :: cs =>
      let size := size * 10 + Decimal.digitValue c
      if size < 2147483648 then outgrown size cs else cs

structure NumberText where
  negative : Bool
  whole : List Char
  fraction : List Char
  exponent : Option Exponent

/-- One zero, or digits of which the first is not zero. -/
def scanWhole (source : Source) : Scan (List Char) :=
  match scanSomeDigits source with
  | .ok ('0' :: d :: ds, rest) => refuse ((d :: ds).map some ++ rest)
  | found => found

def scanFraction : Source → Scan (List Char)
  | some '.' :: rest => scanSomeDigits rest
  | source => .ok ([], source)

def scanExponent : Source → Scan (Option Exponent)
  | some 'e' :: rest | some 'E' :: rest =>
      let (negative, rest) := match rest with
        | some '-' :: rest => (true, rest)
        | some '+' :: rest => (false, rest)
        | rest => (false, rest)
      (scanSomeDigits rest).map fun (digits, rest) => (some ⟨negative, digits⟩, rest)
  | source => .ok (none, source)

def scanNumber (source : Source) : Except Halt (NumberText × Source) := do
  let (negative, source) := match source with
    | some '-' :: rest => (true, rest)
    | source => (false, source)
  let (whole, source) ← scanWhole source
  let (fraction, source) ← scanFraction source
  let (exponent, source) ← scanExponent source
  .ok (⟨negative, whole, fraction, exponent⟩, source)

namespace NumberText

def power (n : NumberText) : Int := (n.exponent.map Exponent.value).getD 0

/-- Whole numbers are whole as far as a word of 64 bits goes, with or without a sign; all others are
reals, and so is a zero with a minus sign. -/
def value? (n : NumberText) : Option Json :=
  let size := Nat.ofDigitChars 10 n.whole 0
  if n.fraction.isEmpty && n.exponent.isNone && !n.negative && size < UInt64.size then some (.int size)
  else if n.fraction.isEmpty && n.exponent.isNone && n.negative && 0 < size && 2 * size ≤ UInt64.size then
    some (.int (-(size : Int)))
  else (Decimal.read? n.whole n.fraction n.power).map fun x => .real (if n.negative then -x else x)

/-- The digits that are left when it shows that a number is too large: those of an exponent which has
grown out of bounds. -/
def unread (n : NumberText) : List Char :=
  match n.exponent with
  | some ⟨false, digits⟩ => outgrown 0 digits
  | _ => []

end NumberText

def scanValueOfNumber (source : Source) : Except Halt (Json × Source) := do
  let (n, rest) ← scanNumber source
  match n.value? with
  | some j => .ok (j, rest)
  | none => refuse (n.unread.map some ++ rest)

/-- A number that nobody asked for may be of any size, and one that breaks off is malformed. -/
def skipNumber (source : Source) : Skip :=
  match scanNumber source with
  | .ok (_, rest) => .ok rest
  | .error halt => refuse halt.rest

def startsNumber (c : Char) : Bool := c = '-' || c.isDigit

/-- Where it ends to find a value of another shape. The words, numbers and strings found are read to
their end first, lists and objects are not. -/
def otherShape {α : Type} : Source → Except Halt α
  | [] => ended
  | none :: rest => refuse (none :: rest)
  | some c :: rest =>
      let after (found : Skip) : Except Halt α := found.bind (stop .mismatched)
      if c = 'n' then after (expect ['u', 'l', 'l'] rest)
      else if c = 't' then after (expect ['r', 'u', 'e'] rest)
      else if c = 'f' then after (expect ['a', 'l', 's', 'e'] rest)
      else if startsNumber c then after ((scanValueOfNumber (some c :: rest)).map (·.2))
      else if c = '"' then after ((scanText rest).map (·.2))
      else if c = '[' ∨ c = '\x7b' then stop .mismatched (some c :: rest)
      else refuse (some c :: rest)

end MemoBoard.Json
