import MemoBoard.Text.Numeral
import MemoBoard.Text.Unseen
import MemoBoard.Text.Utf8

/-! The settings of the service, from named values that may be any bytes. Two of them have to be there
and be texts; of the others each has a default, which also stands in for what cannot be read. -/

namespace MemoBoard

abbrev Environment := String → Option (List UInt8)

structure Settings where
  databaseUrl : String
  secret : String
  host : String
  port : Nat
  maxConnections : Nat
  acquireSeconds : Nat
  deriving DecidableEq, Repr

namespace Settings

inductive Fault where
  | absent
  | notText (bytes : List UInt8)
  deriving DecidableEq

def upperHex (n : Nat) : Char := if n < 10 then Char.ofNat (48 + n) else Char.ofNat (55 + n)

/-- A character as it is shown in a message: one with no look of its own by its number. -/
def shown (c : Char) : List Char :=
  if c = '"' then ['\\', '"']
  else if c = '\\' then ['\\', '\\']
  else if c = '\n' then ['\\', 'n']
  else if c = '\r' then ['\\', 'r']
  else if c = '\t' then ['\\', 't']
  else if c = '\x00' then ['\\', '0']
  else if Text.isUnseen c then
    '\\' :: 'u' :: '\x7b' :: (Nat.toDigits 16 c.toNat ++ ['\x7d'])
  else [c]

def shownByte (b : UInt8) : List Char := ['\\', 'x', upperHex (b.toNat / 16), upperHex (b.toNat % 16)]

/-- Bytes as they are shown in a message: characters where there are any, and the bytes that are none.
The first `known` bytes belong to a character that has been shown. -/
def shownBytes : (known : Nat) → List UInt8 → List Char
  | _, [] => []
  | known + 1, _ :: rest => shownBytes known rest
  | 0, b :: rest =>
      match Text.Utf8.leading? (b :: rest) with
      | some c => shown c ++ shownBytes (c.utf8Size - 1) rest
      | none => shownByte b ++ shownBytes 0 rest

def Fault.message : Fault → String
  | absent => "environment variable not found"
  | notText bytes =>
      "environment variable was not valid unicode: " ++
        String.ofList ('"' :: (shownBytes 0 bytes ++ ['"']))

def required (env : Environment) (name : String) : Except Fault String :=
  match env name with
  | none => .error .absent
  | some bytes =>
      match Text.Utf8.text? bytes with
      | some s => .ok s
      | none => .error (.notText bytes)

def text? (env : Environment) (name : String) : Option String := (env name).bind Text.Utf8.text?

/-- A number below the bound, or the default. -/
def number (env : Environment) (name : String) (bound default : Nat) : Nat :=
  ((text? env name).bind fun s => Text.Numeral.below? bound s.toList).getD default

def read (env : Environment) : Except Fault Settings := do
  let databaseUrl ← required env "DATABASE_URL"
  let secret ← required env "JWT_SECRET"
  .ok {
    databaseUrl
    secret
    host := (text? env "HOST").getD "0.0.0.0"
    port := number env "PORT" UInt16.size 8081
    maxConnections := number env "DB_MAX_CONNECTIONS" UInt32.size 5
    acquireSeconds := number env "DB_ACQUIRE_TIMEOUT_SECS" UInt64.size 10 }

end Settings
end MemoBoard
