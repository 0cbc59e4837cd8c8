import MemoBoard.Digest.Sha256

/-! Keyed hashing over blocks of 64 bytes: a long key is hashed first, a short one is filled with
zeros. -/

namespace MemoBoard.Digest.Hmac

def blockKey (key : List UInt8) : List UInt8 :=
  let k := if key.length > 64 then Sha256.digest key else key
  k ++ List.replicate (64 - k.length) 0

def sign (key message : List UInt8) : List UInt8 :=
  let k := blockKey key
  Sha256.digest (k.map (· ^^^ 0x5c) ++ Sha256.digest (k.map (· ^^^ 0x36) ++ message))

end MemoBoard.Digest.Hmac
