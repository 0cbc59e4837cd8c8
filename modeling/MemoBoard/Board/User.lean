import MemoBoard.Json.Record

/-! The users of the board. -/

namespace MemoBoard

structure User where
  id : Int
  username : String
  nickname : Option String
  avatarUrl : Option String
  createdAt : Int
  deriving DecidableEq

/-- What a new user is made from. -/
structure Registration where
  username : String
  nickname : Option String
  avatarUrl : Option String
  deriving DecidableEq

open Json in
def User.record : Record User where
  fields :=
    [⟨"id", .word, false⟩, ⟨"username", .text, false⟩, ⟨"nickname", .text, true⟩,
     ⟨"avatar_url", .text, true⟩, ⟨"created_ts", .word, false⟩]
  values u :=
    [.int u.id, .text u.username, optional .text u.nickname, optional .text u.avatarUrl, .int u.createdAt]
  build?
    | [.int id, .text username, nickname, avatarUrl, .int createdAt] => do
        some {
          id, username, createdAt
          nickname := ← optional? text? nickname
          avatarUrl := ← optional? text? avatarUrl }
    | _ => none

end MemoBoard
