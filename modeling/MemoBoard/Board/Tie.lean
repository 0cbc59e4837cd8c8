import MemoBoard.Board.Labels
import MemoBoard.Json.Record

/-! What ties rows together. A mark says whether a user has pinned a memo; a link leads from one memo
to another, and one of the comment kind makes the first a comment on the second. -/

namespace MemoBoard

structure Mark where
  memoId : Int
  userId : Int
  pinned : Bool
  deriving DecidableEq

structure Link where
  memoId : Int
  relatedId : Int
  kind : LinkKind
  deriving DecidableEq

open Json in
def Mark.record : Record Mark where
  fields := [⟨"memo_id", .word, false⟩, ⟨"user_id", .word, false⟩, ⟨"pinned", .flag, false⟩]
  values m := [.int m.memoId, .int m.userId, .bool m.pinned]
  build?
    | [.int memoId, .int userId, .bool pinned] => some ⟨memoId, userId, pinned⟩
    | _ => none

open Json in
def Link.record : Record Link where
  fields :=
    [⟨"memo_id", .word, false⟩, ⟨"related_memo_id", .word, false⟩, ⟨"type", .choice LinkKind.names, false⟩]
  values l := [.int l.memoId, .int l.relatedId, .text l.kind.name]
  build?
    | [.int memoId, .int relatedId, .text kind] => (LinkKind.ofName? kind).map (⟨memoId, relatedId, ·⟩)
    | _ => none

end MemoBoard
