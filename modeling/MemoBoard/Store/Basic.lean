import MemoBoard.Board.Memo
import MemoBoard.Board.Tie
import MemoBoard.Board.User
import MemoBoard.Calendar.Stamp

/-! The tables of the board. Rows keep times as stamps, memos and users are numbered from 1, and the
last number given is kept beside the rows because a number is never given twice. Nothing in a table
forces a row to name rows that exist. -/

namespace MemoBoard

open Calendar (Stamp)

structure UserRow where
  id : Int
  username : String
  nickname : Option String
  avatarUrl : Option String
  createdAt : Stamp
  deriving DecidableEq

structure MemoRow where
  id : Int
  name : String
  creatorId : Int
  createdAt : Stamp
  updatedAt : Stamp
  status : Status
  content : String
  visibility : Visibility
  location : Location
  deriving DecidableEq

structure Store where
  users : List UserRow
  memos : List MemoRow
  marks : List Mark
  links : List Link
  lastUserId : Int
  lastMemoId : Int
  deriving DecidableEq

namespace Store

def empty : Store := ⟨[], [], [], [], 0, 0⟩

def hasUser (s : Store) (id : Int) : Bool := s.users.any (·.id == id)

def hasMemo (s : Store) (id : Int) : Bool := s.memos.any (·.id == id)

def user? (s : Store) (id : Int) : Option UserRow := s.users.find? (·.id == id)

def isPinned (s : Store) (memoId userId : Int) : Bool :=
  s.marks.any fun m => m.memoId == memoId && m.userId == userId && m.pinned

/-- The memos that a memo comments on. -/
def parents (s : Store) (memoId : Int) : List Int :=
  (s.links.filter fun l => l.kind == .comment && l.memoId == memoId).map (·.relatedId)

end Store

/-- The user of a row, at a second of the clock; a stamp that denotes no time is shown as the epoch. -/
def UserRow.user (now : Int) (r : UserRow) : User :=
  ⟨r.id, r.username, r.nickname, r.avatarUrl, (r.createdAt.epoch? now).getD 0⟩

end MemoBoard
