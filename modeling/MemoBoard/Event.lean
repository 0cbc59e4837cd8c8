/-! What the board reports of its work, in the order in which it happens. -/

namespace MemoBoard

inductive Event where
  | memoCreated (memo creator : Int)
  | commentCreated (memo parent : Int)
  | orphansRemoved (memos marks links : Nat)
  | memoDeleted (memo : Int)
  | failed (message : String)
  deriving DecidableEq, Repr

namespace Event

def level : Event → String
  | failed _ => "ERROR"
  | _ => "DEBUG"

def message : Event → String
  | memoCreated .. => "memo created"
  | commentCreated .. => "comment created"
  | orphansRemoved .. => "vacuum removed orphaned rows"
  | memoDeleted .. => "memo deleted"
  | failed message => message

/-- The numbers of an event, by name in the order of the names. -/
def fields : Event → List (String × Int)
  | memoCreated memo creator => [("creator_id", creator), ("memo_id", memo)]
  | commentCreated memo parent => [("memo_id", memo), ("parent_id", parent)]
  | orphansRemoved memos marks links => [("memos", memos), ("organizers", marks), ("relations", links)]
  | memoDeleted memo => [("memo_id", memo)]
  | failed _ => []

end Event
end MemoBoard
