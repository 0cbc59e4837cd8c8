import MemoBoard.Board.Memo

/-! Who may see a memo. A viewer is a user's id, or nobody in particular. The rule is stated twice: for
a memo at hand, and as the visibilities a list may be restricted to beforehand. -/

namespace MemoBoard

def canView (viewer : Option Int) (m : Memo) : Bool :=
  match m.visibility with
  | .world => true
  | .members => viewer.isSome
  | .own => viewer == some m.creatorId

/-- The visibilities a viewer may list, given whose memos are asked for if that is said. Memos for their
creator alone are listed only where the viewer asks for his own. -/
def scopes (viewer creatorId : Option Int) : List Visibility :=
  match viewer with
  | none => [.world]
  | some id => if creatorId = some id then [.world, .members, .own] else [.world, .members]

end MemoBoard
