import MemoBoard.Store.Search

/-! Entering rows and changing them. What has been entered is looked up again before it is given back,
so the answer shows what the tables hold and not what was asked for. -/

namespace MemoBoard

open Calendar (Stamp)

/-- Deleting memos, under the guards, who are asked if there is a row to delete. The number is that of the
rows deleted. -/
def Store.withoutMemos (s : Store) (guards : Guards) (doomed : MemoRow → Bool) :
    Except StorageFault (Nat × Store) :=
  if s.memos.any doomed then
    match guards.ofDeletion? with
    | none => .ok ((s.memos.filter doomed).length, { s with memos := s.memos.filter (!doomed ·) })
    | some .keepsMemos => .ok (0, s)
    | some _ => .error (.vetoed ⟨.memos, .deletion⟩)
  else .ok (0, s)

def stampNow (c : Conditions) (column : TimeColumn) : Except StorageFault Stamp :=
  ((Calendar.present? c.now).bind Stamp.ofEpoch?).elim (.error (.noTime column)) .ok

/-- The row of a new memo. -/
def Draft.row (d : Draft) (id : Int) (now : Stamp) : MemoRow :=
  ⟨id, d.name, d.creatorId, now, now, .normal, d.content, d.visibility, d.location.asStored⟩

def Store.withMemo (d : Draft) (c : Conditions) (s : Store) : Except StorageFault (Int × Store) := do
  c.guards.permit ⟨.memos, .insertion⟩
  let now ← stampNow c .created
  if s.memos.any (·.name == d.name) then .error (.duplicate .memoName)
  else
    let id := s.lastMemoId + 1
    let entered := { s with memos := s.memos ++ [d.row id now], lastMemoId := id }
    if c.guards.contains .dropsNewMemos then (entered.withoutMemos c.guards (·.id == id)).map (id, ·.2)
    else .ok (id, entered)

/-- A link that is there already is entered again without effect, but not without leave. -/
def Store.withLink (l : Link) (c : Conditions) (s : Store) : Except StorageFault (Link × Store) := do
  c.guards.permit ⟨.links, .insertion⟩
  if s.links.contains l then .ok (l, s) else .ok (l, { s with links := s.links ++ [l] })

/-- A user has one mark on a memo, which the latest one replaces. -/
def setMark (m : Mark) : List Mark → List Mark
  | [] => [m]
  | other :: rest =>
      if other.memoId = m.memoId ∧ other.userId = m.userId then m :: rest else other :: setMark m rest

/-- A mark is set as one that is new, so leave to enter one is asked for even where it replaces another. -/
def Store.withMark (m : Mark) (c : Conditions) (s : Store) : Except StorageFault (Mark × Store) := do
  c.guards.permit ⟨.marks, .insertion⟩
  if s.marks.any fun other => other.memoId == m.memoId && other.userId == m.userId then
    c.guards.permit ⟨.marks, .update⟩
  .ok (m, { s with marks := setMark m s.marks })

def insertMemo (d : Draft) : Action Int := .statement (Store.withMemo d)

def setLink (l : Link) : Action Link := .statement (Store.withLink l)

def placeMark (m : Mark) : Action Mark := .statement (Store.withMark m)

/-- The memo that has just been entered under an id. -/
def fetchCreated (id : Int) : Action Memo := do
  match ← getMemo (.forId id) with
  | some memo => pure memo
  | none =>
      .fail (.inconsistent ("failed to retrieve created memo " ++ String.ofList (Text.Numeral.write id)))

def createMemo (d : Draft) : Action Memo := do
  let id ← insertMemo d
  .report (.memoCreated id d.creatorId)
  fetchCreated id

/-- The memo and the link that makes it a comment are entered together or not at all. -/
def createComment (d : Draft) (parentId : Int) : Action Memo := do
  let id ← Action.transaction do
    let id ← insertMemo d
    let _ ← setLink ⟨id, parentId, .comment⟩
    pure id
  .report (.commentCreated id parentId)
  fetchCreated id

def Store.withUser (r : Registration) (c : Conditions) (s : Store) : Except StorageFault (Int × Store) := do
  c.guards.permit ⟨.users, .insertion⟩
  let now ← stampNow c .registered
  if s.users.any (·.username == r.username) then .error (.duplicate .username)
  else
    let id := s.lastUserId + 1
    let row : UserRow := ⟨id, r.username, r.nickname, r.avatarUrl, now⟩
    if c.guards.contains .dropsNewUsers then do
      c.guards.permit ⟨.users, .deletion⟩
      .ok (id, { s with lastUserId := id })
    else .ok (id, { s with users := s.users ++ [row], lastUserId := id })

def createUser (r : Registration) : Action User := do
  let id ← Action.statement (Store.withUser r)
  match ← findUser id with
  | some user => pure user
  | none =>
      .fail (.inconsistent ("failed to retrieve created user " ++ String.ofList (Text.Numeral.write id)))

/-! ### Amendments -/

/-- A time to be entered: absent, or a stamp of it. -/
def stampFor? (column : TimeColumn) : Option Int → Except StorageFault (Option Stamp)
  | none => .ok none
  | some t => (Stamp.ofEpoch? t).elim (.error (.noTime column)) (.ok ∘ some)

/-- The amended row; the stamps are those of the times in the amendment. -/
def Amendment.apply (a : Amendment) (created updated : Option Stamp) (r : MemoRow) : MemoRow :=
  { r with
    name := a.name.getD r.name
    createdAt := created.getD r.createdAt
    updatedAt := updated.getD r.updatedAt
    status := a.status.getD r.status
    content := a.content.getD r.content
    visibility := a.visibility.getD r.visibility
    location := { r.location with name := a.locationName.or r.location.name } }

/-- A memo that is not there is amended without effect, and nothing of the amendment is looked at. -/
def Store.amended (a : Amendment) (c : Conditions) (s : Store) : Except StorageFault (Unit × Store) :=
  if s.hasMemo a.id then do
    c.guards.permit ⟨.memos, .update⟩
    let created ← stampFor? .created a.createdAt
    let updated ← stampFor? .updated a.updatedAt
    if a.name.any fun name => s.memos.any fun r => r.name == name && r.id != a.id then
      .error (.duplicate .memoName)
    .ok ((), { s with memos := s.memos.map fun r => if r.id = a.id then a.apply created updated r else r })
  else .ok ((), s)

def amendMemo (a : Amendment) : Action Unit := .statement (Store.amended a)

/-- Gives a row the text of a time as it comes. The service does not write so: this stands for other hands on
the tables, which is how the times that it never enters get there. Whether the text denotes a time shows when
it is read. -/
def Store.restamped (column : TimeColumn) (id : Int) (stamp : Stamp) (c : Conditions) (s : Store) :
    Except StorageFault (Unit × Store) :=
  let memos (change : MemoRow → MemoRow) : Except StorageFault (Unit × Store) := do
    if s.hasMemo id then c.guards.permit ⟨.memos, .update⟩
    .ok ((), { s with memos := s.memos.map fun r => if r.id = id then change r else r })
  match column with
  | .created => memos fun r => { r with createdAt := stamp }
  | .updated => memos fun r => { r with updatedAt := stamp }
  | .registered => do
      if s.hasUser id then c.guards.permit ⟨.users, .update⟩
      .ok ((), { s with users := s.users.map fun u => if u.id = id then { u with createdAt := stamp } else u })

/-- One such write, as an operation. -/
def restamp (column : TimeColumn) (id : Int) (stamp : Stamp) : Action Unit :=
  .statement (Store.restamped column id stamp)

end MemoBoard
