import MemoBoard.Store.Action

/-! Searching the memos. A search shows each memo that satisfies it once, or, if it is a comment, once
for each memo it comments on; a memo that comments on nothing has no parent. The order is total on
what is shown, so the order of the tables never matters and pages fit together. -/

namespace MemoBoard

/-- What to look for. An absent field, and an empty list, ask for nothing; an offset counts only where
there is a limit. -/
structure Search where
  id : Option Int
  name : Option String
  creatorId : Option Int
  status : Option Status
  createdBefore : Option Int
  createdAfter : Option Int
  updatedBefore : Option Int
  updatedAfter : Option Int
  contains : List String
  visibilities : List Visibility
  withoutComments : Bool
  withoutContent : Bool
  pinnedFirst : Bool
  byUpdate : Bool
  limit : Option Int
  offset : Option Int
  deriving DecidableEq

def Search.everything : Search :=
  ⟨none, none, none, none, none, none, none, none, [], [], false, false, false, false, none, none⟩

def Search.forId (id : Int) : Search := { Search.everything with id := some id }

/-- The characters of `part` stand somewhere in `text` one after another. -/
def occursIn (part : List Char) : List Char → Bool
  | [] => part.isEmpty
  | c :: text => part.isPrefixOf (c :: text) || occursIn part text

/-- A memo beside the times its stamps denote and what other tables say of it. -/
structure Entry where
  row : MemoRow
  created : Option Int
  updated : Option Int
  pinned : Bool
  parent : Option Int
  deriving DecidableEq

namespace Store

/-- The entries of one memo, at a second of the clock. -/
def entriesOf (s : Store) (now : Int) (r : MemoRow) : List Entry :=
  let entry := Entry.mk r (r.createdAt.epoch? now) (r.updatedAt.epoch? now) (s.isPinned r.id r.creatorId)
  match s.parents r.id with
  | [] => [entry none]
  | parents => parents.map fun p => entry (some p)

def entries (s : Store) (now : Int) : List Entry := s.memos.flatMap (s.entriesOf now)

end Store

/-- No time is neither before nor after any. -/
def isBefore (time : Option Int) (t : Int) : Bool := time.any (· < t)

def isAfter (time : Option Int) (t : Int) : Bool := time.any (t < ·)

/-- The conditions on a memo and its times. -/
def Search.accepts (q : Search) (e : Entry) : Bool :=
  q.id.all (e.row.id == ·) && q.name.all (e.row.name == ·) && q.creatorId.all (e.row.creatorId == ·) &&
  q.status.all (e.row.status == ·) &&
  q.createdBefore.all (isBefore e.created) && q.createdAfter.all (isAfter e.created) &&
  q.updatedBefore.all (isBefore e.updated) && q.updatedAfter.all (isAfter e.updated) &&
  q.contains.all (fun part => occursIn part.toList e.row.content.toList) &&
  (q.visibilities.isEmpty || q.visibilities.contains e.row.visibility)

def Entry.memo (e : Entry) : Memo where
  id := e.row.id
  name := e.row.name
  creatorId := e.row.creatorId
  createdAt := e.created.getD 0
  updatedAt := e.updated.getD 0
  status := e.row.status
  visibility := e.row.visibility
  pinned := e.pinned
  parentId := e.parent
  location := e.row.location
  content := e.row.content

/-- Keys are compared number by number, and one that goes on comes after what it begins with. -/
def notAfter : List Int → List Int → Bool
  | [], _ => true
  | _ :: _, [] => false
  | a :: as, b :: bs => decide (a < b) || (a == b && notAfter as bs)

/-- Inserts before the first element that is not smaller. -/
def insertInOrder {α : Type} (key : α → List Int) (a : α) : List α → List α
  | [] => [a]
  | b :: rest => if notAfter (key a) (key b) then a :: b :: rest else b :: insertInOrder key a rest

/-- Sorts by ascending keys; equal keys keep their order. -/
def sortBy {α : Type} (key : α → List Int) (xs : List α) : List α := xs.foldr (insertInOrder key) []

/-- The later time comes first, and no time comes last. -/
def latestFirst : Option Int → List Int
  | some t => [0, -t]
  | none => [1, 0]

def parentOrder : Option Int → List Int
  | none => [0, 0]
  | some p => [1, p]

/-- Where an entry stands in the answer to a search: pinned memos first if that is asked for, then by
time, then the later memo first. No search asks for the last key, the parent: it is the order in which the
storage gives the entries of one memo. -/
def Search.key (q : Search) (e : Entry) : List Int :=
  (if q.pinnedFirst then [if e.pinned then 0 else 1] else []) ++
    latestFirst (if q.byUpdate then e.updated else e.created) ++
    -e.row.id :: parentOrder e.parent

/-- The page of a list. A negative limit is none, and a negative offset is zero. -/
def Search.page {α : Type} (q : Search) (xs : List α) : List α :=
  match q.limit with
  | none => xs
  | some limit =>
      let rest := xs.drop (q.offset.getD 0).toNat
      if limit < 0 then rest else rest.take limit.toNat

/-- What a search shows of an entry. -/
def Search.shown (q : Search) (e : Entry) : Memo :=
  if q.withoutContent then { e.memo with content := "" } else e.memo

namespace Store

/-- The entries that satisfy a search, in its order. -/
def matching (s : Store) (now : Int) (q : Search) : List Entry :=
  sortBy q.key ((s.entries now).filter fun e => q.accepts e && (!q.withoutComments || e.parent.isNone))

def search (s : Store) (now : Int) (q : Search) : List Memo := (q.page (s.matching now q)).map q.shown

/-- The first memo of a search, whose own limit does not count. -/
def first? (s : Store) (now : Int) (q : Search) : Option Memo :=
  (s.search now { q with limit := some 1 }).head?

/-! ### The map -/

/-- A memo belongs on the map if it says where it was written, comments on nothing, and is for everyone
or by the user who looks. -/
def isMapped (s : Store) (viewer : Option Int) (r : MemoRow) : Bool :=
  r.location.isComplete && (s.parents r.id).isEmpty &&
    (r.visibility == .world || viewer == some r.creatorId)

def marker? (s : Store) (now : Int) (r : MemoRow) : Option Marker := do
  let creator := s.user? r.creatorId
  some {
    id := r.id
    name := r.name
    creatorId := r.creatorId
    creatorName := creator.map fun u => u.nickname.getD u.username
    avatarUrl := creator.bind (·.avatarUrl)
    visibility := r.visibility
    createdAt := (r.createdAt.epoch? now).getD 0
    locationName := ← r.location.name
    latitude := ← r.location.latitude
    longitude := ← r.location.longitude
    content := r.content }

/-- The latest memo first, by the time of its creation. -/
def mapKey (now : Int) (r : MemoRow) : List Int := latestFirst (r.createdAt.epoch? now) ++ [-r.id]

def map (s : Store) (now : Int) (viewer : Option Int) : List Marker :=
  (sortBy (mapKey now) (s.memos.filter (s.isMapped viewer))).filterMap (s.marker? now)

/-- The links that lead from a memo, by where they lead; of two to one memo the comment comes first. -/
def linksFrom (s : Store) (memoId : Int) : List Link :=
  sortBy (fun l => [l.relatedId, if l.kind = .comment then 0 else 1]) (s.links.filter (·.memoId == memoId))

/-- The same rows, every table in the order of its keys. -/
def arranged (s : Store) : Store :=
  { s with
    users := sortBy (fun u => [u.id]) s.users
    memos := sortBy (fun m => [m.id]) s.memos
    marks := sortBy (fun m => [m.memoId, m.userId]) s.marks
    links := sortBy (fun l => [l.memoId, l.relatedId, if l.kind = .comment then 0 else 1]) s.links }

end Store

def listMemos (q : Search) : Action (List Memo) := .query fun now s => s.search now q

def getMemo (q : Search) : Action (Option Memo) := .query fun now s => s.first? now q

def listMarkers (viewer : Option Int) : Action (List Marker) := .query fun now s => s.map now viewer

def listLinks (memoId : Int) : Action (List Link) := .query fun _ s => s.linksFrom memoId

def findUser (id : Int) : Action (Option User) := .query fun now s => (s.user? id).map (·.user now)

end MemoBoard
