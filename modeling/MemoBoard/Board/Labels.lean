/-! The three small vocabularies of the board, each with the names it is stored and written under. -/

namespace MemoBoard

/-- Who may see a memo besides its creator: nobody, every user, or everyone. -/
inductive Visibility where
  | own
  | members
  | world
  deriving DecidableEq, Repr

inductive Status where
  | normal
  | archived
  deriving DecidableEq, Repr

inductive LinkKind where
  | reference
  | comment
  deriving DecidableEq, Repr

namespace Visibility

def name : Visibility → String
  | own => "PRIVATE"
  | members => "PROTECTED"
  | world => "PUBLIC"

def all : List Visibility := [own, members, world]

def names : List String := all.map name

def ofName? (s : String) : Option Visibility := all.find? (·.name == s)

end Visibility

namespace Status

def name : Status → String
  | normal => "NORMAL"
  | archived => "ARCHIVED"

def all : List Status := [normal, archived]

def names : List String := all.map name

def ofName? (s : String) : Option Status := all.find? (·.name == s)

end Status

namespace LinkKind

def name : LinkKind → String
  | reference => "REFERENCE"
  | comment => "COMMENT"

def all : List LinkKind := [reference, comment]

def names : List String := all.map name

def ofName? (s : String) : Option LinkKind := all.find? (·.name == s)

end LinkKind
end MemoBoard
