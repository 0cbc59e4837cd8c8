import MemoBoard.Event
import MemoBoard.Problem
import MemoBoard.Store.Basic

/-! Work on the store. An action runs under conditions it cannot change (the clock, the guards on the
tables, whether there is a connection) and ends with a result, the store it leaves and the events it
reported. A failed action keeps what it did before it failed, except that a statement is all or
nothing and a transaction takes back everything inside it. -/

namespace MemoBoard

/-- What watches over a table. A veto forbids a kind of change to a row, and the other three make a
change come to nothing without failing. -/
inductive Guard where
  | veto (v : Veto)
  | keepsMemos
  | dropsNewMemos
  | dropsNewUsers
  deriving DecidableEq

/-- Guards in order, the latest first: of two that watch the same change only the later one is asked. -/
abbrev Guards := List Guard

namespace Guards

def forbid (guards : Guards) (v : Veto) : Bool := guards.contains (.veto v)

/-- A change of a kind that is forbidden is none. -/
def permit (guards : Guards) (v : Veto) : Except StorageFault Unit :=
  if guards.forbid v then .error (.vetoed v) else .ok ()

/-- The guard that is asked before a memo is deleted. -/
def ofDeletion? (guards : Guards) : Option Guard :=
  guards.find? fun g => g == .veto ⟨.memos, .deletion⟩ || g == .keepsMemos

end Guards

structure Conditions where
  now : Int
  guards : Guards
  connected : Bool
  deriving DecidableEq

structure Outcome (α : Type) where
  result : Except Problem α
  store : Store
  events : List Event

def Action (α : Type) : Type := Conditions → Store → Outcome α

namespace Action

variable {α β : Type}

protected def pure (a : α) : Action α := fun _ s => ⟨.ok a, s, []⟩

protected def bind (x : Action α) (f : α → Action β) : Action β := fun c s =>
  let first := x c s
  match first.result with
  | .ok a =>
      let second := f a c first.store
      ⟨second.result, second.store, first.events ++ second.events⟩
  | .error problem => ⟨.error problem, first.store, first.events⟩

instance : Monad Action where
  pure := Action.pure
  bind := Action.bind

def fail (problem : Problem) : Action α := fun _ s => ⟨.error problem, s, []⟩

def ofExcept : Except Problem α → Action α
  | .ok a => Action.pure a
  | .error problem => fail problem

def report (event : Event) : Action Unit := fun _ s => ⟨.ok (), s, [event]⟩

def clock : Action Int := fun c s => ⟨.ok c.now, s, []⟩

/-- One change of the store, or none if it fails. -/
def statement (change : Conditions → Store → Except StorageFault (α × Store)) : Action α := fun c s =>
  if c.connected then
    match change c s with
    | .ok (a, changed) => ⟨.ok a, changed, []⟩
    | .error fault => ⟨.error (.storage fault), s, []⟩
  else ⟨.error (.storage .closed), s, []⟩

/-- A look at the store, at a second of the clock. -/
def query (view : Int → Store → α) : Action α := statement fun c s => .ok (view c.now s, s)

def transaction (x : Action α) : Action α := fun c s =>
  if c.connected then
    let inside := x c s
    match inside.result with
    | .ok a => ⟨.ok a, inside.store, inside.events⟩
    | .error problem => ⟨.error problem, s, inside.events⟩
  else ⟨.error (.storage .closed), s, []⟩

/-- Goes on after a failure from the store it left. -/
def recover (x : Action α) (handle : Problem → Action α) : Action α := fun c s =>
  let first := x c s
  match first.result with
  | .ok a => ⟨.ok a, first.store, first.events⟩
  | .error problem =>
      let second := handle problem c first.store
      ⟨second.result, second.store, first.events ++ second.events⟩

end Action
end MemoBoard
