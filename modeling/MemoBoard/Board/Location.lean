import MemoBoard.Decimal.Layout

/-! Where a memo was written: a name and two coordinates, each of which may be absent. -/

namespace MemoBoard

structure Location where
  name : Option String
  latitude : Option Float
  longitude : Option Float
  deriving DecidableEq

namespace Location

def nowhere : Location := ⟨none, none, none⟩

inductive Fault where
  | latitude (x : Float)
  | longitude (x : Float)
  deriving DecidableEq

def Fault.message : Fault → String
  | latitude x => "invalid latitude: " ++ String.ofList (Decimal.Layout.message.render x)
  | longitude x => "invalid longitude: " ++ String.ofList (Decimal.Layout.message.render x)

def isWithin (bound x : Float) : Bool := decide (-bound ≤ x) && decide (x ≤ bound)

/-- The latitude is looked at first. -/
def check (l : Location) : Except Fault Unit :=
  match l.latitude.filter (!isWithin 90 ·), l.longitude.filter (!isWithin 180 ·) with
  | some x, _ => .error (.latitude x)
  | none, some x => .error (.longitude x)
  | none, none => .ok ()

/-- What a column of numbers keeps of a number: it has one zero, and no place for what is no number. -/
def stored (x : Float) : Option Float :=
  if x.isNaN then none else if x == 0 then some 0 else some x

def asStored (l : Location) : Location :=
  { l with latitude := l.latitude.bind stored, longitude := l.longitude.bind stored }

/-- All three parts are there. -/
def isComplete (l : Location) : Bool := l.name.isSome && l.latitude.isSome && l.longitude.isSome

end Location
end MemoBoard
