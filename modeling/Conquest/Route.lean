import Conquest.Identifier

/-!
# Routes

A route is a start and the territories entered after it, so a route always has a first territory.
Its length counts steps, not territories.
-/

namespace Conquest

/-- A walk over the map: where it starts and the territories it enters, in order. -/
structure Route where
  start : TerritoryId
  steps : List TerritoryId
deriving DecidableEq, Repr, Inhabited

namespace Route

/-- The route through a list of territories; there is none through the empty list. -/
def ofList? : List TerritoryId → Option Route
  | [] => none
  | t :: rest => some ⟨t, rest⟩

/-- The route that stays in one territory. -/
def stay (t : TerritoryId) : Route := ⟨t, []⟩

/-- The route of one step. -/
def step (source goal : TerritoryId) : Route := ⟨source, [goal]⟩

/-- All territories of the route, the start included. -/
def territories (r : Route) : List TerritoryId := r.start :: r.steps

/-- Where the route ends. -/
def dest (r : Route) : TerritoryId := r.steps.getLastD r.start

/-- Number of steps. -/
def length (r : Route) : Nat := r.steps.length

/-- A route without steps. -/
def isEmpty (r : Route) : Bool := r.steps.isEmpty

/-- The territories strictly between start and end. -/
def between (r : Route) : List TerritoryId := r.steps.dropLast

/-- Whether the route visits `t`. -/
def contains (r : Route) (t : TerritoryId) : Bool := r.territories.contains t

/-- The route with one more step. -/
def extend (r : Route) (t : TerritoryId) : Route := ⟨r.start, r.steps ++ [t]⟩

/-- The first `n` steps of the route, or all of them. -/
def truncate (r : Route) (n : Nat) : Route := ⟨r.start, r.steps.take n⟩

@[simp] theorem territories_extend (r : Route) (t : TerritoryId) :
    (r.extend t).territories = r.territories ++ [t] := by
  simp [territories, extend]

@[simp] theorem dest_extend (r : Route) (t : TerritoryId) : (r.extend t).dest = t := by
  simp [dest, extend]

@[simp] theorem length_extend (r : Route) (t : TerritoryId) :
    (r.extend t).length = r.length + 1 := by
  simp [length, extend]

@[simp] theorem length_truncate (r : Route) (n : Nat) :
    (r.truncate n).length = min n r.length := by
  simp [length, truncate]

end Route

end Conquest
