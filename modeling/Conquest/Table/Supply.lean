import Conquest.Ordered
import Conquest.Table.Move

/-!
# Purchases and placements on the table

A purchase is paid at once and waits until it is placed. New pieces are charged to a factory of the
player that was not captured this turn: to the one they are placed at, or, for ships, to the
roomiest one next to their sea zone.
-/

namespace Conquest.Table

/-! ## Purchases -/

/-- A kind that is in the catalogue. -/
def checkKind (h : Table) (k : KindId) : Except Rejection Unit :=
  if k < h.board.kinds.size then .ok () else .error (.unknownKind k)

/-- Pays for a purchase, or says why it is refused. -/
def submitPurchase (h : Table) (p : PlayerId) (bought : Tally) : Except Rejection Table := do
  bought.entries.forM fun e => h.checkKind e.1
  let cost := wrap (bought.cost fun k => (h.board.kind k).cost)
  let budget := h.board.budget p
  if budget < cost then throw (.overBudget cost budget)
  return { h with
    board := h.board.setBudget p (budget - cost)
    pending := h.pending.modify p fun c =>
      bought.nonzero.foldl (fun c e => c.addWrapped e.1 e.2) c }

/-! ## Placements -/

/-- The factory next to a sea zone that new ships are charged to. -/
def seaFactory? (h : Table) (p : PlayerId) (sea : TerritoryId) : Option TerritoryId :=
  lastGreatest? (fun a b => (compare (h.factoryRoom a) (h.factoryRoom b)).then (compare b a))
    ((h.board.atlas.neighbors sea).filter fun f =>
      (h.board.territory f).owner == some p && (h.board.territory f).hasFactory
        && !h.board.isConquered f)

/-- The factory that a placement is charged to. -/
def chargedFactory? (h : Table) (p : PlayerId) (t : TerritoryId) : Option TerritoryId :=
  if h.board.atlas.isWater t then h.seaFactory? p t
  else if (h.board.territory t).owner == some p && (h.board.territory t).hasFactory
      && !h.board.isConquered t then some t
  else none

/-- The wanted number of a kind has been bought, and the kind belongs where it is placed. -/
def checkWanted (h : Table) (p : PlayerId) (t : TerritoryId) (e : KindId × Nat) :
    Except Rejection Unit := do
  if (h.pendingOf p).count e.1 < e.2 then throw (.notPurchased e.1)
  h.checkKind e.1
  if (h.board.kind e.1).isSea ≠ h.board.atlas.isWater t then throw (.noFactory t)

/-- Puts new pieces on the board, or says why they are refused. -/
def submitPlacement (h : Table) (p : PlayerId) (placement : Placement) :
    Except Rejection Table := do
  let t := placement.territory
  let wanted := Tally.ofKinds placement.kinds
  wanted.entries.forM (h.checkWanted p t)
  match h.chargedFactory? p t with
  | none => throw (.noFactory t)
  | some factory =>
    let capacity := h.factoryRoom factory
    let count := placement.kinds.length
    if capacity < count then throw (.capacityExceeded t capacity)
    return { h with
      board := placement.kinds.foldl (fun b k => b.addPiece k p t) h.board
      pending := h.pending.modify p fun c =>
        wanted.entries.foldl (fun c e => c.spend e.1 e.2) c
      placed := h.placed.modify factory (· + count) }

instance : Host Table where
  board := Table.board
  placementCapacity := placementCapacity
  round h := h.board.round
  beginEpoch h _ e := h.beginEpoch e
  submitMove := submitMove
  submitPurchase := submitPurchase
  submitPlacement := submitPlacement

end Conquest.Table
