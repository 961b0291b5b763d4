import Conquest.Phase.Basic

/-!
# Loading transports

Transports take land pieces from friendly shores, the better attackers first. A threatened shore
keeps one piece, and the capital is not emptied while it is in danger. The cargo embarks in the
ledger; the transport stays free for the phase that sails it, whose order lands the cargo too.
-/

namespace Conquest.Context

/-- Better attackers first, then the smaller pieces, then lower identifiers. -/
def loadingOrder (x y : Asset) : Ordering :=
  (compare y.kind.attack x.kind.attack).then <|
  (compare x.kind.transportCost y.kind.transportCost).then (compare x.id y.id)

/-- The pieces on a shore that may go aboard, in loading order. -/
def loadable (c : Context) (b : Board) (l : Ledger) (shore : TerritoryId) : List Asset :=
  sortBy loadingOrder ((b.ownedIn shore c.player).filter fun a =>
    a.kind.canBeTransported && !a.isAboard && decide (0 < a.piece.movementLeft)
      && !(l.epoch == .nonCombat && a.piece.movedThisTurn) && !l.isCommitted a.id)

/-- Whether pieces may leave a shore for a transport. -/
def mayLoadFrom (c : Context) (b : Board) (shore : TerritoryId) : Bool :=
  b.isFriendlyLand shore c.player && !c.isAttacked shore && !b.hasBattle shore
    && !(c.capitalDanger && c.capital == some shore)

/-- What a transport with some room takes from a shore, and the room left. -/
def shoreCargo (c : Context) (b : Board) (l : Ledger) (shore : TerritoryId) (room : Nat) :
    List Asset × Nat :=
  let cargo := c.loadable b l shore
  let keep := if 0 < c.threat b shore then 1 else 0
  fillHold room (cargo.take (cargo.length - keep))

/-- Loads a transport in `zone` from shores in order as long as there is room. -/
def loadFrom (c : Context) (b : Board) (zone : TerritoryId) (transport : PieceId) :
    Nat → List TerritoryId → Planning (List Order)
  | _, [] => return []
  | room, shore :: rest =>
    if room = 0 then return []
    else if c.mayLoadFrom b shore then do
      let (cargo, left) := c.shoreCargo b (← get) shore room
      if cargo.isEmpty then loadFrom c b zone transport left rest
      else
        let pieces := cargo.map (·.id)
        Planning.apply (·.embark transport pieces)
        let others ← loadFrom c b zone transport left rest
        return { pieces, route := .step shore zone, action := .load transport } :: others
    else loadFrom c b zone transport room rest

/-- Loads the transports that are worth loading. -/
def loadTransports (c : Context) (b : Board) (worthLoading : Asset → Bool) :
    Planning (List Order) :=
  collect (fun zone =>
    if b.hasBattle zone || b.hasEnemyForce zone c.player then return []
    else
      collect (fun transport => do
        if transport.kind.isTransport && !(← get).isCommitted transport.id
            && worthLoading transport then
          c.loadFrom b zone transport.id (b.freeCapacity transport.id) (b.atlas.neighbors zone)
        else return []) (b.ownedIn zone c.player)) b.atlas.seaZones

end Conquest.Context
