import Std.Data.HashSet
import Karst.Cache.Tiered
import Karst.Noise.Grid
import Karst.Settings.Params

namespace Karst

structure GridKey where
  world : UInt32
  cube : CubeCoord
deriving DecidableEq, Hashable, Repr, Inhabited

structure ShelvedGrid where
  grid : NoiseGrid
  stored : Instant

structure Shelf where
  entries : Std.HashMap GridKey ShelvedGrid := {}
  order : List GridKey := []
  pending : Std.HashSet GridKey := {}

namespace Shelf

def reserve? (shelf : Shelf) (key : GridKey) : Option Shelf :=
  if shelf.pending.contains key || shelf.entries.contains key then none
  else some { shelf with pending := shelf.pending.insert key }

def forget (shelf : Shelf) (key : GridKey) : Shelf :=
  { shelf with pending := shelf.pending.erase key }

def hasExpired (timeToLive : Nat) (now : Instant) (shelved : ShelvedGrid) : Bool :=
  timeToLive < now - shelved.stored

/-- Drops grids from the oldest on while the oldest has expired or there are more than `capacity`;
gives back those dropped. -/
def evictFrom (capacity timeToLive : Nat) (now : Instant) (pending : Std.HashSet GridKey) :
    List GridKey → Std.HashMap GridKey ShelvedGrid → List NoiseGrid → Shelf × List NoiseGrid
  | [], entries, gone => (⟨entries, [], pending⟩, gone.reverse)
  | key :: order, entries, gone =>
      match entries[key]? with
      | none => evictFrom capacity timeToLive now pending order entries gone
      | some shelved =>
          if hasExpired timeToLive now shelved || decide (capacity < order.length + 1) then
            evictFrom capacity timeToLive now pending order (entries.erase key)
              (shelved.grid :: gone)
          else (⟨entries, key :: order, pending⟩, gone.reverse)

def evict (shelf : Shelf) (capacity timeToLive : Nat) (now : Instant) : Shelf × List NoiseGrid :=
  evictFrom capacity timeToLive now shelf.pending shelf.order shelf.entries []

def store? (shelf : Shelf) (key : GridKey) (grid : NoiseGrid) (now : Instant) : Option Shelf :=
  if shelf.pending.contains key then
    some ⟨shelf.entries.insert key ⟨grid, now⟩, shelf.order ++ [key], shelf.pending.erase key⟩
  else none

def remove (shelf : Shelf) (key : GridKey) : Option ShelvedGrid × Shelf :=
  (shelf.entries[key]?,
    ⟨shelf.entries.erase key, shelf.order.filter (· != key), shelf.pending.erase key⟩)

def clearWorld (shelf : Shelf) (world : UInt32) : List NoiseGrid × Shelf :=
  let gone := shelf.entries.toList.filter fun (key, _) => key.world == world
  (gone.map fun (_, shelved) => shelved.grid,
    ⟨shelf.entries.filter fun key _ => key.world != world,
      shelf.order.filter fun key => key.world != world,
      shelf.pending.filter fun key => key.world != world⟩)

end Shelf

end Karst
