import Std.Data.HashMap

/-!
A memoising map whose entries expire by tiers. An entry starts in the youngest tier; when its window
ends it moves one tier up if it was read since it was placed there, or renews the last tier, and is
evicted otherwise. Times and windows are nanoseconds.
-/

namespace Karst

abbrev Instant := Nat

structure TieredStats where
  hits : Nat := 0
  misses : Nat := 0
  promotions : Nat := 0
  expiries : Nat := 0
  clears : Nat := 0
  entries : Nat := 0
deriving DecidableEq, Repr

def TieredStats.merge (a b : TieredStats) : TieredStats :=
  ⟨a.hits + b.hits, a.misses + b.misses, a.promotions + b.promotions, a.expiries + b.expiries,
    a.clears + b.clears, a.entries + b.entries⟩

structure Cached (β : Type) where
  value : β
  tier : UInt8
  deadline : Instant
  touched : Bool

structure TieredCache (κ β : Type) [BEq κ] [Hashable κ] where
  youngest : Nat
  older : List Nat
  entries : Std.HashMap κ (Cached β) := {}
  nextSweep : Option Instant := none
  hits : Nat := 0
  misses : Nat := 0
  promotions : Nat := 0
  expiries : Nat := 0
  clears : Nat := 0

namespace TieredCache

variable {κ β : Type} [BEq κ] [Hashable κ]

def seconds (n : Nat) : Nat := n * 1000000000

/-- Without windows of its own a cache takes ten, twenty-five and a hundred seconds. -/
def ofWindows : List Nat → TieredCache κ β
  | youngest :: older => { youngest, older }
  | [] => { youngest := seconds 10, older := [seconds 25, seconds 100] }

def windows (cache : TieredCache κ β) : List Nat := cache.youngest :: cache.older

def lastTier (cache : TieredCache κ β) : Nat := cache.older.length

def window (cache : TieredCache κ β) (tier : Nat) : Nat := cache.windows.getD tier cache.youngest

def peek (cache : TieredCache κ β) (key : κ) : Option β := (cache.entries[key]?).map Cached.value

def tierOf (cache : TieredCache κ β) (key : κ) : Option Nat :=
  (cache.entries[key]?).map fun entry => entry.tier.toNat

def size (cache : TieredCache κ β) : Nat := cache.entries.size

def hit (cache : TieredCache κ β) (key : κ) : TieredCache κ β :=
  { cache with
    entries := cache.entries.modify key fun entry => { entry with touched := true }
    hits := cache.hits + 1 }

/-- Places a value made for a key that was not held; making it is no read. -/
def place (cache : TieredCache κ β) (key : κ) (now : Instant) (value : β) : TieredCache κ β :=
  { cache with
    entries := cache.entries.insert key ⟨value, 0, now + cache.youngest, false⟩
    misses := cache.misses + 1 }

def getOrInsert (cache : TieredCache κ β) (key : κ) (now : Instant) (make : Unit → β) :
    β × TieredCache κ β :=
  match cache.peek key with
  | some value => (value, cache.hit key)
  | none =>
      let value := make ()
      (value, cache.place key now value)

def isDue (now : Instant) (entry : Cached β) : Bool := entry.deadline ≤ now

def nextTier (cache : TieredCache κ β) (entry : Cached β) : Nat :=
  min (entry.tier.toNat + 1) cache.lastTier

def isPromoted (cache : TieredCache κ β) (now : Instant) (entry : Cached β) : Bool :=
  isDue now entry && entry.touched && cache.nextTier entry != entry.tier.toNat

/-- What a sweep leaves of an entry: itself, its renewal in the next tier, or nothing. -/
def settle (cache : TieredCache κ β) (now : Instant) (entry : Cached β) : Option (Cached β) :=
  if isDue now entry then
    if entry.touched then
      let next := cache.nextTier entry
      some ⟨entry.value, UInt8.ofNat next, now + cache.window next, false⟩
    else none
  else some entry

def expire (cache : TieredCache κ β) (now : Instant) : List (κ × β) × TieredCache κ β :=
  let evicted := cache.entries.toList.filter fun (_, entry) => (cache.settle now entry).isNone
  let promoted := cache.entries.toList.countP fun (_, entry) => cache.isPromoted now entry
  (evicted.map fun (key, entry) => (key, entry.value),
    { cache with
      entries := cache.entries.filterMap fun _ entry => cache.settle now entry
      promotions := cache.promotions + promoted
      expiries := cache.expiries + evicted.length
      nextSweep := some (now + cache.youngest / 2) })

def maybeExpire (cache : TieredCache κ β) (now : Instant) : List (κ × β) × TieredCache κ β :=
  match cache.nextSweep with
  | some due => if now < due then ([], cache) else cache.expire now
  | none => cache.expire now

/-- Drops every entry without giving any back. -/
def clear (cache : TieredCache κ β) : TieredCache κ β :=
  { cache with entries := {}, nextSweep := none, clears := cache.clears + 1 }

def stats (cache : TieredCache κ β) : TieredStats :=
  ⟨cache.hits, cache.misses, cache.promotions, cache.expiries, cache.clears, cache.entries.size⟩

end TieredCache

end Karst
