import Karst.Cache.Pool

/-!
Values in numbered slots, reached by handles. A released slot is used again, the last released one
first, under a generation of its own, so that a handle outlives neither its value nor a clearing.
Slots are numbered and calls are counted without bound: memory ends long before 32 bits do, and time
before 64.
-/

namespace Karst

structure Handle where
  index : Nat
  generation : UInt32
deriving DecidableEq, Repr, Inhabited

structure ArenaStats where
  live : Nat := 0
  free : Nat := 0
  allocated : Nat := 0
  recycled : Nat := 0
deriving DecidableEq, Repr

def ArenaStats.merge (a b : ArenaStats) : ArenaStats :=
  ⟨a.live + b.live, a.free + b.free, a.allocated + b.allocated, a.recycled + b.recycled⟩

structure Slot (α : Type) where
  value : α
  generation : UInt32
  live : Bool

structure Arena (α : Type) where
  slots : Array (Slot α) := #[]
  free : List Nat := []
  nextGeneration : UInt32 := 1
  allocated : Nat := 0
  recycled : Nat := 0

namespace Arena

variable {α : Type}

def empty : Arena α := {}

def following (generation : UInt32) : UInt32 := max (generation + 1) 1

/-- A handle to an empty value, in the slot released last if one is free. -/
def alloc [Recyclable α] (arena : Arena α) : Handle × Arena α :=
  let generation := arena.nextGeneration
  match arena with
  | ⟨slots, index :: free, _, allocated, recycled⟩ =>
      (⟨index, generation⟩,
        ⟨slots.modify index fun slot => { slot with generation, live := true }, free,
          following generation, allocated + 1, recycled⟩)
  | ⟨slots, [], _, allocated, recycled⟩ =>
      (⟨slots.size, generation⟩,
        ⟨slots.push ⟨Recyclable.fresh, generation, true⟩, [], following generation, allocated + 1,
          recycled⟩)

def Slot.answers (slot : Slot α) (h : Handle) : Bool := slot.live && slot.generation == h.generation

def get? (arena : Arena α) (h : Handle) : Option α :=
  match arena.slots[h.index]? with
  | some slot => if Slot.answers slot h then some slot.value else none
  | none => none

def contains (arena : Arena α) (h : Handle) : Bool := (arena.get? h).isSome

def modify (arena : Arena α) (h : Handle) (f : α → α) : Arena α :=
  match arena with
  | ⟨slots, free, nextGeneration, allocated, recycled⟩ =>
      ⟨slots.modify h.index fun slot =>
          match slot with
          | ⟨value, generation, live⟩ =>
              if live && generation == h.generation then ⟨f value, generation, live⟩
              else ⟨value, generation, live⟩,
        free, nextGeneration, allocated, recycled⟩

/-- Empties the value and frees its slot; does nothing and answers false for a stale handle. -/
def release [Recyclable α] (arena : Arena α) (h : Handle) : Bool × Arena α :=
  if arena.contains h then
    match arena with
    | ⟨slots, free, nextGeneration, allocated, recycled⟩ =>
        (true,
          ⟨slots.modify h.index fun slot =>
              match slot with
              | ⟨value, generation, _⟩ => ⟨Recyclable.recycle value, generation, false⟩,
            h.index :: free, nextGeneration, allocated, recycled + 1⟩)
  else (false, arena)

def clear (arena : Arena α) : Arena α := { arena with slots := #[], free := [] }

def live (arena : Arena α) : Nat := arena.slots.size - arena.free.length

def stats (arena : Arena α) : ArenaStats :=
  ⟨arena.live, arena.free.length, arena.allocated, arena.recycled⟩

end Arena

end Karst
