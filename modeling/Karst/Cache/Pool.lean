
namespace Karst

class Recyclable (α : Type) where
  fresh : α
  recycle : α → α

instance (α : Type) : Recyclable (Array α) where
  fresh := #[]
  recycle _ := #[]

instance (α : Type) : Recyclable (List α) where
  fresh := []
  recycle _ := []

structure PoolStats where
  created : Nat := 0
  reused : Nat := 0
  discarded : Nat := 0
  idle : Nat := 0
deriving DecidableEq, Repr

def PoolStats.merge (a b : PoolStats) : PoolStats :=
  ⟨a.created + b.created, a.reused + b.reused, a.discarded + b.discarded, a.idle + b.idle⟩

structure Pool (α : Type) where
  capacity : Nat
  idle : List α := []
  created : Nat := 0
  reused : Nat := 0
  discarded : Nat := 0

namespace Pool

variable {α : Type}

/-- A pool keeps at least one idle object. -/
def ofCapacity (capacity : Nat) : Pool α := { capacity := max capacity 1 }

/-- The object idle for longest, or a new one made by `make`. -/
def take (pool : Pool α) (make : α) : α × Pool α :=
  match pool.idle with
  | object :: idle => (object, { pool with idle, reused := pool.reused + 1 })
  | [] => (make, { pool with created := pool.created + 1 })

def put [Recyclable α] (pool : Pool α) (object : α) : Pool α :=
  if pool.idle.length < pool.capacity then
    { pool with idle := pool.idle ++ [Recyclable.recycle object] }
  else
    { pool with discarded := pool.discarded + 1 }

def stats (pool : Pool α) : PoolStats :=
  ⟨pool.created, pool.reused, pool.discarded, pool.idle.length⟩

end Pool

/-- What a borrower holds: an object of its own, or one lent for a time that returns to the pool
when it is let go. -/
inductive Holding (α : Type) where
  | owned (object : α)
  | lent (object : α)

namespace Holding

variable {α : Type}

def object : Holding α → α
  | .owned object => object
  | .lent object => object

def map (f : α → α) : Holding α → Holding α
  | .owned object => .owned (f object)
  | .lent object => .lent (f object)

def letGo [Recyclable α] (pool : Pool α) : Holding α → Pool α
  | .owned _ => pool
  | .lent object => pool.put object

end Holding

end Karst
