import Karst.Cache.Pool
import Karst.Proofs.Guarded

namespace Karst.Pool

variable {α : Type} {good : α → Prop} {pool : Pool α}

def Holds (good : α → Prop) (pool : Pool α) : Prop := ∀ object ∈ pool.idle, good object

theorem holds_ofCapacity (capacity : Nat) : (ofCapacity capacity : Pool α).Holds good := by
  simp [Holds, ofCapacity]

theorem capacity_take (make : α) : (pool.take make).2.capacity = pool.capacity := by
  unfold Pool.take
  split <;> rfl

theorem capacity_put [Recyclable α] (object : α) :
    (pool.put object).capacity = pool.capacity := by
  unfold Pool.put
  split <;> rfl

theorem take_of_nil {make : α} (none : pool.idle = []) :
    pool.take make = (make, { pool with created := pool.created + 1 }) := by
  rw [take, none]

theorem take_of_cons {make object : α} {others : List α} (waits : pool.idle = object :: others) :
    pool.take make = (object, { pool with idle := others, reused := pool.reused + 1 }) := by
  rw [take, waits]

theorem put_of_lt [Recyclable α] {object : α} (room : pool.idle.length < pool.capacity) :
    pool.put object = { pool with idle := pool.idle ++ [Recyclable.recycle object] } :=
  if_pos room

theorem put_of_le [Recyclable α] {object : α} (full : pool.capacity ≤ pool.idle.length) :
    pool.put object = { pool with discarded := pool.discarded + 1 } :=
  if_neg (Nat.not_lt.2 full)

theorem Holds.take (holds : pool.Holds good) (make : α) (made : good make) :
    good (pool.take make).1 ∧ (pool.take make).2.Holds good := by
  unfold Pool.take
  cases idle : pool.idle with
  | nil =>
    refine ⟨made, ?_⟩
    simp [Holds]
  | cons object others =>
    refine ⟨holds object (by simp [idle]), ?_⟩
    intro other member
    exact holds other (by simpa [idle] using .inr member)

theorem Holds.put [Recyclable α] (holds : pool.Holds good) {object : α}
    (emptied : good (Recyclable.recycle object)) : (pool.put object).Holds good := by
  unfold Pool.put
  split
  case isTrue =>
    intro other member
    rcases List.mem_append.1 member with old | new
    · exact holds other old
    · rw [List.mem_singleton] at new
      exact new ▸ emptied
  case isFalse => exact holds

end Karst.Pool
