import Karst.Proofs.Precalc.Depot

namespace Karst

/-- The three collections of the shelf agree, and no more is queued than there is room for. -/
structure NoisePrecalc.InOrder (capacity : Nat) (p : NoisePrecalc) : Prop where
  limit : p.capacity = capacity
  orderly : p.shelf.Orderly
  room : p.shelf.order.length ≤ capacity

structure Shelf.ClearedOf (world : UInt32) (before after : Shelf) : Prop where
  gone : ∀ key : GridKey, key.world = world →
    key ∉ after.entries ∧ key ∉ after.order ∧ key ∉ after.pending
  spared : ∀ key : GridKey, key.world ≠ world →
    after.entries[key]? = before.entries[key]? ∧ (key ∈ after.pending ↔ key ∈ before.pending)
  order : after.order = before.order.filter fun key => key.world ≠ world

theorem Shelf.clearedOf_clearWorld (shelf : Shelf) (world : UInt32) :
    shelf.ClearedOf world (shelf.clearWorld world).2 := by
  constructor
  · intro key here
    rw [mem_entries_clearWorld, mem_pending_clearWorld]
    simp [clearWorld, here]
  · intro key other
    rw [getElem?_clearWorld, mem_pending_clearWorld, if_neg other]
    simp [other]
  · apply List.filter_congr
    intro key _
    by_cases here : key.world = world <;> simp [here]

namespace NoisePrecalc

variable {capacity : Nat} {p q : NoisePrecalc}

theorem inOrder_start (workers queueCapacity cacheCapacity timeToLive : Nat) :
    (start workers queueCapacity cacheCapacity timeToLive).InOrder (max cacheCapacity 1) :=
  ⟨rfl, Shelf.orderly_empty, Nat.zero_le _⟩

theorem shelf_recycleAll (p : NoisePrecalc) (grids : List NoiseGrid) :
    (p.recycleAll grids).shelf = p.shelf ∧ (p.recycleAll grids).capacity = p.capacity := by
  obtain ⟨buffers, same⟩ := recycleAll_eq p grids
  rw [same]
  exact ⟨rfl, rfl⟩

theorem shelf_clearWorld (p : NoisePrecalc) (world : UInt32) :
    (p.clearWorld world).shelf = (p.shelf.clearWorld world).2 ∧
      (p.clearWorld world).capacity = p.capacity := by
  unfold clearWorld
  apply shelf_recycleAll

theorem store_cases (p : NoisePrecalc) (key : GridKey) (grid : NoiseGrid) (now : Instant) :
    (∃ next, p.shelf.store? key grid now = some next ∧
      (p.store key grid now).shelf = (next.evict p.capacity p.timeToLive now).1 ∧
        (p.store key grid now).capacity = p.capacity) ∨
    (p.shelf.store? key grid now = none ∧ (p.store key grid now).shelf = p.shelf ∧
      (p.store key grid now).capacity = p.capacity) := by
  unfold store
  cases stored : p.shelf.store? key grid now with
  | none => exact .inr ⟨rfl, rfl, rfl⟩
  | some next =>
    apply Or.inl
    refine ⟨next, rfl, ?_⟩
    apply shelf_recycleAll

namespace InOrder

theorem of_shelf (inOrder : p.InOrder capacity) (same : q.capacity = p.capacity)
    (orderly : q.shelf.Orderly) (fewer : q.shelf.order.length ≤ p.shelf.order.length) :
    q.InOrder capacity :=
  ⟨same.trans inOrder.limit, orderly, fewer.trans inOrder.room⟩

theorem same_shelf (inOrder : p.InOrder capacity) (same : q.capacity = p.capacity)
    (shelf : q.shelf = p.shelf) : q.InOrder capacity :=
  inOrder.of_shelf same (shelf ▸ inOrder.orderly) (by rw [shelf])

theorem forget (inOrder : p.InOrder capacity) (key : GridKey) :
    ({ p with shelf := p.shelf.forget key } : NoisePrecalc).InOrder capacity :=
  inOrder.of_shelf rfl (inOrder.orderly.forget key) (Nat.le_refl _)

theorem abandon (inOrder : p.InOrder capacity) (key : GridKey) : (p.abandon key).InOrder capacity :=
  inOrder.of_shelf rfl (inOrder.orderly.forget key) (Nat.le_refl _)

theorem afterTake (inOrder : p.InOrder capacity) (layers : LayerSet) (cube : CubeCoord)
    (now : Instant) : (p.afterTake layers cube now).InOrder capacity := by
  obtain ⟨shelf, _, same⟩ := p.afterTake_spec layers cube now
  apply inOrder.of_shelf same
  · rw [shelf]
    exact inOrder.orderly.remove _
  · rw [shelf]
    exact List.length_filter_le _ _

theorem clearWorld (inOrder : p.InOrder capacity) (world : UInt32) :
    (p.clearWorld world).InOrder capacity := by
  obtain ⟨shelf, same⟩ := p.shelf_clearWorld world
  apply inOrder.of_shelf same
  · rw [shelf]
    exact inOrder.orderly.clearWorld world
  · rw [shelf]
    exact List.length_filter_le _ _

theorem store (inOrder : p.InOrder capacity) (key : GridKey) (grid : NoiseGrid) (now : Instant) :
    (p.store key grid now).InOrder capacity := by
  rcases p.store_cases key grid now with ⟨next, stored, shelf, same⟩ | ⟨_, shelf, same⟩
  · obtain ⟨orderly, room⟩ :=
      (inOrder.orderly.store stored).1.evict p.capacity p.timeToLive now
    constructor
    · exact same.trans inOrder.limit
    · exact shelf ▸ orderly
    · rw [shelf, ← inOrder.limit]
      exact room
  · exact inOrder.same_shelf same shelf

theorem getElem?_store (inOrder : p.InOrder capacity) (room : 0 < capacity) {key : GridKey}
    (wanted : key ∈ p.shelf.pending) (grid : NoiseGrid) (now : Instant) :
    (p.store key grid now).shelf.entries[key]? = some ⟨grid, now⟩ := by
  rcases p.store_cases key grid now with ⟨next, stored, shelf, _⟩ | ⟨refused, _, _⟩
  · obtain ⟨_, older, order, away, held⟩ := inOrder.orderly.store stored
    -- The grid is the newest of the queue, it has not aged, and there is room for one.
    rw [shelf, Shelf.evict, order]
    apply Shelf.evictFrom_last
    · exact inOrder.limit ▸ room
    · simp [Shelf.hasExpired]
    · exact away
    · exact held
  · simp [Shelf.store?, wanted] at refused

end InOrder

end NoisePrecalc

namespace Workshop

variable {capacity : Nat} {w : Workshop}

theorem inOrder_leave (inOrder : w.precalc.InOrder capacity) (place : Nat) (panics : Bool) :
    (w.leave place panics).precalc.InOrder capacity :=
  inOrder.same_shelf rfl rfl

theorem inOrder_move (inOrder : w.precalc.InOrder capacity) (m : JobMove) :
    (w.move m).precalc.InOrder capacity := by
  cases m with
  | start =>
    simp only [move]
    split
    case h_1 => exact inOrder.same_shelf rfl rfl
    case h_2 => exact inOrder
  | check place =>
    simp only [move]
    split
    case h_1 job _ _ =>
      unfold checkAt NoisePrecalc.check
      by_cases wanted : w.precalc.shelf.pending.contains job.key
      · simp only [wanted, if_true]
        exact inOrder.same_shelf rfl rfl
      · simp only [wanted]
        apply inOrder_leave
        exact inOrder.same_shelf rfl rfl
    case h_2 => exact inOrder
  | store place now =>
    simp only [move]
    split
    case h_1 job buffer _ _ =>
      unfold storeAt
      split
      case h_1 grid _ => exact inOrder_leave (inOrder.store job.key grid now) place false
      case h_2 => exact inOrder_leave (inOrder.abandon job.key) place true
    case h_2 => exact inOrder
  | panic place =>
    simp only [move]
    split
    case h_1 job _ _ _ => exact inOrder_leave (inOrder.abandon job.key) place true
    case h_2 => exact inOrder

end Workshop

namespace Depot

variable {capacity : Nat} {s : Depot}

theorem inOrder_move (inOrder : s.precalc.InOrder capacity) (m : DepotMove) :
    (s.move m).precalc.InOrder capacity := by
  cases m with
  | reserve layers cube =>
    rcases s.reserve_cases ⟨layers, cube⟩ with ⟨shelf, noted, same⟩ | same
    · simp only [move, same]
      apply inOrder.of_shelf
      · rfl
      · exact inOrder.orderly.reserve noted
      · exact Nat.le_of_eq (congrArg List.length (Shelf.reserve?_spec noted).2)
    · simp only [move, same]
      exact inOrder.same_shelf rfl rfl
  | enqueue place =>
    cases found : s.reserved[place]? with
    | none => simpa [move, found] using inOrder
    | some job =>
      simp only [move, found, Option.elim_some, (s.handOver_spec place job).1]
      exact inOrder.same_shelf rfl rfl
  | undo place =>
    cases found : s.refused[place]? with
    | none => simpa [move, found] using inOrder
    | some key =>
      simp only [move, found, Option.elim_some]
      exact inOrder.forget key
  | take layers cube now => exact inOrder.afterTake layers cube now
  | recycle grid => exact inOrder.same_shelf rfl rfl
  | clearWorld world => exact inOrder.clearWorld world
  | background job => exact Workshop.inOrder_move inOrder job

theorem shelf_after (workers queueCapacity cacheCapacity timeToLive : Nat)
    (history : List DepotMove) :
    let p := ((start workers queueCapacity cacheCapacity timeToLive).after history).precalc
    p.shelf.order.Nodup ∧ (∀ key, key ∈ p.shelf.order ↔ key ∈ p.shelf.entries) ∧
      (∀ key ∈ p.shelf.pending, key ∉ p.shelf.entries) ∧
      p.shelf.entries.size ≤ max cacheCapacity 1 ∧
      (∀ key ∈ p.shelf.pending, ∀ grid now,
        (p.store key grid now).shelf.entries[key]? = some ⟨grid, now⟩) ∧
      ∀ world, p.shelf.ClearedOf world (p.clearWorld world).shelf := by
  intro p
  have inOrder : p.InOrder (max cacheCapacity 1) := by
    apply after_invariant (P := fun s => s.precalc.InOrder (max cacheCapacity 1))
    · exact NoisePrecalc.inOrder_start ..
    · exact fun m _ s inOrder => inOrder_move inOrder m
  constructor
  · exact inOrder.orderly.nodup
  constructor
  · exact inOrder.orderly.listed
  constructor
  · exact inOrder.orderly.apart
  constructor
  · exact inOrder.orderly.size_eq ▸ inOrder.room
  constructor
  · intro key wanted grid now
    exact inOrder.getElem?_store (by omega) wanted grid now
  · intro world
    rw [(p.shelf_clearWorld world).1]
    exact p.shelf.clearedOf_clearWorld world

end Depot

end Karst
