import Karst.Proofs.Noise.Layout
import Karst.Proofs.Precalc.Upkeep

/-!
Every grid is accounted for. The counters of the shelf and those of the workers are kept apart, but
between the sections of calls and jobs each submission, each job and each stored grid is counted in
just one place.
-/

namespace Karst

/-! ## Sizes -/

namespace Shelf

variable {shelf next : Shelf} {key : GridKey} {grid : NoiseGrid} {now : Instant}

theorem mem_pending_reserve (reserved : shelf.reserve? key = some next) (other : GridKey) :
    other ∈ next.pending ↔ key = other ∨ other ∈ shelf.pending := by
  unfold reserve? at reserved
  split at reserved
  case isTrue => cases reserved
  case isFalse =>
    cases reserved
    simp

theorem size_erase_add (entries : Std.HashMap GridKey ShelvedGrid) (key : GridKey) :
    (entries.erase key).size + entries[key]?.isSome.toNat = entries.size := by
  rw [Std.HashMap.size_erase]
  by_cases member : key ∈ entries
  · have some_key := List.length_pos_of_mem (Std.HashMap.mem_keys.2 member)
    rw [Std.HashMap.length_keys] at some_key
    rw [if_pos member, Std.HashMap.mem_iff_isSome_getElem?.1 member]
    exact Nat.sub_add_cancel some_key
  · rw [if_neg member, Std.HashMap.getElem?_eq_none member]
    rfl

theorem size_store (orderly : shelf.Orderly) (stored : shelf.store? key grid now = some next) :
    next.entries.size = shelf.entries.size + 1 := by
  unfold store? at stored
  split at stored
  case isTrue wanted =>
    cases stored
    -- A key that is still asked for is not stored yet, so no grid is replaced.
    have new := orderly.apart key (by simpa using wanted)
    rw [Std.HashMap.size_insert, if_neg new]
  case isFalse => cases stored

theorem size_evictFrom (capacity timeToLive : Nat) (now : Instant)
    (pending : Std.HashSet GridKey) (order : List GridKey)
    (entries : Std.HashMap GridKey ShelvedGrid) (gone : List NoiseGrid) :
    let out := evictFrom capacity timeToLive now pending order entries gone
    out.1.entries.size + out.2.length = entries.size + gone.length := by
  induction order generalizing entries gone with
  | nil => simp [evictFrom]
  | cons first order ih =>
    rw [evictFrom]
    split
    case h_1 => exact ih entries gone
    case h_2 shelved held =>
      split
      case isTrue =>
        have total := ih (entries.erase first) (shelved.grid :: gone)
        have fewer := size_erase_add entries first
        rw [held] at fewer
        simp only [Option.isSome_some, Bool.toNat_true, List.length_cons] at total fewer ⊢
        omega
      case isFalse => simp

theorem size_evict (shelf : Shelf) (capacity timeToLive : Nat) (now : Instant) :
    (shelf.evict capacity timeToLive now).1.entries.size +
      (shelf.evict capacity timeToLive now).2.length = shelf.entries.size := by
  simpa [evict] using
    size_evictFrom capacity timeToLive now shelf.pending shelf.order shelf.entries []

theorem size_clearWorld (shelf : Shelf) (world : UInt32) :
    (shelf.clearWorld world).2.entries.size + (shelf.clearWorld world).1.length =
      shelf.entries.size := by
  have left : (shelf.clearWorld world).2.entries.size =
      (shelf.entries.toList.filter fun entry => !(entry.1.world == world)).length := by
    rw [← Std.HashMap.length_toList]
    exact Std.HashMap.toList_filter.length_eq
  have gone : (shelf.clearWorld world).1.length =
      (shelf.entries.toList.filter fun entry => entry.1.world == world).length :=
    List.length_map _
  rw [left, gone, Nat.add_comm, ← List.length_eq_length_filter_add, Std.HashMap.length_toList]

theorem size_clearWorld_eq_zero {world : UInt32}
    (only : ∀ key ∈ shelf.entries, key.world = world) :
    (shelf.clearWorld world).2.entries.size = 0 := by
  have total := shelf.size_clearWorld world
  have all : (shelf.clearWorld world).1.length = shelf.entries.size := by
    rw [Shelf.clearWorld, List.length_map, List.filter_eq_self.2, Std.HashMap.length_toList]
    intro entry member
    have stored := Std.HashMap.mem_toList_iff_getElem?_eq_some.1 member
    exact beq_iff_eq.2 (only _ (Std.HashMap.mem_iff_isSome_getElem?.2 (by rw [stored]; rfl)))
  omega

end Shelf

/-! ## The workers -/

namespace TaskPool

variable {J : Type} {pool next : TaskPool J} {job : J}

/-- Every job submitted was dropped, has ended or is counted as pending, and those counted as
pending are the ones queued and running. -/
structure Balanced (pool : TaskPool J) : Prop where
  submitted : pool.submitted = pool.dropped + pool.completed + pool.panicked + pool.pending
  pending : pool.pending = pool.queue.length + pool.running.length

structure Unmanned (pool : TaskPool J) : Prop where
  workers : pool.workers = 0
  queue : pool.queue = []
  running : pool.running = []
  dropped : pool.dropped = pool.submitted

theorem Balanced.submit (balanced : pool.Balanced) (job : J) : (pool.submit job).2.Balanced := by
  obtain ⟨submitted, pending⟩ := balanced
  rcases pool.submit_cases job with same | ⟨_, same⟩
  · rw [same]
    refine ⟨?_, pending⟩
    simp only
    omega
  · rw [same]
    constructor
    · simp only
      omega
    · simp only [List.length_append, List.length_singleton]
      omega

theorem Balanced.start (balanced : pool.Balanced) (started : pool.start? = some (job, next)) :
    next.Balanced := by
  obtain ⟨queue, running, same⟩ := start?_spec started
  obtain ⟨submitted, pending⟩ := balanced
  rw [queue, List.length_cons] at pending
  rw [same]
  refine ⟨submitted, ?_⟩
  simp only [running, List.length_append, List.length_singleton]
  omega

theorem Balanced.finish (balanced : pool.Balanced) (place : Nat) (panics : Bool) :
    (pool.finish place panics).Balanced := by
  unfold TaskPool.finish
  split
  case isTrue bound =>
    obtain ⟨submitted, pending⟩ := balanced
    -- The job that ends is pending itself, so the count does not stop at zero.
    have left := List.length_eraseIdx_add_one bound
    constructor
    · cases panics <;> simp <;> omega
    · simp only
      omega
  case isFalse => exact balanced

theorem finish_counts {place : Nat} (bound : place < pool.running.length) (panics : Bool) :
    (pool.finish place panics).submitted = pool.submitted ∧
      (pool.finish place panics).completed + (pool.finish place panics).panicked =
        pool.completed + pool.panicked + 1 := by
  unfold TaskPool.finish
  rw [if_pos bound]
  cases panics with
  | true => exact ⟨rfl, rfl⟩
  | false => exact ⟨rfl, Nat.add_right_comm ..⟩

theorem Unmanned.submit (unmanned : pool.Unmanned) (job : J) : (pool.submit job).2.Unmanned := by
  obtain ⟨workers, queue, running, dropped⟩ := unmanned
  rcases pool.submit_cases job with same | ⟨manned, _⟩
  · rw [same]
    exact ⟨workers, queue, running, congrArg (· + 1) dropped⟩
  · exact (manned workers).elim

end TaskPool

/-! ## The counters -/

structure Ledger where
  submits : Nat := 0
  takes : Nat := 0
  stored : Nat := 0
  cleared : Nat := 0

/-- The counters agree with the ledger when `handing` submissions have not reached the workers and
`ending` jobs are through with their grid, but still at work. -/
structure NoisePrecalc.Balances (p : NoisePrecalc) (l : Ledger) (handing ending : Nat) : Prop where
  asked : l.submits = p.submitted + p.duplicate
  handed : p.submitted = p.tasks.submitted + handing
  pool : p.tasks.Balanced
  ended : p.tasks.completed + p.tasks.panicked + ending = p.abandoned + l.stored
  grids : l.stored = p.hits + p.stale + p.evicted + l.cleared + p.shelf.entries.size
  taken : l.takes = p.hits + p.misses
  stale : p.stale ≤ p.misses

namespace NoisePrecalc

variable {p : NoisePrecalc} {l : Ledger} {handing ending : Nat}

theorem balances_start (workers queueCapacity cacheCapacity timeToLive : Nat) :
    (start workers queueCapacity cacheCapacity timeToLive).Balances {} 0 0 :=
  ⟨rfl, rfl, ⟨rfl, rfl⟩, rfl, rfl, rfl, Nat.le_refl 0⟩

theorem tasks_recycleAll (p : NoisePrecalc) (grids : List NoiseGrid) :
    (p.recycleAll grids).tasks = p.tasks := by
  obtain ⟨buffers, same⟩ := recycleAll_eq p grids
  rw [same]

theorem stats_clearWorld (p : NoisePrecalc) (world : UInt32) :
    (p.clearWorld world).stats =
      { p.stats with entries := (p.shelf.clearWorld world).2.entries.size } := by
  obtain ⟨buffers, same⟩ := recycleAll_eq
    { p with shelf := (p.shelf.clearWorld world).2 } (p.shelf.clearWorld world).1
  exact congrArg stats same

theorem tasks_store (p : NoisePrecalc) (key : GridKey) (grid : NoiseGrid) (now : Instant) :
    (p.store key grid now).tasks = p.tasks := by
  unfold store
  cases p.shelf.store? key grid now with
  | none => rfl
  | some next => exact tasks_recycleAll ..

namespace Balances

theorem of_entries {q : NoisePrecalc} (balances : p.Balances l handing ending)
    (counters : q = { p with shelf := q.shelf, buffers := q.buffers })
    (same : q.shelf.entries = p.shelf.entries) : q.Balances l handing ending := by
  obtain ⟨asked, handed, pool, ended, grids, taken, stale⟩ := balances
  rw [← same] at grids
  rw [counters]
  exact ⟨asked, handed, pool, ended, grids, taken, stale⟩

theorem afterTake (balances : p.Balances l handing ending) (layers : LayerSet) (cube : CubeCoord)
    (now : Instant) :
    (p.afterTake layers cube now).Balances { l with takes := l.takes + 1 } handing ending := by
  obtain ⟨asked, handed, pool, ended, grids, taken, stale⟩ := balances
  have size := Shelf.size_erase_add p.shelf.entries ⟨layers.world, cube⟩
  unfold NoisePrecalc.afterTake Shelf.remove
  cases found : p.shelf.entries[(⟨layers.world, cube⟩ : GridKey)]? with
  | none =>
    rw [found] at size
    simp only [Option.isSome_none, Bool.toNat_false, Nat.add_zero] at size
    refine ⟨asked, handed, pool, ended, ?_, ?_, ?_⟩
    · simp only [takeBuffer, size, grids]
    · simp only [takeBuffer, taken, Nat.add_assoc]
    · exact stale.trans (Nat.le_succ _)
  | some shelved =>
    rw [found] at size
    simp only [Option.isSome_some, Bool.toNat_true] at size
    simp only
    split
    case isTrue =>
      refine ⟨asked, handed, pool, ended, ?_, ?_, stale⟩
      · simp only
        omega
      · simp only
        omega
    case isFalse =>
      refine ⟨asked, handed, pool, ended, ?_, ?_, ?_⟩
      · simp only [takeBuffer, recycle]
        omega
      · simp only [takeBuffer, recycle]
        omega
      · exact Nat.succ_le_succ stale

theorem recycleAll (balances : p.Balances l handing ending) (grids : List NoiseGrid) :
    (p.recycleAll grids).Balances l handing ending := by
  obtain ⟨buffers, same⟩ := recycleAll_eq p grids
  rw [same]
  exact balances.of_entries rfl rfl

theorem clearWorld (balances : p.Balances l handing ending) (world : UInt32) :
    (p.clearWorld world).Balances
      { l with cleared := l.cleared + (p.shelf.clearWorld world).1.length } handing ending := by
  obtain ⟨asked, handed, pool, ended, grids, taken, stale⟩ := balances
  have size := p.shelf.size_clearWorld world
  apply recycleAll
  refine ⟨asked, handed, pool, ended, ?_, taken, stale⟩
  change l.stored = p.hits + p.stale + p.evicted +
    (l.cleared + (p.shelf.clearWorld world).1.length) + (p.shelf.clearWorld world).2.entries.size
  omega

theorem abandon (balances : p.Balances l handing ending) (shelf : Shelf)
    (same : shelf.entries = p.shelf.entries) :
    ({ p with shelf, abandoned := p.abandoned + 1 } : NoisePrecalc).Balances l handing
      (ending + 1) := by
  obtain ⟨asked, handed, pool, ended, grids, taken, stale⟩ := balances
  refine ⟨asked, handed, pool, ?_, ?_, taken, stale⟩
  · simp only
    omega
  · simp only [same, grids]

theorem store (balances : p.Balances l handing ending) (orderly : p.shelf.Orderly) (key : GridKey)
    (grid : NoiseGrid) (now : Instant) :
    (p.store key grid now).Balances
      { l with stored := l.stored + (p.shelf.store? key grid now).isSome.toNat } handing
      (ending + 1) := by
  unfold NoisePrecalc.store
  cases stored : p.shelf.store? key grid now with
  | some next =>
    obtain ⟨asked, handed, pool, ended, grids, taken, stale⟩ := balances
    have size := Shelf.size_store orderly stored
    have evicted := next.size_evict p.capacity p.timeToLive now
    apply recycleAll
    refine ⟨asked, handed, pool, ?_, ?_, taken, stale⟩
    · change p.tasks.completed + p.tasks.panicked + (ending + 1) = p.abandoned + (l.stored + 1)
      omega
    · change l.stored + 1 = p.hits + p.stale +
        (p.evicted + (next.evict p.capacity p.timeToLive now).2.length) + l.cleared +
        (next.evict p.capacity p.timeToLive now).1.entries.size
      omega
  | none => exact (balances.abandon p.shelf rfl).of_entries rfl rfl

theorem finish (balances : p.Balances l handing (ending + 1)) {place : Nat}
    (bound : place < p.tasks.running.length) (panics : Bool) :
    ({ p with tasks := p.tasks.finish place panics } : NoisePrecalc).Balances l handing ending := by
  obtain ⟨asked, handed, pool, ended, grids, taken, stale⟩ := balances
  obtain ⟨submitted, done⟩ := TaskPool.finish_counts bound panics
  refine ⟨asked, ?_, pool.finish place panics, ?_, grids, taken, stale⟩
  · simp only [submitted]
    exact handed
  · simp only
    omega

theorem handOver (balances : p.Balances l (handing + 1) ending) (job : GridJob) :
    ({ p with tasks := (p.tasks.submit job).2 } : NoisePrecalc).Balances l handing ending := by
  obtain ⟨asked, handed, pool, ended, grids, taken, stale⟩ := balances
  have submitted := pool.submit job
  rcases p.tasks.submit_cases job with same | ⟨_, same⟩
  · rw [same] at submitted ⊢
    refine ⟨asked, ?_, submitted, ended, grids, taken, stale⟩
    simp only
    omega
  · rw [same] at submitted ⊢
    refine ⟨asked, ?_, submitted, ended, grids, taken, stale⟩
    simp only
    omega

end Balances

end NoisePrecalc

/-! ## Sections -/

namespace Workshop

def stored (w : Workshop) : JobMove → Nat
  | .store place now =>
      match w.precalc.tasks.running[place]?, w.bench[place]? with
      | some job, some (some buffer) =>
          match job.layers.compute job.cube buffer with
          | .ok grid => (w.precalc.shelf.store? job.key grid now).isSome.toNat
          | .error _ => 0
      | _, _ => 0
  | _ => 0

variable {w : Workshop} {l : Ledger} {handing : Nat}

theorem balances_move (orderly : w.precalc.shelf.Orderly)
    (balances : w.precalc.Balances l handing 0) (m : JobMove) :
    (w.move m).precalc.Balances { l with stored := l.stored + w.stored m } handing 0 := by
  cases m with
  | start =>
    simp only [move]
    cases started : w.precalc.tasks.start? with
    | none => exact balances
    | some out =>
      obtain ⟨_, _, same⟩ := TaskPool.start?_spec started
      obtain ⟨asked, handed, pool, ended, grids, taken, stale⟩ := balances
      refine ⟨asked, ?_, pool.start started, ?_, grids, taken, stale⟩
      · simp only
        rw [same]
        exact handed
      · simp only
        rw [same]
        exact ended
  | check place =>
    simp only [move]
    split
    case h_1 job running _ =>
      have bound := (List.getElem?_eq_some_iff.1 running).1
      unfold checkAt NoisePrecalc.check
      by_cases wanted : w.precalc.shelf.pending.contains job.key
      · simp only [wanted, if_true]
        exact balances.of_entries rfl rfl
      · simp only [wanted]
        exact (balances.abandon w.precalc.shelf rfl).finish bound false
    case h_2 => exact balances
  | store place now =>
    simp only [move, stored]
    cases running : w.precalc.tasks.running[place]? with
    | none => exact balances
    | some job =>
      have bound := (List.getElem?_eq_some_iff.1 running).1
      cases bench : w.bench[place]? with
      | none => exact balances
      | some task =>
        cases task with
        | none => exact balances
        | some buffer =>
          simp only [storeAt]
          cases job.layers.compute job.cube buffer with
          | error fault =>
            exact (balances.abandon (w.precalc.shelf.forget job.key) rfl).finish bound true
          | ok grid =>
            have shelved := balances.store orderly job.key grid now
            apply shelved.finish
            rw [NoisePrecalc.tasks_store]
            exact bound
  | panic place =>
    simp only [move]
    split
    case h_1 job _ running _ =>
      have bound := (List.getElem?_eq_some_iff.1 running).1
      exact (balances.abandon (w.precalc.shelf.forget job.key) rfl).finish bound true
    case h_2 => exact balances

end Workshop

def Ledger.record (l : Ledger) (s : Depot) : DepotMove → Ledger
  | .reserve _ _ => { l with submits := l.submits + 1 }
  | .take _ _ _ => { l with takes := l.takes + 1 }
  | .clearWorld world =>
      { l with cleared := l.cleared + (s.precalc.shelf.clearWorld world).1.length }
  | .background m => { l with stored := l.stored + s.toWorkshop.stored m }
  | _ => l

def Ledger.after (l : Ledger) (s : Depot) : List DepotMove → Ledger
  | [] => l
  | m :: history => (l.record s m).after (s.move m) history

namespace Depot

variable {s : Depot} {l : Ledger}

theorem balances_move (orderly : s.precalc.shelf.Orderly)
    (balances : s.precalc.Balances l s.reserved.length 0) (m : DepotMove) :
    (s.move m).precalc.Balances (l.record s m) (s.move m).reserved.length 0 := by
  cases m with
  | reserve layers cube =>
    obtain ⟨asked, handed, pool, ended, grids, taken, stale⟩ := balances
    rcases s.reserve_cases ⟨layers, cube⟩ with ⟨shelf, noted, same⟩ | same
    · obtain ⟨entries, _⟩ := Shelf.reserve?_spec noted
      simp only [move, same, List.length_append, List.length_singleton]
      refine ⟨?_, ?_, pool, ended, ?_, taken, stale⟩
      · simp only [Ledger.record]
        omega
      · simp only
        omega
      · simp only [Ledger.record, entries, grids]
    · simp only [move, same]
      refine ⟨?_, handed, pool, ended, grids, taken, stale⟩
      simp only [Ledger.record]
      omega
  | enqueue place =>
    cases found : s.reserved[place]? with
    | none => simpa [move, found, Ledger.record] using balances
    | some job =>
      obtain ⟨precalc, reserved⟩ := s.handOver_spec place job
      have bound := (List.getElem?_eq_some_iff.1 found).1
      simp only [move, found, Option.elim_some, precalc, reserved]
      apply NoisePrecalc.Balances.handOver
      rw [List.length_eraseIdx_add_one bound]
      exact balances
  | undo place =>
    cases found : s.refused[place]? with
    | none => simpa [move, found, Ledger.record] using balances
    | some key =>
      simp only [move, found, Option.elim_some, giveUp]
      exact balances.of_entries rfl rfl
  | take layers cube now => exact balances.afterTake layers cube now
  | recycle grid => exact balances.of_entries rfl rfl
  | clearWorld world => exact balances.clearWorld world
  | background m => exact Workshop.balances_move orderly balances m

theorem balances_after {capacity : Nat} (inOrder : s.precalc.InOrder capacity)
    (balances : s.precalc.Balances l s.reserved.length 0) (history : List DepotMove) :
    (s.after history).precalc.Balances (l.after s history) (s.after history).reserved.length 0 := by
  induction history generalizing s l with
  | nil => exact balances
  | cons m history ih => exact ih (inOrder_move inOrder m) (balances_move inOrder.orderly balances m)

structure Unmanned (s : Depot) : Prop where
  tasks : s.precalc.tasks.Unmanned
  asked : ∀ key ∈ s.precalc.shelf.pending, key ∈ s.reserved.map GridJob.key ∨ key ∈ s.refused

end Depot

theorem Workshop.move_unmanned {w : Workshop} (unmanned : w.precalc.tasks.Unmanned)
    (m : JobMove) : w.move m = w := by
  have idle : w.precalc.tasks.start? = none := by
    unfold TaskPool.start?
    rw [unmanned.queue]
  cases m with
  | start => simp only [move, idle]
  | check place => simp [move, unmanned.running]
  | store place now => simp [move, unmanned.running]
  | panic place => simp [move, unmanned.running]

namespace Depot

variable {s : Depot} {l : Ledger}

theorem mem_eraseIdx_or {α : Type} {list : List α} {place : Nat} {item other : α}
    (found : list[place]? = some item) (member : other ∈ list) :
    other = item ∨ other ∈ list.eraseIdx place := by
  obtain ⟨bound, same⟩ := List.getElem?_eq_some_iff.1 found
  have reordered := (List.getElem_cons_eraseIdx_perm bound).mem_iff.2 member
  rwa [same, List.mem_cons] at reordered

theorem Unmanned.handOver (unmanned : s.Unmanned) {place : Nat} {job : GridJob}
    (found : s.reserved[place]? = some job) : (s.handOver place job).Unmanned := by
  obtain ⟨tasks, asked⟩ := unmanned
  have refused := tasks.submit job
  unfold Depot.handOver
  rcases s.precalc.tasks.submit_cases job with same | ⟨manned, _⟩
  · rw [same] at refused ⊢
    refine ⟨refused, ?_⟩
    intro key member
    simp only [List.mem_append, List.mem_singleton]
    rcases asked key member with waiting | older
    · obtain ⟨other, known, rfl⟩ := List.mem_map.1 waiting
      rcases mem_eraseIdx_or found known with same | left
      · exact .inr (.inr (congrArg GridJob.key same))
      · exact .inl (List.mem_map_of_mem left)
    · exact .inr (.inl older)
  · exact (manned tasks.workers).elim

theorem Unmanned.move (unmanned : s.Unmanned) (m : DepotMove) : (s.move m).Unmanned := by
  obtain ⟨tasks, asked⟩ := unmanned
  cases m with
  | reserve layers cube =>
    rcases s.reserve_cases ⟨layers, cube⟩ with ⟨shelf, noted, same⟩ | same
    · simp only [Depot.move, same]
      refine ⟨tasks, ?_⟩
      intro key member
      rw [List.map_append, List.mem_append]
      rcases (Shelf.mem_pending_reserve noted key).1 member with new | old
      · exact .inl (.inr (by simp [new]))
      · exact (asked key old).imp_left .inl
    · simp only [Depot.move, same]
      exact ⟨tasks, asked⟩
  | enqueue place =>
    cases found : s.reserved[place]? with
    | none => simpa [Depot.move, found] using ⟨tasks, asked⟩
    | some job =>
      simp only [Depot.move, found, Option.elim_some]
      exact Unmanned.handOver ⟨tasks, asked⟩ found
  | undo place =>
    cases found : s.refused[place]? with
    | none => simpa [Depot.move, found] using ⟨tasks, asked⟩
    | some gone =>
      simp only [Depot.move, found, Option.elim_some, giveUp]
      refine ⟨tasks, ?_⟩
      intro key member
      obtain ⟨other, member⟩ := Std.HashSet.mem_erase.1 member
      rw [beq_eq_false_iff_ne] at other
      exact (asked key member).imp_right fun refused =>
        (mem_eraseIdx_or found refused).resolve_left (Ne.symm other)
  | take layers cube now =>
    obtain ⟨shelf, same, _⟩ := s.precalc.afterTake_spec layers cube now
    refine ⟨same ▸ tasks, ?_⟩
    intro key member
    change key ∈ (s.precalc.afterTake layers cube now).shelf.pending at member
    rw [shelf] at member
    exact asked key (Std.HashSet.mem_erase.1 member).2
  | recycle grid => exact ⟨tasks, asked⟩
  | clearWorld world =>
    refine ⟨?_, ?_⟩
    · change (s.precalc.clearWorld world).tasks.Unmanned
      rw [NoisePrecalc.clearWorld, NoisePrecalc.tasks_recycleAll]
      exact tasks
    · intro key member
      change key ∈ (s.precalc.clearWorld world).shelf.pending at member
      rw [(s.precalc.shelf_clearWorld world).1, Shelf.mem_pending_clearWorld] at member
      exact asked key member.1
  | background m =>
    have same : s.move (.background m) = s := by
      rw [Depot.move, Workshop.move_unmanned tasks]
    rw [same]
    exact ⟨tasks, asked⟩

/-- Between the sections of calls, whatever calls and jobs did and in whatever order. -/
theorem accounts_after (workers queueCapacity cacheCapacity timeToLive : Nat)
    (history : List DepotMove) :
    let first := start workers queueCapacity cacheCapacity timeToLive
    let s := first.after history
    let l := ({} : Ledger).after first history
    let p := s.precalc.stats
    s.reserved = [] → s.refused = [] →
      l.submits = p.submitted + p.duplicate ∧
      p.submitted = p.tasks.submitted ∧
      p.tasks.submitted =
        p.tasks.dropped + p.tasks.completed + p.tasks.panicked + p.tasks.pending ∧
      p.tasks.pending = s.precalc.tasks.queue.length + s.precalc.tasks.running.length ∧
      p.tasks.completed + p.tasks.panicked = p.abandoned + l.stored ∧
      l.stored = p.hits + p.stale + p.evicted + l.cleared + p.entries ∧
      l.takes = p.hits + p.misses ∧
      p.stale ≤ p.misses ∧
      (workers = 0 →
        p.tasks.dropped = p.submitted ∧ ∀ key, key ∉ s.precalc.shelf.pending) := by
  intro first s l p reserved refused
  have inOrder : first.precalc.InOrder (max cacheCapacity 1) := NoisePrecalc.inOrder_start ..
  have balances := balances_after inOrder (NoisePrecalc.balances_start ..) history
  obtain ⟨asked, handed, pool, ended, grids, taken, stale⟩ := balances
  have handed : p.submitted = p.tasks.submitted := by
    rw [show (first.after history).reserved = [] from reserved] at handed
    exact handed
  refine ⟨asked, handed, pool.submitted, pool.pending, ended, grids, taken, stale, ?_⟩
  intro unattended
  -- No job was ever accepted, and the call that left a key pending would still be under way.
  have initial : first.Unmanned := by
    refine ⟨⟨unattended, rfl, rfl, rfl⟩, ?_⟩
    simp [first, start, NoisePrecalc.start]
  have unmanned : s.Unmanned := after_invariant initial fun m _ s unmanned => unmanned.move m
  constructor
  · exact unmanned.tasks.dropped.trans handed.symm
  · intro key member
    rcases unmanned.asked key member with waiting | turned
    · rw [reserved] at waiting
      cases waiting
    · rw [refused] at turned
      cases turned

def unattended : List DepotMove :=
  [.reserve (strata 1) ⟨0, 0, 0⟩, .enqueue 0, .undo 0, .take (strata 1) ⟨0, 0, 0⟩ 9]

def asking (x : Int32) : List DepotMove := [.reserve (strata 1) ⟨x, 0, 0⟩, .enqueue 0]

def working (last : JobMove) : List DepotMove :=
  [.background .start, .background (.check 0), .background last]

/-- Of three grids asked for, two find a worker. The later of the two drives the other off the
shelf, and is taken. -/
def morning : List DepotMove :=
  List.flatten [asking 0, [.reserve (strata 1) ⟨0, 0, 0⟩], asking 1, asking 2, [.undo 0],
    [.background .start, .background .start, .background (.check 0), .background (.check 1),
      .background (.store 1 5), .background (.store 0 6)],
    [.take (strata 1) ⟨0, 0, 0⟩ 9]]

/-- One job panics, one finds that its caller did not wait, one grid is taken too late, and one is
still there in the end, when another is asked for. -/
def afternoon : List DepotMove :=
  List.flatten [asking 1, working (.panic 0),
    asking 1, [.take (strata 1) ⟨1, 0, 0⟩ 10, .background .start, .background (.check 0)],
    asking 0, working (.store 0 12), [.take (strata 1) ⟨0, 0, 0⟩ 113],
    asking 1, working (.store 0 120), asking 0]

def atNoon (shelf : Shelf) (buffers : Pool (Array Float)) : NoisePrecalc :=
  { shelf, buffers
    capacity := 1
    timeToLive := 100
    tasks := { workers := 2, capacity := 2, submitted := 3, dropped := 1, completed := 2 }
    hits := 1
    submitted := 3
    duplicate := 1
    evicted := 1 }

def atNight (shelf : Shelf) (buffers : Pool (Array Float)) : NoisePrecalc :=
  { shelf, buffers
    capacity := 1
    timeToLive := 100
    tasks :=
      { workers := 2, capacity := 2, queue := [⟨strata 1, ⟨0, 0, 0⟩⟩], submitted := 8
        dropped := 1, completed := 5, panicked := 1, pending := 1 }
    hits := 1
    misses := 2
    stale := 1
    submitted := 8
    duplicate := 1
    abandoned := 2
    evicted := 1 }

def dayStats : PrecalcStats where
  hits := 1
  misses := 2
  stale := 1
  submitted := 8
  duplicate := 1
  abandoned := 2
  evicted := 1
  entries := 0
  tasks := { submitted := 8, dropped := 1, completed := 5, panicked := 1, pending := 1 }

section Day

variable {near far : NoiseGrid}

theorem exists_strata {x : Int32} {corner : BlockPos}
    (reaches : CubeCoord.Reaches ⟨x, 0, 0⟩ corner) :
    ∃ grid, (∀ buffer, (strata 1).compute ⟨x, 0, 0⟩ buffer = .ok grid) ∧
      grid.fits (strata 1) ⟨x, 0, 0⟩ := by
  have divides : ∀ l ∈ (strata 1).layers, l.span ∣ cubeSize := by decide
  have computed (buffer : Array Float) := LayerSet.compute_eq reaches divides buffer
  exact ⟨_, computed, (LayerSet.fits_iff_of_compute (computed #[]) _).2 ⟨rfl, rfl, rfl⟩⟩

theorem after_morning (first : ∀ buffer, (strata 1).compute ⟨0, 0, 0⟩ buffer = .ok near)
    (second : ∀ buffer, (strata 1).compute ⟨1, 0, 0⟩ buffer = .ok far)
    (fits : near.fits (strata 1) ⟨0, 0, 0⟩) :
    ∃ entries pending buffers,
      (start 2 2 1 100).after morning =
          { precalc := atNoon ⟨entries, [], pending⟩ buffers } ∧
        (∀ key, key ∉ entries) ∧ ∀ key, key ∉ pending := by
  have world : (strata 1).world = 7 := rfl
  simp [after, morning, asking, move, reserve, NoisePrecalc.reserve, start, NoisePrecalc.start,
    Shelf.reserve?, TaskPool.ofWorkers, handOver, TaskPool.submit, Workshop.move, TaskPool.start?,
    giveUp, Shelf.forget, Workshop.checkAt, Workshop.storeAt, NoisePrecalc.check,
    NoisePrecalc.takeBuffer, NoisePrecalc.store, Shelf.store?, GridJob.key, first, second,
    Workshop.leave, TaskPool.finish, NoisePrecalc.afterTake, Shelf.remove, Shelf.evict,
    Shelf.evictFrom, Shelf.hasExpired, NoisePrecalc.recycleAll, NoisePrecalc.recycle, fits, world,
    Pool.take, Pool.put, Pool.ofCapacity, atNoon]
  -- the keys that were put in are those that were taken out
  tauto

theorem after_afternoon (first : ∀ buffer, (strata 1).compute ⟨0, 0, 0⟩ buffer = .ok near)
    (second : ∀ buffer, (strata 1).compute ⟨1, 0, 0⟩ buffer = .ok far)
    {entries : Std.HashMap GridKey ShelvedGrid} {pending : Std.HashSet GridKey}
    (empty : ∀ key, key ∉ entries) (settled : ∀ key, key ∉ pending)
    (buffers : Pool (Array Float)) :
    ∃ shelf buffers',
      after { precalc := atNoon ⟨entries, [], pending⟩ buffers } afternoon =
          { precalc := atNight shelf buffers' } ∧
        ∀ key ∈ shelf.entries, key.world = 7 := by
  have world : (strata 1).world = 7 := rfl
  simp [after, afternoon, asking, working, move, reserve, NoisePrecalc.reserve, Shelf.reserve?,
    handOver, TaskPool.submit, Workshop.move, TaskPool.start?, Shelf.forget, Workshop.checkAt,
    Workshop.storeAt, NoisePrecalc.check, NoisePrecalc.takeBuffer, NoisePrecalc.store,
    Shelf.store?, GridJob.key, first, second, Workshop.leave, TaskPool.finish,
    NoisePrecalc.abandon, NoisePrecalc.afterTake, Shelf.remove, Shelf.evict, Shelf.evictFrom,
    Shelf.hasExpired, NoisePrecalc.recycleAll, NoisePrecalc.recycle, world, Pool.take, Pool.put,
    atNoon, atNight, empty, settled]

end Day

theorem exists_busy_day : ∃ shelf buffers,
    (start 2 2 1 100).after (morning ++ afternoon) = { precalc := atNight shelf buffers } ∧
      ∀ key ∈ shelf.entries, key.world = 7 := by
  have left : CubeCoord.Reaches ⟨0, 0, 0⟩ ⟨0, 0, 0⟩ := ⟨rfl, ⟨16, 16, 16⟩, rfl⟩
  have right : CubeCoord.Reaches ⟨1, 0, 0⟩ ⟨16, 0, 0⟩ := ⟨rfl, ⟨32, 16, 16⟩, rfl⟩
  obtain ⟨near, first, fits⟩ := exists_strata left
  obtain ⟨far, second, _⟩ := exists_strata right
  obtain ⟨entries, pending, buffers, noon, empty, settled⟩ := after_morning first second fits
  rw [after_append, noon]
  exact after_afternoon first second empty settled buffers

/-- A day's work, after which the world is cleared, and a shelf that nobody works for. -/
theorem accounts_after_busy_day :
    let first := start 2 2 1 100
    let history := morning ++ afternoon ++ [.clearWorld 7]
    let s := first.after history
    let l := ({} : Ledger).after first history
    let alone := (start 0 4 8 100).after unattended
    (s.reserved = [] ∧ s.refused = [] ∧ s.precalc.stats = dayStats ∧
      l.submits = 9 ∧ l.takes = 3 ∧ l.stored = 4 ∧ l.cleared = 1 ∧
      s.precalc.tasks.queue.length + s.precalc.tasks.running.length = 1) ∧
    alone.reserved = [] ∧ alone.refused = [] ∧
      alone.precalc.stats.submitted + alone.precalc.stats.duplicate = 1 ∧
      alone.precalc.stats.hits + alone.precalc.stats.misses = 1 ∧
      alone.precalc.stats.tasks.dropped = alone.precalc.stats.submitted ∧
      ∀ key, key ∉ alone.precalc.shelf.pending := by
  intro first history s l alone
  constructor
  · obtain ⟨shelf, buffers, night, only⟩ := exists_busy_day
    have whole : (start 2 2 1 100).after (morning ++ afternoon ++ [.clearWorld 7]) =
        { precalc := (atNight shelf buffers).clearWorld 7 } := by
      rw [after_append, night]
      rfl
    have stats : ((atNight shelf buffers).clearWorld 7).stats = dayStats := by
      have cleared := (atNight shelf buffers).stats_clearWorld 7
      rw [show (atNight shelf buffers).shelf = shelf from rfl, Shelf.size_clearWorld_eq_zero only]
        at cleared
      exact cleared
    have ledger : ({} : Ledger).after (start 2 2 1 100)
        (morning ++ afternoon ++ [.clearWorld 7]) = l := rfl
    have accounts := accounts_after 2 2 1 100 (morning ++ afternoon ++ [.clearWorld 7])
    simp only [whole, stats, ledger] at accounts
    obtain ⟨asked, _, _, pending, ended, grids, taken, _, _⟩ := accounts trivial trivial
    simp only [dayStats] at asked pending ended grids taken
    rw [show s = _ from whole]
    refine ⟨rfl, rfl, stats, asked, taken, ?_, ?_, pending.symm⟩
    · omega
    · omega
  · have whole : alone = Depot.move
        ⟨⟨(NoisePrecalc.start 0 4 8 100).submit (strata 1) ⟨0, 0, 0⟩, []⟩, [], []⟩
          (.take (strata 1) ⟨0, 0, 0⟩ 9) := by
      rw [← after_submit]
      rfl
    have reserved : alone.reserved = [] := by rw [whole]; rfl
    have refused : alone.refused = [] := by rw [whole]; rfl
    obtain ⟨asked, _, _, _, _, _, taken, _, unmanned⟩ :=
      accounts_after 0 4 8 100 unattended reserved refused
    obtain ⟨dropped, settled⟩ := unmanned rfl
    exact ⟨reserved, refused, asked.symm, taken.symm, dropped, settled⟩

end Depot

end Karst
