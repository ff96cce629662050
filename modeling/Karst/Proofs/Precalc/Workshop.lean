import Karst.Precalc.Basic
import Karst.Proofs.Noise.Grid
import Karst.Proofs.Precalc.Shelf

/-!
Background work between calls. A running job looks whether its grid is still asked for, and later
shelves it or panics; each of the two steps may come at any time and in any order among the jobs.
Whatever they do, every grid on the shelf is one that was asked for, computed in full.
-/

namespace Karst

open Guarded

/-- Every running job has a place on the bench: the buffer it computes in, once it found its grid
still asked for. -/
structure Workshop where
  precalc : NoisePrecalc
  bench : List (Option (Array Float)) := []

inductive JobMove where
  /-- A free worker takes up the job that waited longest. -/
  | start
  | check (place : Nat)
  | store (place : Nat) (now : Instant)
  | panic (place : Nat)

namespace Workshop

def leave (w : Workshop) (place : Nat) (panics : Bool) : Workshop :=
  ⟨{ w.precalc with tasks := w.precalc.tasks.finish place panics }, w.bench.eraseIdx place⟩

def checkAt (w : Workshop) (place : Nat) (job : GridJob) : Workshop :=
  match w.precalc.check job.key with
  | (true, p) =>
      let (buffer, p) := p.takeBuffer
      ⟨p, w.bench.set place (some buffer)⟩
  | (false, p) => { w with precalc := p }.leave place false

def storeAt (w : Workshop) (place : Nat) (job : GridJob) (buffer : Array Float) (now : Instant) :
    Workshop :=
  match job.layers.compute job.cube buffer with
  | .ok grid => { w with precalc := w.precalc.store job.key grid now }.leave place false
  | .error _ => { w with precalc := w.precalc.abandon job.key }.leave place true

def move (w : Workshop) : JobMove → Workshop
  | .start =>
      match w.precalc.tasks.start? with
      | some (_, tasks) => ⟨{ w.precalc with tasks }, w.bench ++ [none]⟩
      | none => w
  | .check place =>
      match w.precalc.tasks.running[place]?, w.bench[place]? with
      | some job, some none => w.checkAt place job
      | _, _ => w
  | .store place now =>
      match w.precalc.tasks.running[place]?, w.bench[place]? with
      | some job, some (some buffer) => w.storeAt place job buffer now
      | _, _ => w
  | .panic place =>
      match w.precalc.tasks.running[place]?, w.bench[place]? with
      | some job, some (some _) => { w with precalc := w.precalc.abandon job.key }.leave place true
      | _, _ => w

end Workshop

theorem Shelf.getElem?_evictFrom {capacity timeToLive : Nat} {now : Instant}
    {pending : Std.HashSet GridKey} {order : List GridKey}
    {entries : Std.HashMap GridKey ShelvedGrid} {gone : List NoiseGrid} {key : GridKey}
    {shelved : ShelvedGrid}
    (stays : (evictFrom capacity timeToLive now pending order entries gone).1.entries[key]? =
      some shelved) : entries[key]? = some shelved := by
  induction order generalizing entries gone with
  | nil => exact stays
  | cons first order ih =>
    rw [evictFrom] at stays
    split at stays
    case h_1 => exact ih stays
    case h_2 =>
      split at stays
      case isTrue =>
        have left := ih stays
        rw [Std.HashMap.getElem?_erase] at left
        split at left
        case isTrue => cases left
        case isFalse => exact left
      case isFalse => exact stays

namespace TaskPool

variable {J : Type} {pool : TaskPool J}

theorem submit_cases (pool : TaskPool J) (job : J) :
    pool.submit job = (false,
      { pool with submitted := pool.submitted + 1, dropped := pool.dropped + 1 }) ∨
    pool.workers ≠ 0 ∧ pool.submit job = (true,
      { pool with
        submitted := pool.submitted + 1, queue := pool.queue ++ [job]
        pending := pool.pending + 1 }) := by
  unfold submit
  by_cases unmanned : pool.workers = 0
  · exact .inl (if_pos unmanned)
  · simp only [if_neg unmanned]
    by_cases room : pool.queue.length < pool.capacity
    · exact .inr ⟨unmanned, if_pos room⟩
    · exact .inl (if_neg room)

theorem submit_spec (pool : TaskPool J) (job : J) :
    (pool.submit job).2.running = pool.running ∧
      ∀ other ∈ (pool.submit job).2.queue, other ∈ pool.queue ∨ other = job := by
  rcases pool.submit_cases job with same | ⟨_, same⟩
  · rw [same]
    exact ⟨rfl, fun other member => .inl member⟩
  · rw [same]
    refine ⟨rfl, ?_⟩
    intro other member
    simpa using member

theorem start?_spec {job : J} {next : TaskPool J} (started : pool.start? = some (job, next)) :
    pool.queue = job :: next.queue ∧ next.running = pool.running ++ [job] ∧
      next = { pool with queue := next.queue, running := next.running } := by
  unfold start? at started
  split at started
  case h_1 first queue waiting =>
    split at started
    case isTrue =>
      cases started
      exact ⟨waiting, rfl, rfl⟩
    case isFalse => cases started
  case h_2 => cases started

theorem finish_spec (pool : TaskPool J) (place : Nat) (panics : Bool) :
    (pool.finish place panics).queue = pool.queue ∧
      ∀ job ∈ (pool.finish place panics).running, job ∈ pool.running := by
  unfold finish
  split
  case isTrue => exact ⟨rfl, fun job member => List.mem_of_mem_eraseIdx member⟩
  case isFalse => exact ⟨rfl, fun job member => member⟩

end TaskPool

/-- Every job is for an allowed set of layers, and every shelved grid was computed in full for its
key under such a set. -/
structure NoisePrecalc.Kept (allowed : LayerSet → Prop) (p : NoisePrecalc) : Prop where
  queued : ∀ job ∈ p.tasks.queue, allowed job.layers
  running : ∀ job ∈ p.tasks.running, allowed job.layers
  shelved : ∀ (key : GridKey) (shelved : ShelvedGrid), p.shelf.entries[key]? = some shelved →
    ∃ set, allowed set ∧ set.world = key.world ∧ set.compute key.cube #[] = .ok shelved.grid

namespace NoisePrecalc

variable {allowed : LayerSet → Prop} {p : NoisePrecalc}

theorem kept_start (workers queueCapacity cacheCapacity timeToLive : Nat) :
    (start workers queueCapacity cacheCapacity timeToLive).Kept allowed := by
  constructor <;> simp [start, TaskPool.ofWorkers]

theorem Kept.of_entries {q : NoisePrecalc} (kept : p.Kept allowed)
    (queue : q.tasks.queue = p.tasks.queue) (running : q.tasks.running = p.tasks.running)
    (fewer : ∀ (key : GridKey) (shelved : ShelvedGrid), q.shelf.entries[key]? = some shelved →
      p.shelf.entries[key]? = some shelved) : q.Kept allowed := by
  refine ⟨queue ▸ kept.queued, running ▸ kept.running, ?_⟩
  intro key shelved found
  exact kept.shelved key shelved (fewer key shelved found)

theorem recycleAll_eq (p : NoisePrecalc) (grids : List NoiseGrid) :
    ∃ buffers, p.recycleAll grids = { p with buffers } := by
  unfold recycleAll
  induction grids generalizing p with
  | nil => exact ⟨p.buffers, rfl⟩
  | cons grid grids ih =>
    obtain ⟨buffers, same⟩ := ih (p.recycle grid)
    exact ⟨buffers, same⟩

namespace Kept

theorem recycleAll (kept : p.Kept allowed) (grids : List NoiseGrid) :
    (p.recycleAll grids).Kept allowed := by
  obtain ⟨buffers, same⟩ := recycleAll_eq p grids
  rw [same]
  exact kept.of_entries rfl rfl fun _ _ found => found

theorem submit (kept : p.Kept allowed) {layers : LayerSet} (good : allowed layers)
    (cube : CubeCoord) : (p.submit layers cube).Kept allowed := by
  unfold NoisePrecalc.submit NoisePrecalc.reserve
  cases reserved : p.shelf.reserve? ⟨layers.world, cube⟩ with
  | none =>
    simp only [GridJob.key, reserved]
    exact kept.of_entries rfl rfl fun _ _ found => found
  | some shelf =>
    obtain ⟨entries, _⟩ := Shelf.reserve?_spec reserved
    obtain ⟨running, queue⟩ := p.tasks.submit_spec ⟨layers, cube⟩
    simp only [GridJob.key, reserved, enqueue]
    generalize p.tasks.submit ⟨layers, cube⟩ = outcome at running queue
    obtain ⟨accepted, tasks⟩ := outcome
    have queued : ∀ job ∈ tasks.queue, allowed job.layers := by
      intro job member
      rcases queue job member with old | rfl
      · exact kept.queued job old
      · exact good
    cases accepted with
    | true => exact ⟨queued, running ▸ kept.running, entries ▸ kept.shelved⟩
    | false => exact ⟨queued, running ▸ kept.running, entries ▸ kept.shelved⟩

theorem check (kept : p.Kept allowed) (key : GridKey) : (p.check key).2.Kept allowed := by
  unfold NoisePrecalc.check
  split
  case isTrue => exact kept
  case isFalse => exact kept.of_entries rfl rfl fun _ _ found => found

theorem abandon (kept : p.Kept allowed) (key : GridKey) : (p.abandon key).Kept allowed :=
  kept.of_entries rfl rfl fun _ _ found => found

theorem store (kept : p.Kept allowed) {job : GridJob} (good : allowed job.layers)
    {buffer : Array Float} {grid : NoiseGrid}
    (computed : job.layers.compute job.cube buffer = .ok grid) (now : Instant) :
    (p.store job.key grid now).Kept allowed := by
  unfold NoisePrecalc.store Shelf.store?
  by_cases wanted : p.shelf.pending.contains job.key
  · simp only [wanted, if_true]
    apply Kept.recycleAll
    refine ⟨kept.queued, kept.running, ?_⟩
    intro key shelved found
    have stored := Shelf.getElem?_evictFrom found
    rw [Std.HashMap.getElem?_insert] at stored
    split at stored
    case isTrue same =>
      cases stored
      obtain rfl : job.key = key := eq_of_beq same
      exact ⟨job.layers, good, rfl, job.layers.compute_buffer _ buffer ▸ computed⟩
    case isFalse => exact kept.shelved key shelved stored
  · simp only [wanted]
    exact kept.of_entries rfl rfl fun _ _ found => found

theorem start (kept : p.Kept allowed) {job : GridJob} {tasks : TaskPool GridJob}
    (started : p.tasks.start? = some (job, tasks)) :
    ({ p with tasks } : NoisePrecalc).Kept allowed ∧ allowed job.layers := by
  obtain ⟨queue, running, _⟩ := TaskPool.start?_spec started
  have good := kept.queued job (queue ▸ List.mem_cons_self ..)
  refine ⟨⟨?_, ?_, kept.shelved⟩, good⟩
  · intro other member
    exact kept.queued other (queue ▸ List.mem_cons_of_mem _ member)
  · intro other member
    simp only [running, List.mem_append, List.mem_singleton] at member
    rcases member with old | rfl
    · exact kept.running other old
    · exact good

theorem finish (kept : p.Kept allowed) (place : Nat) (panics : Bool) :
    ({ p with tasks := p.tasks.finish place panics } : NoisePrecalc).Kept allowed := by
  obtain ⟨queue, running⟩ := p.tasks.finish_spec place panics
  exact ⟨queue ▸ kept.queued, fun job member => kept.running job (running job member),
    kept.shelved⟩

theorem perform (kept : p.Kept allowed) {job : GridJob} (good : allowed job.layers)
    (now : Instant) : (p.perform job now).2.Kept allowed := by
  have checked := kept.check job.key
  unfold NoisePrecalc.perform
  generalize p.check job.key = outcome at checked
  obtain ⟨wanted, p⟩ := outcome
  cases wanted with
  | false => exact checked
  | true =>
    have taken : p.takeBuffer.2.Kept allowed := checked.of_entries rfl rfl fun _ _ found => found
    simp only
    generalize p.takeBuffer = out at taken
    obtain ⟨buffer, p⟩ := out
    cases computed : job.layers.compute job.cube buffer with
    | ok grid =>
      exact taken.store good computed now
    | error fault =>
      exact taken.abandon job.key

theorem drainUpTo (kept : p.Kept allowed) (now : Instant) (count : Nat) :
    (NoisePrecalc.drainUpTo now count p).Kept allowed := by
  induction count generalizing p with
  | zero => exact kept
  | succ count ih =>
    rw [NoisePrecalc.drainUpTo]
    split
    case h_1 job tasks started =>
      obtain ⟨taken, good⟩ := kept.start started
      exact ih ((taken.perform good now).finish _ _)
    case h_2 => exact kept

theorem clearWorld (kept : p.Kept allowed) (world : UInt32) :
    (p.clearWorld world).Kept allowed := by
  simp only [NoisePrecalc.clearWorld, Shelf.clearWorld]
  apply Kept.recycleAll
  refine kept.of_entries rfl rfl ?_
  intro key shelved found
  simp only [Std.HashMap.getElem?_filter'] at found
  exact (Option.filter_eq_some_iff.1 found).1

theorem computeMissing (kept : p.Kept allowed) (layers : LayerSet) (cube : CubeCoord) :
    Alike (fun out grid => out.1 = grid ∧ out.2.Kept allowed) (p.computeMissing layers cube)
      (layers.compute cube #[]) := by
  simp only [NoisePrecalc.computeMissing, layers.compute_buffer]
  refine (Alike.of_eq rfl).map_left ?_
  rintro grid _ rfl
  exact ⟨_, rfl, rfl, kept.of_entries rfl rfl fun _ _ found => found⟩

theorem remove (kept : p.Kept allowed) (key : GridKey) :
    ({ p with shelf := (p.shelf.remove key).2 } : NoisePrecalc).Kept allowed := by
  refine kept.of_entries rfl rfl ?_
  intro other shelved found
  simp only [Shelf.remove, Std.HashMap.getElem?_erase] at found
  split at found
  case isTrue => cases found
  case isFalse => exact found

theorem take (kept : p.Kept allowed)
    (discerning : ∀ a b : LayerSet, allowed a → allowed b → a.world = b.world →
      a.fingerprint = b.fingerprint → ∀ cube, a.compute cube #[] = b.compute cube #[])
    {layers : LayerSet} (good : allowed layers) (cube : CubeCoord) (now : Instant) :
    Alike (fun out grid => out.1 = grid ∧ out.2.Kept allowed) (p.take layers cube now)
      (layers.compute cube #[]) := by
  have removed := kept.remove ⟨layers.world, cube⟩
  simp only [NoisePrecalc.take]
  cases found : (p.shelf.remove ⟨layers.world, cube⟩).1 with
  | none => exact removed.computeMissing layers cube
  | some shelved =>
    simp only
    split
    case isTrue usable =>
      obtain ⟨set, fits, world, computed⟩ := kept.shelved _ shelved found
      simp only [NoiseGrid.fits, Bool.and_eq_true, beq_iff_eq] at usable
      have print := (LayerSet.labels_of_compute computed).2.2.symm.trans usable.2.1.2
      rw [← discerning set layers fits good world print cube, computed]
      exact .ok ⟨rfl, removed.of_entries rfl rfl fun _ _ found => found⟩
    case isFalse =>
      have put : ({ p with
          shelf := (p.shelf.remove ⟨layers.world, cube⟩).2, stale := p.stale + 1 }.recycle
            shelved.grid).Kept allowed := removed.of_entries rfl rfl fun _ _ found => found
      exact put.computeMissing layers cube

end Kept

end NoisePrecalc

theorem Workshop.kept_move {allowed : LayerSet → Prop} {w : Workshop}
    (kept : w.precalc.Kept allowed) (move : JobMove) : (w.move move).precalc.Kept allowed := by
  cases move with
  | start =>
    simp only [Workshop.move]
    cases started : w.precalc.tasks.start? with
    | none => exact kept
    | some out => exact (kept.start started).1
  | check place =>
    simp only [Workshop.move]
    split
    case h_1 job _ _ =>
      have checked := kept.check job.key
      unfold Workshop.checkAt
      generalize w.precalc.check job.key = outcome at checked
      obtain ⟨wanted, p⟩ := outcome
      cases wanted with
      | true => exact checked.of_entries rfl rfl fun _ _ found => found
      | false => exact checked.finish place false
    case h_2 => exact kept
  | store place now =>
    simp only [Workshop.move]
    split
    case h_1 job buffer running _ =>
      unfold Workshop.storeAt
      split
      case h_1 grid computed =>
        have good := kept.running job (List.mem_of_getElem? running)
        exact (kept.store good computed now).finish place false
      case h_2 => exact (kept.abandon job.key).finish place true
    case h_2 => exact kept
  | panic place =>
    simp only [Workshop.move]
    split
    case h_1 job _ _ _ => exact (kept.abandon job.key).finish place true
    case h_2 => exact kept

end Karst
