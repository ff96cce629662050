import Karst.Proofs.Noise.Fingerprint
import Karst.Proofs.Precalc.Shelf
import Karst.Proofs.Precalc.Workshop

/-!
Calls and jobs at once. A submission, a call and a job are cut wherever others may come in between,
and the pieces follow one another in any order. Whatever was done, the shelf is in order, and a grid
that is taken is the grid computed on the spot.
-/

namespace Karst

open Guarded

/-! ## The pieces and their order -/

/-- What taking a grid leaves behind, also if computing a missing one fails. -/
def NoisePrecalc.afterTake (p : NoisePrecalc) (layers : LayerSet) (cube : CubeCoord)
    (now : Instant) : NoisePrecalc :=
  let (found, shelf) := p.shelf.remove ⟨layers.world, cube⟩
  let p := { p with shelf }
  match found with
  | some shelved =>
      if !Shelf.hasExpired p.timeToLive now shelved && shelved.grid.fits layers cube then
        { p with hits := p.hits + 1 }
      else
        let p := { p with stale := p.stale + 1 }.recycle shelved.grid
        { p with misses := p.misses + 1 }.takeBuffer.2
  | none => { p with misses := p.misses + 1 }.takeBuffer.2

namespace NoisePrecalc

variable {p next : NoisePrecalc} {layers : LayerSet} {cube : CubeCoord} {grid : NoiseGrid}

theorem computeMissing_leaves (done : p.computeMissing layers cube = .ok (grid, next)) :
    next = { p with misses := p.misses + 1 }.takeBuffer.2 := by
  obtain ⟨_, _, same⟩ := bind_eq_ok_iff.1 done
  cases same
  rfl

theorem take_leaves {now : Instant} (done : p.take layers cube now = .ok (grid, next)) :
    next = p.afterTake layers cube now := by
  unfold take at done
  unfold afterTake
  cases found : (p.shelf.remove ⟨layers.world, cube⟩).1 with
  | none =>
    simp only [found] at done ⊢
    exact computeMissing_leaves done
  | some shelved =>
    simp only [found] at done ⊢
    split at done
    case isTrue usable =>
      cases done
      rw [if_pos usable]
    case isFalse useless =>
      rw [if_neg useless]
      exact computeMissing_leaves done

theorem afterTake_spec (p : NoisePrecalc) (layers : LayerSet) (cube : CubeCoord) (now : Instant) :
    (p.afterTake layers cube now).shelf = (p.shelf.remove ⟨layers.world, cube⟩).2 ∧
      (p.afterTake layers cube now).tasks = p.tasks ∧
      (p.afterTake layers cube now).capacity = p.capacity := by
  unfold afterTake
  cases found : (p.shelf.remove ⟨layers.world, cube⟩).1 with
  | none =>
    simp only [found]
    exact ⟨rfl, rfl, rfl⟩
  | some shelved =>
    simp only [found]
    split
    · exact ⟨rfl, rfl, rfl⟩
    · exact ⟨rfl, rfl, rfl⟩

end NoisePrecalc

/-- A workshop, the submissions that reserved their grid and have not reached the workers, and the
keys of those that the workers turned away and whose reservation still stands. -/
structure Depot extends Workshop where
  reserved : List GridJob := []
  refused : List GridKey := []

inductive DepotMove where
  | reserve (layers : LayerSet) (cube : CubeCoord)
  | enqueue (place : Nat)
  | undo (place : Nat)
  | take (layers : LayerSet) (cube : CubeCoord) (now : Instant)
  | recycle (grid : NoiseGrid)
  | clearWorld (world : UInt32)
  | background (move : JobMove)

namespace Depot

def start (workers queueCapacity cacheCapacity timeToLive : Nat) : Depot :=
  { precalc := .start workers queueCapacity cacheCapacity timeToLive }

def reserve (s : Depot) (job : GridJob) : Depot :=
  match s.precalc.reserve job.key with
  | (true, precalc) => { s with precalc, reserved := s.reserved ++ [job] }
  | (false, precalc) => { s with precalc }

def handOver (s : Depot) (place : Nat) (job : GridJob) : Depot :=
  match s.precalc.tasks.submit job with
  | (true, tasks) =>
      { s with precalc := { s.precalc with tasks }, reserved := s.reserved.eraseIdx place }
  | (false, tasks) =>
      { s with
        precalc := { s.precalc with tasks }, reserved := s.reserved.eraseIdx place
        refused := s.refused ++ [job.key] }

def giveUp (s : Depot) (place : Nat) (key : GridKey) : Depot :=
  { s with
    precalc := { s.precalc with shelf := s.precalc.shelf.forget key }
    refused := s.refused.eraseIdx place }

/-- A move that does not apply changes nothing. -/
def move (s : Depot) : DepotMove → Depot
  | .reserve layers cube => s.reserve ⟨layers, cube⟩
  | .enqueue place => (s.reserved[place]?).elim s (s.handOver place)
  | .undo place => (s.refused[place]?).elim s (s.giveUp place)
  | .take layers cube now => { s with precalc := s.precalc.afterTake layers cube now }
  | .recycle grid => { s with precalc := s.precalc.recycle grid }
  | .clearWorld world => { s with precalc := s.precalc.clearWorld world }
  | .background move => { s with toWorkshop := s.toWorkshop.move move }

def after (s : Depot) (history : List DepotMove) : Depot := history.foldl move s

theorem after_append (s : Depot) (history more : List DepotMove) :
    s.after (history ++ more) = (s.after history).after more :=
  List.foldl_append

theorem after_submit (p : NoisePrecalc) (bench : List (Option (Array Float))) (layers : LayerSet)
    (cube : CubeCoord) :
    (⟨⟨p, bench⟩, [], []⟩ : Depot).after [.reserve layers cube, .enqueue 0, .undo 0] =
      ⟨⟨p.submit layers cube, bench⟩, [], []⟩ := by
  simp only [after, List.foldl_cons, List.foldl_nil, move, reserve, NoisePrecalc.submit]
  cases p.reserve (GridJob.key ⟨layers, cube⟩) with
  | mk isNew p =>
    cases isNew with
    | false => simp
    | true =>
      simp only [NoisePrecalc.enqueue, List.nil_append, List.getElem?_cons_zero, Option.elim_some,
        handOver]
      cases p.tasks.submit ⟨layers, cube⟩ with
      | mk accepted tasks => cases accepted <;> simp [giveUp]

variable {s : Depot} {history : List DepotMove}

theorem after_invariant {P : Depot → Prop} (initial : P s)
    (step : ∀ m ∈ history, ∀ s, P s → P (s.move m)) : P (s.after history) := by
  induction history generalizing s with
  | nil => exact initial
  | cons m history ih =>
    apply ih
    · exact step m (List.mem_cons_self ..) s initial
    · intro later member
      exact step later (List.mem_cons_of_mem _ member)

theorem reserve_cases (s : Depot) (job : GridJob) :
    (∃ shelf, s.precalc.shelf.reserve? job.key = some shelf ∧ s.reserve job = { s with
      precalc := { s.precalc with shelf, submitted := s.precalc.submitted + 1 }
      reserved := s.reserved ++ [job] }) ∨
    s.reserve job = { s with
      precalc := { s.precalc with duplicate := s.precalc.duplicate + 1 } } := by
  unfold reserve NoisePrecalc.reserve
  cases s.precalc.shelf.reserve? job.key with
  | some shelf => exact .inl ⟨shelf, rfl, rfl⟩
  | none => exact .inr rfl

theorem handOver_spec (s : Depot) (place : Nat) (job : GridJob) :
    (s.handOver place job).precalc =
        { s.precalc with tasks := (s.precalc.tasks.submit job).2 } ∧
      (s.handOver place job).reserved = s.reserved.eraseIdx place := by
  unfold handOver
  cases s.precalc.tasks.submit job with
  | mk accepted tasks => cases accepted <;> exact ⟨rfl, rfl⟩

end Depot

/-! ## Grids -/

theorem NoisePrecalc.Kept.handOver {allowed : LayerSet → Prop} {p : NoisePrecalc}
    (kept : p.Kept allowed) {job : GridJob} (good : allowed job.layers) :
    ({ p with tasks := (p.tasks.submit job).2 } : NoisePrecalc).Kept allowed := by
  obtain ⟨running, queue⟩ := p.tasks.submit_spec job
  constructor
  · intro other member
    rcases queue other member with old | same
    · exact kept.queued other old
    · exact same ▸ good
  · intro other member
    exact kept.running other (running ▸ member)
  · exact kept.shelved

namespace Depot

variable {allowed : LayerSet → Prop} {s : Depot}

structure Kept (allowed : LayerSet → Prop) (s : Depot) : Prop where
  precalc : s.precalc.Kept allowed
  reserved : ∀ job ∈ s.reserved, allowed job.layers

theorem Kept.reserve (kept : s.Kept allowed) {job : GridJob} (good : allowed job.layers) :
    (s.reserve job).Kept allowed := by
  rcases reserve_cases s job with ⟨shelf, noted, same⟩ | same
  · rw [same]
    constructor
    · apply kept.precalc.of_entries
      · rfl
      · rfl
      · intro key shelved found
        rwa [← (Shelf.reserve?_spec noted).1]
    · intro other member
      rcases List.mem_append.1 member with old | new
      · exact kept.reserved other old
      · exact List.mem_singleton.1 new ▸ good
  · rw [same]
    exact ⟨kept.precalc.of_entries rfl rfl fun _ _ found => found, kept.reserved⟩

theorem Kept.move (kept : s.Kept allowed) {m : DepotMove}
    (good : ∀ layers cube, m = .reserve layers cube → allowed layers) : (s.move m).Kept allowed := by
  cases m with
  | reserve layers cube => exact kept.reserve (good layers cube rfl)
  | enqueue place =>
    cases found : s.reserved[place]? with
    | none => simpa [Depot.move, found] using kept
    | some job =>
      obtain ⟨precalc, reserved⟩ := s.handOver_spec place job
      simp only [Depot.move, found, Option.elim_some]
      constructor
      · rw [precalc]
        exact kept.precalc.handOver (kept.reserved job (List.mem_of_getElem? found))
      · intro other member
        rw [reserved] at member
        exact kept.reserved other (List.mem_of_mem_eraseIdx member)
  | undo place =>
    cases found : s.refused[place]? with
    | none => simpa [Depot.move, found] using kept
    | some key =>
      simp only [Depot.move, found, Option.elim_some, giveUp]
      exact ⟨kept.precalc.of_entries rfl rfl fun _ _ found => found, kept.reserved⟩
  | take layers cube now =>
    obtain ⟨shelf, tasks, _⟩ := s.precalc.afterTake_spec layers cube now
    constructor
    · apply (kept.precalc.remove ⟨layers.world, cube⟩).of_entries
      · exact congrArg TaskPool.queue tasks
      · exact congrArg TaskPool.running tasks
      · intro key shelved found
        exact shelf ▸ found
    · exact kept.reserved
  | recycle grid =>
    exact ⟨kept.precalc.of_entries rfl rfl fun _ _ found => found, kept.reserved⟩
  | clearWorld world => exact ⟨kept.precalc.clearWorld world, kept.reserved⟩
  | background job => exact ⟨Workshop.kept_move kept.precalc job, kept.reserved⟩

/-- A grid that is taken is the one computed on the spot, for whatever layers its key was asked for
and whichever of the jobs for it came last. -/
theorem map_take_after (workers queueCapacity cacheCapacity timeToLive : Nat)
    {history : List DepotMove}
    (asked : ∀ layers cube, .reserve layers cube ∈ history → allowed layers)
    (discerning : ∀ a b : LayerSet, allowed a → allowed b → a.world = b.world →
      a.fingerprint = b.fingerprint → a.SameNumbers b)
    {layers : LayerSet} (good : allowed layers) (cube : CubeCoord) (now : Instant) :
    (((start workers queueCapacity cacheCapacity timeToLive).after history).precalc.take layers cube
      now).map Prod.fst = layers.compute cube #[] := by
  have kept : ((start workers queueCapacity cacheCapacity timeToLive).after history).Kept
      allowed := by
    apply after_invariant
    · exact ⟨NoisePrecalc.kept_start _ _ _ _, by simp [start]⟩
    · intro m member s kept
      apply kept.move
      intro layers cube same
      exact asked layers cube (same ▸ member)
  have computes (a b : LayerSet) (first : allowed a) (second : allowed b) (world : a.world = b.world)
      (print : a.fingerprint = b.fingerprint) (cube : CubeCoord) :
      a.compute cube #[] = b.compute cube #[] :=
    LayerSet.compute_congr world print (discerning a b first second world print) cube #[]
  rw [(kept.precalc.take computes good cube now).map_eq Prod.fst id fun _ _ related => related.1]
  cases layers.compute cube #[] <;> rfl

def strata (seed : UInt64) : LayerSet := ⟨7, seed, [⟨"strata", 3, 0.5, 2, 4⟩]⟩

def reseeding (cube : CubeCoord) : List DepotMove :=
  [.reserve (strata 1) cube, .enqueue 0, .background .start, .background (.check 0), .clearWorld 7,
    .reserve (strata 2) cube, .enqueue 0, .background (.store 0 5)]

theorem map_take_after_reseeding :
    (((start 1 4 8 100).after (reseeding ⟨0, 0, 0⟩)).precalc.take (strata 2) ⟨0, 0, 0⟩ 9).map
      Prod.fst = (strata 2).compute ⟨0, 0, 0⟩ #[] := by
  have asked (layers : LayerSet) (cube : CubeCoord)
      (member : .reserve layers cube ∈ reseeding ⟨0, 0, 0⟩) : layers ∈ Set.range strata := by
    simp only [reseeding, List.mem_cons, DepotMove.reserve.injEq, List.not_mem_nil, reduceCtorEq,
      or_false, false_or] at member
    rcases member with ⟨rfl, _⟩ | ⟨rfl, _⟩
    · exact ⟨1, rfl⟩
    · exact ⟨2, rfl⟩
  have discerning (a b : LayerSet) (first : a ∈ Set.range strata) (second : b ∈ Set.range strata)
      (_ : a.world = b.world) (print : a.fingerprint = b.fingerprint) : a.SameNumbers b := by
    obtain ⟨seed, rfl⟩ := first
    obtain ⟨other, rfl⟩ := second
    rw [LayerSet.fingerprint_inj.1 print]
    exact ⟨rfl, rfl⟩
  exact map_take_after 1 4 8 100 asked discerning ⟨2, rfl⟩ ⟨0, 0, 0⟩ 9

end Depot

end Karst
