import Karst.Cache.Pool
import Karst.Precalc.Shelf
import Karst.Precalc.Tasks

/-!
Noise grids computed in the background. The shelf is changed only in whole sections: `reserve`,
`enqueue`, `check`, `store`, `abandon`, `take` and `clearWorld`; between them jobs and callers may
interleave. A grid that is missing, expired or made under other settings is computed when taken.
-/

namespace Karst

structure PrecalcStats where
  hits : Nat := 0
  misses : Nat := 0
  stale : Nat := 0
  submitted : Nat := 0
  duplicate : Nat := 0
  abandoned : Nat := 0
  evicted : Nat := 0
  entries : Nat := 0
  tasks : TaskStats := {}
deriving DecidableEq, Repr

structure GridJob where
  layers : LayerSet
  cube : CubeCoord
deriving Inhabited

def GridJob.key (job : GridJob) : GridKey := ⟨job.layers.world, job.cube⟩

structure NoisePrecalc where
  shelf : Shelf := {}
  buffers : Pool (Array Float)
  capacity : Nat
  timeToLive : Nat
  tasks : TaskPool GridJob
  hits : Nat := 0
  misses : Nat := 0
  stale : Nat := 0
  submitted : Nat := 0
  duplicate : Nat := 0
  abandoned : Nat := 0
  evicted : Nat := 0

namespace NoisePrecalc

def start (workers queueCapacity cacheCapacity timeToLive : Nat) : NoisePrecalc :=
  { buffers := .ofCapacity (min (max cacheCapacity 1) 256)
    capacity := max cacheCapacity 1
    timeToLive
    tasks := .ofWorkers workers queueCapacity }

def ofParams (p : PrecalcParams) : NoisePrecalc :=
  start (if p.enable then p.workers else 0) p.queueCapacity p.cacheCapacity p.timeToLive

def recycle (p : NoisePrecalc) (grid : NoiseGrid) : NoisePrecalc :=
  { p with buffers := p.buffers.put grid.data }

def recycleAll (p : NoisePrecalc) (grids : List NoiseGrid) : NoisePrecalc :=
  grids.foldl recycle p

def takeBuffer (p : NoisePrecalc) : Array Float × NoisePrecalc :=
  let (buffer, buffers) := p.buffers.take #[]
  (buffer, { p with buffers })

/-- Notes a grid as asked for; counts a duplicate if it already is, or is stored. -/
def reserve (p : NoisePrecalc) (key : GridKey) : Bool × NoisePrecalc :=
  match p.shelf.reserve? key with
  | some shelf => (true, { p with shelf, submitted := p.submitted + 1 })
  | none => (false, { p with duplicate := p.duplicate + 1 })

def enqueue (p : NoisePrecalc) (job : GridJob) : NoisePrecalc :=
  match p.tasks.submit job with
  | (true, tasks) => { p with tasks }
  | (false, tasks) => { p with tasks, shelf := p.shelf.forget job.key }

def submit (p : NoisePrecalc) (layers : LayerSet) (cube : CubeCoord) : NoisePrecalc :=
  let job : GridJob := ⟨layers, cube⟩
  match p.reserve job.key with
  | (true, p) => p.enqueue job
  | (false, p) => p

def check (p : NoisePrecalc) (key : GridKey) : Bool × NoisePrecalc :=
  if p.shelf.pending.contains key then (true, p)
  else (false, { p with abandoned := p.abandoned + 1 })

def store (p : NoisePrecalc) (key : GridKey) (grid : NoiseGrid) (now : Instant) : NoisePrecalc :=
  match p.shelf.store? key grid now with
  | some shelf =>
      let (shelf, gone) := shelf.evict p.capacity p.timeToLive now
      { p with shelf, evicted := p.evicted + gone.length }.recycleAll gone
  | none => { p with abandoned := p.abandoned + 1 }.recycle grid

def abandon (p : NoisePrecalc) (key : GridKey) : NoisePrecalc :=
  { p with shelf := p.shelf.forget key, abandoned := p.abandoned + 1 }

/-- The sections of one job without a pause between them; answers whether it panicked. -/
def perform (p : NoisePrecalc) (job : GridJob) (now : Instant) : Bool × NoisePrecalc :=
  match p.check job.key with
  | (false, p) => (false, p)
  | (true, p) =>
      let (buffer, p) := p.takeBuffer
      match job.layers.compute job.cube buffer with
      | .ok grid => (false, p.store job.key grid now)
      | .error _ => (true, p.abandon job.key)

def drainUpTo (now : Instant) : Nat → NoisePrecalc → NoisePrecalc
  | 0, p => p
  | count + 1, p =>
      match p.tasks.start? with
      | some (job, tasks) =>
          let (panics, p) := { p with tasks }.perform job now
          drainUpTo now count
            { p with tasks := p.tasks.finish (p.tasks.running.length - 1) panics }
      | none => p

def drain (p : NoisePrecalc) (now : Instant) : NoisePrecalc :=
  p.drainUpTo now p.tasks.queue.length

def computeMissing (p : NoisePrecalc) (layers : LayerSet) (cube : CubeCoord) :
    Guarded (NoiseGrid × NoisePrecalc) := do
  let (buffer, p) := { p with misses := p.misses + 1 }.takeBuffer
  return (← layers.compute cube buffer, p)

def take (p : NoisePrecalc) (layers : LayerSet) (cube : CubeCoord) (now : Instant) :
    Guarded (NoiseGrid × NoisePrecalc) :=
  let (found, shelf) := p.shelf.remove ⟨layers.world, cube⟩
  let p := { p with shelf }
  match found with
  | some shelved =>
      if !Shelf.hasExpired p.timeToLive now shelved && shelved.grid.fits layers cube then
        .ok (shelved.grid, { p with hits := p.hits + 1 })
      else
        ({ p with stale := p.stale + 1 }.recycle shelved.grid).computeMissing layers cube
  | none => p.computeMissing layers cube

def clearWorld (p : NoisePrecalc) (world : UInt32) : NoisePrecalc :=
  let (gone, shelf) := p.shelf.clearWorld world
  { p with shelf }.recycleAll gone

def stats (p : NoisePrecalc) : PrecalcStats :=
  ⟨p.hits, p.misses, p.stale, p.submitted, p.duplicate, p.abandoned, p.evicted,
    p.shelf.entries.size, p.tasks.stats⟩

end NoisePrecalc

end Karst
