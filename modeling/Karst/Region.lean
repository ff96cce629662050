import Karst.Geometry.Key
import Karst.Pipeline

/-!
A run over the cubes of a region: a hint for every cube, then each of them generated from nothing in
the same order, and a digest that does not depend on that order.
-/

namespace Karst

structure RegionReport where
  cubes : Nat
  stone : Nat
  checksum : UInt64
  stats : PipelineStats
deriving DecidableEq, Repr

structure RegionRun where
  generator : CubeGenerator
  stone : Nat := 0
  sums : List (CubeCoord × UInt64) := []

namespace RegionRun

def start (world : World) (cubes : List CubeCoord) (now : Instant) : RegionRun :=
  let hinted := cubes.foldl (fun g cube => g.pregenerate world cube)
    (CubeGenerator.ofParams world.params)
  { generator := hinted.drain now }

def advance (run : RegionRun) (world : World) (coord : CubeCoord) (now : Instant) :
    Guarded RegionRun := do
  match run with
  | ⟨generator, stone, sums⟩ =>
      let (_, cube, generator) ←
        generator.generateFull world (.empty coord) (fun _ => .plains) (.constant now)
      return ⟨generator, stone + cube.count (· == .stone), (coord, cube.checksum) :: sums⟩

def absorb (h : UInt64) (cube : CubeCoord) (sum : UInt64) : UInt64 :=
  (h ^^^ CubeKey.pack cube ^^^ (sum <<< 17 ||| sum >>> 47)) * Fnv.prime

/-- Absorbs the checksums of cubes in the order of their coordinates. -/
def checksum (sums : List (CubeCoord × UInt64)) : UInt64 :=
  (sums.mergeSort fun a b => (compare a.1 b.1).isLE).foldl
    (fun h (cube, sum) => absorb h cube sum) Fnv.start

def report (run : RegionRun) : RegionReport :=
  ⟨run.sums.length, run.stone, checksum run.sums, run.generator.stats⟩

end RegionRun

def generateRegion {m : Type → Type} [Monad m] (clock : m Instant) (world : World)
    (cubes : List CubeCoord) : m (Guarded RegionReport) := ExceptT.run do
  let run : RegionRun := .start world cubes (← clock)
  let run ← cubes.foldlM (fun (run : RegionRun) cube => do
    run.advance world cube (← clock)) run
  return run.report

end Karst
