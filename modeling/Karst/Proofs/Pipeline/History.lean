import Karst.Proofs.Pipeline.Completion
import Karst.Proofs.Pipeline.Soundness

namespace Karst

open Guarded

/-- A generator together with the buffers of its running jobs. -/
structure Site where
  generator : CubeGenerator
  bench : List (Option (Array Float)) := []

/-- A call on a generator, of which only the effect on later calls counts, or a move of its
background work. -/
inductive PipelineCall where
  | pregenerate (world : World) (cube : CubeCoord)
  | fillBaseTerrain (world : World) (cube : Cube) (now : Instant)
  | generate (world : World) (cube : Cube) (biomes : BiomeSource) (clock : Readings)
  | generateFull (world : World) (cube : Cube) (biomes : BiomeSource) (clock : Readings)
  | unload (world : UInt32)
  | background (move : JobMove)

/-- The context of the call carries the settings of its world. -/
def PipelineCall.Under (settings : UInt32 → Params) : PipelineCall → Prop
  | .pregenerate world _ => world.params = settings world.id
  | .fillBaseTerrain world _ _ => world.params = settings world.id
  | .generate world _ _ _ => world.params = settings world.id
  | .generateFull world _ _ _ => world.params = settings world.id
  | .unload _ => True
  | .background _ => True

namespace Site

def start (workers queueCapacity cacheCapacity timeToLive : Nat) : Site :=
  ⟨{ precalc := .start workers queueCapacity cacheCapacity timeToLive }, []⟩

def background (s : Site) (move : JobMove) : Site :=
  let w := (⟨s.generator.precalc, s.bench⟩ : Workshop).move move
  ⟨{ s.generator with precalc := w.precalc }, w.bench⟩

def call (s : Site) : PipelineCall → Guarded Site
  | .pregenerate world cube => return { s with generator := s.generator.pregenerate world cube }
  | .fillBaseTerrain world cube now => do
      let (_, generator) ← s.generator.fillBaseTerrain world cube now
      return { s with generator }
  | .generate world cube biomes clock => do
      let (_, _, generator) ← s.generator.generate world cube biomes clock
      return { s with generator }
  | .generateFull world cube biomes clock => do
      let (_, _, generator) ← s.generator.generateFull world cube biomes clock
      return { s with generator }
  | .unload world => return { s with generator := s.generator.unload world }
  | .background move => return s.background move

def after (s : Site) (history : List PipelineCall) : Guarded Site := history.foldlM call s

variable {settings : UInt32 → Params} {s next : Site}

theorem sound_background (sound : s.generator.Sound settings) (move : JobMove) :
    (s.background move).generator.Sound settings :=
  ⟨Workshop.kept_move (w := ⟨s.generator.precalc, s.bench⟩) sound.precalc move, sound.worlds⟩

theorem sound_call (sound : s.generator.Sound settings) {made : PipelineCall}
    (agrees : made.Under settings) (done : s.call made = .ok next) :
    next.generator.Sound settings := by
  cases made with
  | pregenerate world cube =>
    cases done
    exact (CubeGenerator.pregenerate_spec sound agrees cube).1
  | fillBaseTerrain world cube now =>
    obtain ⟨out, filled, same⟩ := bind_eq_ok_iff.1 done
    cases same
    obtain ⟨_, _, _, kept, _⟩ :=
      (CubeGenerator.fillBaseTerrain_spec sound agrees cube now).exists_right filled
    exact kept
  | generate world cube biomes clock =>
    obtain ⟨out, generated, same⟩ := bind_eq_ok_iff.1 done
    cases same
    obtain ⟨_, _, _, _, kept, _⟩ :=
      (CubeGenerator.generate_spec sound agrees cube biomes clock).exists_right generated
    exact kept
  | generateFull world cube biomes clock =>
    obtain ⟨out, generated, same⟩ := bind_eq_ok_iff.1 done
    cases same
    obtain ⟨_, _, _, _, kept, _⟩ :=
      (CubeGenerator.generateFull_spec sound agrees cube biomes clock).exists_right generated
    exact kept
  | unload id =>
    cases done
    exact sound.unload id
  | background move =>
    cases done
    exact sound_background sound move

theorem sound_of_after {history : List PipelineCall} (sound : s.generator.Sound settings)
    (agree : ∀ made ∈ history, made.Under settings) (run : s.after history = .ok next) :
    next.generator.Sound settings := by
  refine foldlM_invariant (P := fun s : Site => s.generator.Sound settings) run sound ?_
  intro made member s next sound done
  exact sound_call sound (agree made member) done

theorem sound_after {workers queueCapacity cacheCapacity timeToLive : Nat}
    {history : List PipelineCall} (agree : ∀ made ∈ history, made.Under settings)
    (run : (start workers queueCapacity cacheCapacity timeToLive).after history = .ok s) :
    s.generator.Sound settings :=
  sound_of_after (CubeGenerator.sound_start _ _ _ _) agree run

/-- What a cube is generated into depends on the world, the place and the biomes: not on the calls
before, not on the clock, and not on the blocks that were there. -/
theorem generateFull_eq_fresh {workers queueCapacity cacheCapacity timeToLive : Nat}
    {history : List PipelineCall} (agree : ∀ made ∈ history, made.Under settings)
    (run : (start workers queueCapacity cacheCapacity timeToLive).after history = .ok s)
    {world : World} (here : world.params = settings world.id) {a b : Cube} (left : a.WellFormed)
    (right : b.WellFormed) (coord : a.coord = b.coord) (biomes : BiomeSource)
    (clock other : Readings) (p : Params) :
    (s.generator.generateFull world a biomes clock).map
        (fun out => (out.1, out.2.1.coord, out.2.1.toArray)) =
      ((CubeGenerator.ofParams p).generateFull world b biomes other).map
        fun out => (out.1, out.2.1.coord, out.2.1.toArray) := by
  have used := CubeGenerator.generateFull_spec (sound_after agree run) here a biomes clock
  have fresh :=
    CubeGenerator.generateFull_spec (CubeGenerator.sound_ofParams p) here b biomes other
  have plain := Plain.generateFull_same world left right coord biomes
  refine ((used.trans plain).trans fresh.symm).map_eq _ _ ?_
  rintro out freshOut ⟨o, ⟨p, ⟨count, cube, _⟩, same⟩, otherCount, otherCube, _⟩
  rw [count, cube, otherCount, otherCube, Outcome.total, Outcome.total, same.carved, same.filled,
    same.cube.coord, same.cube.blocks]

def reseedingCalls : List PipelineCall :=
  [.generate (hollowWorld 5) (.empty ⟨1, 0, 0⟩) (fun _ => .plains) (.constant 3),
    .pregenerate (hollowWorld 5) ⟨0, 0, 0⟩, .background .start, .background (.check 0),
    .pregenerate (hollowWorld 6) ⟨0, 0, 0⟩, .background (.store 0 9), .unload 1]

theorem generateFull_after_reseeding :
    ∃ s out, (start 1 4 4 30).after reseedingCalls = .ok s ∧
      (s.generator.generateFull (hollowWorld 6) (.filled ⟨0, 0, 0⟩ .lava) (fun _ => .plains)
          (.constant 8)).map (fun out => (out.1, out.2.1.coord, out.2.1.toArray)) = .ok out ∧
        ((CubeGenerator.ofParams {}).generateFull (hollowWorld 6) (.empty ⟨0, 0, 0⟩)
          (fun _ => .plains) (.constant 0)).map
            (fun out => (out.1, out.2.1.coord, out.2.1.toArray)) = .ok out := by
  have sound : (start 1 4 4 30).generator.Sound fun _ => hollowParams :=
    CubeGenerator.sound_start 1 4 4 30
  have empty (coord : CubeCoord) : (Cube.empty coord).WellFormed := Cube.wellFormed_filled coord .air
  have lava := Cube.wellFormed_filled ⟨0, 0, 0⟩ .lava
  have old : (hollowWorld 5).params = (fun _ => hollowParams) (hollowWorld 5).id := rfl
  have new : (hollowWorld 6).params = (fun _ => hollowParams) (hollowWorld 6).id := rfl
  obtain ⟨_, earlier⟩ := hollowWorld_generate 5 (fun _ => .plains)
    (c := .empty ⟨1, 0, 0⟩) (by decide) (empty _)
  obtain ⟨first, generated, _⟩ := (CubeGenerator.generate_spec sound old (.empty ⟨1, 0, 0⟩)
    (fun _ => .plains) (.constant 3)).exists_left earlier
  obtain ⟨s, run⟩ : ∃ s, (start 1 4 4 30).after reseedingCalls = .ok s := by
    simp only [after, reseedingCalls, List.foldlM_cons, List.foldlM_nil, call, generated, pure_eq,
      ok_bind, Except.ok.injEq, exists_eq']
  have agree : ∀ made ∈ reseedingCalls, made.Under fun _ => hollowParams := by
    simp [reseedingCalls, PipelineCall.Under, hollowWorld]
  have same := generateFull_eq_fresh agree run new lava (empty ⟨0, 0, 0⟩) rfl (fun _ => .plains)
    (.constant 8) (.constant 0) {}
  obtain ⟨_, plain⟩ := hollowWorld_generateFull 6 (fun _ => .plains)
    (c := .filled ⟨0, 0, 0⟩ .lava) (by decide) lava
  obtain ⟨out, made, _⟩ := (CubeGenerator.generateFull_spec (sound_after agree run) new
    (.filled ⟨0, 0, 0⟩ .lava) (fun _ => .plains) (.constant 8)).exists_left plain
  rw [made] at same
  exact ⟨s, _, run, by rw [made]; rfl, same.symm⟩

end Site

end Karst
