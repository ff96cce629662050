import Karst.Proofs.Feature.Settled
import Karst.Proofs.Generation.Blocks
import Karst.Proofs.Pipeline.History

namespace Karst

open Guarded

theorem canCarve_eq_false_iff {b : Block} {biome : Biome} {carvable : List Block} :
    canCarve b biome carvable = false ↔ (∀ rock ∈ carvable, rock.id ≠ b.id) ∧
      b.id ≠ biome.carveSurface.1.id ∧ b.id ≠ biome.carveSurface.2.id := by
  simp [canCarve, and_assoc]

/-- What caves do not carve away under any of the biomes, nor pockets fill. -/
structure Inert (p : Params) (biomes : BiomeSource) (b : Block) : Prop where
  uncarved : ∀ q, canCarve b (biomes q) p.caves.carvable = false
  unfilled : b.id ≠ Block.stone.id

variable {p : Params} {biomes : BiomeSource} {world : World}

theorem Inert.of_isStillWater (water : Inert p biomes .water) {b : Block} (still : b.isStillWater) :
    Inert p biomes b := by
  have same : b.id = Block.water.id := eq_of_beq still
  constructor
  · intro q
    rw [canCarve_eq_false_iff, same, ← canCarve_eq_false_iff]
    exact water.uncarved q
  · rw [same]
    exact water.unfilled

theorem refuses_canCarve (water : Inert p biomes .water) {bucket : OpBucket}
    (inside : ∀ op ∈ bucket.ops, op.pos.Inside)
    (covers : ∀ op ∈ bucket.ops, Inert p biomes op.block) (corner : BlockPos) :
    Replayed.Refuses (Inert p biomes) bucket fun op current => do
      return canCarve current (biomes (← corner.atLocal op.pos)) p.caves.carvable := by
  refine ⟨inside, covers, ?_, ?_⟩
  · intro op current decision decided b inert
    obtain ⟨q, here, _⟩ := bind_eq_ok_iff.1 decided
    rw [here, ok_bind, inert.uncarved q]
    rfl
  · intro op b still decided
    obtain ⟨q, _, decided⟩ := bind_eq_ok_iff.1 decided
    rw [(water.of_isStillWater still).uncarved q] at decided
    cases decided

theorem caveGenerator_replaySettles (range : Int32) (water : Inert p biomes .water) :
    (caveGenerator range p.caves).ReplaySettles world biomes (Inert p biomes) := by
  intro bucket c s r inside covers wf replayed
  simp only [caveGenerator, CaveSeed.replay] at replayed ⊢
  generalize bucket.localBounds = bounds at replayed ⊢
  cases bounds with
  | none =>
    cases replayed
    exact ⟨rfl, .refl wf, fun d _ => rfl⟩
  | some box =>
    obtain ⟨lower, upper⟩ := box
    simp only [Cube.perimeterWater_eq wf, ok_bind] at replayed
    split at replayed
    case isTrue drowned =>
      -- the water is still there, and the bucket is passed over again
      cases replayed
      refine ⟨rfl, .refl wf, ?_⟩
      intro d worn
      have more : c.waterAround lower upper ≤ d.waterAround lower upper :=
        worn.waterAround_le lower upper
      have still : p.caves.waterThreshold <
          min (p.caves.waterThreshold + 1) (d.waterAround lower upper) := by omega
      simp only [Cube.perimeterWater_eq worn.right, ok_bind, still, if_true, pure_eq]
    case isFalse =>
      -- later there may be more water, and otherwise every write is refused
      obtain ⟨corner, located, replayed⟩ := bind_eq_ok_iff.1 replayed
      obtain ⟨stream, worn, quiet⟩ :=
        Replayed.guarded_settles (refuses_canCarve water inside covers corner) wf replayed
      refine ⟨stream, worn, ?_⟩
      intro d further
      have coord : d.coord = c.coord := further.coord.trans worn.coord
      simp only [Cube.perimeterWater_eq further.right, ok_bind, coord, located]
      split
      case isTrue => rfl
      case isFalse => exact quiet d further

theorem pocketGenerator_replaySettles (water : Inert p biomes .water) :
    (pocketGenerator p.pockets).ReplaySettles world biomes (Inert p biomes) := by
  intro bucket c s r inside covers wf replayed
  refine Replayed.guarded_settles ⟨inside, covers, ?_, ?_⟩ wf replayed
  · intro op current decision _ b inert
    rw [pure_eq, beq_eq_false_iff_ne.2 inert.unfilled]
  · intro op b still decided
    rw [pure_eq, beq_eq_false_iff_ne.2 (water.of_isStillWater still).unfilled] at decided
    cases decided

namespace Plain

variable {σ : Type} {inert : Block → Prop}

theorem replay_settles {generator : Generator σ}
    (settles : generator.ReplaySettles world biomes inert) (writes : generator.Writes world inert)
    (enable : Bool) {c after : Cube} {written : Nat} (wf : c.WellFormed)
    (replayed : replay enable generator world c biomes = .ok (written, after)) :
    Cube.Worn inert c after ∧
      ∀ d, Cube.Worn inert after d → replay enable generator world d biomes = .ok (0, d) := by
  cases enable with
  | true => exact settles.uncached writes wf replayed
  | false =>
    cases replayed
    exact ⟨.refl wf, fun d _ => rfl⟩

theorem generate_settles (water : Inert world.params biomes .water)
    (air : Inert world.params biomes .air) (lava : Inert world.params biomes .lava)
    (fluid : Inert world.params biomes world.params.pockets.fluid) {c : Cube} {o : Outcome}
    (wf : c.WellFormed) (generated : generate world c biomes = .ok o) :
    generate world o.cube biomes = .ok ⟨0, 0, o.cube⟩ := by
  obtain ⟨⟨carved, hollow⟩, caves, generated⟩ := bind_eq_ok_iff.1 generated
  obtain ⟨⟨filled, full⟩, pockets, generated⟩ := bind_eq_ok_iff.1 generated
  cases generated
  obtain ⟨worn, cavesQuiet⟩ := replay_settles (caveGenerator_replaySettles _ water)
    (caveGenerator_writes _ _ world air lava) _ wf caves
  obtain ⟨further, pocketsQuiet⟩ := replay_settles (pocketGenerator_replaySettles water)
    (pocketGenerator_writes _ world fluid) _ worn.right pockets
  simp only [generate, cavesQuiet full further, pocketsQuiet full (.refl further.right), ok_bind,
    pure_eq]

end Plain

def Spared (p : Params) (biomes : BiomeSource) (b : Block) : Prop :=
  (∀ rock ∈ p.caves.carvable, rock.id ≠ b.id) ∧
    ∀ q, b.id ≠ (biomes q).carveSurface.1.id ∧ b.id ≠ (biomes q).carveSurface.2.id

theorem Spared.inert {b : Block} (spared : Spared p biomes b) (unfilled : b.id ≠ Block.stone.id) :
    Inert p biomes b :=
  ⟨fun q => canCarve_eq_false_iff.2 ⟨spared.1, spared.2 q⟩, unfilled⟩

namespace Site

variable {settings : UInt32 → Params} {s later : Site}

/-- If caves cut into nothing that caves and pockets leave behind, and pockets are not of stone,
then replaying into a cube a second time writes nothing, whatever calls come in between. -/
theorem generate_idempotent {workers queueCapacity cacheCapacity timeToLive : Nat}
    {history between : List PipelineCall} (agree : ∀ made ∈ history, made.Under settings)
    (run : (start workers queueCapacity cacheCapacity timeToLive).after history = .ok s)
    {world : World} (here : world.params = settings world.id) {cube : Cube} (wf : cube.WellFormed)
    {biomes : BiomeSource}
    (spared : ∀ b ∈ [Block.air, .lava, .water, world.params.pockets.fluid],
      Spared world.params biomes b)
    (fluid : world.params.pockets.fluid.id ≠ Block.stone.id) {clock : Readings} {written : Nat}
    {after : Cube} {next : CubeGenerator}
    (generated : s.generator.generate world cube biomes clock = .ok (written, after, next))
    (betweenAgree : ∀ made ∈ between, made.Under settings)
    (rest : (⟨next, s.bench⟩ : Site).after between = .ok later) (other : Readings) :
    ∃ last, later.generator.generate world after biomes other = .ok (0, after, last) := by
  have air := (spared .air (by simp)).inert (by decide)
  have lava := (spared .lava (by simp)).inert (by decide)
  have water := (spared .water (by simp)).inert (by decide)
  have pocket := (spared world.params.pockets.fluid (by simp)).inert fluid
  obtain ⟨o, plain, _, left, sound, _⟩ := (CubeGenerator.generate_spec (sound_after agree run) here
    cube biomes clock).exists_right generated
  have again := Plain.generate_settles water air lava pocket wf plain
  have laterSound := sound_of_after (s := ⟨next, s.bench⟩) sound betweenAgree rest
  obtain ⟨⟨count, left', last⟩, regenerated, counted, unchanged, _⟩ := (CubeGenerator.generate_spec
    laterSound here o.cube biomes other).exists_left again
  cases counted
  cases unchanged
  cases left
  exact ⟨last, regenerated⟩

theorem generate_hollow_twice : ∃ s written after next later last,
    (start 1 4 4 30).after [.pregenerate (hollowWorld 5) ⟨0, 0, 0⟩] = .ok s ∧
      s.generator.generate (hollowWorld 5) (.filled ⟨0, 0, 0⟩ .stone) (fun _ => .plains)
        (.constant 2) = .ok (written, after, next) ∧
      (⟨next, s.bench⟩ : Site).after [.background .start, .pregenerate (hollowWorld 5) ⟨1, 0, 0⟩] =
        .ok later ∧
      later.generator.generate (hollowWorld 5) after (fun _ => .plains) (.constant 1) =
        .ok (0, after, last) := by
  have here : (hollowWorld 5).params = (fun _ => hollowParams) (hollowWorld 5).id := rfl
  have stone := Cube.wellFormed_filled ⟨0, 0, 0⟩ .stone
  have agree : ∀ made ∈ [PipelineCall.pregenerate (hollowWorld 5) ⟨0, 0, 0⟩],
      made.Under fun _ => hollowParams := by
    simp [PipelineCall.Under, hollowWorld]
  have betweenAgree : ∀ made ∈ [PipelineCall.background .start,
      .pregenerate (hollowWorld 5) ⟨1, 0, 0⟩], made.Under fun _ => hollowParams := by
    simp [PipelineCall.Under, hollowWorld]
  have spared : ∀ b ∈ [Block.air, .lava, .water, hollowParams.pockets.fluid],
      Spared hollowParams (fun _ => .plains) b := by
    intro b member
    have only : b = .air ∨ b = .lava ∨ b = .water := by simpa [hollowParams] using member
    have plains : ∀ b ∈ [Block.air, .lava, .water],
        (∀ rock ∈ hollowParams.caves.carvable, rock.id ≠ b.id) ∧
          b.id ≠ Biome.plains.carveSurface.1.id ∧ b.id ≠ Biome.plains.carveSurface.2.id := by
      decide
    obtain ⟨rocks, ground⟩ := plains b (by simpa using only)
    exact ⟨rocks, fun _ => ground⟩
  obtain ⟨s, run⟩ : ∃ s,
      (start 1 4 4 30).after [.pregenerate (hollowWorld 5) ⟨0, 0, 0⟩] = .ok s := by
    simp only [after, List.foldlM_cons, List.foldlM_nil, call, pure_eq, ok_bind, Except.ok.injEq,
      exists_eq']
  obtain ⟨_, plain⟩ := hollowWorld_generate 5 (fun _ => .plains)
    (c := .filled ⟨0, 0, 0⟩ .stone) (by decide) stone
  obtain ⟨⟨written, after, next⟩, generated, _⟩ := (CubeGenerator.generate_spec
    (sound_after agree run) here (.filled ⟨0, 0, 0⟩ .stone) (fun _ => .plains)
    (.constant 2)).exists_left plain
  obtain ⟨later, rest⟩ : ∃ later, (⟨next, s.bench⟩ : Site).after
      [.background .start, .pregenerate (hollowWorld 5) ⟨1, 0, 0⟩] = .ok later := by
    simp only [Site.after, List.foldlM_cons, List.foldlM_nil, call, pure_eq, ok_bind,
      Except.ok.injEq, exists_eq']
  obtain ⟨last, again⟩ := generate_idempotent agree run here stone spared (by decide) generated
    betweenAgree rest (.constant 1)
  exact ⟨s, written, after, next, later, last, run, generated, rest, again⟩

end Site

end Karst
