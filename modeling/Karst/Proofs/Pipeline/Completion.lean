import Karst.Proofs.Generation.Branching
import Karst.Proofs.Generation.Discovery
import Karst.Proofs.Generation.Overlay
import Karst.Proofs.Geometry.Neighborhood
import Karst.Proofs.GroundLevel
import Karst.Proofs.Pipeline.Plain

namespace Karst

open Guarded

/-- Every cube within `range` of this one lies in the packed range. -/
def CubeCoord.Sheltered (range : Int32) (c : CubeCoord) : Prop :=
  ∀ axis, -2 ^ 20 + range.toInt ≤ (c.along axis).toInt ∧
    (c.along axis).toInt + range.toInt < 2 ^ 20

namespace CubeCoord

variable {range : Int32} {c : CubeCoord}

instance : Decidable (c.Sheltered range) :=
  decidable_of_iff (∀ axis ∈ [Axis.x, .y, .z], -2 ^ 20 + range.toInt ≤ (c.along axis).toInt ∧
      (c.along axis).toInt + range.toInt < 2 ^ 20)
    ⟨fun listed axis => listed axis (by cases axis <;> simp),
      fun sheltered axis _ => sheltered axis⟩

theorem Sheltered.packable (sheltered : c.Sheltered range) (positive : 0 ≤ range.toInt) :
    c.Packable := by
  intro axis
  obtain ⟨lower, upper⟩ := sheltered axis
  constructor <;> omega

theorem Sheltered.exists_neighborhood (sheltered : c.Sheltered range)
    (positive : 0 ≤ range.toInt) :
    ∃ origins, c.neighborhood range = .ok origins ∧ ∀ origin ∈ origins, origin.Packable := by
  have surrounded : c.Surrounded range := by
    intro axis
    obtain ⟨lower, upper⟩ := sheltered axis
    omega
  obtain ⟨origins, around⟩ := exists_neighborhood_iff.2 surrounded
  refine ⟨origins, around, ?_⟩
  intro origin member axis
  have close := ((neighborhood_spec around).2 origin).1 member
  rw [distance_le_iff, max_eq_left positive] at close
  obtain ⟨x, y, z⟩ := close
  obtain ⟨lower, upper⟩ := sheltered axis
  cases axis <;> simp only [along, PackableAxis] at lower upper ⊢ <;> omega

theorem Packable.fits (packable : c.Packable) : c.Fits := by
  have bounds (axis : Axis) : -2147483648 ≤ (c.along axis).toInt * 16 ∧
      (c.along axis).toInt * 16 + 15 ≤ 2147483647 := by
    obtain ⟨lower, upper⟩ := packable axis
    omega
  simpa [Fits] using ⟨bounds .x, bounds .y, bounds .z⟩

end CubeCoord

theorem Replayed.exists_guarded {bucket : OpBucket} (inside : ∀ op ∈ bucket.ops, op.pos.Inside)
    {allowed : VoxelOp → Block → Guarded Bool}
    (decides : ∀ op ∈ bucket.ops, ∀ b, ∃ admitted, allowed op b = .ok admitted) {c : Cube}
    (wf : c.WellFormed) (s : Stream) :
    ∃ r, guarded bucket c s allowed = .ok r ∧ r.cube.WellFormed ∧ r.cube.coord = c.coord := by
  have offered : ∃ out, bucket.ops.toList.foldlM (offer allowed) (0, c) = .ok out ∧
      out.2.WellFormed ∧ out.2.coord = c.coord := by
    refine exists_foldlM (P := fun x : Nat × Cube => x.2.WellFormed ∧ x.2.coord = c.coord)
      ⟨wf, rfl⟩ ?_
    rintro op member ⟨written, d⟩ ⟨wf, coord⟩
    have listed := Array.mem_toList_iff.1 member
    have within := inside op listed
    obtain ⟨admitted, decided⟩ := decides op listed (d.blockAt op.pos)
    rw [offer, Cube.get_eq_blockAt wf within, ok_bind, decided, ok_bind]
    cases admitted with
    | true =>
      obtain ⟨after, set, afterWf, afterCoord, _⟩ := Cube.set_spec wf within op.block
      rw [if_pos rfl, set]
      exact ⟨_, rfl, afterWf, afterCoord.trans coord⟩
    | false => exact ⟨_, rfl, wf, coord⟩
  obtain ⟨out, run, kept⟩ := offered
  exact ⟨⟨out.1, out.2, s⟩, by rw [guarded_eq, run, ok_bind], kept⟩

namespace Generator

variable {σ : Type} {generator : Generator σ} {world : World} {biomes : BiomeSource} {c : Cube}

/-- Nothing that replaying the features around `target` is made of can fail. -/
structure CompletesAt (generator : Generator σ) (world : World) (biomes : BiomeSource)
    (target : CubeCoord) : Prop where
  finds : ∃ origins, target.neighborhood generator.range = .ok origins ∧
    ∀ origin ∈ origins, ∃ list, generator.seedsOf world origin = .ok list
  grows : ∀ seed, ∃ script, generator.materialise world seed = .ok script
  replays : ∀ (bucket : OpBucket) (c : Cube) (s : Stream), (∀ op ∈ bucket.ops, op.pos.Inside) →
    c.WellFormed → c.coord = target → ∃ r, generator.replay world bucket c biomes s = .ok r ∧
      r.cube.WellFormed ∧ r.cube.coord = target

namespace CompletesAt

variable {target : CubeCoord} (completes : generator.CompletesAt world biomes target)
include completes

theorem exists_grow (list : List σ) : ∃ forest, generator.grow world list = .ok forest := by
  have grown : ∃ forest, generator.grow world list = .ok forest ∧ True := by
    refine exists_foldlM trivial fun seed _ forest _ => ?_
    obtain ⟨script, made⟩ := completes.grows seed
    rw [made, ok_bind]
    exact ⟨_, rfl, trivial⟩
  exact grown.imp fun _ made => made.1

theorem exists_replayOrigin {origin : CubeCoord}
    (found : ∃ list, generator.seedsOf world origin = .ok list) {progress : Replayed}
    (wf : progress.cube.WellFormed) (coord : progress.cube.coord = target) :
    ∃ r, generator.replayOrigin world biomes target progress origin = .ok r ∧
      r.cube.WellFormed ∧ r.cube.coord = target := by
  obtain ⟨list, found⟩ := found
  obtain ⟨forest, grown⟩ := completes.exists_grow list.toList
  simp only [replayOrigin, found, grown, ok_bind]
  refine exists_foldlM (P := fun r : Replayed => r.cube.WellFormed ∧ r.cube.coord = target)
    ⟨wf, coord⟩ ?_
  rintro bucket member r ⟨wf, coord⟩
  obtain ⟨step, replayed, kept⟩ :=
    completes.replays bucket r.cube r.stream (Forest.pos_inside_of_mem_buckets member) wf coord
  rw [replayed, ok_bind]
  exact ⟨_, rfl, kept⟩

theorem exists_uncached (wf : c.WellFormed) (coord : c.coord = target) :
    ∃ written after, generator.uncached world c biomes = .ok (written, after) ∧
      after.WellFormed ∧ after.coord = target := by
  subst coord
  obtain ⟨origins, around, found⟩ := completes.finds
  have replayed : ∃ r, origins.foldlM (generator.replayOrigin world biomes c.coord)
      ⟨0, c, .forCube world.seed c.coord⟩ = .ok r ∧ r.cube.WellFormed ∧ r.cube.coord = c.coord := by
    refine exists_foldlM (P := fun r : Replayed => r.cube.WellFormed ∧ r.cube.coord = c.coord)
      ⟨wf, rfl⟩ ?_
    rintro origin member r ⟨wf, coord⟩
    exact completes.exists_replayOrigin (found origin member) wf coord
  obtain ⟨r, run, kept⟩ := replayed
  refine ⟨r.written, r.cube, ?_, kept⟩
  rw [uncached, around, ok_bind, run]
  rfl

end CompletesAt

end Generator

section

variable (world : World) (biomes : BiomeSource) {target : CubeCoord}

theorem caveGenerator_completesAt {range : Int32} (ranges : Walker.Ranges range) {p : CaveParams}
    (room : p.maxInitNodes ≠ 4294967295) (sheltered : target.Sheltered range) :
    (caveGenerator range p).CompletesAt world biomes target := by
  have positive : 0 ≤ range.toInt := Int.le_trans (by decide) ranges.1
  constructor
  · obtain ⟨origins, around, packable⟩ := sheltered.exists_neighborhood positive
    refine ⟨origins, around, ?_⟩
    intro origin member
    obtain ⟨corner, located, _⟩ := (packable origin member).exists_minBlock
    obtain ⟨groups, after, drawn, _⟩ := CaveSeed.discover_spec located
      (s := .forCube world.seed origin) (fun _ => CaveSeed.toNat_lt_of_ne room) #[]
    simp only [Generator.seedsOf, caveGenerator, drawn, ok_bind, pure_eq]
    exact ⟨_, rfl⟩
  · exact CaveSeed.exists_script ranges p
  · rintro bucket c s inside wf rfl
    obtain ⟨corner, located, placed⟩ :=
      CubeCoord.atLocal_minBlock (sheltered.packable positive).fits
    simp only [caveGenerator, CaveSeed.replay]
    cases bucket.localBounds with
    | none => exact ⟨_, rfl, wf, rfl⟩
    | some box =>
      simp only [Cube.perimeterWater_eq wf, ok_bind]
      split
      case isTrue => exact ⟨_, rfl, wf, rfl⟩
      case isFalse =>
        rw [located, ok_bind]
        refine Replayed.exists_guarded inside ?_ wf s
        intro op member b
        rw [placed op.pos (inside op member)]
        exact ⟨_, rfl⟩

theorem pocketGenerator_completesAt (p : PocketParams) (sheltered : target.Sheltered 1) :
    (pocketGenerator p).CompletesAt world biomes target := by
  constructor
  · obtain ⟨origins, around, packable⟩ := sheltered.exists_neighborhood (by decide)
    refine ⟨origins, around, ?_⟩
    intro origin member
    obtain ⟨corner, located, _⟩ := (packable origin member).exists_minBlock
    obtain ⟨pushed, after, drawn⟩ :=
      PocketSeed.exists_discover p located (.forCube world.seed origin) #[]
    simp only [Generator.seedsOf, pocketGenerator, drawn, ok_bind, pure_eq]
    exact ⟨_, rfl⟩
  · exact fun seed => ⟨_, rfl⟩
  · rintro bucket c s inside wf rfl
    exact Replayed.exists_guarded inside (fun _ _ _ => ⟨_, rfl⟩) wf s

end

namespace Plain

variable {world : World} {biomes : BiomeSource} {c : Cube}

theorem exists_replay {σ : Type} {generator : Generator σ} (enable : Bool)
    (completes : generator.CompletesAt world biomes c.coord) (wf : c.WellFormed) :
    ∃ written after, replay enable generator world c biomes = .ok (written, after) ∧
      after.WellFormed ∧ after.coord = c.coord := by
  cases enable with
  | true => exact completes.exists_uncached wf rfl
  | false => exact ⟨0, c, rfl, wf, rfl⟩

/-- Under accepted settings with room for the counts of the seeds, features can be replayed in any
cube whose surroundings lie in the packed range. -/
theorem exists_generate (accepted : world.params.check = .ok ())
    (room : world.params.caves.maxInitNodes ≠ 4294967295)
    (sheltered : c.coord.Sheltered world.params.range) (wf : c.WellFormed) :
    ∃ o, generate world c biomes = .ok o := by
  obtain ⟨⟨least, most⟩, _⟩ := world.params.check_eq_ok_iff.1 accepted
  have ranges : Walker.Ranges world.params.range :=
    ⟨Int32.le_iff_toInt_le.1 least, Int32.le_iff_toInt_le.1 most⟩
  obtain ⟨carved, hollow, caves, hollowWf, coord⟩ := exists_replay world.params.cavesEnable
    (caveGenerator_completesAt world biomes ranges room sheltered) wf
  have near : hollow.coord.Sheltered 1 := by
    intro axis
    obtain ⟨lower, upper⟩ := sheltered axis
    have one : (1 : Int32).toInt = 1 := rfl
    obtain ⟨positive, _⟩ := ranges
    rw [coord, one]
    omega
  obtain ⟨filled, full, pockets, _⟩ := exists_replay world.params.pocketsEnable
    (pocketGenerator_completesAt world biomes world.params.pockets near)
    hollowWf
  exact ⟨⟨carved, filled, full⟩, by simp only [generate, caves, pockets, ok_bind, pure_eq]⟩

theorem exists_fillBaseTerrain (accepted : checkLayers [] world.params.layers = .ok ())
    (packable : c.coord.Packable) (levels : world.Levels c.coord) (wf : c.WellFormed) :
    ∃ after, fillBaseTerrain world c = .ok after ∧ after.WellFormed ∧ after.coord = c.coord := by
  obtain ⟨grid, sampled, _, fills⟩ := levels.exists_fill accepted packable
  obtain ⟨after, filled, kept⟩ := fills c wf rfl
  refine ⟨after, ?_, kept⟩
  rw [fillBaseTerrain, sampled, ok_bind]
  exact filled

theorem exists_generateFull (accepted : world.params.check = .ok ())
    (room : world.params.caves.maxInitNodes ≠ 4294967295)
    (sheltered : c.coord.Sheltered world.params.range) (levels : world.Levels c.coord)
    (wf : c.WellFormed) : ∃ o, generateFull world c biomes = .ok o := by
  obtain ⟨⟨least, _⟩, _, _, _, _, _, _, layers, _⟩ := world.params.check_eq_ok_iff.1 accepted
  have positive : 0 ≤ world.params.range.toInt :=
    Int.le_trans (by decide) (Int32.le_iff_toInt_le.1 least)
  obtain ⟨after, made, afterWf, coord⟩ :=
    exists_fillBaseTerrain layers (sheltered.packable positive) levels wf
  obtain ⟨o, generated⟩ := exists_generate accepted room (coord ▸ sheltered) afterWf
  exact ⟨o, by rw [generateFull, made, ok_bind, generated]⟩

end Plain

/-- As the defaults, but features are looked for in every cube. -/
def hollowParams : Params := { caves := { rarity := 1 }, pockets := { rarity := 1 } }

def hollowWorld (seed : UInt64) : World := ⟨0, seed, hollowParams⟩

theorem hollowParams_sound :
    hollowParams.check = .ok () ∧ hollowParams.caves.maxInitNodes ≠ 4294967295 :=
  ⟨rfl, by decide⟩

theorem hollowWorld_generate (seed : UInt64) (biomes : BiomeSource) {c : Cube}
    (sheltered : c.coord.Sheltered 8) (wf : c.WellFormed) : ∃ o, Plain.generate (hollowWorld seed) c biomes = .ok o :=
  Plain.exists_generate hollowParams_sound.1 hollowParams_sound.2 sheltered wf

theorem hollowWorld_generateFull (seed : UInt64) (biomes : BiomeSource) {c : Cube}
    (sheltered : c.coord.Sheltered 8) (wf : c.WellFormed) : ∃ o, Plain.generateFull (hollowWorld seed) c biomes = .ok o := by
  refine Plain.exists_generateFull hollowParams_sound.1 hollowParams_sound.2 sheltered ?_ wf
  obtain ⟨lower, upper⟩ := sheltered .y
  have ground : (hollowWorld seed).params.terrain.groundLevel.toInt = 0 := rfl
  have eight : (8 : Int32).toInt = 8 := rfl
  simp only [CubeCoord.along, eight] at lower upper
  rw [World.Levels, ground]
  omega

end Karst
