import Karst.Proofs.Noise.Fingerprint
import Karst.Proofs.Pipeline.Plain
import Karst.Proofs.Precalc.Workshop

/-!
What a generator keeps never shows. When all contexts of one world carry the same settings, every
state it keeps is that of a world with the seed it notes, every grid it may still take was computed
for some seed of its world, and each call comes out as if it had been made on nothing.
-/

namespace Karst

open Guarded

variable {σ : Type} {settings : UInt32 → Params} {world : World}

def LayerSet.Under (settings : UInt32 → Params) (set : LayerSet) : Prop :=
  set.layers = (settings set.world).layers

theorem layerSet_under (here : world.params = settings world.id) :
    world.layerSet.Under settings := by
  rw [LayerSet.Under, World.layerSet, here]

theorem eq_of_fingerprint {a b : LayerSet} (first : a.Under settings) (second : b.Under settings)
    (world : a.world = b.world) (print : a.fingerprint = b.fingerprint) : a = b := by
  obtain ⟨id, seed, layers⟩ := a
  obtain ⟨_, other, _⟩ := b
  cases world
  obtain rfl : layers = (settings id).layers := first
  obtain rfl : _ = (settings id).layers := second
  rw [LayerSet.fingerprint_inj.1 print]

/-- The driver of a kind of feature is there if it is enabled, and keeps what is true. -/
def Serves (enable : Bool) (generator : Generator σ) (driver : Option (FeatureDriver σ)) : Prop :=
  match driver with
  | some d => enable = true ∧ ∃ seed, d.Faithful generator seed
  | none => enable = false

theorem serves_ofParams (enable : Bool) (generator : Generator σ) (p : Params) :
    Serves enable generator (if enable then some (.ofParams generator p) else none) := by
  cases enable with
  | true => exact ⟨rfl, none, FeatureDriver.faithful_start _ _ _⟩
  | false => rfl

theorem replayDriver_spec {enable : Bool} {generator : Generator σ}
    (pure : generator.ReadsSeedOnly) {driver : Option (FeatureDriver σ)}
    (serves : Serves enable generator driver) (cube : Cube) (biomes : BiomeSource) (now : Instant) :
    Alike (fun out reference => (out.1, out.2.1) = reference ∧ Serves enable generator out.2.2)
      (CubeGenerator.replayDriver driver world cube biomes now)
      (Plain.replay enable generator world cube biomes) := by
  cases driver with
  | none =>
    obtain rfl : enable = false := serves
    exact .ok ⟨rfl, rfl⟩
  | some d =>
    obtain ⟨rfl, seed, faithful⟩ := serves
    simp only [CubeGenerator.replayDriver, Plain.replay, if_true]
    refine (FeatureDriver.generateAt_spec world pure faithful cube biomes now).map_left ?_
    rintro ⟨written, after, d⟩ _ ⟨kept, rfl⟩
    exact ⟨_, rfl, rfl, rfl, _, kept⟩

/-- The state of world `id` under the settings `p`, at the seed it notes. -/
structure WorldState.Sound (p : Params) (id : UInt32) (state : WorldState) : Prop where
  layers : state.layers = ⟨id, state.seed, p.layers⟩
  terrain : state.terrain = .ofLayers state.layers p.terrain
  caves : Serves p.cavesEnable (caveGenerator p.range p.caves) state.caves
  pockets : Serves p.pocketsEnable (pocketGenerator p.pockets) state.pockets

theorem WorldState.sound_ofWorld (here : world.params = settings world.id) :
    (WorldState.ofWorld world).Sound (settings world.id) world.id := by
  rw [← here]
  exact ⟨rfl, rfl, serves_ofParams _ _ _, serves_ofParams _ _ _⟩

theorem WorldState.Sound.reseed {state : WorldState}
    (sound : state.Sound (settings world.id) world.id) (here : world.params = settings world.id) :
    (state.reseed world).Sound (settings world.id) world.id := by
  rw [← here] at sound ⊢
  exact ⟨rfl, rfl, sound.caves, sound.pockets⟩

namespace CubeGenerator

structure Sound (settings : UInt32 → Params) (g : CubeGenerator) : Prop where
  precalc : g.precalc.Kept (LayerSet.Under settings)
  worlds : ∀ (id : UInt32) (state : WorldState), g.worlds[id]? = some state →
    state.Sound (settings id) id

variable {g : CubeGenerator}

theorem sound_start (workers queueCapacity cacheCapacity timeToLive : Nat) :
    Sound settings { precalc := .start workers queueCapacity cacheCapacity timeToLive } := by
  refine ⟨NoisePrecalc.kept_start _ _ _ _, ?_⟩
  intro id state found
  simp at found

theorem sound_ofParams (p : Params) : (ofParams p).Sound settings := sound_start _ _ _ _

theorem checkOut_spec (sound : g.Sound settings) (here : world.params = settings world.id) :
    (g.checkOut world).1.Sound (settings world.id) world.id ∧
      (g.checkOut world).1.seed = world.seed ∧ (g.checkOut world).2.Sound settings ∧
      (g.checkOut world).2.carved = g.carved ∧
      (g.checkOut world).2.pocketVoxels = g.pocketVoxels := by
  unfold checkOut
  cases found : g.worlds[world.id]? with
  | none => exact ⟨WorldState.sound_ofWorld here, rfl, sound, rfl, rfl⟩
  | some state =>
    have kept := sound.worlds _ _ found
    have rest : ∀ (id : UInt32) (other : WorldState), (g.worlds.erase world.id)[id]? = some other →
        other.Sound (settings id) id := by
      intro id other there
      rw [Std.HashMap.getElem?_erase] at there
      split at there
      case isTrue => cases there
      case isFalse => exact sound.worlds id other there
    simp only
    split
    case isTrue same => exact ⟨kept, same, ⟨sound.precalc, rest⟩, rfl, rfl⟩
    case isFalse =>
      exact ⟨kept.reseed here, rfl, ⟨sound.precalc.clearWorld world.id, rest⟩, rfl, rfl⟩

theorem Sound.checkIn (sound : g.Sound settings) {state : WorldState}
    (good : state.Sound (settings world.id) world.id) : (g.checkIn world state).Sound settings := by
  refine ⟨sound.precalc, ?_⟩
  intro id other found
  simp only [CubeGenerator.checkIn, Std.HashMap.getElem?_insert] at found
  split at found
  case isTrue same =>
    cases found
    exact eq_of_beq same ▸ good
  case isFalse => exact sound.worlds id other found

theorem generate_spec (sound : g.Sound settings) (here : world.params = settings world.id)
    (cube : Cube) (biomes : BiomeSource) (clock : Readings) :
    Alike (fun out plain => out.1 = plain.total ∧ out.2.1 = plain.cube ∧ out.2.2.Sound settings ∧
        out.2.2.carved = g.carved + plain.carved ∧
        out.2.2.pocketVoxels = g.pocketVoxels + plain.filled)
      (g.generate world cube biomes clock) (Plain.generate world cube biomes) := by
  obtain ⟨good, _, rest, carvedBefore, pocketsBefore⟩ := checkOut_spec sound here
  unfold CubeGenerator.generate
  generalize g.checkOut world = out at good rest carvedBefore pocketsBefore
  obtain ⟨⟨seed, layers, terrain, caves, pockets⟩, left⟩ := out
  simp only [Plain.generate, here]
  refine (replayDriver_spec (caveGenerator_readsSeedOnly _ _) good.caves cube biomes
    clock.caves).bind ?_
  rintro ⟨carved, cube, caves⟩ _ ⟨rfl, cavesServe⟩
  refine (replayDriver_spec (pocketGenerator_readsSeedOnly _) good.pockets cube biomes
    clock.pockets).bind ?_
  rintro ⟨filled, cube, pockets⟩ _ ⟨rfl, pocketsServe⟩
  have served : WorldState.Sound (settings world.id) world.id
      ⟨seed, layers, terrain, caves, pockets⟩ :=
    ⟨good.layers, good.terrain, cavesServe, pocketsServe⟩
  have checked := rest.checkIn served
  refine .ok ⟨rfl, rfl, ⟨checked.precalc, checked.worlds⟩, ?_, ?_⟩
  · exact congrArg (· + carved) carvedBefore
  · exact congrArg (· + filled) pocketsBefore

theorem fillBaseTerrain_spec (sound : g.Sound settings) (here : world.params = settings world.id)
    (cube : Cube) (now : Instant) :
    Alike (fun out plain => out.1 = plain ∧ out.2.Sound settings ∧ out.2.carved = g.carved ∧
        out.2.pocketVoxels = g.pocketVoxels)
      (g.fillBaseTerrain world cube now) (Plain.fillBaseTerrain world cube) := by
  obtain ⟨good, seed, rest, carvedBefore, pocketsBefore⟩ := checkOut_spec sound here
  unfold CubeGenerator.fillBaseTerrain
  generalize g.checkOut world = out at good seed rest carvedBefore pocketsBefore
  obtain ⟨state, left⟩ := out
  have checked := rest.checkIn good
  have layers : state.layers = world.layerSet := by
    rw [good.layers, seed, World.layerSet, here]
  have terrain : state.terrain = .ofLayers world.layerSet world.params.terrain := by
    rw [good.terrain, layers, here]
  simp only [Plain.fillBaseTerrain, layers, terrain]
  refine (checked.precalc.take (fun a b first second world print cube => by
    rw [eq_of_fingerprint first second world print]) (layerSet_under here) cube.coord now).bind ?_
  rintro ⟨grid, precalc⟩ _ ⟨rfl, kept⟩
  refine (Alike.of_eq rfl).map_left ?_
  rintro cube _ rfl
  refine ⟨_, rfl, rfl, ⟨?_, checked.worlds⟩, carvedBefore, pocketsBefore⟩
  exact kept.of_entries rfl rfl fun _ _ found => found

theorem generateFull_spec (sound : g.Sound settings) (here : world.params = settings world.id)
    (cube : Cube) (biomes : BiomeSource) (clock : Readings) :
    Alike (fun out plain => out.1 = plain.total ∧ out.2.1 = plain.cube ∧ out.2.2.Sound settings ∧
        out.2.2.carved = g.carved + plain.carved ∧
        out.2.2.pocketVoxels = g.pocketVoxels + plain.filled)
      (g.generateFull world cube biomes clock) (Plain.generateFull world cube biomes) := by
  refine (fillBaseTerrain_spec sound here cube clock.terrain).bind ?_
  rintro ⟨cube, left⟩ _ ⟨rfl, sound, carvedBefore, pocketsBefore⟩
  have generated := generate_spec sound here cube biomes clock
  rw [carvedBefore, pocketsBefore] at generated
  exact generated

theorem pregenerate_spec (sound : g.Sound settings) (here : world.params = settings world.id)
    (cube : CubeCoord) :
    (g.pregenerate world cube).Sound settings ∧ (g.pregenerate world cube).carved = g.carved ∧
      (g.pregenerate world cube).pocketVoxels = g.pocketVoxels := by
  unfold CubeGenerator.pregenerate
  split
  case isTrue =>
    have counted : ({ g with pregenerated := g.pregenerated + 1 } : CubeGenerator).Sound settings :=
      ⟨sound.precalc, sound.worlds⟩
    obtain ⟨good, _, rest, carved, pocketVoxels⟩ := checkOut_spec counted here
    have checked := rest.checkIn good
    refine ⟨⟨checked.precalc.submit ?_ cube, checked.worlds⟩, carved, pocketVoxels⟩
    rw [LayerSet.Under, good.layers]
  case isFalse => exact ⟨sound, rfl, rfl⟩

theorem Sound.unload (sound : g.Sound settings) (id : UInt32) : (g.unload id).Sound settings := by
  unfold CubeGenerator.unload
  split
  case isTrue =>
    refine ⟨sound.precalc.clearWorld id, ?_⟩
    intro other state found
    simp only [Std.HashMap.getElem?_erase] at found
    split at found
    case isTrue => cases found
    case isFalse => exact sound.worlds other state found
  case isFalse => exact sound

end CubeGenerator

end Karst
