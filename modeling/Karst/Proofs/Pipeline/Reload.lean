import Karst.Proofs.Feature.Tended
import Karst.Proofs.Pipeline.History

/-!
Where the parts of a loaded world come from. The call that loads a world fits out its feature
drivers, and nothing fits them out again before the world is unloaded; the first call under another
seed replaces the samplers. A world that is loaded again under other settings is therefore sampled
with the new ones, and its features are placed with those it was first loaded with.
-/

namespace Karst

open Guarded

/-! ## Drivers -/

structure Outfit (σ : Type) where
  generator : Generator σ
  seedWindows : List Nat
  treeWindows : List Nat
  poolCapacity : Nat

namespace FeatureDriver

variable {σ : Type} {d next : FeatureDriver σ} {world : World} {now : Instant}

def outfit (d : FeatureDriver σ) : Outfit σ :=
  ⟨d.generator, d.seeds.windows, d.trees.windows, d.scratch.capacity⟩

theorem outfit_syncSeed (seed : UInt64) : (d.syncSeed seed).outfit = d.outfit := by
  unfold syncSeed
  split <;> rfl

theorem outfit_expire (now : Instant) : (d.expire now).outfit = d.outfit := by
  simp only [expire, releaseAll_eq, outfit, TieredCache.windows_maybeExpire]

theorem outfit_discover {cube : CubeCoord} {list : Array σ}
    (done : d.discover world cube = .ok (list, next)) : next.outfit = d.outfit := by
  obtain ⟨_, _, noted⟩ := bind_eq_ok_iff.1 done
  cases noted
  exact congrArg (Outfit.mk _ _ _) ((Pool.capacity_put _).trans (Pool.capacity_take _))

theorem outfit_seedList {cube : CubeCoord} {list : Array σ}
    (done : d.seedList world cube now = .ok (list, next)) : next.outfit = d.outfit := by
  simp only [seedList, pure_eq] at done
  split at done
  case h_1 =>
    cases done
    rfl
  case h_2 =>
    obtain ⟨⟨_, after⟩, discovered, same⟩ := bind_eq_ok_iff.1 done
    cases same
    have kept : after.outfit = d.outfit := outfit_discover discovered
    exact kept

theorem outfit_treeList {cube : CubeCoord} {list : Array σ} {roots : Array Handle}
    (done : d.treeList world cube list now = .ok (roots, next)) : next.outfit = d.outfit := by
  rcases treeList_cases done with ⟨_, rfl⟩ | ⟨_, _, _, rfl⟩ <;> rfl

theorem outfit_replayNeighbour {biomes : BiomeSource} {target origin : CubeCoord}
    {progress reached : Replayed}
    (done : replayNeighbour world biomes target now d progress origin = .ok (next, reached)) :
    next.outfit = d.outfit := by
  obtain ⟨⟨list, listed⟩, seeds, done⟩ := bind_eq_ok_iff.1 done
  dsimp only at done
  split at done
  case isTrue =>
    cases done
    exact outfit_seedList seeds
  case isFalse =>
    obtain ⟨⟨roots, treed⟩, trees, done⟩ := bind_eq_ok_iff.1 done
    obtain ⟨_, _, done⟩ := bind_eq_ok_iff.1 done
    cases done
    exact (outfit_treeList trees).trans (outfit_seedList seeds)

theorem outfit_generateAt {cube out : Cube} {biomes : BiomeSource} {written : Nat}
    (done : d.generateAt world cube biomes now = .ok (written, out, next)) :
    next.outfit = d.outfit := by
  obtain ⟨_, _, done⟩ := bind_eq_ok_iff.1 done
  obtain ⟨⟨last, _⟩, replayed, done⟩ := bind_eq_ok_iff.1 done
  cases done
  have swept : ((d.syncSeed world.seed).expire now).outfit = d.outfit :=
    (outfit_expire now).trans (outfit_syncSeed world.seed)
  refine foldlM_invariant (P := fun state : FeatureDriver σ × Replayed =>
    state.1.outfit = d.outfit) replayed swept ?_
  rintro origin _ ⟨before, _⟩ ⟨after, _⟩ kept done
  exact (outfit_replayNeighbour done).trans kept

end FeatureDriver

theorem CubeGenerator.outfit_replayDriver {σ : Type} {driver after : Option (FeatureDriver σ)}
    {world : World} {cube out : Cube} {biomes : BiomeSource} {now : Instant} {written : Nat}
    (done : replayDriver driver world cube biomes now = .ok (written, out, after)) :
    after.map FeatureDriver.outfit = driver.map FeatureDriver.outfit := by
  cases driver with
  | none =>
    cases done
    rfl
  | some d =>
    obtain ⟨⟨_, _, next⟩, generated, done⟩ := bind_eq_ok_iff.1 done
    cases done
    exact congrArg some (FeatureDriver.outfit_generateAt generated)

/-! ## States -/

def WorldState.outfits (state : WorldState) :
    Option (Outfit CaveSeed) × Option (Outfit PocketSeed) :=
  (state.caves.map FeatureDriver.outfit, state.pockets.map FeatureDriver.outfit)

/-- The two states differ in nothing but what their drivers keep and count. -/
structure WorldState.Like (a b : WorldState) : Prop where
  seed : a.seed = b.seed
  layers : a.layers = b.layers
  terrain : a.terrain = b.terrain
  outfits : a.outfits = b.outfits

namespace WorldState.Like

theorem refl (state : WorldState) : state.Like state := ⟨rfl, rfl, rfl, rfl⟩

theorem trans {a b c : WorldState} (first : a.Like b) (second : b.Like c) : a.Like c :=
  ⟨first.seed.trans second.seed, first.layers.trans second.layers,
    first.terrain.trans second.terrain, first.outfits.trans second.outfits⟩

end WorldState.Like

/-- The contexts that the drivers and the samplers of a loaded world were made from. -/
structure Origin where
  features : World
  samplers : World

namespace Origin

def state (origin : Origin) : WorldState :=
  { WorldState.ofWorld origin.samplers with
    caves := (WorldState.ofWorld origin.features).caves
    pockets := (WorldState.ofWorld origin.features).pockets }

/-- What serves a call: the first call makes everything, and a new seed the samplers. -/
def serving (held : Option Origin) (world : World) : Origin :=
  match held with
  | none => ⟨world, world⟩
  | some origin =>
      if origin.samplers.seed = world.seed then origin else ⟨origin.features, world⟩

theorem features_serving (origin : Origin) (world : World) :
    (serving (some origin) world).features = origin.features := by
  rw [serving]
  split <;> rfl

theorem serving_serving (held : Option Origin) (world : World) :
    serving (some (serving held world)) world = serving held world := by
  cases held with
  | none => simp [serving]
  | some origin =>
    by_cases same : origin.samplers.seed = world.seed <;> simp [serving, same]

def serve (origins : UInt32 → Option Origin) (world : World) : UInt32 → Option Origin :=
  Function.update origins world.id (some (serving (origins world.id) world))

theorem serve_serve (origins : UInt32 → Option Origin) (world : World) :
    serve (serve origins world) world = serve origins world := by
  simp only [serve, Function.update_self, serving_serving, Function.update_idem]

end Origin

theorem WorldState.Like.reseed {state : WorldState} {origin : Origin}
    (like : state.Like origin.state) (world : World) :
    (state.reseed world).Like (Origin.state ⟨origin.features, world⟩) :=
  ⟨rfl, rfl, rfl, like.outfits⟩

def Traced (origins : UInt32 → Option Origin) (worlds : Std.HashMap UInt32 WorldState) : Prop :=
  ∀ id, Option.Rel (fun origin state => state.Like origin.state) (origins id) worlds[id]?

namespace Traced

variable {origins : UInt32 → Option Origin} {worlds : Std.HashMap UInt32 WorldState}

theorem insert (traced : ∀ id : UInt32, id ≠ world.id →
      Option.Rel (fun origin state => state.Like origin.state) (origins id) worlds[id]?)
    {state : WorldState} (like : state.Like (Origin.serving (origins world.id) world).state) :
    Traced (Origin.serve origins world) (worlds.insert world.id state) := by
  intro id
  rw [Origin.serve, Std.HashMap.getElem?_insert]
  by_cases same : id = world.id
  · subst same
    rw [Function.update_self, if_pos (by simp)]
    exact .some like
  · rw [Function.update_of_ne same, if_neg (by simpa using Ne.symm same)]
    exact traced id same

theorem erase (traced : Traced origins worlds) (id : UInt32) :
    Traced (Function.update origins id none) (worlds.erase id) := by
  intro other
  rw [Std.HashMap.getElem?_erase]
  by_cases same : other = id
  · subst same
    rw [Function.update_self, if_pos (by simp)]
    exact .none
  · rw [Function.update_of_ne same, if_neg (by simpa using Ne.symm same)]
    exact traced other

end Traced

namespace CubeGenerator

variable {origins : UInt32 → Option Origin} {g next : CubeGenerator} {world : World}

theorem checkOut_like (traced : Traced origins g.worlds) (world : World) :
    (g.checkOut world).1.Like (Origin.serving (origins world.id) world).state := by
  have held := traced world.id
  unfold checkOut
  generalize origins world.id = noted, g.worlds[world.id]? = found at held ⊢
  cases held with
  | none => exact .refl _
  | @some origin state like =>
    have seed : state.seed = origin.samplers.seed := like.seed
    simp only [Origin.serving, seed]
    split
    case isTrue => exact like
    case isFalse => exact like.reseed world

theorem getElem?_worlds_checkOut {id : UInt32} (other : id ≠ world.id) :
    (g.checkOut world).2.worlds[id]? = g.worlds[id]? := by
  have erased : (g.worlds.erase world.id)[id]? = g.worlds[id]? := by
    rw [Std.HashMap.getElem?_erase, if_neg (by simpa using other.symm)]
  unfold checkOut
  split
  case h_1 => rfl
  case h_2 => split <;> exact erased

theorem traced_checkIn (traced : Traced origins g.worlds) {state : WorldState}
    (like : state.Like (g.checkOut world).1) :
    Traced (Origin.serve origins world) ((g.checkOut world).2.checkIn world state).worlds := by
  refine Traced.insert ?_ (like.trans (checkOut_like traced world))
  intro id other
  rw [getElem?_worlds_checkOut other]
  exact traced id

theorem traced_pregenerate (traced : Traced origins g.worlds) (world : World) (cube : CubeCoord) :
    Traced (if world.params.precalc.enable then Origin.serve origins world else origins)
      (g.pregenerate world cube).worlds := by
  unfold pregenerate
  split
  case isTrue =>
    exact traced_checkIn (g := { g with pregenerated := g.pregenerated + 1 }) traced (.refl _)
  case isFalse => exact traced

theorem traced_fillBaseTerrain (traced : Traced origins g.worlds) {cube out : Cube} {now : Instant}
    (done : g.fillBaseTerrain world cube now = .ok (out, next)) :
    Traced (Origin.serve origins world) next.worlds := by
  obtain ⟨_, _, done⟩ := bind_eq_ok_iff.1 done
  obtain ⟨_, _, done⟩ := bind_eq_ok_iff.1 done
  cases done
  exact traced_checkIn traced (.refl _)

theorem traced_generate (traced : Traced origins g.worlds) {cube out : Cube} {biomes : BiomeSource}
    {clock : Readings} {written : Nat}
    (done : g.generate world cube biomes clock = .ok (written, out, next)) :
    Traced (Origin.serve origins world) next.worlds := by
  obtain ⟨⟨_, _, caves⟩, carved, done⟩ := bind_eq_ok_iff.1 done
  obtain ⟨⟨_, _, pockets⟩, filled, done⟩ := bind_eq_ok_iff.1 done
  cases done
  refine traced_checkIn traced ⟨rfl, rfl, rfl, ?_⟩
  exact Prod.ext (outfit_replayDriver carved) (outfit_replayDriver filled)

theorem traced_unload (traced : Traced origins g.worlds) (id : UInt32) :
    Traced (Function.update origins id none) (g.unload id).worlds := by
  unfold unload
  split
  case isTrue => exact traced.erase id
  case isFalse absent =>
    have unnoted : origins id = none := by
      have held := traced id
      rw [Std.HashMap.getElem?_eq_none_of_contains_eq_false (by simpa using absent)] at held
      generalize origins id = noted at held ⊢
      cases held
      rfl
    rw [← unnoted, Function.update_eq_self]
    exact traced

end CubeGenerator

/-! ## Histories -/

def PipelineCall.trace (origins : UInt32 → Option Origin) :
    PipelineCall → UInt32 → Option Origin
  | .pregenerate world _ =>
      if world.params.precalc.enable then Origin.serve origins world else origins
  | .fillBaseTerrain world _ _ => Origin.serve origins world
  | .generate world _ _ _ => Origin.serve origins world
  | .generateFull world _ _ _ => Origin.serve origins world
  | .unload id => Function.update origins id none
  | .background _ => origins

def originsOver (history : List PipelineCall) : UInt32 → Option Origin :=
  history.foldl PipelineCall.trace fun _ => none

namespace Site

variable {origins : UInt32 → Option Origin} {s next : Site} {world : World}

theorem traced_call (traced : Traced origins s.generator.worlds) {made : PipelineCall}
    (done : s.call made = .ok next) : Traced (made.trace origins) next.generator.worlds := by
  cases made with
  | pregenerate world cube =>
    cases done
    exact CubeGenerator.traced_pregenerate traced world cube
  | fillBaseTerrain world cube now =>
    obtain ⟨⟨_, generator⟩, filled, same⟩ := bind_eq_ok_iff.1 done
    cases same
    exact CubeGenerator.traced_fillBaseTerrain traced filled
  | generate world cube biomes clock =>
    obtain ⟨⟨_, _, generator⟩, generated, same⟩ := bind_eq_ok_iff.1 done
    cases same
    exact CubeGenerator.traced_generate traced generated
  | generateFull world cube biomes clock =>
    obtain ⟨⟨_, _, generator⟩, generated, same⟩ := bind_eq_ok_iff.1 done
    cases same
    obtain ⟨⟨_, between⟩, filled, generated⟩ := bind_eq_ok_iff.1 generated
    -- two calls under one seed, of which the second finds everything in place
    have twice := CubeGenerator.traced_generate
      (CubeGenerator.traced_fillBaseTerrain traced filled) generated
    rwa [Origin.serve_serve] at twice
  | unload id =>
    cases done
    exact CubeGenerator.traced_unload traced id
  | background move =>
    cases done
    exact traced

theorem traced_after {history : List PipelineCall} (traced : Traced origins s.generator.worlds)
    (run : s.after history = .ok next) :
    Traced (history.foldl PipelineCall.trace origins) next.generator.worlds := by
  induction history generalizing s origins with
  | nil =>
    cases run
    exact traced
  | cons made history ih =>
    obtain ⟨middle, done, run⟩ := bind_eq_ok_iff.1 run
    exact ih (traced_call traced done) run

theorem traced_start (workers queueCapacity cacheCapacity timeToLive : Nat) :
    Traced (fun _ => none)
      (start workers queueCapacity cacheCapacity timeToLive).generator.worlds := by
  intro id
  simp only [start, Std.HashMap.getElem?_empty]
  exact .none

variable {workers queueCapacity cacheCapacity timeToLive : Nat} {history : List PipelineCall}
  {state : WorldState}

theorem checkOut_reseeded (traced : Traced origins s.generator.worlds)
    (loaded : s.generator.worlds[world.id]? = some state) (reseeded : state.seed ≠ world.seed) :
    ∃ origin, origins world.id = some origin ∧
      (s.generator.checkOut world).1.Like (Origin.state ⟨origin.features, world⟩) := by
  have served := CubeGenerator.checkOut_like traced world
  have held := traced world.id
  rw [loaded] at held
  generalize origins world.id = noted at held served ⊢
  cases held with
  | @some origin _ like =>
    have seed : state.seed = origin.samplers.seed := like.seed
    rw [Origin.serving, if_neg (seed ▸ reseeded)] at served
    exact ⟨origin, rfl, served⟩

/-- A world that is reseeded is sampled as its context says, while its drivers stay those of the
context that loaded it: the state is the one that the context alone would make exactly if both
contexts start the same drivers. -/
theorem reseeded_like_loaded
    (run : (start workers queueCapacity cacheCapacity timeToLive).after history = .ok s)
    (loaded : s.generator.worlds[world.id]? = some state) (reseeded : state.seed ≠ world.seed) :
    ∃ origin, originsOver history world.id = some origin ∧
      (s.generator.checkOut world).1.Like (Origin.state ⟨origin.features, world⟩) ∧
      ((s.generator.checkOut world).1.Like (.ofWorld world) ↔
        (WorldState.ofWorld origin.features).outfits = (WorldState.ofWorld world).outfits) := by
  obtain ⟨origin, noted, like⟩ :=
    checkOut_reseeded (traced_after (traced_start _ _ _ _) run) loaded reseeded
  refine ⟨origin, noted, like, ?_⟩
  constructor
  · intro new
    exact like.outfits.symm.trans new.outfits
  · intro same
    exact ⟨like.seed, like.layers, like.terrain, like.outfits.trans same⟩

def bareParams : Params := { cavesEnable := false, pocketsEnable := false, layers := [] }

def bareWorld : World := ⟨0, 5, bareParams⟩

def furnishedWorld : World := ⟨0, 6, {}⟩

def bareSite : Site :=
  ⟨(start 1 4 4 30).generator.pregenerate bareWorld ⟨0, 0, 0⟩, []⟩

theorem getElem?_bareSite :
    bareSite.generator.worlds[furnishedWorld.id]? = some (.ofWorld bareWorld) := by
  simp [bareSite, bareWorld, furnishedWorld, start, CubeGenerator.pregenerate,
    CubeGenerator.checkOut, CubeGenerator.checkIn, bareParams]

theorem furnishedWorld_like_loaded :
    (start 1 4 4 30).after [.pregenerate bareWorld ⟨0, 0, 0⟩] = .ok bareSite ∧
      ∃ origin, originsOver [.pregenerate bareWorld ⟨0, 0, 0⟩] 0 = some origin ∧
        (bareSite.generator.checkOut furnishedWorld).1.Like
          (Origin.state ⟨origin.features, furnishedWorld⟩) ∧
        ((bareSite.generator.checkOut furnishedWorld).1.Like (.ofWorld furnishedWorld) ↔
          (WorldState.ofWorld origin.features).outfits =
            (WorldState.ofWorld furnishedWorld).outfits) := by
  have run : (start 1 4 4 30).after [.pregenerate bareWorld ⟨0, 0, 0⟩] = .ok bareSite := rfl
  have reseeded : (WorldState.ofWorld bareWorld).seed ≠ furnishedWorld.seed := by decide
  exact ⟨run, reseeded_like_loaded run getElem?_bareSite reseeded⟩

theorem furnishedWorld_without_pockets :
    (start 1 4 4 30).after [.pregenerate bareWorld ⟨0, 0, 0⟩] = .ok bareSite ∧
      ¬ (bareSite.generator.checkOut furnishedWorld).1.Like (.ofWorld furnishedWorld) := by
  refine ⟨rfl, ?_⟩
  intro like
  have pockets : (bareSite.generator.checkOut furnishedWorld).1.pockets.map FeatureDriver.outfit =
      (WorldState.ofWorld furnishedWorld).pockets.map FeatureDriver.outfit :=
    congrArg Prod.snd like.outfits
  rw [CubeGenerator.checkOut, getElem?_bareSite] at pockets
  cases pockets

/-! ## One set of settings for each world -/

variable {settings : UInt32 → Params}

def FurnishedBy (settings : UInt32 → Params) (origins : UInt32 → Option Origin) : Prop :=
  ∀ id origin, origins id = some origin → origin.features.params = settings id

theorem FurnishedBy.serve (furnished : FurnishedBy settings origins)
    (here : world.params = settings world.id) :
    FurnishedBy settings (Origin.serve origins world) := by
  intro id origin noted
  by_cases same : id = world.id
  · subst same
    rw [Origin.serve, Function.update_self] at noted
    cases noted
    cases held : origins world.id with
    | none => exact here
    | some earlier =>
      rw [Origin.features_serving]
      exact furnished _ _ held
  · rw [Origin.serve, Function.update_of_ne same] at noted
    exact furnished id origin noted

theorem FurnishedBy.trace (furnished : FurnishedBy settings origins) {made : PipelineCall}
    (agrees : made.Under settings) : FurnishedBy settings (made.trace origins) := by
  cases made with
  | pregenerate world cube =>
    simp only [PipelineCall.trace]
    split
    case isTrue => exact furnished.serve agrees
    case isFalse => exact furnished
  | fillBaseTerrain world cube now => exact furnished.serve agrees
  | generate world cube biomes clock => exact furnished.serve agrees
  | generateFull world cube biomes clock => exact furnished.serve agrees
  | unload id =>
    intro other origin noted
    by_cases same : other = id
    · rw [PipelineCall.trace, same, Function.update_self] at noted
      cases noted
    · rw [PipelineCall.trace, Function.update_of_ne same] at noted
      exact furnished other origin noted
  | background move => exact furnished

theorem furnishedBy_originsOver (agree : ∀ made ∈ history, made.Under settings) :
    FurnishedBy settings (originsOver history) := by
  refine List.foldlRecOn history PipelineCall.trace ?_ ?_
  · intro id origin noted
    cases noted
  · intro origins furnished made member
    exact furnished.trace (agree made member)

theorem outfits_ofWorld {a b : World} (same : a.params = b.params) :
    (WorldState.ofWorld a).outfits = (WorldState.ofWorld b).outfits := by
  simp only [WorldState.ofWorld, WorldState.outfits, same]

theorem reseeded_like_new (agree : ∀ made ∈ history, made.Under settings)
    (run : (start workers queueCapacity cacheCapacity timeToLive).after history = .ok s)
    (here : world.params = settings world.id)
    (loaded : s.generator.worlds[world.id]? = some state) (reseeded : state.seed ≠ world.seed) :
    (s.generator.checkOut world).1.Like (.ofWorld world) := by
  obtain ⟨origin, noted, like⟩ :=
    checkOut_reseeded (traced_after (traced_start _ _ _ _) run) loaded reseeded
  have same : origin.features.params = world.params :=
    (furnishedBy_originsOver agree _ _ noted).trans here.symm
  exact ⟨like.seed, like.layers, like.terrain, like.outfits.trans (outfits_ofWorld same)⟩

end Site

end Karst
