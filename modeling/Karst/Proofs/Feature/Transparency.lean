import Karst.Proofs.Cache.Pool
import Karst.Proofs.Feature.Stock
import Karst.Proofs.Feature.Uncached

/-!
Caching does not show. Whatever a driver was asked before, its next answer is that of generation with
nothing kept: what its caches hold is what would be computed afresh, and every call keeps it so.
-/

namespace Karst

open Guarded

variable {σ : Type} {generator : Generator σ} {remembered : Option UInt64} {d : FeatureDriver σ}

namespace FeatureDriver

def Grows (generator : Generator σ) (remembered : Option UInt64) (key : EpochCube)
    (forest : Forest σ) : Prop :=
  ∀ world : World, remembered = some world.seed → ∃ list,
    generator.seedsOf world key.cube = .ok list ∧ generator.grow world list.toList = .ok forest

structure Faithful (generator : Generator σ) (remembered : Option UInt64)
    (d : FeatureDriver σ) : Prop where
  uses : d.generator = generator
  recalls : d.rememberedSeed = remembered
  scratch : d.scratch.Holds (· = #[])
  seeds : ∀ key list, d.seeds.peek key = some list → ∀ world : World,
    remembered = some world.seed → generator.seedsOf world key.cube = .ok list
  trees : ∃ plots, Stocked d.arena d.trees.peek plots (Grows generator remembered)

theorem faithful_start (generator : Generator σ) (windows : List Nat) (capacity : Nat) :
    Faithful generator none (start generator windows capacity) := by
  refine ⟨rfl, rfl, Pool.holds_ofCapacity capacity, ?_, fun _ => [], ?_⟩
  · intro key list kept
    simp [start] at kept
  · exact .empty (fun key => TieredCache.peek_ofWindows windows key) Arena.tidy_empty
      Arena.not_isLive_empty

namespace Faithful

theorem cleared (faithful : Faithful generator remembered d) (seed : Option UInt64) :
    Faithful generator seed { d.invalidate with rememberedSeed := seed } := by
  refine ⟨faithful.uses, rfl, faithful.scratch, ?_, fun _ => [], ?_⟩
  · intro key list kept
    simp [invalidate] at kept
  · exact .empty (fun key => TieredCache.peek_clear key) (Arena.tidy_clear d.arena)
      (Arena.not_isLive_clear d.arena)

theorem invalidate (faithful : Faithful generator remembered d) :
    Faithful generator remembered d.invalidate := by
  have same : d.invalidate = { d.invalidate with rememberedSeed := remembered } := by
    rw [← faithful.recalls]
    rfl
  rw [same]
  exact faithful.cleared remembered

theorem syncSeed (faithful : Faithful generator remembered d) (seed : UInt64) :
    Faithful generator (some seed) (d.syncSeed seed) := by
  unfold FeatureDriver.syncSeed
  split
  case isTrue known =>
    have same : remembered = some seed := faithful.recalls ▸ known
    exact same ▸ faithful
  case isFalse => exact faithful.cleared (some seed)

end Faithful

theorem releaseAll_eq (gone : List (EpochCube × Array Handle)) (d : FeatureDriver σ) :
    gone.foldl (fun d p => d.releaseRoots p.2) d = { d with
      arena := gone.foldl (fun arena p => p.2.foldl FeatureArena.releaseTree arena) d.arena
      counts := { d.counts with
        treesReleased := d.counts.treesReleased + (gone.map fun p => p.2.size).sum } } := by
  induction gone generalizing d with
  | nil => rfl
  | cons p gone ih =>
    rw [List.foldl_cons, ih, List.map_cons, List.sum_cons, ← Nat.add_assoc]
    rfl

theorem expire_spec (d : FeatureDriver σ) (now : Instant) : ∃ seeds trees young gone,
    TieredCache.Swept d.seeds seeds young ∧ TieredCache.Swept d.trees trees gone ∧
      seeds.misses = d.seeds.misses ∧ d.expire now = { d with
        seeds
        trees
        arena := gone.foldl (fun arena p => p.2.foldl FeatureArena.releaseTree arena) d.arena
        counts := { d.counts with
          treesReleased := d.counts.treesReleased + (gone.map fun p => p.2.size).sum } } := by
  obtain ⟨own, seed, epoch, seeds, trees, arena, scratch, counts⟩ := d
  exact ⟨_, _, _, _, seeds.maybeExpire_spec now, trees.maybeExpire_spec now,
    seeds.misses_maybeExpire now, releaseAll_eq _ _⟩

theorem Faithful.expire (faithful : Faithful generator remembered d) (now : Instant) :
    Faithful generator remembered (d.expire now) := by
  obtain ⟨plots, stocked⟩ := faithful.trees
  obtain ⟨seeds, trees, young, gone, swept, old, _, same⟩ := d.expire_spec now
  rw [same]
  refine ⟨faithful.uses, faithful.recalls, faithful.scratch, ?_, ?_⟩
  · intro key list held
    exact faithful.seeds key list (swept.peek_eq held)
  · exact stocked.sweep old.nodup old.held old.left

variable {world : World}

/-- The outcome agrees with the computation that keeps nothing, and what is kept stays faithful. -/
def Agrees (generator : Generator σ) (seed : UInt64) {α : Type} (out : α × FeatureDriver σ)
    (a : α) : Prop :=
  out.1 = a ∧ Faithful generator (some seed) out.2

theorem discover_spec (faithful : Faithful generator (some world.seed) d) (cube : CubeCoord) :
    Alike (Agrees generator world.seed) (d.discover world cube) (generator.seedsOf world cube) := by
  obtain ⟨empty, scratch⟩ := faithful.scratch.take #[] rfl
  simp only [FeatureDriver.discover, Generator.seedsOf, faithful.uses, empty]
  refine (Alike.of_eq rfl).bind ?_
  rintro ⟨list, stream⟩ _ rfl
  refine .ok ⟨rfl, ?_⟩
  exact ⟨rfl, faithful.recalls, scratch.put rfl, faithful.seeds, faithful.trees⟩

theorem seedList_spec (pure : generator.ReadsSeedOnly)
    (faithful : Faithful generator (some world.seed) d) (cube : CubeCoord) (now : Instant) :
    Alike (Agrees generator world.seed) (d.seedList world cube now)
      (generator.seedsOf world cube) := by
  simp only [seedList, pure_eq]
  cases held : d.seeds.peek ⟨d.epoch, cube⟩ with
  | some list =>
    rw [faithful.seeds _ list held world rfl]
    refine .ok ⟨rfl, faithful.uses, faithful.recalls, faithful.scratch, ?_, faithful.trees⟩
    intro key other kept
    rw [TieredCache.peek_hit] at kept
    exact faithful.seeds key other kept
  | none =>
    refine (discover_spec faithful cube).reached.map_left ?_
    rintro ⟨list, after⟩ _ ⟨⟨rfl, faithful⟩, _, found⟩
    refine ⟨_, rfl, rfl, faithful.uses, faithful.recalls, faithful.scratch, ?_, faithful.trees⟩
    intro key other kept across same
    by_cases here : key = ⟨d.epoch, cube⟩
    · subst here
      rw [TieredCache.peek_place_self] at kept
      cases kept
      rw [pure.seedsOf_eq (Option.some.inj same).symm]
      exact found
    · rw [TieredCache.peek_place_of_ne here] at kept
      exact faithful.seeds key other kept across same

theorem buildTrees_spec (generator : Generator σ) (world : World) {arena : FeatureArena σ}
    (tidy : arena.Tidy FeatureNode.Blank) (list : Array σ) :
    Alike (fun built forest => ∃ slots, Grown arena built.2 slots ∧
        Planted built.2 built.1.toList forest slots)
      (buildTrees generator world arena list) (generator.grow world list.toList) := by
  rw [buildTrees, Generator.grow, ← Array.foldlM_toList]
  refine Alike.foldlM ⟨[], .refl tidy, .none⟩ ?_
  rintro seed _ ⟨roots, grownArena⟩ forest ⟨slots, grown, planted⟩
  refine (Alike.of_eq rfl).bind ?_
  rintro script _ rfl
  obtain ⟨built, more, done, next, tree⟩ :=
    FeatureArena.materialise_spec grown.tidy seed script
  simp only [done, ok_bind, pure_eq]
  refine .ok ⟨slots ++ more, grown.trans next, ?_⟩
  simpa using (next.planted planted).beside tree

theorem treeList_spec (pure : generator.ReadsSeedOnly)
    (faithful : Faithful generator (some world.seed) d) {cube : CubeCoord} {list : Array σ}
    (found : generator.seedsOf world cube = .ok list) (now : Instant) :
    Alike (fun out forest => Faithful generator (some world.seed) out.2 ∧
        ∃ slots, slots.Nodup ∧ Planted out.2.arena out.1.toList forest slots)
      (d.treeList world cube list now) (generator.grow world list.toList) := by
  obtain ⟨own, seed, epoch, seeds, trees, arena, scratch, counts⟩ := d
  obtain ⟨plots, stocked⟩ := faithful.trees
  obtain rfl : own = generator := faithful.uses
  simp only [treeList, pure_eq]
  cases held : trees.peek ⟨epoch, cube⟩ with
  | some roots =>
    obtain ⟨nodup, forest, planted, grows⟩ := stocked.planted _ roots held
    obtain ⟨seedsThere, again, grown⟩ := grows world rfl
    rw [found] at again
    cases again
    rw [grown]
    refine .ok ⟨⟨rfl, faithful.recalls, faithful.scratch, faithful.seeds, plots, ?_⟩, plots _, nodup,
      planted⟩
    have same := funext (trees.peek_hit ⟨epoch, cube⟩)
    exact same ▸ stocked
  | none =>
    refine (buildTrees_spec own world stocked.tidy list).reached.map_left ?_
    rintro ⟨roots, after⟩ forest ⟨⟨slots, more, planted⟩, _, grown⟩
    refine ⟨_, rfl, ⟨rfl, faithful.recalls, faithful.scratch, faithful.seeds,
      Function.update plots ⟨epoch, cube⟩ slots, ?_⟩, slots, more.nodup, planted⟩
    rw [TieredCache.peek_place]
    refine stocked.plant held more planted ?_
    intro across sameSeed
    have equal := Option.some.inj sameSeed
    exact ⟨list, pure.seedsOf_eq equal ▸ found, pure.grow_eq equal ▸ grown⟩

theorem replayNodes_eq (biomes : BiomeSource) (target : CubeCoord) (nodes : List (FeatureNode σ))
    (progress : Replayed) :
    replayNodes generator world biomes target nodes progress =
      generator.replayBuckets world biomes (nodes.filterMap fun node => node.bucket? target)
        progress := by
  induction nodes generalizing progress with
  | nil => rfl
  | cons node nodes ih =>
    rw [replayNodes, List.foldlM_cons, List.filterMap_cons]
    cases node.bucket? target with
    | none => exact ih progress
    | some bucket =>
      rw [Generator.replayBuckets, List.foldlM_cons]
      exact congrArg _ (funext fun next => ih next)

theorem replayTrees_spec (uses : d.generator = generator) (biomes : BiomeSource)
    (target : CubeCoord) {roots : Array Handle} {forest : Forest σ} {slots : List Nat}
    (planted : Planted d.arena roots.toList forest slots) (nodup : slots.Nodup)
    (progress : Replayed) :
    d.replayTrees world biomes target roots progress =
      generator.replayBuckets world biomes (forest.buckets target) progress := by
  rw [← planted.filterMap_visit nodup target, replayTrees, ← Array.foldlM_toList, uses]
  generalize roots.toList = handles
  induction handles generalizing progress with
  | nil => rfl
  | cons root handles ih =>
    rw [List.foldlM_cons, List.flatMap_cons, List.filterMap_append,
      Generator.replayBuckets_append, replayNodes_eq]
    exact congrArg _ (funext fun next => ih next)

theorem replayNeighbour_spec (pure : generator.ReadsSeedOnly)
    (faithful : Faithful generator (some world.seed) d) (biomes : BiomeSource)
    (target : CubeCoord) (now : Instant) (progress : Replayed) (origin : CubeCoord) :
    Alike (fun out next => Faithful generator (some world.seed) out.1 ∧ out.2 = next)
      (replayNeighbour world biomes target now d progress origin)
      (generator.replayOrigin world biomes target progress origin) := by
  refine (seedList_spec pure faithful origin now).reached.bind ?_
  rintro ⟨list, d⟩ _ ⟨⟨rfl, faithful⟩, _, found⟩
  simp only
  split
  case isTrue empty =>
    have none_found : list = #[] := by simpa using empty
    subst none_found
    exact .ok ⟨faithful, rfl⟩
  case isFalse =>
    refine (treeList_spec pure faithful found now).bind ?_
    rintro ⟨roots, d⟩ forest ⟨faithful, slots, nodup, planted⟩
    simp only [replayTrees_spec faithful.uses biomes target planted nodup]
    refine (Alike.of_eq rfl).map_left ?_
    rintro next _ rfl
    exact ⟨_, rfl, faithful, rfl⟩

theorem generateAt_spec (world : World) (pure : generator.ReadsSeedOnly)
    (faithful : Faithful generator remembered d) (cube : Cube) (biomes : BiomeSource)
    (now : Instant) :
    Alike (fun out reference => Faithful generator (some world.seed) out.2.2 ∧
        (out.1, out.2.1) = reference)
      (d.generateAt world cube biomes now) (generator.uncached world cube biomes) := by
  have ready := (faithful.syncSeed world.seed).expire now
  simp only [generateAt, Generator.uncached, ready.uses]
  refine (Alike.of_eq rfl).bind ?_
  rintro origins _ rfl
  refine Alike.bind (Alike.foldlM (R := fun state progress =>
    Faithful generator (some world.seed) state.1 ∧ state.2 = progress) ⟨ready, rfl⟩ ?_) ?_
  · rintro origin _ ⟨d, progress⟩ _ ⟨faithful, rfl⟩
    exact replayNeighbour_spec pure faithful biomes cube.coord now progress origin
  · rintro ⟨d, progress⟩ _ ⟨faithful, rfl⟩
    exact .ok ⟨⟨faithful.uses, faithful.recalls, faithful.scratch, faithful.seeds,
      faithful.trees⟩, rfl⟩

theorem seedsAt_spec (world : World) (pure : generator.ReadsSeedOnly)
    (faithful : Faithful generator remembered d) (cube : CubeCoord) (now : Instant) :
    Alike (Agrees generator world.seed) (d.seedsAt world cube now)
      (generator.seedsOf world cube) :=
  seedList_spec pure (faithful.syncSeed world.seed) cube now

end FeatureDriver

inductive DriverCall where
  | generateAt (world : World) (cube : Cube) (biomes : BiomeSource) (now : Instant)
  | seedsAt (world : World) (cube : CubeCoord) (now : Instant)
  | expire (now : Instant)
  | invalidate

namespace FeatureDriver

def call (d : FeatureDriver σ) : DriverCall → Guarded (FeatureDriver σ)
  | .generateAt world cube biomes now => do
      let (_, _, d) ← d.generateAt world cube biomes now
      return d
  | .seedsAt world cube now => do
      let (_, d) ← d.seedsAt world cube now
      return d
  | .expire now => return d.expire now
  | .invalidate => return d.invalidate

def after (d : FeatureDriver σ) (history : List DriverCall) : Guarded (FeatureDriver σ) :=
  history.foldlM call d

theorem Faithful.call (pure : generator.ReadsSeedOnly) (faithful : Faithful generator remembered d)
    {next : FeatureDriver σ} {made : DriverCall} (done : d.call made = .ok next) :
    ∃ seed, Faithful generator seed next := by
  cases made with
  | generateAt world cube biomes now =>
    obtain ⟨out, generated, same⟩ := bind_eq_ok_iff.1 done
    cases same
    obtain ⟨_, _, kept, _⟩ :=
      (generateAt_spec _ pure faithful cube biomes now).exists_right generated
    exact ⟨_, kept⟩
  | seedsAt world cube now =>
    obtain ⟨out, found, same⟩ := bind_eq_ok_iff.1 done
    cases same
    obtain ⟨_, _, _, kept⟩ := (seedsAt_spec _ pure faithful cube now).exists_right found
    exact ⟨_, kept⟩
  | expire now =>
    cases done
    exact ⟨_, faithful.expire now⟩
  | invalidate =>
    cases done
    exact ⟨_, faithful.invalidate⟩

theorem faithful_after (pure : generator.ReadsSeedOnly) {windows : List Nat} {capacity : Nat}
    {history : List DriverCall}
    (run : (start generator windows capacity).after history = .ok d) :
    ∃ seed, Faithful generator seed d := by
  refine foldlM_invariant (P := fun d => ∃ seed, Faithful generator seed d) run
    ⟨none, faithful_start generator windows capacity⟩ ?_
  rintro made _ d next ⟨seed, faithful⟩ done
  exact faithful.call pure done

/-- After any history, generating a cube and asking for seeds come out, faults included, as if
nothing had been kept. -/
theorem answers_eq_uncached (pure : generator.ReadsSeedOnly) {windows : List Nat}
    {capacity : Nat} {history : List DriverCall}
    (run : (start generator windows capacity).after history = .ok d) (world : World)
    (now : Instant) :
    (∀ cube biomes, (d.generateAt world cube biomes now).map (fun out => (out.1, out.2.1)) =
      generator.uncached world cube biomes) ∧
    ∀ cube, (d.seedsAt world cube now).map Prod.fst = generator.seedsOf world cube := by
  obtain ⟨seed, faithful⟩ := faithful_after pure run
  constructor
  · intro cube biomes
    have same := (generateAt_spec world pure faithful cube biomes now).map_eq
      (fun out => (out.1, out.2.1)) id fun _ _ related => related.2
    rw [same]
    cases generator.uncached world cube biomes <;> rfl
  · intro cube
    have same := (seedsAt_spec world pure faithful cube now).map_eq
      Prod.fst id fun _ _ related => related.1
    rw [same]
    cases generator.seedsOf world cube <;> rfl

def lantern : Generator Unit where
  range := 0
  discover _ _ s found := .ok (found.push (), s)
  materialise _ _ := .ok (.set ⟨0, 0, 0⟩ .lava .done)
  replay _ bucket cube _ s := Replayed.all bucket cube s

theorem lantern_readsSeedOnly : lantern.ReadsSeedOnly := ⟨fun _ _ _ => rfl, fun _ _ _ => rfl⟩

def lanternRun : List DriverCall :=
  [.generateAt ⟨0, 5, {}⟩ (.empty ⟨0, 0, 0⟩) (fun _ => .plains) 7, .expire 90,
    .generateAt ⟨0, 6, {}⟩ (.empty ⟨0, 0, 0⟩) (fun _ => .plains) 3, .invalidate]

theorem lantern_answers_after_run :
    ∃ d, (start lantern [10] 1).after lanternRun = .ok d ∧
      (d.generateAt ⟨0, 5, {}⟩ (.empty ⟨0, 0, 0⟩) (fun _ => .plains) 4).map (fun out => out.1) =
        .ok 1 := by
  have first : ((lantern.uncached ⟨0, 5, {}⟩ (.empty ⟨0, 0, 0⟩) fun _ => .plains).map
      fun out => out.1) = .ok 1 := by decide +kernel
  have second : ((lantern.uncached ⟨0, 6, {}⟩ (.empty ⟨0, 0, 0⟩) fun _ => .plains).map
      fun out => out.1) = .ok 1 := by decide +kernel
  obtain ⟨_, early, one⟩ := map_eq_ok_iff.1 first
  obtain ⟨_, late, _⟩ := map_eq_ok_iff.1 second
  obtain ⟨a, made, faithful, _⟩ := (generateAt_spec _ lantern_readsSeedOnly
    (faithful_start lantern [10] 1) _ _ 7).exists_left early
  obtain ⟨b, remade, _⟩ := (generateAt_spec _ lantern_readsSeedOnly
    (faithful.expire 90) _ _ 3).exists_left late
  have run : (start lantern [10] 1).after lanternRun = .ok b.2.2.invalidate := by
    simp only [FeatureDriver.after, lanternRun, List.foldlM_cons, List.foldlM_nil, call, made, remade,
      ok_bind, pure_eq]
  refine ⟨_, run, ?_⟩
  have same := (answers_eq_uncached lantern_readsSeedOnly run ⟨0, 5, {}⟩ 4).1
    (.empty ⟨0, 0, 0⟩) fun _ => .plains
  obtain ⟨out, generated, counted⟩ := map_eq_ok_iff.1 (same.trans early)
  rw [generated]
  exact congrArg Except.ok ((congrArg Prod.fst counted).trans one)

end FeatureDriver

end Karst
