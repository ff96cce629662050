import Karst.Proofs.Cache.Holdings
import Karst.Proofs.Feature.Transparency

namespace Karst

open Guarded

variable {σ : Type} {generator : Generator σ} {remembered : Option UInt64} {cube : CubeCoord}

def Found (generator : Generator σ) (remembered : Option UInt64) (cube : CubeCoord)
    (list : Array σ) : Prop :=
  ∃ world : World, remembered = some world.seed ∧ generator.seedsOf world cube = .ok list

/-- The forest grew from such a list, in a world that need not be the one it was found in. -/
def Sprung (generator : Generator σ) (remembered : Option UInt64) (cube : CubeCoord)
    (forest : Forest σ) : Prop :=
  ∃ (world : World) (list : Array σ), remembered = some world.seed ∧
    Found generator remembered cube list ∧ generator.grow world list.toList = .ok forest

namespace FeatureDriver

def rootCount (d : FeatureDriver σ) : Nat := (d.trees.holdings.map fun p => p.2.size).sum

/-- The roots that a call drops, without releasing them, because the epoch ends. -/
def droppedBy (d : FeatureDriver σ) : DriverCall → Nat
  | .generateAt world _ _ _ => if d.rememberedSeed = some world.seed then 0 else d.rootCount
  | .seedsAt world _ _ => if d.rememberedSeed = some world.seed then 0 else d.rootCount
  | .expire _ => 0
  | .invalidate => d.rootCount

def droppedOver (d : FeatureDriver σ) : List DriverCall → Nat
  | [] => 0
  | made :: history =>
      match d.call made with
      | .ok next => d.droppedBy made + next.droppedOver history
      | .error _ => d.droppedBy made

structure Tended (generator : Generator σ) (dropped : Nat) (d : FeatureDriver σ) : Prop where
  uses : d.generator = generator
  scratch : d.scratch.Holds (· = #[])
  seeds : ∀ key list, d.seeds.peek key = some list →
    key.epoch = d.epoch ∧ Found generator d.rememberedSeed key.cube list
  trees : ∃ plots, Stocked d.arena d.trees.peek plots fun key forest =>
    key.epoch = d.epoch ∧ Sprung generator d.rememberedSeed key.cube forest
  lists : d.counts.seedLists = d.seeds.misses
  built : d.counts.treesBuilt = d.counts.treesReleased + d.rootCount + dropped

variable {d next : FeatureDriver σ} {dropped : Nat} {world : World} {now : Instant}

theorem tended_start (generator : Generator σ) (windows : List Nat) (capacity : Nat) :
    Tended generator 0 (start generator windows capacity) := by
  constructor
  · rfl
  · exact Pool.holds_ofCapacity capacity
  · intro key list kept
    simp [start] at kept
  · exact ⟨fun _ => [], .empty (fun key => TieredCache.peek_ofWindows windows key)
      Arena.tidy_empty Arena.not_isLive_empty⟩
  · cases windows <;> rfl
  · simp [start, rootCount]

/-! ## Epochs -/

theorem Tended.cleared (tended : Tended generator dropped d) (seed : Option UInt64) :
    Tended generator (dropped + d.rootCount) { d.invalidate with rememberedSeed := seed } := by
  constructor
  · exact tended.uses
  · exact tended.scratch
  · intro key list kept
    simp [invalidate] at kept
  · exact ⟨fun _ => [], .empty (fun key => TieredCache.peek_clear key) (Arena.tidy_clear d.arena)
      (Arena.not_isLive_clear d.arena)⟩
  · exact tended.lists
  · have built := tended.built
    simp only [invalidate, rootCount, TieredCache.holdings_clear, List.map_nil, List.sum_nil]
      at built ⊢
    omega

theorem Tended.invalidate (tended : Tended generator dropped d) :
    Tended generator (dropped + d.rootCount) d.invalidate :=
  tended.cleared d.rememberedSeed

theorem Tended.syncSeed (tended : Tended generator dropped d) (seed : UInt64) :
    Tended generator (dropped + if d.rememberedSeed = some seed then 0 else d.rootCount)
        (d.syncSeed seed) ∧ (d.syncSeed seed).rememberedSeed = some seed := by
  unfold FeatureDriver.syncSeed
  by_cases known : d.rememberedSeed = some seed
  · simpa [known] using tended
  · rw [if_neg known, if_neg known]
    exact ⟨tended.cleared (some seed), rfl⟩

/-! ## Sweeps -/

theorem Tended.expire (tended : Tended generator dropped d) (now : Instant) :
    Tended generator dropped (d.expire now) ∧
      (d.expire now).rememberedSeed = d.rememberedSeed := by
  obtain ⟨plots, stocked⟩ := tended.trees
  obtain ⟨seeds, trees, young, gone, swept, old, missed, same⟩ := d.expire_spec now
  rw [same]
  refine ⟨⟨tended.uses, tended.scratch, ?_, ?_, ?_, ?_⟩, rfl⟩
  · intro key list held
    exact tended.seeds key list (swept.peek_eq held)
  · exact stocked.sweep old.nodup old.held old.left
  · exact tended.lists.trans missed.symm
  · have built := tended.built
    have split := (old.holdings.map fun p => p.2.size).sum_eq
    simp only [rootCount, List.map_append, List.sum_append] at built split ⊢
    omega

/-! ## Seeds and trees -/

theorem seedList_cases (scratch : d.scratch.Holds (· = #[])) {list : Array σ}
    (done : d.seedList world cube now = .ok (list, next)) :
    (d.seeds.peek ⟨d.epoch, cube⟩ = some list ∧
      next = { d with seeds := d.seeds.hit ⟨d.epoch, cube⟩ }) ∨
    (d.seeds.peek ⟨d.epoch, cube⟩ = none ∧ d.generator.seedsOf world cube = .ok list ∧
      ∃ pool : Pool (Array σ), pool.Holds (· = #[]) ∧ next = { d with
        seeds := d.seeds.place ⟨d.epoch, cube⟩ now list
        scratch := pool
        counts := { d.counts with seedLists := d.counts.seedLists + 1 } }) := by
  simp only [seedList, pure_eq] at done
  cases held : d.seeds.peek ⟨d.epoch, cube⟩ with
  | some kept =>
    simp only [held] at done
    cases done
    exact .inl ⟨rfl, rfl⟩
  | none =>
    simp only [held] at done
    obtain ⟨⟨found, after⟩, discovered, same⟩ := bind_eq_ok_iff.1 done
    obtain ⟨empty, pool⟩ := scratch.take #[] rfl
    simp only [FeatureDriver.discover, empty] at discovered
    obtain ⟨⟨drawn, stream⟩, asked, noted⟩ := bind_eq_ok_iff.1 discovered
    cases noted
    cases same
    refine .inr ⟨rfl, ?_, _, pool.put rfl, rfl⟩
    rw [Generator.seedsOf, asked]
    rfl

theorem Tended.seedList (tended : Tended generator dropped d)
    (known : d.rememberedSeed = some world.seed) {list : Array σ}
    (done : d.seedList world cube now = .ok (list, next)) :
    Tended generator dropped next ∧ next.rememberedSeed = some world.seed ∧
      Found generator (some world.seed) cube list := by
  rcases seedList_cases tended.scratch done with ⟨held, rfl⟩ | ⟨_, found, pool, emptied, rfl⟩
  · refine ⟨⟨tended.uses, tended.scratch, ?_, tended.trees, tended.lists, tended.built⟩, known, ?_⟩
    · intro key other kept
      rw [TieredCache.peek_hit] at kept
      exact tended.seeds key other kept
    · exact known ▸ (tended.seeds _ list held).2
  · rw [tended.uses] at found
    refine ⟨⟨tended.uses, emptied, ?_, tended.trees, ?_, tended.built⟩, known, world, rfl, found⟩
    · intro key other kept
      by_cases here : key = ⟨d.epoch, cube⟩
      · subst here
        rw [TieredCache.peek_place_self] at kept
        cases kept
        exact ⟨rfl, world, known, found⟩
      · rw [TieredCache.peek_place_of_ne here] at kept
        exact tended.seeds key other kept
    · exact congrArg Nat.succ tended.lists

theorem size_buildTrees {arena after : FeatureArena σ} {list : Array σ} {roots : Array Handle}
    (done : buildTrees generator world arena list = .ok (roots, after)) :
    roots.size = list.size := by
  obtain ⟨items⟩ := list
  rw [buildTrees, ← Array.foldlM_toList] at done
  -- The fold starts from the roots before it, so the count is stated from any such start.
  suffices counted : roots.size = (#[] : Array Handle).size + items.length by simpa using counted
  generalize (#[] : Array Handle) = older at done ⊢
  induction items generalizing older arena with
  | nil =>
    cases done
    rfl
  | cons seed items ih =>
    rw [List.foldlM_cons] at done
    obtain ⟨⟨longer, grown⟩, planted, rest⟩ := bind_eq_ok_iff.1 done
    obtain ⟨script, _, planted⟩ := bind_eq_ok_iff.1 planted
    obtain ⟨built, _, planted⟩ := bind_eq_ok_iff.1 planted
    cases planted
    rw [ih _ rest, Array.size_push, List.length_cons]
    omega

theorem treeList_cases {list : Array σ} {roots : Array Handle}
    (done : d.treeList world cube list now = .ok (roots, next)) :
    (d.trees.peek ⟨d.epoch, cube⟩ = some roots ∧ next = { d with
      trees := d.trees.hit ⟨d.epoch, cube⟩
      counts := { d.counts with seeds := d.counts.seeds + list.size } }) ∨
    (d.trees.peek ⟨d.epoch, cube⟩ = none ∧ ∃ arena,
      buildTrees d.generator world d.arena list = .ok (roots, arena) ∧ next = { d with
        trees := d.trees.place ⟨d.epoch, cube⟩ now roots
        arena
        counts := { d.counts with
          seeds := d.counts.seeds + list.size
          treesBuilt := d.counts.treesBuilt + list.size } }) := by
  obtain ⟨own, seed, epoch, seeds, trees, arena, scratch, counts⟩ := d
  simp only [treeList, pure_eq] at done
  cases held : trees.peek ⟨epoch, cube⟩ with
  | some kept =>
    simp only [held] at done
    cases done
    exact .inl ⟨rfl, rfl⟩
  | none =>
    simp only [held] at done
    obtain ⟨⟨fresh, after⟩, built, same⟩ := bind_eq_ok_iff.1 done
    cases same
    exact .inr ⟨rfl, after, built, rfl⟩

theorem Tended.treeList (tended : Tended generator dropped d)
    (known : d.rememberedSeed = some world.seed) {list : Array σ}
    (found : Found generator (some world.seed) cube list) {roots : Array Handle}
    (done : d.treeList world cube list now = .ok (roots, next)) :
    Tended generator dropped next ∧ next.rememberedSeed = some world.seed := by
  obtain ⟨plots, stocked⟩ := tended.trees
  rcases treeList_cases done with ⟨held, rfl⟩ | ⟨vacant, arena, built, rfl⟩
  · refine ⟨⟨tended.uses, tended.scratch, tended.seeds, ⟨plots, ?_⟩, tended.lists, ?_⟩, known⟩
    · have same := funext (d.trees.peek_hit ⟨d.epoch, cube⟩)
      exact same ▸ stocked
    · have kept := ((d.trees.holdings_hit ⟨d.epoch, cube⟩).map fun p => p.2.size).sum_eq
      rw [rootCount, kept]
      exact tended.built
  · rw [tended.uses] at built
    obtain ⟨forest, grown, slots, more, planted⟩ :=
      (buildTrees_spec generator world stocked.tidy list).exists_right built
    refine ⟨⟨tended.uses, tended.scratch, tended.seeds, ?_, tended.lists, ?_⟩, known⟩
    · rw [TieredCache.peek_place]
      refine ⟨_, stocked.plant vacant more planted ⟨rfl, world, list, known, ?_, grown⟩⟩
      exact known ▸ found
    · have placed := ((TieredCache.holdings_place vacant now roots).map fun p => p.2.size).sum_eq
      have balance := tended.built
      simp only [rootCount, placed, List.map_cons, List.sum_cons, size_buildTrees built] at balance ⊢
      omega

/-! ## Calls -/

theorem Tended.replayNeighbour (tended : Tended generator dropped d)
    (known : d.rememberedSeed = some world.seed) {biomes : BiomeSource} {target origin : CubeCoord}
    {progress reached : Replayed}
    (done : replayNeighbour world biomes target now d progress origin = .ok (next, reached)) :
    Tended generator dropped next ∧ next.rememberedSeed = some world.seed := by
  obtain ⟨⟨list, listed⟩, seeds, done⟩ := bind_eq_ok_iff.1 done
  obtain ⟨tended, known, found⟩ := tended.seedList known seeds
  dsimp only at done
  split at done
  case isTrue =>
    cases done
    exact ⟨tended, known⟩
  case isFalse =>
    obtain ⟨⟨roots, treed⟩, trees, done⟩ := bind_eq_ok_iff.1 done
    obtain ⟨_, _, done⟩ := bind_eq_ok_iff.1 done
    cases done
    exact tended.treeList known found trees

theorem Tended.generateAt (tended : Tended generator dropped d) {cube : Cube}
    {biomes : BiomeSource} {written : Nat} {out : Cube}
    (done : d.generateAt world cube biomes now = .ok (written, out, next)) :
    Tended generator
      (dropped + if d.rememberedSeed = some world.seed then 0 else d.rootCount) next := by
  obtain ⟨synced, known⟩ := tended.syncSeed world.seed
  obtain ⟨swept, same⟩ := synced.expire now
  obtain ⟨neighbours, _, done⟩ := bind_eq_ok_iff.1 done
  obtain ⟨⟨last, progress⟩, replayed, done⟩ := bind_eq_ok_iff.1 done
  cases done
  have kept := foldlM_invariant (P := fun state : FeatureDriver σ × Replayed =>
    Tended generator (dropped + if d.rememberedSeed = some world.seed then 0 else d.rootCount)
      state.1 ∧ state.1.rememberedSeed = some world.seed) replayed ⟨swept, same.trans known⟩ ?_
  · exact ⟨kept.1.uses, kept.1.scratch, kept.1.seeds, kept.1.trees, kept.1.lists, kept.1.built⟩
  · rintro origin _ ⟨before, _⟩ ⟨after, _⟩ ⟨tended, known⟩ done
    exact tended.replayNeighbour known done

theorem Tended.call (tended : Tended generator dropped d) {made : DriverCall}
    (done : d.call made = .ok next) : Tended generator (dropped + d.droppedBy made) next := by
  cases made with
  | generateAt world cube biomes now =>
    obtain ⟨⟨written, out, last⟩, generated, same⟩ := bind_eq_ok_iff.1 done
    cases same
    exact tended.generateAt generated
  | seedsAt world cube now =>
    obtain ⟨⟨list, last⟩, found, same⟩ := bind_eq_ok_iff.1 done
    cases same
    obtain ⟨synced, known⟩ := tended.syncSeed world.seed
    exact (synced.seedList known found).1
  | expire now =>
    cases done
    exact (tended.expire now).1
  | invalidate =>
    cases done
    exact tended.invalidate

theorem Tended.after (tended : Tended generator dropped d) {history : List DriverCall}
    (run : d.after history = .ok next) :
    Tended generator (dropped + d.droppedOver history) next := by
  induction history generalizing d dropped with
  | nil =>
    cases run
    exact tended
  | cons made history ih =>
    obtain ⟨middle, done, run⟩ := bind_eq_ok_iff.1 run
    simp only [droppedOver, done, ← Nat.add_assoc]
    exact ih (tended.call done) run

end FeatureDriver

end Karst
