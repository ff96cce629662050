import Karst.Proofs.Feature.Tended

/-!
Generation seen from its caches. What a visit to a cube replays is a matter of what is kept for that
cube and of the world at hand, and no visit changes it for another; so a driver replays what it would
have found everywhere as it set out.
-/

namespace Karst.FeatureDriver

open Guarded

variable {σ : Type} {generator : Generator σ} {d next : FeatureDriver σ} {dropped : Nat}
  {world : World} {now : Instant} {target origin : CubeCoord}

def listed (d : FeatureDriver σ) (world : World) (origin : CubeCoord) : Guarded (Array σ) :=
  match d.seeds.peek ⟨d.epoch, origin⟩ with
  | some list => return list
  | none => d.generator.seedsOf world origin

def treed (d : FeatureDriver σ) (world : World) (target origin : CubeCoord) (list : Array σ) :
    Guarded (List OpBucket) :=
  match d.trees.peek ⟨d.epoch, origin⟩ with
  | some roots =>
      return (roots.toList.flatMap fun root => FeatureArena.visit d.arena root target).filterMap
        fun node => node.bucket? target
  | none => do
      let forest ← d.generator.grow world list.toList
      return forest.buckets target

def shown (d : FeatureDriver σ) (world : World) (target origin : CubeCoord) :
    Guarded (List OpBucket) := do
  let list ← d.listed world origin
  if list.isEmpty then return [] else d.treed world target origin list

theorem seedList_listed (tended : Tended generator dropped d) (world : World) (origin : CubeCoord)
    (now : Instant) :
    Alike (fun out list => out.1 = list) (d.seedList world origin now) (d.listed world origin) := by
  obtain ⟨empty, _⟩ := tended.scratch.take #[] rfl
  simp only [seedList, listed, pure_eq]
  cases held : d.seeds.peek ⟨d.epoch, origin⟩ with
  | some list => exact .ok rfl
  | none =>
    simp only [discover, Generator.seedsOf, empty, bind_assoc]
    apply (Alike.of_eq rfl).bind
    rintro ⟨list, stream⟩ _ rfl
    exact .ok rfl

theorem shown_seedList (tended : Tended generator dropped d) (target : CubeCoord) {list : Array σ}
    (done : d.seedList world origin now = .ok (list, next)) :
    next.listed world origin = .ok list ∧ next.treed world target = d.treed world target ∧
      next.shown world target = d.shown world target := by
  have here : d.listed world origin = .ok list := by
    obtain ⟨_, found, rfl⟩ := (seedList_listed tended world origin now).exists_right done
    exact found
  have same : next.listed world = d.listed world := by
    funext n
    rcases seedList_cases tended.scratch done with ⟨_, rfl⟩ | ⟨_, _, _, _, rfl⟩
    · simp only [listed, TieredCache.peek_hit]
    · by_cases visited : n = origin
      · subst visited
        rw [here]
        simp only [listed, TieredCache.peek_place_self]
        rfl
      · have other : (⟨d.epoch, n⟩ : EpochCube) ≠ ⟨d.epoch, origin⟩ := by simpa using visited
        simp only [listed, TieredCache.peek_place_of_ne other]
  have trees : next.treed world target = d.treed world target := by
    rcases seedList_cases tended.scratch done with ⟨_, rfl⟩ | ⟨_, _, _, _, rfl⟩ <;> rfl
  refine ⟨same ▸ here, trees, ?_⟩
  funext n
  simp only [shown, same, trees]

theorem treeList_treed (tended : Tended generator dropped d) (target : CubeCoord) (list : Array σ) :
    Alike (fun out buckets => ∃ forest slots, slots.Nodup ∧
        Planted out.2.arena out.1.toList forest slots ∧ forest.buckets target = buckets)
      (d.treeList world origin list now) (d.treed world target origin list) := by
  obtain ⟨own, seed, epoch, seeds, trees, arena, scratch, counts⟩ := d
  obtain ⟨plots, stocked⟩ := tended.trees
  simp only [treeList, treed, pure_eq]
  cases held : trees.peek ⟨epoch, origin⟩ with
  | some roots =>
    obtain ⟨nodup, forest, planted, _⟩ := stocked.planted _ roots held
    exact .ok ⟨forest, _, nodup, planted, (planted.filterMap_visit nodup target).symm⟩
  | none =>
    apply (buildTrees_spec own world stocked.tidy list).bind
    rintro ⟨roots, after⟩ forest ⟨slots, more, planted⟩
    exact .ok ⟨forest, slots, more.nodup, planted, rfl⟩

theorem shown_treeList (tended : Tended generator dropped d) (target : CubeCoord) {list : Array σ}
    {roots : Array Handle} (here : d.listed world origin = .ok list)
    (some_seed : list.isEmpty = false)
    (done : d.treeList world origin list now = .ok (roots, next)) :
    next.shown world target = d.shown world target := by
  obtain ⟨plots, stocked⟩ := tended.trees
  obtain ⟨buckets, grows, forest, slots, nodup, planted, same⟩ :=
    (treeList_treed tended target list).exists_right done
  rcases treeList_cases done with ⟨_, rfl⟩ | ⟨vacant, arena, built, rfl⟩
  · funext n
    simp only [shown, listed, treed, TieredCache.peek_hit]
  · obtain ⟨_, _, fresh, more, _⟩ :=
      (buildTrees_spec d.generator world stocked.tidy list).exists_right built
    funext n
    by_cases visited : n = origin
    · -- What was grown for this visit now stands in the arena.
      subst visited
      have again : d.shown world target n = .ok buckets := by
        simp only [shown, here, ok_bind, some_seed, grows]
        rfl
      rw [again, shown]
      change (d.listed world n >>= _) = _
      rw [here]
      simp only [ok_bind, some_seed, treed, TieredCache.peek_place_self,
        planted.filterMap_visit nodup target, same]
      rfl
    · -- Trees kept for another cube stay where they were, whatever was built beside them.
      have other : (⟨d.epoch, n⟩ : EpochCube) ≠ ⟨d.epoch, origin⟩ := by simpa using visited
      have trees : treed { d with
          trees := d.trees.place ⟨d.epoch, origin⟩ now roots, arena
          counts := { d.counts with
            seeds := d.counts.seeds + list.size, treesBuilt := d.counts.treesBuilt + list.size } }
          world target n = d.treed world target n := by
        funext list
        simp only [treed, TieredCache.peek_place_of_ne other]
        cases held : d.trees.peek ⟨d.epoch, n⟩ with
        | none => rfl
        | some older =>
          obtain ⟨nodup, forest, planted, _⟩ := stocked.planted _ older held
          simp only [planted.filterMap_visit nodup target,
            (more.planted planted).filterMap_visit nodup target]
      simp only [shown, trees]
      rfl

theorem replayNeighbour_shown (tended : Tended generator dropped d)
    (known : d.rememberedSeed = some world.seed) (biomes : BiomeSource) (target : CubeCoord)
    (now : Instant) (progress : Replayed) (origin : CubeCoord) :
    Alike (fun out reached => Tended generator dropped out.1 ∧
        out.1.rememberedSeed = some world.seed ∧
        out.1.shown world target = d.shown world target ∧ out.2 = reached)
      (replayNeighbour world biomes target now d progress origin)
      (d.shown world target origin >>= fun buckets =>
        generator.replayBuckets world biomes buckets progress) := by
  simp only [shown, bind_assoc]
  apply (seedList_listed tended world origin now).reached.bind
  rintro ⟨list, seeded⟩ _ ⟨rfl, found, _⟩
  obtain ⟨here, trees, same⟩ := shown_seedList tended target found
  obtain ⟨tended, known, from_seed⟩ := tended.seedList known found
  rw [← trees]
  cases none_found : list.isEmpty with
  | true =>
    simp only [none_found]
    exact .ok ⟨tended, known, same, rfl⟩
  | false =>
    simp only [none_found]
    apply (treeList_treed tended target list).reached.bind
    rintro ⟨roots, planted_in⟩ _ ⟨⟨forest, slots, nodup, planted, rfl⟩, built, _⟩
    have after := shown_treeList tended target here none_found built
    obtain ⟨tended, known⟩ := tended.treeList known from_seed built
    simp only [replayTrees_spec tended.uses biomes target planted nodup]
    apply (Alike.of_eq rfl).map_left
    rintro reached _ rfl
    exact ⟨_, rfl, tended, known, after.trans same, rfl⟩

/-! ## Where it comes from -/

theorem listed_found (tended : Tended generator dropped d)
    (known : d.rememberedSeed = some world.seed) {list : Array σ}
    (done : d.listed world origin = .ok list) : Found generator (some world.seed) origin list := by
  unfold listed at done
  split at done
  case h_1 kept held =>
    cases done
    exact known ▸ (tended.seeds _ list held).2
  case h_2 => exact ⟨world, rfl, tended.uses ▸ done⟩

theorem treed_sprung (tended : Tended generator dropped d)
    (known : d.rememberedSeed = some world.seed) {list : Array σ}
    (found : Found generator (some world.seed) origin list) {buckets : List OpBucket}
    (done : d.treed world target origin list = .ok buckets) :
    ∃ forest, Sprung generator (some world.seed) origin forest ∧
      forest.buckets target = buckets := by
  obtain ⟨plots, stocked⟩ := tended.trees
  unfold treed at done
  split at done
  case h_1 roots held =>
    cases done
    obtain ⟨nodup, forest, planted, _, sprung⟩ := stocked.planted _ roots held
    exact ⟨forest, known ▸ sprung, (planted.filterMap_visit nodup target).symm⟩
  case h_2 =>
    obtain ⟨forest, grown, same⟩ := bind_eq_ok_iff.1 done
    cases same
    exact ⟨forest, ⟨world, list, rfl, found, tended.uses ▸ grown⟩, rfl⟩

theorem exists_shown (tended : Tended generator dropped d)
    (known : d.rememberedSeed = some world.seed)
    (finds : ∃ list, generator.seedsOf world origin = .ok list)
    (grows : ∀ list : Array σ, Found generator (some world.seed) origin list →
      ∃ forest, generator.grow world list.toList = .ok forest) (target : CubeCoord) :
    ∃ buckets, d.shown world target origin = .ok buckets := by
  have answers : ∃ list, d.listed world origin = .ok list := by
    unfold listed
    split
    case h_1 list _ => exact ⟨list, rfl⟩
    case h_2 => exact tended.uses ▸ finds
  obtain ⟨list, here⟩ := answers
  obtain ⟨forest, grown⟩ := grows list (listed_found tended known here)
  rw [shown, here, ok_bind]
  split
  case isTrue => exact ⟨[], rfl⟩
  case isFalse =>
    unfold treed
    split
    case h_1 => exact ⟨_, rfl⟩
    case h_2 =>
      rw [tended.uses, grown]
      exact ⟨_, rfl⟩

/-! ## A whole neighbourhood -/

def replayShown (d : FeatureDriver σ) (world : World) (biomes : BiomeSource) (target : CubeCoord)
    (origins : List CubeCoord) (progress : Replayed) : Guarded Replayed :=
  origins.foldlM (fun progress n => do
    let buckets ← d.shown world target n
    d.generator.replayBuckets world biomes buckets progress) progress

def ready (d : FeatureDriver σ) (world : World) (now : Instant) : FeatureDriver σ :=
  (d.syncSeed world.seed).expire now

theorem Tended.ready (tended : Tended generator dropped d) (world : World) (now : Instant) :
    ∃ dropped, Tended generator dropped (d.ready world now) ∧
      (d.ready world now).rememberedSeed = some world.seed := by
  obtain ⟨synced, known⟩ := tended.syncSeed world.seed
  obtain ⟨swept, same⟩ := synced.expire now
  exact ⟨_, swept, same.trans known⟩

theorem generateAt_shown (tended : Tended generator dropped d) (world : World) (cube : Cube)
    (biomes : BiomeSource) (now : Instant) :
    Alike (fun out reached => out.1 = reached.written ∧ out.2.1 = reached.cube)
      (d.generateAt world cube biomes now)
      (cube.coord.neighborhood generator.range >>= fun origins =>
        (d.ready world now).replayShown world biomes cube.coord origins
          ⟨0, cube, .forCube world.seed cube.coord⟩) := by
  obtain ⟨dropped, ready, known⟩ := tended.ready world now
  have uses : ((d.syncSeed world.seed).expire now).generator = generator := ready.uses
  simp only [generateAt, uses]
  apply (Alike.of_eq rfl).bind
  rintro origins _ rfl
  apply (Alike.foldlM (R := fun state reached => Tended generator dropped state.1 ∧
    state.1.rememberedSeed = some world.seed ∧
    state.1.shown world cube.coord = (d.ready world now).shown world cube.coord ∧
    state.2 = reached) ⟨ready, known, rfl, rfl⟩ ?_).map_left
  · rintro ⟨last, progress⟩ _ ⟨_, _, _, rfl⟩
    exact ⟨_, rfl, rfl, rfl⟩
  · rintro origin _ ⟨d', progress⟩ _ ⟨tended, known, same, rfl⟩
    have visit := replayNeighbour_shown tended known biomes cube.coord now progress origin
    rw [same] at visit
    rw [ready.uses]
    exact visit

end Karst.FeatureDriver
