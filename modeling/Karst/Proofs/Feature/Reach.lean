import Karst.Proofs.Feature.View
import Karst.Proofs.Geometry.Neighborhood

/-!
Looking further changes nothing. If no tree writes beyond the range of its generator, then a cube
comes out as if the trees of all cubes had been asked: every bucket for it is replayed once, by the
order of the cubes where the trees start.
-/

namespace Karst

open Guarded

variable {σ : Type}

theorem Forest.cubes_beside (first more : Forest σ) :
    (first.beside more).cubes = first.cubes ∪ more.cubes := by
  induction first with
  | none => rw [beside, cubes, Set.empty_union]
  | tree seed sets branches rest _ restIh => simp only [beside, cubes, restIh, Set.union_assoc]

namespace Generator

/-- No tree of a seed that was found in a cube writes further from it than the range, also if the
tree is built in another world with the same seed. -/
def StaysInRange (generator : Generator σ) : Prop :=
  ∀ found built : World, found.seed = built.seed → ∀ (cube : CubeCoord) (list : Array σ),
    generator.seedsOf found cube = .ok list → ∀ seed ∈ list, ∀ script : Script σ,
      generator.materialise built seed = .ok script →
        ∀ c ∈ (Forest.tree seed script.sets script.branches .none).cubes,
          (c.distance cube : Int) ≤ generator.range.toInt

variable {generator : Generator σ}

theorem StaysInRange.sprung (stays : generator.StaysInRange) {remembered : Option UInt64}
    {cube : CubeCoord} {forest : Forest σ} (sprung : Sprung generator remembered cube forest) :
    ∀ c ∈ forest.cubes, (c.distance cube : Int) ≤ generator.range.toInt := by
  obtain ⟨built, list, known, ⟨found, same, listed⟩, grown⟩ := sprung
  apply foldlM_invariant (P := fun forest : Forest σ =>
    ∀ c ∈ forest.cubes, (c.distance cube : Int) ≤ generator.range.toInt) grown
  · intro c member
    cases member
  · intro seed member before after near done
    obtain ⟨script, materialised, done⟩ := bind_eq_ok_iff.1 done
    cases done
    intro c inside
    rw [Forest.cubes_beside, Set.mem_union] at inside
    rcases inside with older | new
    · exact near c older
    · have equal := Option.some.inj (same.symm.trans known)
      exact stays found built equal cube list listed seed (by simpa using member) script
        materialised c new

end Generator

namespace FeatureDriver

variable {generator : Generator σ} {d next : FeatureDriver σ} {dropped : Nat} {world : World}
  {now : Instant} {target origin : CubeCoord}

/-! ## Near and far -/

theorem shown_far (stays : generator.StaysInRange) (tended : Tended generator dropped d)
    (known : d.rememberedSeed = some world.seed) {buckets : List OpBucket}
    (far : generator.range.toInt < (target.distance origin : Int))
    (done : d.shown world target origin = .ok buckets) : buckets = [] := by
  obtain ⟨list, listed, done⟩ := bind_eq_ok_iff.1 done
  split at done
  case isTrue =>
    cases done
    rfl
  case isFalse =>
    obtain ⟨forest, sprung, same⟩ :=
      treed_sprung tended known (listed_found tended known listed) done
    rw [← same]
    apply Forest.buckets_eq_nil_iff.2
    intro member
    have near := stays.sprung sprung target member
    omega

theorem replayShown_near (stays : generator.StaysInRange) (tended : Tended generator dropped d)
    (known : d.rememberedSeed = some world.seed) {near origins : List CubeCoord}
    (around : target.neighborhood generator.range = .ok near) (rising : CubeCoord.Rising origins)
    (covers : ∀ n : CubeCoord, (n.distance target : Int) ≤ max generator.range.toInt 0 →
      n ∈ origins)
    (answers : ∀ n ∈ origins, ∃ buckets, d.shown world target n = .ok buckets)
    (biomes : BiomeSource) (progress : Replayed) :
    d.replayShown world biomes target near progress =
      d.replayShown world biomes target origins progress := by
  rw [CubeCoord.neighborhood_eq_filter around rising covers]
  apply foldlM_filter
  intro n member far progress
  obtain ⟨buckets, found⟩ := answers n member
  rw [decide_eq_false_iff_not, n.distance_comm] at far
  rw [found, shown_far stays tended known (by omega) found]
  rfl

/-! ## A cube and its neighbours -/

def withRange (d : FeatureDriver σ) (range : Int32) : FeatureDriver σ :=
  { d with generator := { d.generator with range } }

theorem Tended.withRange (tended : Tended generator dropped d) (range : Int32) :
    Tended { generator with range } dropped (d.withRange range) := by
  constructor
  · rw [FeatureDriver.withRange, tended.uses]
  · exact tended.scratch
  · exact tended.seeds
  · exact tended.trees
  · exact tended.lists
  · exact tended.built

theorem ready_withRange (d : FeatureDriver σ) (range : Int32) (world : World) (now : Instant) :
    (d.withRange range).ready world now = (d.ready world now).withRange range := by
  have synced : (d.withRange range).syncSeed world.seed =
      (d.syncSeed world.seed).withRange range := by
    unfold syncSeed
    by_cases same : d.rememberedSeed = some world.seed
    · rw [if_pos same]
      exact if_pos same
    · rw [if_neg same]
      exact if_neg same
  have swept (d : FeatureDriver σ) :
      (d.withRange range).expire now = (d.expire now).withRange range := by
    obtain ⟨own, seed, epoch, seeds, trees, arena, scratch, counts⟩ := d
    simp only [expire, withRange, releaseAll_eq]
  rw [ready, synced, swept]
  rfl

/-- All nodes of the trees of a cube, kept or built, whether they reach some cube or not. -/
def nodesAt (d : FeatureDriver σ) (world : World) (origin : CubeCoord) (now : Instant) :
    Guarded (List (FeatureNode σ)) := do
  let (list, d) ← d.seedList world origin now
  if list.isEmpty then return []
  else
    let (roots, d) ← d.treeList world origin list now
    return roots.toList.flatMap (FeatureArena.nodes d.arena d.arena.slots.size)

theorem nodesAt_shown (tended : Tended generator dropped d)
    (known : d.rememberedSeed = some world.seed) (target origin : CubeCoord) (now : Instant) :
    Alike (fun nodes buckets => nodes.filterMap (fun node => node.bucket? target) = buckets)
      (d.nodesAt world origin now) (d.shown world target origin) := by
  simp only [nodesAt, shown]
  apply (seedList_listed tended world origin now).reached.bind
  rintro ⟨list, seeded⟩ _ ⟨rfl, found, _⟩
  obtain ⟨_, trees, _⟩ := shown_seedList tended target found
  obtain ⟨tended, _⟩ := tended.seedList known found
  simp only [← trees]
  split
  case isTrue => exact .ok rfl
  case isFalse =>
    apply (treeList_treed tended target list).map_left
    rintro ⟨roots, after⟩ buckets ⟨forest, slots, nodup, planted, same⟩
    exact ⟨_, rfl, (planted.filterMap_nodes target (planted.length_le nodup)).trans same⟩

theorem replayShown_eq_replayNodes (uses : d.generator = generator) {biomes : BiomeSource}
    {origins : List CubeCoord} {nodes : CubeCoord → List (FeatureNode σ)}
    (found : ∀ n ∈ origins, d.shown world target n =
      .ok ((nodes n).filterMap fun node => node.bucket? target)) (progress : Replayed) :
    d.replayShown world biomes target origins progress =
      replayNodes generator world biomes target (origins.flatMap nodes) progress := by
  subst uses
  induction origins generalizing progress with
  | nil => rfl
  | cons n origins ih =>
    have rest := ih fun other member => found other (List.mem_cons_of_mem _ member)
    rw [replayShown, List.foldlM_cons, found n (List.mem_cons_self ..), ok_bind,
      List.flatMap_cons, replayNodes, List.foldlM_append, ← replayNodes, replayNodes_eq]
    exact congrArg _ (funext rest)

theorem generateAt_of_wider (stays : generator.StaysInRange) (tended : Tended generator dropped d)
    {cube : Cube} {biomes : BiomeSource} {wider : Int32}
    (further : generator.range.toInt ≤ wider.toInt) {written : Nat} {after : Cube}
    (done : (d.withRange wider).generateAt world cube biomes now = .ok (written, after, next)) :
    ∃ last, d.generateAt world cube biomes now = .ok (written, after, last) := by
  obtain ⟨_, ready, known⟩ := tended.ready world now
  have wide := generateAt_shown (tended.withRange wider) world cube biomes now
  obtain ⟨reached, replayed, rfl, rfl⟩ := wide.exists_right done
  obtain ⟨origins, around, replayed⟩ := bind_eq_ok_iff.1 replayed
  rw [ready_withRange] at replayed
  obtain ⟨near, nearby⟩ := CubeCoord.exists_neighborhood around further
  obtain ⟨rising, members⟩ := CubeCoord.neighborhood_spec around
  -- The far cubes were all visited, so none of them can stop the narrow run.
  have answers (n : CubeCoord) (member : n ∈ origins) :
      ∃ buckets, (d.ready world now).shown world cube.coord n = .ok buckets := by
    obtain ⟨before, after, visited⟩ := exists_step_of_foldlM replayed n member
    obtain ⟨buckets, found, _⟩ := bind_eq_ok_iff.1 visited
    exact ⟨buckets, found⟩
  have covers (n : CubeCoord)
      (close : (n.distance cube.coord : Int) ≤ max generator.range.toInt 0) : n ∈ origins := by
    rw [members]
    change (n.distance cube.coord : Int) ≤ max wider.toInt 0
    omega
  have same := replayShown_near stays ready known nearby rising covers answers biomes
    ⟨0, cube, .forCube world.seed cube.coord⟩
  have reference : (cube.coord.neighborhood generator.range >>= fun origins =>
      (d.ready world now).replayShown world biomes cube.coord origins
        ⟨0, cube, .forCube world.seed cube.coord⟩) = .ok reached := by
    rw [nearby, ok_bind, same]
    exact replayed
  obtain ⟨⟨count, out, last⟩, generated, written, cube⟩ :=
    (generateAt_shown tended world cube biomes now).exists_left reference
  cases written
  cases cube
  exact ⟨last, generated⟩

/-- In a list of cubes that rises and misses no neighbour, each bucket of each tree is replayed
once, in the order of the list. -/
theorem replayNodes_of_generateAt (stays : generator.StaysInRange)
    (tended : Tended generator dropped d) {cube : Cube} {biomes : BiomeSource} {written : Nat}
    {after : Cube} (done : d.generateAt world cube biomes now = .ok (written, after, next))
    {origins : List CubeCoord} {nodes : CubeCoord → List (FeatureNode σ)}
    (rising : CubeCoord.Rising origins)
    (covers : ∀ n : CubeCoord, (n.distance cube.coord : Int) ≤ max generator.range.toInt 0 →
      n ∈ origins)
    (kept : ∀ n ∈ origins, (d.ready world now).nodesAt world n now = .ok (nodes n)) :
    ∃ stream, replayNodes generator world biomes cube.coord (origins.flatMap nodes)
      ⟨0, cube, .forCube world.seed cube.coord⟩ = .ok ⟨written, after, stream⟩ := by
  obtain ⟨_, ready, known⟩ := tended.ready world now
  obtain ⟨reached, replayed, rfl, rfl⟩ :=
    (generateAt_shown tended world cube biomes now).exists_right done
  obtain ⟨near, nearby, replayed⟩ := bind_eq_ok_iff.1 replayed
  have found (n : CubeCoord) (member : n ∈ origins) :
      (d.ready world now).shown world cube.coord n =
        .ok ((nodes n).filterMap fun node => node.bucket? cube.coord) := by
    obtain ⟨buckets, shown, same⟩ :=
      (nodesAt_shown ready known cube.coord n now).exists_right (kept n member)
    rw [same]
    exact shown
  have answers (n : CubeCoord) (member : n ∈ origins) :
      ∃ buckets, (d.ready world now).shown world cube.coord n = .ok buckets :=
    ⟨_, found n member⟩
  rw [replayShown_near stays ready known nearby rising covers answers,
    replayShown_eq_replayNodes ready.uses found] at replayed
  exact ⟨reached.stream, replayed⟩

theorem generateAt_eq_wider (stays : generator.StaysInRange) {windows : List Nat} {capacity : Nat}
    {history : List DriverCall} (run : (start generator windows capacity).after history = .ok d)
    (world : World) (cube : Cube) (biomes : BiomeSource) (now : Instant) :
    (∀ wider : Int32, generator.range.toInt ≤ wider.toInt → ∀ written after last,
      (d.withRange wider).generateAt world cube biomes now = .ok (written, after, last) →
        ∃ next, d.generateAt world cube biomes now = .ok (written, after, next)) ∧
    ∀ written after next, d.generateAt world cube biomes now = .ok (written, after, next) →
      ∀ (origins : List CubeCoord) (nodes : CubeCoord → List (FeatureNode σ)),
        CubeCoord.Rising origins →
        (∀ n : CubeCoord, (n.distance cube.coord : Int) ≤ max generator.range.toInt 0 →
          n ∈ origins) →
        (∀ n ∈ origins, (d.ready world now).nodesAt world n now = .ok (nodes n)) →
        ∃ stream, replayNodes generator world biomes cube.coord (origins.flatMap nodes)
          ⟨0, cube, .forCube world.seed cube.coord⟩ = .ok ⟨written, after, stream⟩ := by
  have tended := (tended_start generator windows capacity).after run
  constructor
  · intro wider further written after last done
    exact generateAt_of_wider stays tended further done
  · intro written after next done origins nodes rising covers kept
    exact replayNodes_of_generateAt stays tended done rising covers kept

def spill : Generator CubeCoord where
  range := 1
  discover _ cube s found := .ok (found.push cube, s)
  materialise _ cube := do
    let corner ← cube.minBlock
    let beyond ← corner.offset 16 0 0
    return .set beyond .lava .done
  replay _ bucket cube _ s := Replayed.all bucket cube s

theorem spill_staysInRange : spill.StaysInRange := by
  intro found built _ cube list listed seed member script materialised c inside
  cases listed
  obtain rfl : seed = cube := by simpa using member
  obtain ⟨corner, lowest, materialised⟩ := bind_eq_ok_iff.1 materialised
  obtain ⟨beyond, further, materialised⟩ := bind_eq_ok_iff.1 materialised
  cases materialised
  obtain rfl : c = CubeCoord.ofBlock beyond := by
    simpa [Forest.cubes, Script.sets, Script.branches, cubesOf] using inside
  obtain ⟨x, y, z⟩ := CubeCoord.minBlock_eq_ok_iff.1 lowest
  obtain ⟨x', y', z'⟩ := BlockPos.offset_eq_ok_iff.1 further
  have sixteen : (16 : Int32).toInt = 16 := rfl
  have zero : (0 : Int32).toInt = 0 := rfl
  have one : spill.range.toInt = 1 := rfl
  simp only [CubeCoord.distance_le_iff, CubeCoord.ofBlock, toInt_shiftRight_four, one]
  omega

theorem spill_grows (world : World) {n : CubeCoord} (near : (n.distance ⟨0, 0, 0⟩ : Int) ≤ 2) :
    ∃ forest, spill.grow world [n] = .ok forest := by
  have word (value : Int) (least : -48 ≤ value) (most : value ≤ 48) :
      ∃ word : Int32, word.toInt = value := by
    obtain ⟨word, _, same⟩ := Checked.exists_int32 value (by omega) (by omega)
    exact ⟨word, same⟩
  have zero : (0 : Int32).toInt = 0 := rfl
  rw [CubeCoord.distance_le_iff] at near
  simp only [zero] at near
  obtain ⟨x, atX⟩ := word (n.x.toInt * 16) (by omega) (by omega)
  obtain ⟨y, atY⟩ := word (n.y.toInt * 16) (by omega) (by omega)
  obtain ⟨z, atZ⟩ := word (n.z.toInt * 16) (by omega) (by omega)
  obtain ⟨x', beyond⟩ := word (x.toInt + 16) (by omega) (by omega)
  have lowest : n.minBlock = .ok ⟨x, y, z⟩ := CubeCoord.minBlock_eq_ok_iff.2 ⟨atX, atY, atZ⟩
  have further : (⟨x, y, z⟩ : BlockPos).offset 16 0 0 = .ok ⟨x', y, z⟩ :=
    BlockPos.offset_eq_ok_iff.2 ⟨beyond, by simp [zero], by simp [zero]⟩
  simp only [Generator.grow, spill, List.foldlM_cons, List.foldlM_nil, lowest, further, ok_bind,
    pure_eq]
  exact ⟨_, rfl⟩

theorem spill_reaches_next_cube :
    ∃ after next, (start spill [10] 1).generateAt ⟨0, 5, {}⟩ (.empty ⟨0, 0, 0⟩)
        (fun _ => .plains) 7 = .ok (1, after, next) ∧
      ∃ (origins : List CubeCoord) (nodes : CubeCoord → List (FeatureNode CubeCoord))
        (stream : Stream),
        (∀ n : CubeCoord, (n.distance ⟨0, 0, 0⟩ : Int) ≤ 2 → n ∈ origins) ∧
        (∀ n ∈ origins,
          ((start spill [10] 1).ready ⟨0, 5, {}⟩ 7).nodesAt ⟨0, 5, {}⟩ n 7 = .ok (nodes n)) ∧
        replayNodes spill ⟨0, 5, {}⟩ (fun _ => .plains) ⟨0, 0, 0⟩ (origins.flatMap nodes)
          ⟨0, .empty ⟨0, 0, 0⟩, .forCube 5 ⟨0, 0, 0⟩⟩ = .ok ⟨1, after, stream⟩ := by
  let further : Generator CubeCoord := { spill with range := 2 }
  have counted : ((further.uncached ⟨0, 5, {}⟩ (.empty ⟨0, 0, 0⟩) fun _ => .plains).map
      fun out => out.1) = .ok 1 := by decide +kernel
  obtain ⟨⟨written, _⟩, replayed, one⟩ := map_eq_ok_iff.1 counted
  cases one
  obtain ⟨origins, around, _⟩ := bind_eq_ok_iff.1 replayed
  have pure : further.ReadsSeedOnly := ⟨fun _ _ _ => rfl, fun _ _ _ => rfl⟩
  obtain ⟨⟨_, _, last⟩, wide, _, same⟩ := (generateAt_spec _ pure
    (faithful_start further [10] 1) _ _ 7).exists_left replayed
  cases same
  have run : (start spill [10] 1).after [] = .ok (start spill [10] 1) := rfl
  obtain ⟨nearer, whole⟩ := generateAt_eq_wider spill_staysInRange run ⟨0, 5, {}⟩
    (.empty ⟨0, 0, 0⟩) (fun _ => .plains) 7
  obtain ⟨next, generated⟩ := nearer 2 (by decide) _ _ _ wide
  obtain ⟨rising, members⟩ := CubeCoord.neighborhood_spec around
  have kept (n : CubeCoord) (member : n ∈ origins) : ∃ nodes,
      ((start spill [10] 1).ready ⟨0, 5, {}⟩ 7).nodesAt ⟨0, 5, {}⟩ n 7 = .ok nodes := by
    obtain ⟨_, ready, known⟩ := (tended_start spill [10] 1).ready ⟨0, 5, {}⟩ 7
    have grows (list : Array CubeCoord) (found : Found spill (some 5) n list) :
        ∃ forest, spill.grow ⟨0, 5, {}⟩ list.toList = .ok forest := by
      obtain ⟨_, _, found⟩ := found
      cases found
      exact spill_grows _ ((members n).1 member)
    obtain ⟨buckets, shown⟩ := exists_shown ready known ⟨_, rfl⟩ grows ⟨0, 0, 0⟩
    obtain ⟨nodes, held, _⟩ := (nodesAt_shown ready known ⟨0, 0, 0⟩ n 7).exists_left shown
    exact ⟨nodes, held⟩
  choose! nodes kept using kept
  have covers (n : CubeCoord) (near : (n.distance ⟨0, 0, 0⟩ : Int) ≤ 1) : n ∈ origins :=
    (members n).2 (near.trans (by decide))
  obtain ⟨stream, together⟩ := whole _ _ _ generated origins nodes rising covers kept
  exact ⟨_, next, generated, origins, nodes, stream, fun n near => (members n).2 near, kept,
    together⟩

end FeatureDriver

end Karst
