import Karst.Proofs.Feature.Tended

/-!
Who owns the slots of a driver's arena. The nodes under the cached roots are all live, no two of them
are one slot, and no other slot is live; so no tree leaks, dangles or shares a node, whatever calls
came before.
-/

namespace Karst

open Guarded

variable {σ : Type}

namespace Planted

variable {arena : FeatureArena σ} {roots : List Handle} {forest : Forest σ} {slots : List Nat}

theorem length_roots_le (planted : Planted arena roots forest slots) :
    roots.length ≤ slots.length := by
  induction planted with
  | none => exact Nat.le_refl _
  | tree held carries bounding within beside withinIh besideIh =>
    simp only [List.length_cons, List.length_append]
    omega

theorem mem_descendants (planted : Planted arena roots forest slots) {depth : Nat}
    (enough : slots.length ≤ depth) {root : Handle} (member : root ∈ roots) :
    root ∈ roots.flatMap (FeatureArena.descendants arena depth) := by
  apply List.mem_flatMap.2
  refine ⟨root, member, FeatureArena.mem_descendants_self ?_ root⟩
  have some_root := List.length_pos_of_mem member
  have room := planted.length_roots_le
  omega

theorem descendants_closed (planted : Planted arena roots forest slots) {depth : Nat}
    (enough : slots.length ≤ depth) {h child : Handle} {node : FeatureNode σ}
    (met : h ∈ roots.flatMap (FeatureArena.descendants arena depth))
    (held : arena.get? h = some node) (branch : child ∈ node.children) :
    child ∈ roots.flatMap (FeatureArena.descendants arena depth) := by
  -- A node under one root keeps its branches under that root, one level further down.
  induction planted generalizing depth with
  | none => cases met
  | @tree root rest top seed sets inner outer innerSlots outerSlots there carries bounding within
      beside withinIh besideIh =>
    simp only [List.length_cons, List.length_append] at enough
    cases depth with
    | zero => omega
    | succ depth =>
      have here : FeatureArena.descendants arena (depth + 1) root =
          root :: top.children.reverse.flatMap (FeatureArena.descendants arena depth) := by
        simp only [FeatureArena.descendants, there]
      have reordered (g : Handle) :
          g ∈ top.children.reverse.flatMap (FeatureArena.descendants arena depth) ↔
            g ∈ top.children.flatMap (FeatureArena.descendants arena depth) := by
        simp
      simp only [List.flatMap_cons, List.mem_append, here, List.mem_cons, reordered] at met ⊢
      rcases met with (rfl | below) | outside
      · rw [there] at held
        cases held
        exact .inl (.inr (within.mem_descendants (by omega) branch))
      · exact .inl (.inr (withinIh (by omega) below))
      · exact .inr (besideIh (by omega) outside)

end Planted

namespace FeatureDriver

inductive Reaches (d : FeatureDriver σ) : Handle → Prop
  | root {key roots h} (cached : d.trees.peek key = some roots) (member : h ∈ roots) : Reaches d h
  | branch {h child node} (parent : Reaches d h) (held : d.arena.get? h = some node)
      (member : child ∈ node.children) : Reaches d child

def nodesOf (d : FeatureDriver σ) (roots : Array Handle) : List Handle :=
  roots.toList.flatMap (FeatureArena.descendants d.arena d.arena.slots.size)

/-- Every node of every cached tree, as often as a walk from the roots meets it. -/
def standing (d : FeatureDriver σ) : List Handle := d.trees.holdings.flatMap fun p => d.nodesOf p.2

variable {d : FeatureDriver σ} {plots : EpochCube → List Nat}
  {grown : EpochCube → Forest σ → Prop}

theorem reaches_of_mem_descendants {depth : Nat} {root h : Handle} (start : d.Reaches root)
    (member : h ∈ FeatureArena.descendants d.arena depth root) : d.Reaches h := by
  induction depth generalizing root with
  | zero => cases member
  | succ depth ih =>
    rcases List.mem_cons.1 member with rfl | below
    · exact start
    · split at below
      case h_1 node held =>
        obtain ⟨child, branch, deeper⟩ := List.mem_flatMap.1 below
        exact ih (.branch start held (List.mem_reverse.1 branch)) deeper
      case h_2 => cases below

theorem mem_standing_iff (stocked : Stocked d.arena d.trees.peek plots grown) {h : Handle} :
    h ∈ d.standing ↔ d.Reaches h := by
  simp only [standing, List.mem_flatMap, Prod.exists, TieredCache.mem_holdings]
  constructor
  · rintro ⟨key, roots, cached, member⟩
    obtain ⟨root, first, below⟩ := List.mem_flatMap.1 member
    exact reaches_of_mem_descendants (.root cached (by simpa using first)) below
  · intro reached
    induction reached with
    | @root key roots h cached member =>
      obtain ⟨nodup, forest, planted, _⟩ := stocked.planted key roots cached
      exact ⟨key, roots, cached,
        planted.mem_descendants (planted.length_le nodup) (by simpa using member)⟩
    | branch parent held member ih =>
      obtain ⟨key, roots, cached, met⟩ := ih
      obtain ⟨nodup, forest, planted, _⟩ := stocked.planted key roots cached
      exact ⟨key, roots, cached,
        planted.descendants_closed (planted.length_le nodup) met held member⟩

theorem nodesOf_perm (stocked : Stocked d.arena d.trees.peek plots grown) {key : EpochCube}
    {roots : Array Handle} (cached : d.trees.peek key = some roots) :
    ((d.nodesOf roots).map Handle.index).Perm (plots key) ∧
      ∀ h ∈ d.nodesOf roots, d.arena.contains h := by
  obtain ⟨nodup, forest, planted, _⟩ := stocked.planted key roots cached
  obtain ⟨perm, held⟩ := planted.descendants (planted.length_le nodup)
  have reordered := (List.reverse_perm roots.toList).flatMap_right
    (FeatureArena.descendants d.arena d.arena.slots.size)
  constructor
  · exact (reordered.symm.map Handle.index).trans perm
  · intro h member
    obtain ⟨node, _, _, there, _⟩ := held h (reordered.mem_iff.2 member)
    rw [Arena.contains, there]
    rfl

theorem nodup_standing (stocked : Stocked d.arena d.trees.peek plots grown) :
    (d.standing.map Handle.index).Nodup := by
  rw [standing, List.map_flatMap, List.nodup_flatMap]
  constructor
  · rintro ⟨key, roots⟩ member
    have cached := TieredCache.mem_holdings.1 member
    obtain ⟨nodup, _⟩ := stocked.planted key roots cached
    exact (nodesOf_perm stocked cached).1.nodup_iff.2 nodup
  · have distinct := List.pairwise_map.1 d.trees.nodup_holdings
    apply distinct.imp_of_mem
    rintro ⟨key, roots⟩ ⟨other, others⟩ first second different
    obtain ⟨here, _⟩ := nodesOf_perm stocked (TieredCache.mem_holdings.1 first)
    obtain ⟨there, _⟩ := nodesOf_perm stocked (TieredCache.mem_holdings.1 second)
    intro i inHere inThere
    exact stocked.apart key other different (here.mem_iff.1 inHere) (there.mem_iff.1 inThere)

theorem isLive_iff_standing (stocked : Stocked d.arena d.trees.peek plots grown) (i : Nat) :
    i ∈ d.standing.map Handle.index ↔ d.arena.IsLive i := by
  rw [stocked.live, standing, List.map_flatMap, List.mem_flatMap]
  constructor
  · rintro ⟨⟨key, roots⟩, member, inside⟩
    obtain ⟨perm, _⟩ := nodesOf_perm stocked (TieredCache.mem_holdings.1 member)
    exact ⟨key, perm.mem_iff.1 inside⟩
  · rintro ⟨key, member⟩
    cases cached : d.trees.peek key with
    | none =>
      rw [stocked.bare key cached] at member
      cases member
    | some roots =>
      obtain ⟨perm, _⟩ := nodesOf_perm stocked cached
      exact ⟨(key, roots), TieredCache.mem_holdings.2 cached, perm.mem_iff.2 member⟩

theorem ownership_after {generator : Generator σ} {windows : List Nat} {capacity : Nat}
    {history : List DriverCall} (run : (start generator windows capacity).after history = .ok d) :
    (∀ h, d.Reaches h → d.arena.contains h) ∧
      (∀ h, h ∈ d.standing ↔ d.Reaches h) ∧ (d.standing.map Handle.index).Nodup ∧
      (∀ i, d.arena.IsLive i ↔ ∃ h, d.Reaches h ∧ h.index = i) ∧
      d.arena.live = d.standing.length ∧
      (∀ key ∈ d.seeds.entries, key.epoch = d.epoch) ∧
      (∀ key ∈ d.trees.entries, key.epoch = d.epoch) ∧
      d.counts.treesBuilt = d.counts.treesReleased + d.rootCount +
        (start generator windows capacity).droppedOver history ∧
      d.counts.seedLists = d.seeds.misses := by
  have tended := (tended_start generator windows capacity).after run
  obtain ⟨plots, stocked⟩ := tended.trees
  refine ⟨?_, fun h => mem_standing_iff stocked, nodup_standing stocked, ?_, ?_, ?_, ?_, ?_,
    tended.lists⟩
  · intro h reached
    obtain ⟨⟨key, roots⟩, member, inside⟩ := List.mem_flatMap.1 ((mem_standing_iff stocked).2 reached)
    exact (nodesOf_perm stocked (TieredCache.mem_holdings.1 member)).2 h inside
  · intro i
    rw [← isLive_iff_standing stocked, List.mem_map]
    exact exists_congr fun h => and_congr_left fun _ => mem_standing_iff stocked
  · have counted := stocked.tidy.live_eq (nodup_standing stocked) (isLive_iff_standing stocked)
    rwa [List.length_map] at counted
  · intro key held
    obtain ⟨list, cached⟩ := TieredCache.exists_peek held
    exact (tended.seeds key list cached).1
  · intro key held
    obtain ⟨roots, cached⟩ := TieredCache.exists_peek held
    obtain ⟨_, _, _, current, _⟩ := stocked.planted key roots cached
    exact current
  · simpa using tended.built

def lanternsReseeded : List DriverCall :=
  [.generateAt ⟨0, 5, {}⟩ (.empty ⟨0, 0, 0⟩) (fun _ => .plains) 7,
    .generateAt ⟨0, 6, {}⟩ (.empty ⟨0, 0, 0⟩) (fun _ => .plains) 9]

theorem ownership_after_reseeding :
    ∃ d, (start lantern [10] 1).after lanternsReseeded = .ok d ∧
      d.arena.live = d.standing.length ∧
      d.counts.treesBuilt = d.counts.treesReleased + d.rootCount +
        (start lantern [10] 1).droppedOver lanternsReseeded ∧
      d.counts.seedLists = d.seeds.misses := by
  have first : ((lantern.uncached ⟨0, 5, {}⟩ (.empty ⟨0, 0, 0⟩) fun _ => .plains).map
      fun out => out.1) = .ok 1 := by decide +kernel
  have second : ((lantern.uncached ⟨0, 6, {}⟩ (.empty ⟨0, 0, 0⟩) fun _ => .plains).map
      fun out => out.1) = .ok 1 := by decide +kernel
  obtain ⟨_, early, _⟩ := map_eq_ok_iff.1 first
  obtain ⟨_, late, _⟩ := map_eq_ok_iff.1 second
  obtain ⟨a, made, faithful, _⟩ := (generateAt_spec _ lantern_readsSeedOnly
    (faithful_start lantern [10] 1) _ _ 7).exists_left early
  obtain ⟨b, remade, _⟩ :=
    (generateAt_spec _ lantern_readsSeedOnly faithful _ _ 9).exists_left late
  have run : (start lantern [10] 1).after lanternsReseeded = .ok b.2.2 := by
    simp only [FeatureDriver.after, lanternsReseeded, List.foldlM_cons, List.foldlM_nil, call, made,
      remade, ok_bind, pure_eq]
  obtain ⟨_, _, _, _, live, _, _, built, lists⟩ := ownership_after run
  exact ⟨_, run, live, built, lists⟩

end FeatureDriver

end Karst
