import Karst.Proofs.Generation.Branching

namespace Karst

open Guarded

variable {σ : Type}

/-! ## The writes of a tree -/

def VoxelOp.StandsAt (op : VoxelOp) (cube : CubeCoord) (place : BlockPos) : Prop :=
  (cube.minBlock >>= fun corner => corner.atLocal op.pos) = .ok place

theorem FeatureNode.Shows.of_mem {node : FeatureNode σ} {seed : σ}
    {sets : List (BlockPos × Block)} (shows : node.Shows seed sets) {cube : CubeCoord}
    {bucket : OpBucket} (found : node.bucket? cube = some bucket) {op : VoxelOp}
    (member : op ∈ bucket.ops) : ∃ place, op.StandsAt cube place ∧ (place, op.block) ∈ sets := by
  have listed := List.mem_map_of_mem
    (f := fun op : VoxelOp => (cube.minBlock >>= fun corner => corner.atLocal op.pos, op.block))
    (Array.mem_toList_iff.2 member)
  rw [shows.firsts cube bucket found] at listed
  obtain ⟨⟨place, block⟩, first, same⟩ := List.mem_map.1 listed
  obtain ⟨stands, rfl⟩ := Prod.mk.inj same
  exact ⟨place, stands.symm, (firsts_sublist sets).subset (List.mem_filter.1 first).1⟩

namespace FeatureArena

inductive Under (arena : FeatureArena σ) (root : Handle) : Handle → Prop
  | root : Under arena root root
  | branch {h child node} (above : Under arena root h) (held : arena.get? h = some node)
      (member : child ∈ node.children) : Under arena root child

/-- Some node of the tree records a write of this block at this position of the world. -/
def Records (arena : FeatureArena σ) (root : Handle) (place : BlockPos) (block : Block) : Prop :=
  ∃ h node cube bucket op, arena.Under root h ∧ arena.get? h = some node ∧
    node.bucket? cube = some bucket ∧ op ∈ bucket.ops ∧ op.StandsAt cube place ∧ op.block = block

variable {arena : FeatureArena σ} {roots handles : List Handle} {forest : Forest σ} {h : Handle}
variable {Q : BlockPos → Block → Prop}

theorem Shows.of_mem (shows : arena.Shows roots forest handles) (all : forest.All Q)
    (member : h ∈ roots) :
    ∃ node seed sets inner below, arena.get? h = some node ∧ node.Shows seed sets ∧
      (∀ w ∈ sets, Q w.1 w.2) ∧ inner.All Q ∧ arena.Shows node.children inner below := by
  induction shows with
  | none => cases member
  | tree held shown within beside _ besideIh =>
    obtain ⟨own, inner, rest⟩ := all
    rcases List.mem_cons.1 member with rfl | others
    · exact ⟨_, _, _, _, _, held, shown, own, inner, within⟩
    · exact besideIh rest others

theorem Shows.of_under {root : Handle} (shows : arena.Shows [root] forest handles)
    (all : forest.All Q) (under : arena.Under root h) :
    ∃ node seed sets inner below, arena.get? h = some node ∧ node.Shows seed sets ∧
      (∀ w ∈ sets, Q w.1 w.2) ∧ inner.All Q ∧ arena.Shows node.children inner below := by
  induction under with
  | root => exact shows.of_mem all (List.mem_singleton_self root)
  | branch _ held member above =>
    obtain ⟨_, _, _, _, _, here, _, _, inner, within⟩ := above
    rw [held] at here
    cases here
    exact within.of_mem inner member

end FeatureArena

/-! ## Caves -/

namespace CaveSeed

variable {range : Int32} {p : CaveParams}

def Molten (p : CaveParams) (y : Int32) : Prop :=
  ∃ level, p.lavaLevel = some level ∧ y.toInt < level.toInt

def FillsAt (p : CaveParams) (place : BlockPos) (block : Block) : Prop :=
  (Molten p place.y → block = .lava) ∧ (¬ Molten p place.y → block = .air)

theorem FillsAt.unique {place : BlockPos} {a b : Block} (first : FillsAt p place a)
    (second : FillsAt p place b) : a = b := by
  by_cases molten : Molten p place.y
  · rw [first.1 molten, second.1 molten]
  · rw [first.2 molten, second.2 molten]

theorem fillsAt_fill (p : CaveParams) (place : BlockPos) : FillsAt p place (fill p place.y) := by
  have molten : Molten p place.y ↔ ∃ level ∈ p.lavaLevel, place.y < level := by
    simp only [Molten, Int32.lt_iff_toInt_lt, Option.mem_def]
  rw [FillsAt, molten, fill]
  cases p.lavaLevel with
  | none => simp
  | some level =>
    by_cases below : place.y < level <;> simp [below]

/-- The blocks of a cave tree, whatever was built and released in its arena before, are a matter of
height: lava below its level and air elsewhere. So no two of its writes disagree about a position. -/
theorem lava_by_height (ranges : Walker.Ranges range) (p : CaveParams) (world : World)
    (seed : CaveSeed) (history : List (TreeCall CaveSeed)) :
    ∃ script arena built,
      (caveGenerator range p).materialise world seed = .ok script ∧
      FeatureArena.after .empty history = .ok arena ∧
      FeatureArena.materialise arena seed script = .ok built ∧
      (∀ h, built.arena.Under built.root h → ∃ node, built.arena.get? h = some node ∧
        ∀ cube bucket, node.bucket? cube = some bucket → ∀ op ∈ bucket.ops,
          ∃ place, op.StandsAt cube place ∧ FillsAt p place op.block) ∧
      ∀ place a b, built.arena.Records built.root place a →
        built.arena.Records built.root place b → a = b := by
  obtain ⟨script, made⟩ := exists_script ranges p seed
  obtain ⟨arena, run, builds⟩ := FeatureArena.materialise_after history
  obtain ⟨built, _, handles, done, _, shows, _⟩ := builds seed script
  have filled := all_script (fillsAt_fill p) made
  have tree : (Forest.tree seed script.sets script.branches .none).All (FillsAt p) :=
    ⟨filled.sets, filled.branches, trivial⟩
  have nodes (h : Handle) (under : built.arena.Under built.root h) :
      ∃ node, built.arena.get? h = some node ∧
        ∀ cube bucket, node.bucket? cube = some bucket → ∀ op ∈ bucket.ops,
          ∃ place, op.StandsAt cube place ∧ FillsAt p place op.block := by
    obtain ⟨node, _, sets, _, _, held, shown, own, _⟩ := shows.of_under tree under
    refine ⟨node, held, ?_⟩
    intro cube bucket found op member
    obtain ⟨place, stands, written⟩ := shown.of_mem found member
    exact ⟨place, stands, own (place, op.block) written⟩
  have records (place : BlockPos) (block : Block)
      (recorded : built.arena.Records built.root place block) : FillsAt p place block := by
    obtain ⟨h, node, cube, bucket, op, under, held, found, member, stands, rfl⟩ := recorded
    obtain ⟨other, here, fills⟩ := nodes h under
    rw [held] at here
    cases here
    obtain ⟨there, also, fills⟩ := fills cube bucket found op member
    obtain rfl : place = there := Except.ok.inj (stands.symm.trans also)
    exact fills
  refine ⟨script, arena, built, made, run, done, nodes, ?_⟩
  intro place a b first second
  exact (records place a first).unique (records place b second)

theorem lava_by_height_shortTunnel :
    let level : CaveParams := { lavaLevel := some 8 }
    ∃ script arena built node, shortTunnel.script 8 level = .ok script ∧
      FeatureArena.after .empty [.materialise shortTunnel .done, .release ⟨0, 1⟩] = .ok arena ∧
      FeatureArena.materialise arena shortTunnel script = .ok built ∧
      built.arena.get? built.root = some node ∧
      ∀ cube bucket, node.bucket? cube = some bucket → ∀ op ∈ bucket.ops,
        ∃ place, op.StandsAt cube place ∧ (place.y.toInt < 8 → op.block = .lava) ∧
          (8 ≤ place.y.toInt → op.block = .air) := by
  intro level
  have ranges : Walker.Ranges 8 := ⟨by decide, by decide⟩
  obtain ⟨script, arena, built, made, run, done, filled, _⟩ := lava_by_height ranges level default
    shortTunnel [.materialise shortTunnel .done, .release ⟨0, 1⟩]
  obtain ⟨node, held, fills⟩ := filled built.root .root
  refine ⟨script, arena, built, node, made, run, done, held, ?_⟩
  intro cube bucket found op member
  obtain ⟨place, stands, lava, air⟩ := fills cube bucket found op member
  refine ⟨place, stands, fun below => lava ⟨8, rfl, below⟩, fun above => air ?_⟩
  rintro ⟨_, same, below⟩
  obtain rfl : (8 : Int32) = _ := Option.some.inj same
  exact absurd below (not_lt.2 above)

end CaveSeed

end Karst
