import Karst.Proofs.Feature.Node

namespace Karst

/-- Trees side by side: each with its seed, the writes of its own walk and its branches. -/
inductive Forest (σ : Type) where
  | none
  | tree (seed : σ) (sets : List (BlockPos × Block)) (branches rest : Forest σ)

variable {σ : Type}

namespace Script

def sets : Script σ → List (BlockPos × Block)
  | .done => []
  | .set p block rest => (p, block) :: rest.sets
  | .writes rest => rest.sets
  | .branch _ _ rest => rest.sets

def branches : Script σ → Forest σ
  | .done => .none
  | .set _ _ rest => rest.branches
  | .writes rest => rest.branches
  | .branch seed body rest => .tree seed body.sets body.branches rest.branches

end Script

def cubesOf (sets : List (BlockPos × Block)) : Set CubeCoord :=
  {c | ∃ w ∈ sets, CubeCoord.ofBlock w.1 = c}

namespace Forest

def beside : Forest σ → Forest σ → Forest σ
  | none, more => more
  | tree seed sets branches rest, more => tree seed sets branches (rest.beside more)

def cubes : Forest σ → Set CubeCoord
  | none => ∅
  | tree _ sets branches rest => cubesOf sets ∪ branches.cubes ∪ rest.cubes

def buckets (target : CubeCoord) : Forest σ → List OpBucket
  | none => []
  | tree _ sets branches rest =>
      (bucketOf sets target).toList ++ branches.buckets target ++ rest.buckets target

theorem buckets_eq_nil_iff {forest : Forest σ} {target : CubeCoord} :
    forest.buckets target = [] ↔ target ∉ forest.cubes := by
  induction forest with
  | none => simp [buckets, cubes]
  | tree seed sets branches rest branchesIh restIh =>
    have own : bucketOf sets target = Option.none ↔ target ∉ cubesOf sets := by
      rw [← Option.not_isSome_iff_eq_none, isSome_bucketOf]
      rfl
    simp [buckets, cubes, own, branchesIh, restIh, and_assoc]

theorem pos_inside_of_mem_buckets {forest : Forest σ} {target : CubeCoord} {bucket : OpBucket}
    (member : bucket ∈ forest.buckets target) : ∀ op ∈ bucket.ops, op.pos.Inside := by
  induction forest with
  | none => cases member
  | tree seed sets branches rest branchesIh restIh =>
    rw [buckets, List.mem_append, List.mem_append, Option.mem_toList] at member
    rcases member with (own | inner) | outer
    · exact pos_inside_of_bucketOf own
    · exact branchesIh inner
    · exact restIh outer

end Forest

namespace FeatureArena

def nodes (arena : FeatureArena σ) : Nat → Handle → List (FeatureNode σ)
  | 0, _ => []
  | depth + 1, h =>
      match arena.get? h with
      | some node => node :: node.children.flatMap (nodes arena depth)
      | none => []

theorem mem_descendants_self {arena : FeatureArena σ} {depth : Nat} (deep : 0 < depth)
    (h : Handle) : h ∈ descendants arena depth h := by
  cases depth with
  | zero => cases deep
  | succ depth => exact List.mem_cons_self ..

end FeatureArena

/-- `roots` are the trees of `forest`, their nodes in `slots` of the arena, parents first. -/
inductive Planted (arena : FeatureArena σ) : List Handle → Forest σ → List Nat → Prop
  | none : Planted arena [] .none []
  | tree {h rest node seed sets inner outer innerSlots outerSlots}
      (held : arena.get? h = some node)
      (carries : node.Carries seed sets)
      (bounding : Bounding node.bounds (cubesOf sets ∪ inner.cubes))
      (within : Planted arena node.children inner innerSlots)
      (beside : Planted arena rest outer outerSlots) :
      Planted arena (h :: rest) (.tree seed sets inner outer)
        (h.index :: (innerSlots ++ outerSlots))

namespace Planted

variable {arena other : FeatureArena σ} {roots : List Handle} {forest : Forest σ} {slots : List Nat}

theorem frame (planted : Planted arena roots forest slots)
    (same : ∀ i ∈ slots, other.slots[i]? = arena.slots[i]?) : Planted other roots forest slots := by
  induction planted with
  | none => exact .none
  | tree held carries bounding within beside withinIh besideIh =>
    have kept := Arena.get?_congr (same _ (List.mem_cons_self ..))
    refine .tree (kept.trans held) carries bounding (withinIh ?_) (besideIh ?_)
    · exact fun i member => same i (by simp [member])
    · exact fun i member => same i (by simp [member])

theorem beside {others : List Handle} {more : Forest σ} {far : List Nat}
    (first : Planted arena roots forest slots) (second : Planted arena others more far) :
    Planted arena (roots ++ others) (forest.beside more) (slots ++ far) := by
  induction first with
  | none => exact second
  | tree held carries bounding within _ _ besideIh =>
    rw [List.cons_append, List.cons_append, List.append_assoc]
    exact .tree held carries bounding within besideIh

theorem isLive (planted : Planted arena roots forest slots) : ∀ i ∈ slots, arena.IsLive i := by
  induction planted with
  | none => simp
  | tree held carries bounding within beside withinIh besideIh =>
    intro i member
    rcases List.mem_cons.1 member with rfl | deeper
    · exact Arena.isLive_of_get? held
    · rcases List.mem_append.1 deeper with inner | outer
      · exact withinIh i inner
      · exact besideIh i outer

theorem subtree (planted : Planted arena roots forest slots) {h : Handle} {node : FeatureNode σ}
    (member : h.index ∈ slots) (held : arena.get? h = some node) :
    ∃ seed sets branches below, node.Carries seed sets ∧
      Planted arena [h] (.tree seed sets branches .none) below ∧ below.Sublist slots := by
  induction planted with
  | none => cases member
  | @tree root rest top seed sets inner outer innerSlots outerSlots first carries bounding within
      beside withinIh besideIh =>
    rcases List.mem_cons.1 member with same | deeper
    · by_cases root_eq : h = root
      · subst root_eq
        rw [first] at held
        cases held
        exact ⟨seed, sets, inner, _, carries, .tree first carries bounding within .none, by simp⟩
      · rw [Arena.get?_eq_none_of_held first same root_eq] at held
        cases held
    · rcases List.mem_append.1 deeper with inside | outside
      · obtain ⟨seed, sets, branches, below, carries, planted, fewer⟩ := withinIh inside
        exact ⟨seed, sets, branches, below, carries, planted,
          (fewer.trans (List.sublist_append_left ..)).cons _⟩
      · obtain ⟨seed, sets, branches, below, carries, planted, fewer⟩ := besideIh outside
        exact ⟨seed, sets, branches, below, carries, planted,
          (fewer.trans (List.sublist_append_right ..)).cons _⟩

theorem length_le (planted : Planted arena roots forest slots) (nodup : slots.Nodup) :
    slots.length ≤ arena.slots.size := by
  have bounded : slots ⊆ List.range arena.slots.size := by
    intro i member
    obtain ⟨slot, found, _⟩ := planted.isLive i member
    exact List.mem_range.2 (Array.getElem?_eq_some_iff.1 found).1
  simpa using (nodup.subperm bounded).length_le

theorem filterMap_nodes (planted : Planted arena roots forest slots) (target : CubeCoord)
    {depth : Nat} (enough : slots.length ≤ depth) :
    (roots.flatMap (FeatureArena.nodes arena depth)).filterMap (fun node => node.bucket? target) =
      forest.buckets target := by
  induction planted generalizing depth with
  | none => rfl
  | @tree h rest node seed sets inner outer innerSlots outerSlots held carries bounding within
      beside withinIh besideIh =>
    simp only [List.length_cons, List.length_append] at enough
    cases depth with
    | zero => omega
    | succ depth =>
      rw [List.flatMap_cons, List.filterMap_append, besideIh (by omega), Forest.buckets]
      congr 1
      simp only [FeatureArena.nodes, held]
      rw [List.filterMap_cons, withinIh (by omega)]
      simp only [FeatureNode.bucket?, carries.buckets]
      cases bucketOf sets target <;> rfl

theorem filter_affecting (planted : Planted arena roots forest slots) (target : CubeCoord)
    {depth : Nat} (enough : slots.length ≤ depth) :
    (roots.flatMap (FeatureArena.affecting arena target depth)).filter
        (fun node => (node.bucket? target).isSome) =
      (roots.flatMap (FeatureArena.nodes arena depth)).filter
        fun node => (node.bucket? target).isSome := by
  induction planted generalizing depth with
  | none => rfl
  | @tree h rest node seed sets inner outer innerSlots outerSlots held carries bounding within
      beside withinIh besideIh =>
    simp only [List.length_cons, List.length_append] at enough
    cases depth with
    | zero => omega
    | succ depth =>
      rw [List.flatMap_cons, List.flatMap_cons, List.filter_append, List.filter_append,
        besideIh (by omega)]
      congr 1
      simp only [FeatureArena.affecting, FeatureArena.nodes, held]
      split
      case isTrue => rw [List.filter_cons, List.filter_cons, withinIh (by omega)]
      case isFalse pruned =>
        have away : target ∉ (Forest.tree seed sets inner .none).cubes := by
          rw [Forest.cubes, Forest.cubes, Set.union_empty]
          exact fun member => pruned (bounding.covers member)
        have whole := Planted.tree held carries bounding within .none
        have empty := whole.filterMap_nodes target (show _ ≤ depth + 1 by simp; omega)
        rw [Forest.buckets_eq_nil_iff.2 away, List.flatMap_cons, List.flatMap_nil, List.append_nil,
          List.filterMap_eq_nil_iff] at empty
        simp only [FeatureArena.nodes, held] at empty
        exact (List.filter_eq_nil_iff.2 fun other member => by simp [empty other member]).symm

theorem filterMap_visit (planted : Planted arena roots forest slots) (nodup : slots.Nodup)
    (target : CubeCoord) :
    (roots.flatMap fun root => FeatureArena.visit arena root target).filterMap
      (fun node => node.bucket? target) = forest.buckets target := by
  have enough := planted.length_le nodup
  have kept (list : List (FeatureNode σ)) :
      (list.filter fun node => (node.bucket? target).isSome).filterMap
        (fun node => node.bucket? target) = list.filterMap fun node => node.bucket? target := by
    rw [List.filterMap_filter]
    congr 1
    funext node
    cases node.bucket? target <;> rfl
  rw [← planted.filterMap_nodes target enough, ← kept, ← kept (roots.flatMap _),
    ← planted.filter_affecting target enough]
  rfl

end Planted

/-- `other` is the arena after exactly `slots` were released. -/
structure Cleared (arena other : FeatureArena σ) (slots : List Nat) : Prop where
  tidy : other.Tidy FeatureNode.Blank
  live : ∀ i, other.IsLive i ↔ arena.IsLive i ∧ i ∉ slots
  kept : ∀ i, i ∉ slots → other.slots[i]? = arena.slots[i]?

namespace Cleared

variable {arena other third : FeatureArena σ} {slots more : List Nat}

theorem refl (tidy : arena.Tidy FeatureNode.Blank) : Cleared arena arena [] := by
  refine ⟨tidy, ?_, fun _ _ => rfl⟩
  simp

theorem trans (first : Cleared arena other slots) (second : Cleared other third more) :
    Cleared arena third (slots ++ more) := by
  refine ⟨second.tidy, ?_, ?_⟩
  · intro i
    rw [second.live, first.live, List.mem_append, not_or, and_assoc]
  · intro i away
    rw [List.mem_append, not_or] at away
    rw [second.kept i away.2, first.kept i away.1]

theorem perm (cleared : Cleared arena other slots) (reordered : slots.Perm more) :
    Cleared arena other more := by
  refine ⟨cleared.tidy, ?_, ?_⟩
  · intro i
    rw [cleared.live, reordered.mem_iff]
  · intro i away
    exact cleared.kept i (reordered.mem_iff.not.2 away)

theorem release {h : Handle} {node : FeatureNode σ} {seed : σ} {sets : List (BlockPos × Block)}
    (tidy : arena.Tidy FeatureNode.Blank) (held : arena.get? h = some node)
    (carries : node.Carries seed sets) : Cleared arena (arena.release h).2 [h.index] := by
  obtain ⟨dead, others, after⟩ := Arena.release_spec tidy held carries.blank_recycle
  refine ⟨after, ?_, ?_⟩
  · intro i
    by_cases same : i = h.index
    · subst same
      simp [dead]
    · simp [same, Arena.isLive_congr (others i same)]
  · intro i away
    exact others i (by simpa using away)

theorem release_all {handles : List Handle} (tidy : arena.Tidy FeatureNode.Blank)
    (nodup : (handles.map Handle.index).Nodup)
    (held : ∀ h ∈ handles, ∃ node seed sets, arena.get? h = some node ∧ node.Carries seed sets) :
    Cleared arena (handles.foldl (fun arena h => (arena.release h).2) arena)
      (handles.map Handle.index) := by
  induction handles generalizing arena with
  | nil => exact refl tidy
  | cons h handles ih =>
    rw [List.map_cons, List.nodup_cons] at nodup
    obtain ⟨node, seed, sets, here, carries⟩ := held h (List.mem_cons_self ..)
    have first := release tidy here carries
    refine first.trans (ih first.tidy nodup.2 ?_)
    intro next member
    obtain ⟨node, seed, sets, here, carries⟩ := held next (List.mem_cons_of_mem _ member)
    have away : next.index ∉ [h.index] := by
      rintro same
      rw [List.mem_singleton] at same
      exact nodup.1 (List.mem_map.2 ⟨next, member, same⟩)
    exact ⟨node, seed, sets, (Arena.get?_congr (first.kept _ away)).trans here, carries⟩

end Cleared

namespace Planted

variable {arena : FeatureArena σ} {roots : List Handle} {forest : Forest σ} {slots : List Nat}

theorem descendants (planted : Planted arena roots forest slots) {depth : Nat}
    (enough : slots.length ≤ depth) :
    let below := roots.reverse.flatMap (FeatureArena.descendants arena depth)
    (below.map Handle.index).Perm slots ∧
      ∀ h ∈ below, ∃ node seed sets, arena.get? h = some node ∧ node.Carries seed sets := by
  induction planted generalizing depth with
  | none => simp
  | @tree h rest node seed sets inner outer innerSlots outerSlots held carries bounding within
      beside withinIh besideIh =>
    simp only [List.length_cons, List.length_append] at enough
    cases depth with
    | zero => omega
    | succ depth =>
      obtain ⟨innerPerm, innerHeld⟩ := @withinIh depth (by omega)
      obtain ⟨outerPerm, outerHeld⟩ := @besideIh (depth + 1) (by omega)
      have here : FeatureArena.descendants arena (depth + 1) h =
          h :: node.children.reverse.flatMap (FeatureArena.descendants arena depth) := by
        simp only [FeatureArena.descendants, held]
      simp only [List.reverse_cons, List.flatMap_append, List.flatMap_cons, List.flatMap_nil,
        List.append_nil, here, List.map_append, List.map_cons]
      constructor
      · refine (outerPerm.append (innerPerm.cons h.index)).trans ?_
        exact List.perm_append_comm
      · intro next member
        rcases List.mem_append.1 member with outside | inside
        · exact outerHeld next outside
        · rcases List.mem_cons.1 inside with rfl | deeper
          · exact ⟨node, seed, sets, held, carries⟩
          · exact innerHeld next deeper

theorem releaseTree {h : Handle} (planted : Planted arena [h] forest slots)
    (tidy : arena.Tidy FeatureNode.Blank) (nodup : slots.Nodup) :
    Cleared arena (FeatureArena.releaseTree arena h) slots := by
  obtain ⟨perm, held⟩ := planted.descendants (planted.length_le nodup)
  simp only [List.reverse_singleton, List.flatMap_cons, List.flatMap_nil, List.append_nil]
    at perm held
  exact (Cleared.release_all tidy (perm.nodup_iff.2 nodup) held).perm perm

theorem release (planted : Planted arena roots forest slots)
    (tidy : arena.Tidy FeatureNode.Blank) (nodup : slots.Nodup) :
    Cleared arena (roots.foldl FeatureArena.releaseTree arena) slots := by
  induction forest generalizing arena roots slots with
  | none =>
    cases planted
    exact .refl tidy
  | tree seed sets branches rest _ restIh =>
    cases planted with
    | @tree h others node _ _ _ _ innerSlots outerSlots held carries bounding within beside =>
      rw [List.nodup_cons, List.mem_append, not_or, List.nodup_append] at nodup
      obtain ⟨⟨outside, apart⟩, innerNodup, outerNodup, disjoint⟩ := nodup
      have single : Planted arena [h] (.tree seed sets branches .none)
          (h.index :: (innerSlots ++ [])) := .tree held carries bounding within .none
      rw [List.append_nil] at single
      have first := single.releaseTree tidy (List.nodup_cons.2 ⟨outside, innerNodup⟩)
      have left : Planted (FeatureArena.releaseTree arena h) others rest outerSlots := by
        refine beside.frame fun i member => first.kept i ?_
        rw [List.mem_cons, not_or]
        exact ⟨fun same => apart (same ▸ member), fun inner => disjoint i inner i member rfl⟩
      rw [List.foldl_cons, ← List.cons_append]
      exact first.trans (restIh left first.tidy outerNodup)

end Planted

end Karst
