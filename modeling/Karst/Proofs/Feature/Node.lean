import Karst.Proofs.Cache.Arena
import Karst.Proofs.Feature.Firsts
import Karst.Proofs.Geometry.Bounds

namespace Karst.FeatureNode

variable {σ : Type}

def Blank (node : FeatureNode σ) : Prop :=
  node = { spare := node.spare } ∧ ∀ bucket ∈ node.spare, bucket = OpBucket.empty

/-- A node of `seed` that files the writes `sets` and nothing else. -/
structure Carries (node : FeatureNode σ) (seed : σ) (sets : List (BlockPos × Block)) : Prop where
  seed : node.seed = some seed
  buckets : ∀ c, node.buckets[c]? = bucketOf sets c
  spare : ∀ bucket ∈ node.spare, bucket = OpBucket.empty

theorem blank_fresh : Blank (Recyclable.fresh : FeatureNode σ) := by
  refine ⟨rfl, ?_⟩
  intro bucket member
  cases member

theorem Blank.carries {node : FeatureNode σ} (blank : node.Blank) (seed : σ) :
    { node with seed := some seed }.Carries seed [] := by
  refine ⟨rfl, ?_, blank.2⟩
  intro c
  rw [blank.1]
  simp

theorem Carries.blank_recycle {node : FeatureNode σ} {seed : σ} {sets : List (BlockPos × Block)}
    (carries : node.Carries seed sets) : node.recycle.Blank := by
  refine ⟨rfl, ?_⟩
  have emptied : ∀ entry ∈ node.buckets.toList, entry.2.recycle = OpBucket.empty := by
    rintro ⟨c, bucket⟩ member
    rw [Std.HashMap.mem_toList_iff_getElem?_eq_some, carries.buckets c] at member
    exact OpBucket.recycle_eq_empty (ops_ne_empty_of_bucketOf member)
  simp only [recycle, Std.HashMap.fold_eq_foldl_toList]
  generalize node.buckets.toList = entries at emptied
  have spare := carries.spare
  generalize node.spare = held at spare
  induction entries generalizing held with
  | nil => exact spare
  | cons entry entries ih =>
    refine ih (fun other member => emptied other (by simp [member])) _ ?_
    intro bucket member
    rcases List.mem_cons.1 member with rfl | old
    · exact emptied entry (by simp)
    · exact spare bucket old

def serving (node : FeatureNode σ) (c : CubeCoord) : OpBucket :=
  node.buckets[c]?.getD (node.spare.headD .empty)

structure Receives (node : FeatureNode σ) (p : BlockPos) (block : Block) (next : FeatureNode σ) :
    Prop where
  here : next.buckets[CubeCoord.ofBlock p]? =
    some ((node.serving (CubeCoord.ofBlock p)).write p block)
  elsewhere : ∀ c, CubeCoord.ofBlock p ≠ c → next.buckets[c]? = node.buckets[c]?
  seed : next.seed = node.seed
  children : next.children = node.children
  bounds : next.bounds = some (extendBounds node.bounds (CubeCoord.ofBlock p))
  spare : next.spare ⊆ node.spare

theorem record_spec (node : FeatureNode σ) (p : BlockPos) (block : Block) :
    ∃ next, node.record p block =
        .ok (!(node.serving (CubeCoord.ofBlock p)).isTaken p.inCube, next) ∧
      node.Receives p block next := by
  obtain ⟨corner, lowest, position⟩ := p.relativeTo_minBlock
  obtain ⟨seed, bounds, buckets, children, spare⟩ := node
  simp only [record, lowest, Guarded.ok_bind, position, p.inCube_inside, if_true, serving]
  cases held : buckets[CubeCoord.ofBlock p]? with
  | some bucket =>
    cases taken : bucket.isTaken p.inCube with
    | true =>
      simp only [Option.map_some, Option.getD_some, taken]
      refine ⟨_, rfl, ?_, fun _ _ => rfl, rfl, rfl, rfl, List.Subset.refl _⟩
      simp [serving, held, OpBucket.write, taken]
    | false =>
      simp only [Option.map_some, Option.getD_some, taken]
      refine ⟨_, rfl, ?_, ?_, rfl, rfl, rfl, List.Subset.refl _⟩
      · simp [serving, held, OpBucket.write, taken]
      · intro c other
        simp [Std.HashMap.getElem?_modify, other]
  | none =>
    have others (bucket : OpBucket) (c : CubeCoord) (other : CubeCoord.ofBlock p ≠ c) :
        (buckets.insert (CubeCoord.ofBlock p) bucket)[c]? = buckets[c]? := by
      simp [Std.HashMap.getElem?_insert, other]
    cases spare with
    | nil =>
      simp only [Option.map_none, Option.getD_none, List.headD_nil, OpBucket.not_isTaken_empty]
      refine ⟨_, rfl, ?_, others _, rfl, rfl, rfl, List.Subset.refl _⟩
      simp [serving, held, OpBucket.write]
    | cons bucket spare =>
      have rest : spare ⊆ bucket :: spare := List.subset_cons_self bucket spare
      cases taken : bucket.isTaken p.inCube with
      | true =>
        simp only [Option.map_none, Option.getD_none, List.headD_cons, taken]
        refine ⟨_, rfl, ?_, others _, rfl, rfl, rfl, rest⟩
        simp [serving, held, OpBucket.write, taken]
      | false =>
        simp only [Option.map_none, Option.getD_none, List.headD_cons, taken]
        refine ⟨_, rfl, ?_, others _, rfl, rfl, rfl, rest⟩
        simp [serving, held, OpBucket.write, taken]

variable {node : FeatureNode σ} {seed : σ} {sets : List (BlockPos × Block)}

theorem Carries.serving_eq (carries : node.Carries seed sets) (c : CubeCoord) :
    node.serving c = (bucketOf sets c).getD .empty := by
  have next : node.spare.headD .empty = .empty := by
    cases spare : node.spare with
    | nil => rfl
    | cons bucket rest => exact carries.spare bucket (by simp [spare])
  rw [serving, carries.buckets, next]

theorem Carries.isTaken_serving (carries : node.Carries seed sets) (p : BlockPos) :
    (node.serving (CubeCoord.ofBlock p)).isTaken p.inCube ↔ p ∈ sets.map Prod.fst := by
  rw [carries.serving_eq]
  cases held : bucketOf sets (CubeCoord.ofBlock p) with
  | some bucket => exact isTaken_bucketOf held
  | none => simpa using not_mem_of_bucketOf held

theorem Carries.record (carries : node.Carries seed sets) (p : BlockPos) (block : Block) :
    ∃ next, node.record p block = .ok (decide (p ∉ sets.map Prod.fst), next) ∧
      next.Carries seed (sets ++ [(p, block)]) ∧ next.children = node.children ∧
      next.bounds = some (extendBounds node.bounds (CubeCoord.ofBlock p)) := by
  obtain ⟨next, done, receives⟩ := node.record_spec p block
  have first : (!(node.serving (CubeCoord.ofBlock p)).isTaken p.inCube) =
      decide (p ∉ sets.map Prod.fst) := by
    simp only [decide_not, ← carries.isTaken_serving p, Bool.decide_eq_true]
  refine ⟨next, first ▸ done, ⟨receives.seed.trans carries.seed, ?_, ?_⟩, receives.children,
    receives.bounds⟩
  · intro c
    rw [bucketOf_concat, OpBucket.file]
    split
    case isTrue same =>
      subst same
      rw [receives.here, carries.serving_eq]
    case isFalse other => rw [receives.elsewhere c other, carries.buckets]
  · intro bucket member
    exact carries.spare bucket (receives.spare member)

end Karst.FeatureNode
