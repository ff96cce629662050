import Karst.Proofs.Feature.Uncached

namespace Karst

open Guarded

variable {σ : Type} {P : Block → Prop}

def Script.Only (P : Block → Prop) : Script σ → Prop
  | .done => True
  | .set _ block rest => P block ∧ rest.Only P
  | .writes rest => rest.Only P
  | .branch _ body rest => body.Only P ∧ rest.Only P

def Forest.Only (P : Block → Prop) : Forest σ → Prop
  | .none => True
  | .tree _ sets branches rest => (∀ w ∈ sets, P w.2) ∧ branches.Only P ∧ rest.Only P

def Script.All (Q : BlockPos → Block → Prop) : Script σ → Prop
  | .done => True
  | .set p block rest => Q p block ∧ rest.All Q
  | .writes rest => rest.All Q
  | .branch _ body rest => body.All Q ∧ rest.All Q

def Forest.All (Q : BlockPos → Block → Prop) : Forest σ → Prop
  | .none => True
  | .tree _ sets branches rest => (∀ w ∈ sets, Q w.1 w.2) ∧ branches.All Q ∧ rest.All Q

theorem Script.only_iff_all {script : Script σ} : script.Only P ↔ script.All fun _ => P := by
  induction script with
  | done => exact Iff.rfl
  | set p block rest ih => exact and_congr_right' ih
  | writes rest ih => exact ih
  | branch seed body rest bodyIh restIh => exact and_congr bodyIh restIh

theorem Forest.only_iff_all {forest : Forest σ} : forest.Only P ↔ forest.All fun _ => P := by
  induction forest with
  | none => exact Iff.rfl
  | tree seed sets branches rest branchesIh restIh =>
    exact and_congr_right' (and_congr branchesIh restIh)

namespace Script.All

variable {Q : BlockPos → Block → Prop} {script : Script σ}

theorem sets (all : script.All Q) : ∀ w ∈ script.sets, Q w.1 w.2 := by
  induction script with
  | done => simp [Script.sets]
  | set p block rest ih =>
    intro w member
    rcases List.mem_cons.1 member with rfl | later
    · exact all.1
    · exact ih all.2 w later
  | writes rest ih => exact ih all
  | branch seed body rest _ ih => exact ih all.2

theorem branches (all : script.All Q) : script.branches.All Q := by
  induction script with
  | done => trivial
  | set p block rest ih => exact ih all.2
  | writes rest ih => exact ih all
  | branch seed body rest bodyIh restIh => exact ⟨all.1.sets, bodyIh all.1, restIh all.2⟩

end Script.All

namespace Script.Only

variable {script : Script σ}

theorem sets (only : script.Only P) : ∀ w ∈ script.sets, P w.2 :=
  (only_iff_all.1 only).sets

theorem branches (only : script.Only P) : script.branches.Only P :=
  Forest.only_iff_all.2 (only_iff_all.1 only).branches

end Script.Only

namespace Forest.Only

variable {forest more : Forest σ}

theorem beside (only : forest.Only P) (moreOnly : more.Only P) : (forest.beside more).Only P := by
  induction forest with
  | none => exact moreOnly
  | tree seed sets branches rest _ restIh => exact ⟨only.1, only.2.1, restIh only.2.2⟩

theorem of_mem_buckets (only : forest.Only P) {target : CubeCoord} {bucket : OpBucket}
    (member : bucket ∈ forest.buckets target) : ∀ op ∈ bucket.ops, P op.block := by
  induction forest with
  | none => cases member
  | tree seed sets branches rest branchesIh restIh =>
    rw [Forest.buckets, List.mem_append, List.mem_append, Option.mem_toList] at member
    rcases member with (own | inner) | outer
    · exact forall_ops_bucketOf (fun w wMember _ _ block => block ▸ only.1 w wMember) own
    · exact branchesIh only.2.1 inner
    · exact restIh only.2.2 outer

end Forest.Only

def Generator.Writes (generator : Generator σ) (world : World) (P : Block → Prop) : Prop :=
  ∀ (cube : CubeCoord) (list : Array σ), generator.seedsOf world cube = .ok list →
    ∀ seed ∈ list, ∀ script, generator.materialise world seed = .ok script → script.Only P

theorem Generator.Writes.grow {generator : Generator σ} {world : World}
    (writes : generator.Writes world P) {cube : CubeCoord} {list : Array σ} {forest : Forest σ}
    (found : generator.seedsOf world cube = .ok list)
    (grown : generator.grow world list.toList = .ok forest) : forest.Only P := by
  refine foldlM_invariant (P := Forest.Only P) grown trivial ?_
  intro seed member forest next only made
  obtain ⟨script, built, made⟩ := bind_eq_ok_iff.1 made
  cases made
  have blocks := writes cube list found seed (by simpa using member) script built
  exact only.beside ⟨blocks.sets, blocks.branches, trivial⟩

end Karst
