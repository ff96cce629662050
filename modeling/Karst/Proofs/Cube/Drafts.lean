import Karst.Proofs.Cube.Voxels

/-!
Cubes through any writing and copying, beside the flat arrays that are written alongside. What is read
of a cube is what its array holds, and its storage is decided by how many blocks it has ever held.
-/

namespace Karst

open Guarded

def Block.bytes (b : Block) : List UInt8 :=
  [b.id.toUInt8, (b.id >>> 8).toUInt8, b.state.toUInt8, (b.state >>> 8).toUInt8]

/-- How a cube is stored that has held `count` different blocks. -/
def StorageKind.forCount (count : Nat) : StorageKind :=
  if count ≤ 1 then .uniform else if count ≤ Palette.capacity then .palette count else .dense

namespace Palette

theorem insert_cases (p : Palette) (b : Block) :
    (∃ i, p.insert b = (.existing i, p) ∧ b ∈ p.entries) ∨
    (∃ i, p.insert b = (.added i, ⟨p.entries.push b⟩)) ∨
    (p.insert b = (.full, p) ∧ b ∉ p.entries ∧ capacity ≤ p.size) := by
  unfold insert
  cases found : p.entries.idxOf? b with
  | some i =>
    refine .inl ⟨_, rfl, ?_⟩
    by_contra missing
    rw [Array.idxOf?_eq_none_iff.2 missing] at found
    cases found
  | none =>
    by_cases full : capacity ≤ p.entries.size
    · exact .inr (.inr ⟨if_pos full, Array.idxOf?_eq_none_iff.1 found, full⟩)
    · exact .inr (.inl ⟨_, if_neg full⟩)

theorem WellFormed.card_toFinset {p : Palette} (wf : p.WellFormed) :
    p.entries.toList.toFinset.card = p.size := by
  rw [List.toFinset_card_of_nodup wf.nodup, Array.length_toList, size]

end Palette

namespace Cube

/-- The storage knows the blocks that were written, until there are too many. -/
def Knows (written : Finset Block) (c : Cube) : Prop :=
  match c.storage with
  | .uniform b => written = {b}
  | .indexed palette _ => written = palette.entries.toList.toFinset ∧ 2 ≤ palette.size
  | .dense _ => Palette.capacity < written.card

theorem kind_eq {c : Cube} {written : Finset Block} (wf : c.WellFormed) (knows : c.Knows written) :
    c.kind = .forCount written.card := by
  obtain ⟨coord, storage⟩ := c
  cases storage with
  | uniform b =>
    obtain rfl : written = {b} := knows
    simp [kind, StorageKind.forCount]
  | indexed palette indices =>
    obtain ⟨palWf, _, _⟩ := wf
    obtain ⟨rfl, several⟩ := knows
    have fits : palette.size ≤ Palette.capacity := palWf.fits
    rw [palWf.card_toFinset, kind, StorageKind.forCount, if_neg (by omega), if_pos fits]
  | dense blocks =>
    have many : Palette.capacity < written.card := knows
    simp only [Palette.capacity] at many
    rw [kind, StorageKind.forCount, if_neg (by omega), if_neg (by simp only [Palette.capacity]; omega)]

theorem Knows.setIndex {c after : Cube} {written : Finset Block} (wf : c.WellFormed)
    (knows : c.Knows written) {i : Nat} {b : Block} (done : c.setIndex i b = .ok after) :
    after.Knows (insert b written) := by
  obtain ⟨coord, storage⟩ := c
  cases storage with
  | uniform fill =>
    obtain rfl : written = {fill} := knows
    simp only [Cube.setIndex] at done
    split at done
    case isTrue same =>
      cases done
      simp [Knows, same]
    case isFalse different =>
      rw [Palette.insert_singleton different] at done
      obtain ⟨indices, _, same⟩ := bind_eq_ok_iff.1 done
      cases same
      simp [Knows, Palette.size, Finset.pair_comm]
  | indexed palette indices =>
    obtain ⟨palWf, _, _⟩ := wf
    obtain ⟨rfl, several⟩ := knows
    simp only [Cube.setIndex] at done
    rcases palette.insert_cases b with ⟨p, found, member⟩ | ⟨p, added⟩ | ⟨full, missing, whole⟩
    · rw [found] at done
      obtain ⟨indices, _, same⟩ := bind_eq_ok_iff.1 done
      cases same
      have listed : b ∈ palette.entries.toList.toFinset := by simpa using member
      exact ⟨Finset.insert_eq_of_mem listed, several⟩
    · rw [added] at done
      obtain ⟨indices, _, same⟩ := bind_eq_ok_iff.1 done
      cases same
      constructor
      · ext other
        simp
      · simp only [Palette.size, Array.size_push] at several ⊢
        omega
    · rw [full] at done
      obtain ⟨blocks, _, done⟩ := bind_eq_ok_iff.1 done
      obtain ⟨blocks, _, same⟩ := bind_eq_ok_iff.1 done
      cases same
      have unlisted : b ∉ palette.entries.toList.toFinset := by simpa using missing
      simp only [Knows, Finset.card_insert_of_notMem unlisted, palWf.card_toFinset]
      omega
  | dense blocks =>
    obtain ⟨blocks, _, same⟩ := bind_eq_ok_iff.1 done
    cases same
    have many : Palette.capacity < written.card := knows
    exact many.trans_le (Finset.card_le_card (Finset.subset_insert b written))

theorem checksum_eq (c : Cube) :
    c.checksum = (c.toArray.toList.flatMap Block.bytes).foldl Fnv.byte Fnv.start := by
  rw [checksum, ← Array.foldl_toList, List.foldl_flatMap]
  rfl

theorem mapM_getIndex {c : Cube} (wf : c.WellFormed) :
    (Array.range cubeVolume).mapM c.getIndex = .ok c.toArray := by
  have each : ∀ i ∈ Array.range cubeVolume, c.getIndex i = .ok (c.toArray.getD i .air) :=
    fun i member => getIndex_eq wf (Array.mem_range.1 member)
  rw [mapM_eq_ok each]
  congr 1
  apply Array.ext
  · simp [size_toArray wf]
  · intro i _ bound
    simp [bound]

end Cube

/-- A cube, the array that has been given the same writes, and every block that either ever held. -/
structure Draft where
  cube : Cube
  flat : Array Block
  written : Finset Block

inductive DraftCall where
  | filled (coord : CubeCoord) (b : Block)
  | ofBlocks (coord : CubeCoord) (blocks : List Block)
  | clone (k : Nat)
  | set (k : Nat) (p : LocalPos) (b : Block)
  | setIndex (k : Nat) (i : Nat) (b : Block)

def DraftCall.Within : DraftCall → Prop
  | .filled .. => True
  | .ofBlocks .. => True
  | .clone _ => True
  | .set _ p _ => p.index < cubeVolume
  | .setIndex _ i _ => i < cubeVolume

namespace Draft

def filled (coord : CubeCoord) (b : Block) : Draft :=
  ⟨.filled coord b, Array.replicate cubeVolume b, {b}⟩

def overlay (blocks : List Block) : Array Block :=
  Array.ofFn fun i : Fin cubeVolume => blocks.getD i .air

def ofBlocks (coord : CubeCoord) (blocks : List Block) : Guarded Draft := do
  return ⟨← Cube.ofBlocks coord blocks, overlay blocks,
    insert .air (blocks.take cubeVolume).toFinset⟩

def set (d : Draft) (p : LocalPos) (b : Block) : Guarded Draft := do
  return ⟨← d.cube.set p b, d.flat.setIfInBounds p.index b, insert b d.written⟩

def setIndex (d : Draft) (i : Nat) (b : Block) : Guarded Draft := do
  return ⟨← d.cube.setIndex i b, d.flat.setIfInBounds i b, insert b d.written⟩

def edit (drafts : List Draft) (k : Nat) (change : Draft → Guarded Draft) :
    Guarded (List Draft) :=
  match drafts[k]? with
  | some d => do return drafts.set k (← change d)
  | none => return drafts

def call (drafts : List Draft) : DraftCall → Guarded (List Draft)
  | .filled coord b => return drafts ++ [.filled coord b]
  | .ofBlocks coord blocks => do return drafts ++ [← Draft.ofBlocks coord blocks]
  | .clone k => return drafts ++ drafts[k]?.toList
  | .set k p b => edit drafts k fun d => d.set p b
  | .setIndex k i b => edit drafts k fun d => d.setIndex i b

def after (history : List DraftCall) : Guarded (List Draft) := history.foldlM call []

structure Faithful (d : Draft) : Prop where
  wellFormed : d.cube.WellFormed
  flat : d.cube.toArray = d.flat
  knows : d.cube.Knows d.written

theorem faithful_filled (coord : CubeCoord) (b : Block) : (filled coord b).Faithful :=
  ⟨trivial, rfl, rfl⟩

theorem Faithful.write {d : Draft} (faithful : d.Faithful) {i : Nat} (bound : i < cubeVolume)
    (b : Block) : ∃ cube, d.cube.setIndex i b = .ok cube ∧
      Faithful ⟨cube, d.flat.setIfInBounds i b, insert b d.written⟩ := by
  obtain ⟨cube, done, wf, _, blocks⟩ := Cube.setIndex_spec faithful.wellFormed bound b
  refine ⟨cube, done, wf, ?_, faithful.knows.setIndex faithful.wellFormed done⟩
  rw [blocks, faithful.flat]

theorem Faithful.set {d : Draft} (faithful : d.Faithful) {p : LocalPos}
    (bound : p.index < cubeVolume) (b : Block) : ∃ next, d.set p b = .ok next ∧ next.Faithful := by
  obtain ⟨cube, done, kept⟩ := faithful.write bound b
  exact ⟨_, by rw [Draft.set, Cube.set, done, ok_bind, pure_eq], kept⟩

theorem Faithful.setIndex {d : Draft} (faithful : d.Faithful) {i : Nat} (bound : i < cubeVolume)
    (b : Block) : ∃ next, d.setIndex i b = .ok next ∧ next.Faithful := by
  obtain ⟨cube, done, kept⟩ := faithful.write bound b
  exact ⟨_, by rw [Draft.setIndex, done, ok_bind, pure_eq], kept⟩

/-! ## Lists of blocks -/

@[simp] theorem size_overlay (blocks : List Block) : (overlay blocks).size = cubeVolume := by
  simp [overlay]

theorem overlay_nil : overlay [] = Array.replicate cubeVolume .air := by
  apply Array.ext
  · simp
  · intro i _ _
    simp [overlay]

theorem overlay_take (blocks : List Block) :
    overlay (blocks.take cubeVolume) = overlay blocks := by
  apply Array.ext
  · simp
  · intro i _ _
    simp [overlay, List.getD_eq_getElem?_getD]

theorem overlay_concat (blocks : List Block) (b : Block) :
    overlay (blocks ++ [b]) = (overlay blocks).setIfInBounds blocks.length b := by
  apply Array.ext
  · simp
  · intro i _ bound
    rw [Array.size_setIfInBounds] at bound
    rw [Array.getElem_setIfInBounds bound]
    simp only [overlay, Array.getElem_ofFn, List.getD_eq_getElem?_getD, List.getElem?_append,
      List.getElem?_singleton]
    split
    case isTrue early => rw [if_neg (by omega)]
    case isFalse late =>
      by_cases here : blocks.length = i
      · simp [here]
      · simp [here, show i - blocks.length ≠ 0 by omega, show blocks[i]? = none by simpa using late]

theorem exists_overlay (coord : CubeCoord) {blocks : List Block}
    (fits : blocks.length ≤ cubeVolume) :
    ∃ cube, blocks.zipIdx.foldlM (fun c (b, i) => c.setIndex i b) (Cube.empty coord) = .ok cube ∧
      Faithful ⟨cube, overlay blocks, insert .air blocks.toFinset⟩ := by
  induction blocks using List.reverseRecOn with
  | nil =>
    refine ⟨_, rfl, ?_⟩
    rw [overlay_nil]
    exact faithful_filled coord .air
  | append_singleton blocks b ih =>
    rw [List.length_append, List.length_singleton] at fits
    obtain ⟨cube, earlier, kept⟩ := ih (by omega)
    obtain ⟨next, done, kept⟩ := kept.write (show blocks.length < cubeVolume by omega) b
    have written : insert Block.air (blocks ++ [b]).toFinset =
        insert b (insert .air blocks.toFinset) := by
      ext other
      simp
      tauto
    refine ⟨next, ?_, ?_⟩
    · rw [List.zipIdx_append, List.foldlM_append, earlier, ok_bind, Nat.zero_add]
      simp only [List.zipIdx_singleton, List.foldlM_cons, List.foldlM_nil, bind_pure]
      exact done
    · simpa only [overlay_concat, written] using kept

theorem exists_ofBlocks (coord : CubeCoord) (blocks : List Block) :
    ∃ d, ofBlocks coord blocks = .ok d ∧ d.Faithful := by
  obtain ⟨cube, done, kept⟩ := exists_overlay coord (List.length_take_le cubeVolume blocks)
  rw [overlay_take] at kept
  refine ⟨_, ?_, kept⟩
  rw [ofBlocks, Cube.ofBlocks, done, ok_bind, pure_eq]

/-! ## Runs -/

theorem edit_eq (drafts : List Draft) (k : Nat) (change : Draft → Guarded Draft) :
    edit drafts k change = editAt drafts k change := by
  unfold edit editAt
  cases drafts[k]? <;> rfl

theorem exists_edit {drafts : List Draft} (faithful : ∀ d ∈ drafts, d.Faithful) (k : Nat)
    {change : Draft → Guarded Draft}
    (changes : ∀ d : Draft, d.Faithful → ∃ next, change d = .ok next ∧ next.Faithful) :
    ∃ next, edit drafts k change = .ok next ∧ ∀ d ∈ next, d.Faithful := by
  rw [edit_eq]
  exact exists_editAt faithful k changes

theorem exists_call {drafts : List Draft} (faithful : ∀ d ∈ drafts, d.Faithful) {made : DraftCall}
    (within : made.Within) : ∃ next, call drafts made = .ok next ∧ ∀ d ∈ next, d.Faithful := by
  have added {d : Draft} (kept : d.Faithful) : ∀ other ∈ drafts ++ [d], other.Faithful := by
    intro other member
    rcases List.mem_append.1 member with old | new
    · exact faithful other old
    · exact List.mem_singleton.1 new ▸ kept
  cases made with
  | filled coord b => exact ⟨_, rfl, added (faithful_filled coord b)⟩
  | ofBlocks coord blocks =>
    obtain ⟨d, done, kept⟩ := exists_ofBlocks coord blocks
    exact ⟨drafts ++ [d], by simp only [call, done, ok_bind, pure_eq], added kept⟩
  | clone k =>
    refine ⟨_, rfl, ?_⟩
    cases found : drafts[k]? with
    | none => simpa using faithful
    | some d => exact added (faithful d (List.mem_of_getElem? found))
  | set k p b => exact exists_edit faithful k fun d kept => kept.set within b
  | setIndex k i b => exact exists_edit faithful k fun d kept => kept.setIndex within b

theorem exists_after {history : List DraftCall} (within : ∀ made ∈ history, made.Within) :
    ∃ drafts, after history = .ok drafts ∧ ∀ d ∈ drafts, d.Faithful := by
  unfold after
  refine exists_foldlM (fun d member => (List.not_mem_nil member).elim) ?_
  intro made member drafts faithful
  exact exists_call faithful (within made member)

structure Answers (c : Cube) (flat : Array Block) : Prop where
  size : flat.size = cubeVolume
  index : ∀ i < cubeVolume, c.getIndex i = .ok (flat.getD i .air)
  position : ∀ p : LocalPos, p.index < cubeVolume → c.get p = .ok (flat.getD p.index .air)
  inTurn : (Array.range cubeVolume).mapM c.getIndex = .ok flat
  listed : c.toArray = flat
  counted : ∀ keep, c.count keep = flat.countP keep
  summed : c.checksum = (flat.toList.flatMap Block.bytes).foldl Fnv.byte Fnv.start

theorem Faithful.answers {d : Draft} (faithful : d.Faithful) : Answers d.cube d.flat := by
  have wf := faithful.wellFormed
  rw [← faithful.flat]
  exact ⟨Cube.size_toArray wf, fun i bound => Cube.getIndex_eq wf bound,
    fun p bound => Cube.getIndex_eq wf bound, Cube.mapM_getIndex wf, rfl, Cube.count_eq d.cube,
    Cube.checksum_eq d.cube⟩

theorem cubes_after {history : List DraftCall} (within : ∀ made ∈ history, made.Within) :
    ∃ drafts, after history = .ok drafts ∧ ∀ d ∈ drafts,
      Answers d.cube d.flat ∧ d.cube.WellFormed ∧ d.cube.kind = .forCount d.written.card := by
  obtain ⟨drafts, run, faithful⟩ := exists_after within
  refine ⟨drafts, run, ?_⟩
  intro d member
  have kept := faithful d member
  exact ⟨kept.answers, kept.wellFormed, Cube.kind_eq kept.wellFormed kept.knows⟩

def hollowed : List DraftCall := [.filled ⟨0, 0, 0⟩ .stone, .clone 0, .set 1 ⟨1, 2, 3⟩ .air]

theorem cubes_after_hollowed : (∀ made ∈ hollowed, made.Within) ∧
    ∃ whole hollow, after hollowed = .ok [whole, hollow] ∧ whole.cube.kind = .uniform ∧
      hollow.cube.kind = .palette 2 ∧ hollow.cube.get ⟨1, 2, 3⟩ = .ok .air ∧
      hollow.cube.get ⟨3, 2, 1⟩ = .ok .stone := by
  have within : ∀ made ∈ hollowed, made.Within := by
    simp [hollowed, DraftCall.Within, LocalPos.index, cubeSize, cubeVolume]
  obtain ⟨drafts, run, sound⟩ := cubes_after within
  let whole : Draft := filled ⟨0, 0, 0⟩ .stone
  obtain ⟨cube, done, _⟩ := (faithful_filled ⟨0, 0, 0⟩ .stone).write (i := 561) (by decide) .air
  let hollow : Draft := ⟨cube, whole.flat.setIfInBounds 561 .air, {.air, .stone}⟩
  have copied : whole.set ⟨1, 2, 3⟩ .air = .ok hollow := bind_eq_ok_iff.2 ⟨cube, done, rfl⟩
  have made : after hollowed = .ok [whole, hollow] := by
    have last : call [whole, whole] (.set 1 ⟨1, 2, 3⟩ .air) = .ok [whole, hollow] :=
      bind_eq_ok_iff.2 ⟨hollow, copied, rfl⟩
    have early : after hollowed = call [whole, whole] (.set 1 ⟨1, 2, 3⟩ .air) >>= pure := rfl
    rw [early, last, ok_bind, pure_eq]
  obtain rfl : drafts = [whole, hollow] := Except.ok.inj (run.symm.trans made)
  obtain ⟨_, _, kind⟩ := sound whole (by simp)
  obtain ⟨answers, _, hollowKind⟩ := sound hollow (by simp)
  refine ⟨within, whole, hollow, made, kind, hollowKind, ?_, ?_⟩
  · rw [answers.position _ (by decide)]
    simp [hollow, whole, filled, LocalPos.index, cubeSize, cubeVolume]
  · rw [answers.position _ (by decide)]
    simp [hollow, whole, filled, LocalPos.index, cubeSize, cubeVolume]

end Draft

end Karst
