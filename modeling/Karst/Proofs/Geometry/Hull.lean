import Karst.Proofs.Geometry.Key
import Karst.Proofs.Geometry.Neighborhood

namespace Karst.CubeBox

open Guarded

variable {box a b : CubeBox} {cubes : Set CubeCoord} {c : CubeCoord}

def cells (box : CubeBox) : Set CubeCoord := {c | box.contains c}

/-- No corner coordinate is past the opposite one. -/
def Proper (box : CubeBox) : Prop := ∀ axis, box.lower.along axis ≤ box.upper.along axis

def coverings (cubes : Set CubeCoord) : Set (Set CubeCoord) :=
  {region | region ∈ Set.range cells ∧ cubes ⊆ region}

theorem proper_iff : box.Proper ↔ box.lower.x.toInt ≤ box.upper.x.toInt ∧
    box.lower.y.toInt ≤ box.upper.y.toInt ∧ box.lower.z.toInt ≤ box.upper.z.toInt := by
  simp only [Proper, Int32.le_iff_toInt_le]
  constructor
  · intro proper
    exact ⟨proper .x, proper .y, proper .z⟩
  · rintro ⟨x, y, z⟩ axis
    cases axis <;> assumption

theorem proper_of_contains (holds : box.contains c) : box.Proper := by
  rw [contains_iff] at holds
  rw [proper_iff]
  omega

theorem Proper.contains_corners (proper : box.Proper) :
    box.contains box.lower ∧ box.contains box.upper := by
  simp only [proper_iff, contains_iff] at proper ⊢
  omega

/-! ## Least boxes -/

theorem Proper.around (proper : box.Proper) : box.Around box.cells := by
  constructor
  · exact fun c member => member
  · intro other holds
    obtain ⟨lower, upper⟩ := proper.contains_corners
    exact ⟨holds _ lower, holds _ upper⟩

theorem Around.proper (around : box.Around cubes) (member : c ∈ cubes) : box.Proper :=
  proper_of_contains (around.covers c member)

theorem Around.isLeast (around : box.Around cubes) : IsLeast (coverings cubes) box.cells := by
  constructor
  · exact ⟨⟨box, rfl⟩, around.covers⟩
  · rintro _ ⟨⟨other, rfl⟩, covers⟩ c member
    obtain ⟨lower, upper⟩ := around.least other covers
    exact contains_of_corners lower upper member

theorem around_spanning (a b : CubeCoord) : (spanning a b).Around {a, b} := by
  rw [Set.pair_comm]
  exact (around_point a).extend b

theorem spanning_comm (a b : CubeCoord) : spanning a b = spanning b a := by
  have swapped := around_spanning b a
  rw [Set.pair_comm] at swapped
  exact (around_spanning a b).unique swapped

theorem Around.foldl_extend (around : box.Around cubes) (list : List CubeCoord) :
    (list.foldl CubeBox.extend box).Around (cubes ∪ {c | c ∈ list}) := by
  induction list generalizing box cubes with
  | nil => simpa using around
  | cons c list ih =>
    have rest := ih (around.extend c)
    have same : insert c cubes ∪ {d | d ∈ list} = cubes ∪ {d | d ∈ c :: list} := by
      ext d
      simp only [Set.mem_union, Set.mem_insert_iff, Set.mem_ofPred_eq, List.mem_cons]
      tauto
    rwa [same] at rest

theorem Proper.foldl_extend_eq (proper : box.Proper) {list other : List CubeCoord}
    (same : ∀ c, c ∈ list ↔ c ∈ other) : list.foldl extend box = other.foldl extend box := by
  have sets : {c | c ∈ list} = {c | c ∈ other} := Set.ext same
  have first := proper.around.foldl_extend list
  rw [sets] at first
  exact first.unique (proper.around.foldl_extend other)

/-! ## Common cubes -/

theorem intersects_iff (a b : CubeBox) : a.intersects b ↔
    (a.lower.x.toInt ≤ b.upper.x.toInt ∧ b.lower.x.toInt ≤ a.upper.x.toInt) ∧
    (a.lower.y.toInt ≤ b.upper.y.toInt ∧ b.lower.y.toInt ≤ a.upper.y.toInt) ∧
    (a.lower.z.toInt ≤ b.upper.z.toInt ∧ b.lower.z.toInt ≤ a.upper.z.toInt) := by
  simp [intersects, Int32.le_iff_toInt_le, and_assoc]

theorem intersects_iff_nonempty (properA : a.Proper) (properB : b.Proper) :
    a.intersects b ↔ (a.cells ∩ b.cells).Nonempty := by
  rw [proper_iff] at properA properB
  rw [intersects_iff]
  constructor
  · intro meet
    refine ⟨⟨max a.lower.x b.lower.x, max a.lower.y b.lower.y, max a.lower.z b.lower.z⟩, ?_, ?_⟩
    · apply (contains_iff ..).2
      simp only [toInt_max]
      omega
    · apply (contains_iff ..).2
      simp only [toInt_max]
      omega
  · rintro ⟨c, inA, inB⟩
    have inA := (contains_iff ..).1 inA
    have inB := (contains_iff ..).1 inB
    omega

/-! ## Volume -/

theorem ncard_cells (box : CubeBox) : box.cells.ncard = box.cubes.length := by
  have listed : box.cells = ↑box.cubes.toFinset := by
    ext c
    simp [cells, mem_cubes]
  rw [listed, Set.ncard_coe_finset,
    List.toFinset_card_of_nodup (CubeCoord.rising_cubes box).nodup]

theorem volume_eq_ok_iff (proper : box.Proper) {v : UInt64} :
    box.volume = .ok v ↔ v.toNat = box.cells.ncard := by
  rw [ncard_cells, length_cubes]
  simp only [volume, bind_eq_ok_iff, Checked.uint64_eq_ok_iff]
  constructor
  · rintro ⟨face, area, whole⟩
    rw [whole, area]
  · intro whole
    -- A proper box has some depth, so its face fits a word if its volume does.
    have deep : 1 ≤ extent box.lower.z box.upper.z := by
      rw [proper_iff] at proper
      rw [extent]
      omega
    have small : extent box.lower.x box.upper.x * extent box.lower.y box.upper.y < 2 ^ 64 := by
      calc
        _ ≤ extent box.lower.x box.upper.x * extent box.lower.y box.upper.y *
            extent box.lower.z box.upper.z := Nat.le_mul_of_pos_right _ deep
        _ = v.toNat := whole.symm
        _ < 2 ^ 64 := v.toNat_lt
    have area := UInt64.toNat_ofNat_of_lt' small
    exact ⟨_, area, by rw [area, whole]⟩

theorem extent_le {lower upper : Int32} (low : PackableAxis lower) (high : PackableAxis upper) :
    extent lower upper ≤ 2 ^ 21 := by
  have := low.1
  have := high.2
  rw [extent]
  omega

theorem ncard_cells_le (lower : box.lower.Packable) (upper : box.upper.Packable) :
    box.cells.ncard ≤ 2 ^ 63 := by
  rw [ncard_cells, length_cubes]
  calc
    _ ≤ 2 ^ 21 * 2 ^ 21 * 2 ^ 21 :=
      Nat.mul_le_mul (Nat.mul_le_mul (extent_le (lower .x) (upper .x))
        (extent_le (lower .y) (upper .y))) (extent_le (lower .z) (upper .z))
    _ = 2 ^ 63 := by norm_num

theorem exists_volume (proper : box.Proper) (lower : box.lower.Packable)
    (upper : box.upper.Packable) : ∃ v, box.volume = .ok v ∧ v.toNat = box.cells.ncard := by
  have bound := ncard_cells_le lower upper
  have count : (UInt64.ofNat box.cells.ncard).toNat = box.cells.ncard :=
    UInt64.toNat_ofNat_of_lt' (by rw [UInt64.size]; omega)
  exact ⟨_, (volume_eq_ok_iff proper).2 count, count⟩

/-- The operations on boxes, read on the sets of their cubes. What a run of extensions gives depends
on which cubes were added, not on how often or in which order. -/
theorem boxes_as_sets :
    (∀ a b : CubeCoord, (spanning a b).Proper ∧ spanning a b = spanning b a ∧
      IsLeast (coverings {a, b}) (spanning a b).cells) ∧
    (∀ box : CubeBox, box.Proper → ∀ c, (box.extend c).Proper ∧
      IsLeast (coverings (insert c box.cells)) (box.extend c).cells) ∧
    (∀ a b : CubeBox, a.Proper → b.Proper → (a.union b).Proper ∧
      IsLeast (coverings (a.cells ∪ b.cells)) (a.union b).cells) ∧
    (∀ box : CubeBox, box.Proper → ∀ list : List CubeCoord,
      IsLeast (coverings (box.cells ∪ {c | c ∈ list})) (list.foldl extend box).cells ∧
      ∀ other : List CubeCoord, (∀ c, c ∈ list ↔ c ∈ other) →
        list.foldl extend box = other.foldl extend box) ∧
    (∀ a b : CubeBox, a.Proper → b.Proper → (a.intersects b ↔ (a.cells ∩ b.cells).Nonempty)) ∧
    ∀ box : CubeBox, box.Proper → box.lower.Packable → box.upper.Packable →
      ∃ v, box.volume = .ok v ∧ v.toNat = box.cells.ncard := by
  refine ⟨fun a b => ?_, fun box proper c => ?_, fun a b properA properB => ?_,
    fun box proper list => ?_, fun a b => intersects_iff_nonempty, fun box => exists_volume⟩
  · have around := around_spanning a b
    exact ⟨around.proper (.inl rfl), spanning_comm a b, around.isLeast⟩
  · have around := proper.around.extend c
    exact ⟨around.proper (.inl rfl), around.isLeast⟩
  · have around := properA.around.union properB.around
    exact ⟨around.proper (.inl properA.contains_corners.1), around.isLeast⟩
  · exact ⟨(proper.around.foldl_extend list).isLeast, fun other => proper.foldl_extend_eq⟩

theorem boxes_as_sets_at_the_edges :
    let packed := spanning ⟨1048575, -1048576, 1048575⟩ ⟨-1048576, 1048575, -1048576⟩
    let beyond := spanning ⟨1048575, 1048575, -1048576⟩ ⟨2147483647, 1048576, -2147483648⟩
    packed.Proper ∧ IsLeast (coverings (packed.cells ∪ beyond.cells)) (packed.union beyond).cells ∧
      (packed.cells ∩ beyond.cells).Nonempty ∧
      (∃ v, packed.volume = .ok v ∧ v.toNat = packed.cells.ncard) ∧
      [⟨5, 0, 0⟩, ⟨7, -9, 2⟩, ⟨5, 0, 0⟩].foldl extend beyond =
        [⟨7, -9, 2⟩, ⟨5, 0, 0⟩].foldl extend beyond := by
  intro packed beyond
  obtain ⟨spans, _, unions, runs, meet, volumes⟩ := boxes_as_sets
  have properPacked : packed.Proper := (spans _ _).1
  have properBeyond : beyond.Proper := (spans _ _).1
  refine ⟨properPacked, (unions _ _ properPacked properBeyond).2,
    (meet _ _ properPacked properBeyond).1 (by decide),
    volumes _ properPacked (by decide) (by decide), (runs _ properBeyond _).2 _ ?_⟩
  intro c
  simp only [List.mem_cons, List.not_mem_nil]
  tauto

end Karst.CubeBox
