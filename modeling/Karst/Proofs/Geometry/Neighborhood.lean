import Karst.Geometry.Box
import Karst.Proofs.Geometry.Axis
import Karst.Proofs.Geometry.Bounds
import Karst.Proofs.Geometry.Order
import Karst.Proofs.Geometry.Position

namespace Karst

open Guarded

namespace CubeBox

variable {lower upper : Int32}

theorem toInt_axis (lower upper : Int32) (i : Nat) (below : i < extent lower upper) :
    (Int32.ofInt (lower.toInt + Int.ofNat i)).toInt = lower.toInt + i := by
  have low := lower.le_toInt
  have high := upper.toInt_lt
  simp only [extent] at below
  exact Int32.toInt_ofInt_of_le (by simp; omega) (by simp; omega)

theorem mem_axis {n : Int32} :
    n ∈ axis lower upper ↔ lower.toInt ≤ n.toInt ∧ n.toInt ≤ upper.toInt := by
  rw [axis, List.mem_map]
  constructor
  · rintro ⟨i, member, rfl⟩
    have below := List.mem_range.1 member
    rw [toInt_axis lower upper i below]
    simp only [extent] at below
    omega
  · rintro ⟨low, high⟩
    have below : (n.toInt - lower.toInt).toNat < extent lower upper := by
      simp only [extent]
      omega
    refine ⟨_, List.mem_range.2 below, Int32.toInt_inj.1 ?_⟩
    rw [toInt_axis lower upper _ below]
    omega

theorem pairwise_axis (lower upper : Int32) : (axis lower upper).Pairwise (· < ·) := by
  rw [axis, List.pairwise_map]
  apply List.pairwise_lt_range.imp_of_mem
  intro i j first second less
  rw [Int32.lt_iff_toInt_lt, toInt_axis lower upper i (List.mem_range.1 first),
    toInt_axis lower upper j (List.mem_range.1 second)]
  omega

theorem mem_cubes {box : CubeBox} {c : CubeCoord} : c ∈ box.cubes ↔ box.contains c := by
  simp only [cubes, List.mem_flatMap, List.mem_map, mem_axis, contains_iff]
  constructor
  · rintro ⟨x, inX, y, inY, z, inZ, rfl⟩
    exact ⟨inX, inY, inZ⟩
  · rintro ⟨inX, inY, inZ⟩
    exact ⟨c.x, inX, c.y, inY, c.z, inZ, rfl⟩

theorem length_axis (lower upper : Int32) : (axis lower upper).length = extent lower upper := by
  rw [axis, List.length_map, List.length_range]

theorem length_cubes (box : CubeBox) : box.cubes.length =
    extent box.lower.x box.upper.x * extent box.lower.y box.upper.y *
      extent box.lower.z box.upper.z := by
  simp only [cubes, List.length_flatMap, List.length_map, length_axis, List.map_const',
    List.sum_replicate, smul_eq_mul, Nat.mul_assoc]

end CubeBox

namespace CubeCoord

theorem compare_lt_of_x {a b : CubeCoord} (less : a.x < b.x) : compare a b = .lt := by
  simp [compare_eq, compareLex, compareOn, Std.compare_eq_lt.2 less]

theorem compare_lt_of_y {a b : CubeCoord} (x : a.x = b.x) (less : a.y < b.y) :
    compare a b = .lt := by
  simp [compare_eq, compareLex, compareOn, x, Std.compare_eq_lt.2 less]

theorem compare_lt_of_z {a b : CubeCoord} (x : a.x = b.x) (y : a.y = b.y) (less : a.z < b.z) :
    compare a b = .lt := by
  simp [compare_eq, compareLex, compareOn, x, y, Std.compare_eq_lt.2 less]

def Rising (list : List CubeCoord) : Prop := list.Pairwise fun a b => compare a b = .lt

theorem Rising.nodup {list : List CubeCoord} (rising : Rising list) : list.Nodup := by
  apply rising.imp
  intro a b less same
  subst same
  have equal : compare a a = .eq := Std.ReflCmp.compare_self
  rw [equal] at less
  cases less

theorem Rising.eq {first second : List CubeCoord} (rising : Rising first) (other : Rising second)
    (same : ∀ c, c ∈ first ↔ c ∈ second) : first = second := by
  apply List.Perm.eq_of_pairwise _ rising other
  · exact (List.perm_ext_iff_of_nodup rising.nodup other.nodup).2 same
  · intro a b _ _ less more
    have greater : compare a b = .gt := Std.OrientedCmp.gt_of_lt more
    rw [less] at greater
    cases greater

theorem rising_cubes (box : CubeBox) : Rising box.cubes := by
  apply List.pairwise_flatMap.2
  constructor
  · intro x _
    apply List.pairwise_flatMap.2
    constructor
    · intro y _
      apply List.pairwise_map.2
      apply (CubeBox.pairwise_axis ..).imp
      intro a b less
      exact compare_lt_of_z rfl rfl less
    · apply (CubeBox.pairwise_axis ..).imp
      intro a b less c first d second
      obtain ⟨_, _, rfl⟩ := List.mem_map.1 first
      obtain ⟨_, _, rfl⟩ := List.mem_map.1 second
      exact compare_lt_of_y rfl less
  · apply (CubeBox.pairwise_axis ..).imp
    intro a b less c first d second
    obtain ⟨_, _, first⟩ := List.mem_flatMap.1 first
    obtain ⟨_, _, second⟩ := List.mem_flatMap.1 second
    obtain ⟨_, _, rfl⟩ := List.mem_map.1 first
    obtain ⟨_, _, rfl⟩ := List.mem_map.1 second
    exact compare_lt_of_x less

/-! ## Distance -/

/-- The greatest of the distances along the axes, which no word bounds. -/
def distance (a b : CubeCoord) : Nat :=
  max (max (a.x.toInt - b.x.toInt).natAbs (a.y.toInt - b.y.toInt).natAbs)
    (a.z.toInt - b.z.toInt).natAbs

theorem distance_comm (a b : CubeCoord) : a.distance b = b.distance a := by
  have axis (x y : Int) : (x - y).natAbs = (y - x).natAbs := by omega
  simp only [distance, axis a.x.toInt, axis a.y.toInt, axis a.z.toInt]

theorem distance_le_iff (a b : CubeCoord) (r : Int) : (a.distance b : Int) ≤ r ↔
    (b.x.toInt - r ≤ a.x.toInt ∧ a.x.toInt ≤ b.x.toInt + r) ∧
    (b.y.toInt - r ≤ a.y.toInt ∧ a.y.toInt ≤ b.y.toInt + r) ∧
    (b.z.toInt - r ≤ a.z.toInt ∧ a.z.toInt ≤ b.z.toInt + r) := by
  have axis (x y : Int) : ((x - y).natAbs : Int) ≤ r ↔ y - r ≤ x ∧ x ≤ y + r := by omega
  simp only [distance, Nat.cast_max, max_le_iff, axis, and_assoc]

theorem chebyshev_eq_ok_iff (a b : CubeCoord) (d : Int32) :
    a.chebyshev b = .ok d ↔ d.toInt = a.distance b := by
  have gap (x y word : Int32) : (Checked.sub x y >>= Checked.abs) = .ok word ↔
      word.toInt = (x.toInt - y.toInt).natAbs := by
    simp only [bind_eq_ok_iff, Checked.sub, Checked.abs, Checked.int32_eq_ok_iff]
    constructor
    · rintro ⟨step, first, second⟩
      omega
    · intro whole
      have upper := word.toInt_lt
      obtain ⟨step, _, value⟩ :=
        Checked.exists_int32 (x.toInt - y.toInt) (by omega) (by omega)
      exact ⟨step, value, by omega⟩
  have whole : a.chebyshev b = (do
      let dx ← Checked.sub a.x b.x >>= Checked.abs
      let dy ← Checked.sub a.y b.y >>= Checked.abs
      let dz ← Checked.sub a.z b.z >>= Checked.abs
      return max (max dx dy) dz) := by
    simp only [chebyshev, bind_assoc]
  simp only [whole, bind_eq_ok_iff, gap, pure_eq, distance]
  constructor
  · rintro ⟨dx, x, dy, y, dz, z, same⟩
    cases same
    rw [toInt_max, toInt_max, x, y, z]
    omega
  · intro reaches
    have upper := d.toInt_lt
    obtain ⟨dx, _, x⟩ :=
      Checked.exists_int32 (a.x.toInt - b.x.toInt).natAbs (by omega) (by omega)
    obtain ⟨dy, _, y⟩ :=
      Checked.exists_int32 (a.y.toInt - b.y.toInt).natAbs (by omega) (by omega)
    obtain ⟨dz, _, z⟩ :=
      Checked.exists_int32 (a.z.toInt - b.z.toInt).natAbs (by omega) (by omega)
    refine ⟨dx, x, dy, y, dz, z, congrArg Except.ok (Int32.toInt_inj.1 ?_)⟩
    rw [toInt_max, toInt_max, x, y, z, reaches]
    omega

/-! ## Neighbourhoods -/

theorem offset_eq_ok_iff {c n : CubeCoord} {dx dy dz : Int32} :
    c.offset dx dy dz = .ok n ↔ n.x.toInt = c.x.toInt + dx.toInt ∧
      n.y.toInt = c.y.toInt + dy.toInt ∧ n.z.toInt = c.z.toInt + dz.toInt := by
  simp only [offset, bind_eq_ok_iff, Checked.add, Checked.int32_eq_ok_iff, pure_eq]
  constructor
  · rintro ⟨x, inX, y, inY, z, inZ, same⟩
    cases same
    exact ⟨inX, inY, inZ⟩
  · rintro ⟨inX, inY, inZ⟩
    exact ⟨n.x, inX, n.y, inY, n.z, inZ, rfl⟩

theorem toInt_neg_of_nonneg {r : Int32} (nonnegative : 0 ≤ r.toInt) : (-r).toInt = -r.toInt := by
  have upper := r.toInt_lt
  rw [Int32.toInt_neg, Int.bmod_eq_of_le (by omega) (by omega)]

theorem toInt_range (range : Int32) : (max range 0).toInt = max range.toInt 0 := toInt_max range 0

variable {c : CubeCoord} {range : Int32} {list : List CubeCoord}

theorem neighborhood_eq_ok_iff : c.neighborhood range = .ok list ↔ ∃ lower upper : CubeCoord,
    (lower.x.toInt = c.x.toInt - max range.toInt 0 ∧
      lower.y.toInt = c.y.toInt - max range.toInt 0 ∧
      lower.z.toInt = c.z.toInt - max range.toInt 0) ∧
    (upper.x.toInt = c.x.toInt + max range.toInt 0 ∧
      upper.y.toInt = c.y.toInt + max range.toInt 0 ∧
      upper.z.toInt = c.z.toInt + max range.toInt 0) ∧ CubeBox.cubes ⟨lower, upper⟩ = list := by
  have down : (-(max range 0)).toInt = -max range.toInt 0 := by
    rw [toInt_neg_of_nonneg (by rw [toInt_range]; omega), toInt_range]
  simp only [neighborhood, bind_eq_ok_iff, offset_eq_ok_iff, down, toInt_range, pure_eq,
    Except.ok.injEq, Int.sub_eq_add_neg, exists_and_left]

theorem neighborhood_spec (around : c.neighborhood range = .ok list) :
    Rising list ∧ ∀ n, n ∈ list ↔ (n.distance c : Int) ≤ max range.toInt 0 := by
  obtain ⟨lower, upper, low, high, rfl⟩ := neighborhood_eq_ok_iff.1 around
  refine ⟨rising_cubes _, ?_⟩
  intro n
  rw [CubeBox.mem_cubes, CubeBox.contains_iff, distance_le_iff]
  simp only [low, high]

theorem exists_shifted (c : CubeCoord) (s : Int)
    (fits : ∀ axis, -2 ^ 31 ≤ (c.along axis).toInt + s ∧ (c.along axis).toInt + s < 2 ^ 31) :
    ∃ n : CubeCoord, ∀ axis, (n.along axis).toInt = (c.along axis).toInt + s := by
  have word (axis : Axis) : ∃ v : Int32, v.toInt = (c.along axis).toInt + s := by
    obtain ⟨low, high⟩ := fits axis
    obtain ⟨v, _, value⟩ := Checked.exists_int32 ((c.along axis).toInt + s) (by omega) (by omega)
    exact ⟨v, value⟩
  obtain ⟨x, atX⟩ := word .x
  obtain ⟨y, atY⟩ := word .y
  obtain ⟨z, atZ⟩ := word .z
  refine ⟨⟨x, y, z⟩, fun axis => ?_⟩
  cases axis <;> assumption

def Surrounded (c : CubeCoord) (range : Int32) : Prop :=
  ∀ axis, -2 ^ 31 ≤ (c.along axis).toInt - max range.toInt 0 ∧
    (c.along axis).toInt + max range.toInt 0 < 2 ^ 31

theorem exists_neighborhood_iff : (∃ list, c.neighborhood range = .ok list) ↔
    c.Surrounded range := by
  simp only [neighborhood_eq_ok_iff]
  constructor
  · rintro ⟨_, lower, upper, low, high, _⟩ axis
    have least := (lower.along axis).le_toInt
    have most := (upper.along axis).toInt_lt
    cases axis <;> simp only [along] at least most ⊢ <;> omega
  · intro surrounded
    obtain ⟨lower, low⟩ := exists_shifted c (-max range.toInt 0) fun axis => by
      have := surrounded axis
      omega
    obtain ⟨upper, high⟩ := exists_shifted c (max range.toInt 0) fun axis => by
      have := surrounded axis
      omega
    exact ⟨_, lower, upper, ⟨low .x, low .y, low .z⟩, ⟨high .x, high .y, high .z⟩, rfl⟩

theorem exists_neighborhood {wider : Int32} (around : c.neighborhood wider = .ok list)
    (smaller : range.toInt ≤ wider.toInt) : ∃ near, c.neighborhood range = .ok near := by
  have surrounded := exists_neighborhood_iff.1 ⟨list, around⟩
  apply exists_neighborhood_iff.2
  intro axis
  have := surrounded axis
  omega

theorem length_neighborhood (around : c.neighborhood range = .ok list) :
    (list.length : Int) = (2 * max range.toInt 0 + 1) ^ 3 := by
  obtain ⟨lower, upper, low, high, rfl⟩ := neighborhood_eq_ok_iff.1 around
  have side {first last : Int32} (x : Int32) (low : first.toInt = x.toInt - max range.toInt 0)
      (high : last.toInt = x.toInt + max range.toInt 0) :
      (CubeBox.extent first last : Int) = 2 * max range.toInt 0 + 1 := by
    rw [CubeBox.extent]
    omega
  rw [CubeBox.length_cubes]
  push_cast
  rw [side c.x low.1 high.1, side c.y low.2.1 high.2.1, side c.z low.2.2 high.2.2]
  ring

theorem neighborhood_eq_filter {near : List CubeCoord} (around : c.neighborhood range = .ok near)
    (rising : Rising list)
    (covers : ∀ n : CubeCoord, (n.distance c : Int) ≤ max range.toInt 0 → n ∈ list) :
    near = list.filter fun n => (n.distance c : Int) ≤ max range.toInt 0 := by
  obtain ⟨order, members⟩ := neighborhood_spec around
  apply order.eq (rising.filter _)
  intro n
  rw [members, List.mem_filter, decide_eq_true_eq]
  exact ⟨fun close => ⟨covers n close, close⟩, And.right⟩

theorem exists_chebyshev {a b : CubeCoord}
    (near : ∀ axis, |(a.along axis).toInt - (b.along axis).toInt| < 2 ^ 31) :
    ∃ d, a.chebyshev b = .ok d ∧ d.toInt = a.distance b := by
  have bound : (a.distance b : Int) ≤ 2 ^ 31 - 1 := by
    have x := abs_lt.1 (near .x)
    have y := abs_lt.1 (near .y)
    have z := abs_lt.1 (near .z)
    rw [distance_le_iff]
    simp only [along] at x y z
    omega
  obtain ⟨d, _, value⟩ := Checked.exists_int32 (a.distance b) (by omega) (by omega)
  exact ⟨d, (chebyshev_eq_ok_iff a b d).2 value, value⟩

theorem neighborhood_exact :
    (∀ (c : CubeCoord) (range : Int32), c.Surrounded range →
      ∃ list, c.neighborhood range = .ok list ∧ list.Pairwise (fun a b => compare a b = .lt) ∧
        list.Nodup ∧ (list.length : Int) = (2 * max range.toInt 0 + 1) ^ 3 ∧
        ∀ n : CubeCoord, (∀ axis, |(n.along axis).toInt - (c.along axis).toInt| < 2 ^ 31) →
          ∃ d, n.chebyshev c = .ok d ∧ (n ∈ list ↔ d.toInt ≤ max range.toInt 0)) ∧
    ∀ (c n : CubeCoord) (range : Int32) (near far : List CubeCoord),
      c.neighborhood range = .ok near → n.neighborhood range = .ok far → (n ∈ near ↔ c ∈ far) := by
  constructor
  · intro c range surrounded
    obtain ⟨list, around⟩ := exists_neighborhood_iff.2 surrounded
    obtain ⟨rising, members⟩ := neighborhood_spec around
    refine ⟨list, around, rising, rising.nodup, length_neighborhood around, ?_⟩
    intro n near
    obtain ⟨d, computed, value⟩ := exists_chebyshev near
    exact ⟨d, computed, by rw [members, value]⟩
  · intro c n range near far around other
    rw [(neighborhood_spec around).2, (neighborhood_spec other).2, distance_comm]

theorem neighborhood_exact_in_corner :
    let c : CubeCoord := ⟨-2147483646, 2147483645, 0⟩
    let n : CubeCoord := ⟨-2147483646, 2147483645, 2⟩
    c.Surrounded 2 ∧ ¬ c.Surrounded 3 ∧ ∃ near far, c.neighborhood 2 = .ok near ∧
      near.length = 125 ∧ (⟨-2147483648, 2147483647, 3⟩ : CubeCoord) ∉ near ∧
      n.neighborhood 2 = .ok far ∧ n ∈ near ∧ c ∈ far := by
  intro c n
  obtain ⟨lists, shared⟩ := neighborhood_exact
  have surrounded : c.Surrounded 2 := by
    intro axis
    cases axis <;> decide
  have other : n.Surrounded 2 := by
    intro axis
    cases axis <;> decide
  obtain ⟨near, around, _, _, length, members⟩ := lists c 2 surrounded
  obtain ⟨far, around', _⟩ := lists n 2 other
  have member : n ∈ near := by
    obtain ⟨d, computed, within⟩ := members n fun axis => by cases axis <;> decide
    rw [within, (chebyshev_eq_ok_iff n c d).1 computed]
    decide
  have close : ¬ c.Surrounded 3 := fun wider => absurd (wider .x) (by decide)
  refine ⟨surrounded, close, near, far, around, ?_, ?_, around', member,
    (shared c n 2 near far around around').1 member⟩
  · have two : max (Int32.toInt 2) 0 = 2 := rfl
    rw [two] at length
    omega
  · obtain ⟨d, computed, within⟩ := members ⟨-2147483648, 2147483647, 3⟩ fun axis => by
      cases axis <;> decide
    rw [within, (chebyshev_eq_ok_iff _ c d).1 computed]
    decide

end CubeCoord

end Karst
