import Karst.Generation.Pockets
import Karst.Proofs.Exact
import Karst.Proofs.Geometry.Neighborhood
import Karst.Proofs.Settings

/-!
How far a pocket reaches from the cube that it starts in, with its numbers taken exactly. Sideways
the limit on the radius keeps it among the neighbouring cubes. Up and down the vertical scale
stretches the radius, and that has no limit of its own.
-/

namespace Karst

open Guarded

/-! ## Accepted settings -/

theorem Params.checkShape_of_check {p : Params} (accepted : p.check = .ok ()) :
    p.pockets.checkShape = .ok () :=
  (p.check_eq_ok_iff.1 accepted).2.2.2.2.1

theorem PocketParams.checkShape_eq_ok_iff (p : PocketParams) : p.checkShape = .ok () ↔
    (0 < p.minRadius ∧ p.minRadius ≤ p.maxRadius ∧ 0 < p.yScale) ∧ ¬ 16 < p.maxRadius := by
  rw [checkShape, Verdict.bind_eq_ok_iff, require_eq_ok_iff, require_eq_ok_iff]

structure PocketParams.Bounded (p : PocketParams) (least most : ℚ) : Prop where
  minRadius : rational? p.minRadius = some least
  maxRadius : rational? p.maxRadius = some most
  positive : 0 < least
  rises : least ≤ most
  limit : most ≤ 16

theorem rational_zero : rational? 0 = some 0 := rfl

theorem rational_sixteen : rational? 16 = some 16 := by decide +kernel

theorem PocketParams.exists_bounded {p : PocketParams} (accepted : p.checkShape = .ok ()) :
    ∃ least most, p.Bounded least most := by
  rw [checkShape_eq_ok_iff] at accepted
  obtain ⟨⟨positive, rises, _⟩, limit⟩ := accepted
  obtain ⟨⟨least, min⟩, most, max⟩ :=
    rational_of_between rational_zero rational_sixteen positive rises limit
  refine ⟨least, most, min, max, ?_, ?_, ?_⟩
  · exact (lt_iff_of_rational rational_zero min).1 positive
  · exact (le_iff_of_rational min max).1 rises
  · rw [lt_iff_of_rational rational_sixteen max] at limit
    exact not_lt.1 limit

/-! ## Pockets -/

structure PocketShape where
  x : ℚ
  y : ℚ
  z : ℚ
  radius : ℚ
  yScale : ℚ

namespace PocketShape

def Covers (e : PocketShape) (b : BlockPos) : Prop :=
  let dx := (b.x.toInt + 1 / 2 - e.x) / e.radius
  let dy := (b.y.toInt + 1 / 2 - e.y) / (e.radius * e.yScale)
  let dz := (b.z.toInt + 1 / 2 - e.z) / e.radius
  dx * dx + dy * dy + dz * dz < 1

def StartsIn (e : PocketShape) (n : CubeCoord) : Prop :=
  (16 * n.x.toInt ≤ e.x ∧ e.x < 16 * n.x.toInt + 16) ∧
  (16 * n.y.toInt ≤ e.y ∧ e.y < 16 * n.y.toInt + 16) ∧
  16 * n.z.toInt ≤ e.z ∧ e.z < 16 * n.z.toInt + 16

variable {e : PocketShape} {b : BlockPos}

theorem abs_lt_of_square_lt {a r : ℚ} (positive : 0 < r) (inside : a / r * (a / r) < 1) :
    |a| < r := by
  rw [← sq, sq_lt_one_iff_abs_lt_one, abs_div, abs_of_pos positive] at inside
  exact (div_lt_one positive).1 inside

theorem Covers.axes (covers : e.Covers b) (radius : 0 < e.radius) (yScale : 0 < e.yScale) :
    |b.x.toInt + 1 / 2 - e.x| < e.radius ∧ |b.y.toInt + 1 / 2 - e.y| < e.radius * e.yScale ∧
      |b.z.toInt + 1 / 2 - e.z| < e.radius := by
  simp only [Covers] at covers
  have dx := mul_self_nonneg ((b.x.toInt + 1 / 2 - e.x) / e.radius)
  have dy := mul_self_nonneg ((b.y.toInt + 1 / 2 - e.y) / (e.radius * e.yScale))
  have dz := mul_self_nonneg ((b.z.toInt + 1 / 2 - e.z) / e.radius)
  exact ⟨abs_lt_of_square_lt radius (by linarith),
    abs_lt_of_square_lt (mul_pos radius yScale) (by linarith),
    abs_lt_of_square_lt radius (by linarith)⟩

theorem axis_near {n b : Int} {c : ℚ} (lower : 16 * n ≤ c) (upper : c < 16 * n + 16)
    (near : |b + 1 / 2 - c| < 33 / 2) : n - 1 ≤ b / 16 ∧ b / 16 ≤ n + 1 := by
  rw [abs_lt] at near
  have above : (16 * n - 17 : ℚ) < b := by linarith
  have below : (b : ℚ) < 16 * n + 32 := by linarith
  norm_cast at above below
  omega

theorem distance_le_one {n : CubeCoord} (starts : e.StartsIn n)
    (x : |b.x.toInt + 1 / 2 - e.x| < 33 / 2) (y : |b.y.toInt + 1 / 2 - e.y| < 33 / 2)
    (z : |b.z.toInt + 1 / 2 - e.z| < 33 / 2) : n.distance (.ofBlock b) ≤ 1 := by
  obtain ⟨⟨lowX, highX⟩, ⟨lowY, highY⟩, lowZ, highZ⟩ := starts
  have nearX := axis_near lowX highX x
  have nearY := axis_near lowY highY y
  have nearZ := axis_near lowZ highZ z
  have near : (n.distance (.ofBlock b) : Int) ≤ 1 := by
    rw [CubeCoord.distance_comm, CubeCoord.distance_le_iff]
    simpa only [CubeCoord.ofBlock, toInt_shiftRight_four] using ⟨nearX, nearY, nearZ⟩
  exact_mod_cast near

end PocketShape

namespace PocketSeed

structure Reads (seed : PocketSeed) (e : PocketShape) : Prop where
  x : rational? seed.center.x = some e.x
  y : rational? seed.center.y = some e.y
  z : rational? seed.center.z = some e.z
  radius : rational? seed.radius = some e.radius
  yScale : rational? seed.yScale = some e.yScale

structure FoundIn (p : PocketParams) (n : CubeCoord) (seed : PocketSeed) (e : PocketShape) :
    Prop where
  reads : seed.Reads e
  located : ∃ corner, n.minBlock = .ok corner
  starts : e.StartsIn n
  radius : p.minRadius ≤ seed.radius ∧ seed.radius ≤ p.maxRadius
  yScale : seed.yScale = p.yScale

/-- Every block of every pocket that may be found is in a cube that is looked at. -/
def StayInRange (p : PocketParams) : Prop :=
  ∀ n seed e, FoundIn p n seed e → ∀ b, e.Covers b →
    ∃ d, n.chebyshev (.ofBlock b) = .ok d ∧ d ≤ (pocketGenerator p).range

variable {p : PocketParams} {least most scale : ℚ}

theorem FoundIn.axes (bounded : p.Bounded least most) (positive : 0 < p.yScale)
    (yScale : rational? p.yScale = some scale) {n : CubeCoord} {seed : PocketSeed}
    {e : PocketShape} (found : FoundIn p n seed e) {b : BlockPos} (covers : e.Covers b) :
    |b.x.toInt + 1 / 2 - e.x| < 16 ∧ |b.y.toInt + 1 / 2 - e.y| < most * scale ∧
      |b.z.toInt + 1 / 2 - e.z| < 16 := by
  have smallest := (le_iff_of_rational bounded.minRadius found.reads.radius).1 found.radius.1
  have greatest := (le_iff_of_rational found.reads.radius bounded.maxRadius).1 found.radius.2
  have limit := greatest.trans bounded.limit
  have same : e.yScale = scale :=
    Option.some_inj.1 (found.reads.yScale.symm.trans (found.yScale ▸ yScale))
  have scalePos : 0 < scale := (lt_iff_of_rational rational_zero yScale).1 positive
  obtain ⟨x, y, z⟩ := covers.axes (bounded.positive.trans_le smallest) (same ▸ scalePos)
  have height : e.radius * e.yScale ≤ most * scale := by
    rw [same]
    gcongr
  exact ⟨x.trans_le limit, y.trans_le height, z.trans_le limit⟩

theorem stayInRange_of_low (bounded : p.Bounded least most) (positive : 0 < p.yScale)
    (yScale : rational? p.yScale = some scale) (low : most * scale ≤ 33 / 2) :
    StayInRange p := by
  intro n seed e found b covers
  obtain ⟨x, y, z⟩ := found.axes bounded positive yScale covers
  have near : n.distance (.ofBlock b) ≤ 1 :=
    PocketShape.distance_le_one found.starts (by linarith) (y.trans_le low) (by linarith)
  obtain ⟨d, _, whole⟩ :=
    Checked.exists_int32 (n.distance (.ofBlock b)) (by omega) (by omega)
  refine ⟨d, (CubeCoord.chebyshev_eq_ok_iff n _ d).2 whole, ?_⟩
  have single : d.toInt ≤ (1 : Int32).toInt := by
    rw [whole, show (1 : Int32).toInt = 1 from rfl]
    exact_mod_cast near
  exact Int32.le_iff_toInt_le.2 single

theorem rational_half : rational? 0.5 = some (1 / 2) := by decide +kernel

theorem low_of_stayInRange (bounded : p.Bounded least most)
    (yScale : rational? p.yScale = some scale) (stay : StayInRange p) :
    most * scale ≤ 33 / 2 := by
  by_contra tall
  rw [not_le] at tall
  -- a greatest pocket with its centre on the floor of the cube, above the middle of a block
  have origin : ((0 : Int32).toInt : ℚ) = 0 := by decide +kernel
  have bottom : ((-17 : Int32).toInt : ℚ) = -17 := by decide +kernel
  have found : FoundIn p ⟨0, 0, 0⟩ ⟨⟨0.5, 0, 0.5⟩, p.maxRadius, p.yScale, p.fluid⟩
      ⟨1 / 2, 0, 1 / 2, most, scale⟩ := by
    refine ⟨⟨rational_half, rational_zero, rational_half, bounded.maxRadius, yScale⟩,
      ⟨⟨0, 0, 0⟩, rfl⟩, ?_, ⟨?_, ?_⟩, rfl⟩
    · norm_num [PocketShape.StartsIn, origin]
    · exact (le_iff_of_rational bounded.minRadius bounded.maxRadius).2 bounded.rises
    · exact (le_iff_of_rational bounded.maxRadius bounded.maxRadius).2 le_rfl
  have covers : PocketShape.Covers ⟨1 / 2, 0, 1 / 2, most, scale⟩ ⟨0, -17, 0⟩ := by
    have height : 0 < most * scale := by linarith
    have shorter : 33 / 2 / (most * scale) < 1 := (div_lt_one height).2 tall
    have depth : (-17 + 1 / 2 - 0) / (most * scale) = -(33 / 2 / (most * scale)) := by ring
    simp only [PocketShape.Covers, bottom, origin, depth]
    have positive : 0 < 33 / 2 / (most * scale) := by positivity
    have square : 33 / 2 / (most * scale) * (33 / 2 / (most * scale)) < 1 := by nlinarith
    simpa using square
  obtain ⟨d, reached, near⟩ := stay _ _ _ found _ covers
  have away : CubeCoord.chebyshev ⟨0, 0, 0⟩ (.ofBlock ⟨0, -17, 0⟩) = .ok 2 := by decide
  rw [away] at reached
  cases reached
  exact absurd near (by decide : ¬ (2 : Int32) ≤ 1)

/-- With numbers taken exactly, no part of a pocket is lost if and only if the greatest pocket is
half a block and a cube high at most, from its centre on. -/
theorem stayInRange_iff {p : Params} (accepted : p.check = .ok ())
    (radius : rational? p.pockets.maxRadius = some most)
    (yScale : rational? p.pockets.yScale = some scale) :
    StayInRange p.pockets ↔ most * scale ≤ 33 / 2 := by
  have shape := Params.checkShape_of_check accepted
  obtain ⟨least, greatest, bounded⟩ := PocketParams.exists_bounded shape
  obtain rfl : greatest = most := Option.some_inj.1 (bounded.maxRadius.symm.trans radius)
  rw [PocketParams.checkShape_eq_ok_iff] at shape
  obtain ⟨⟨_, _, positive⟩, _⟩ := shape
  exact ⟨low_of_stayInRange bounded yScale, stayInRange_of_low bounded positive yScale⟩

theorem stayInRange_default :
    Params.check {} = .ok () ∧ rational? 6 = some 6 ∧
      rational? 0.6 = some (5404319552844595 * 2 ^ (-53 : Int)) ∧
      (StayInRange {} ↔ (6 * (5404319552844595 * 2 ^ (-53 : Int)) : ℚ) ≤ 33 / 2) := by
  have radius : rational? 6 = some 6 := by decide +kernel
  exact ⟨rfl, radius, rfl, stayInRange_iff (p := {}) rfl radius rfl⟩

def tallPockets : Params := { pockets := { minRadius := 16, maxRadius := 16, yScale := 3 } }

theorem tallPockets_leave : tallPockets.check = .ok () ∧ ¬ StayInRange tallPockets.pockets := by
  have bounded : tallPockets.pockets.Bounded 16 16 :=
    ⟨rational_sixteen, rational_sixteen, by norm_num, le_rfl, le_rfl⟩
  have yScale : rational? tallPockets.pockets.yScale = some 3 := by decide +kernel
  refine ⟨rfl, ?_⟩
  intro stay
  have low := low_of_stayInRange bounded yScale stay
  norm_num at low

end PocketSeed

end Karst
