import Karst.Generation.Caves
import Karst.Proofs.Geometry.Bounds
import Karst.Proofs.Geometry.Position
import Karst.Proofs.Random

namespace Karst

open Guarded

theorem Checked.exists_uint32 (value : Nat) (upper : value < 4294967296) :
    ∃ word, uint32 value = .ok word ∧ word.toNat = value := by
  refine ⟨UInt32.ofNat value, if_pos ⟨Int.natCast_nonneg value, by exact_mod_cast upper⟩, ?_⟩
  exact UInt32.toNat_ofNat_of_lt' upper

namespace Walker

variable {w : Walker} {p : CaveParams}

def Splits (w : Walker) : Prop := w.kind = .tunnel ∧ w.size > 1

theorem advance_kept (w : Walker) (p : CaveParams) : (w.advance p).2.length = w.length ∧
    (w.advance p).2.kind = w.kind ∧ (w.advance p).2.size = w.size ∧
    (w.advance p).2.splitStep = w.splitStep := ⟨rfl, rfl, rfl, rfl⟩

theorem step_advance (w : Walker) (p : CaveParams) : (w.advance p).2.step =
    if w.kind = .cavern ∨ (w.advance p).1.action = .split then w.length else w.step + 1 := rfl

theorem action_advance (w : Walker) (p : CaveParams) :
    (w.advance p).1.action = .split ↔ w.Splits ∧ w.step = w.splitStep := by
  have chosen (s : Stream) : (w.chooseAction p s).1 = .split ↔ w.Splits ∧ w.step = w.splitStep := by
    unfold chooseAction Splits
    split
    case isTrue here => exact iff_of_true rfl ⟨⟨here.1, here.2.2⟩, here.2.1⟩
    case isFalse elsewhere =>
      refine iff_of_false ?_ fun there => elsewhere ⟨there.1.1, there.2, there.1.2⟩
      split
      case isTrue => simp
      case isFalse =>
        generalize s.oneIn p.carveSkipRarity = drawn
        obtain ⟨skipped, s⟩ := drawn
        cases skipped <;> simp
  exact chosen _

theorem remaining_advance (more : w.step < w.length) (p : CaveParams) :
    (w.advance p).2.remaining < w.remaining := by
  have bound := w.length.toNat_lt
  rw [UInt32.lt_iff_toNat_lt] at more
  rw [remaining, remaining, (w.advance_kept p).1, step_advance]
  split
  case isTrue => omega
  case isFalse =>
    rw [UInt32.toNat_add, UInt32.toNat_one, Nat.mod_eq_of_lt (by omega)]
    omega

/-- The steps that are left of a walk, each with the walker after it. -/
def trail (p : CaveParams) (w : Walker) : List (WalkStep × Walker) :=
  if _more : w.step < w.length then w.advance p :: trail p (w.advance p).2 else []
termination_by w.remaining
decreasing_by exact remaining_advance _more p

theorem trail_of_ended (ended : ¬ w.step < w.length) (p : CaveParams) : w.trail p = [] := by
  rw [trail, dif_neg ended]

theorem trail_cons (more : w.step < w.length) (p : CaveParams) :
    w.trail p = w.advance p :: (w.advance p).2.trail p := by
  rw [trail, dif_pos more]

def strokesOf (p : CaveParams) : WalkStep × Walker → List Stroke
  | (s, w) =>
      match s.action with
      | .carve => [.carve ⟨s.pos, s.radius, s.height⟩]
      | .skip => []
      | .split =>
          let (left, w) := w.branch s (-halfPi32) p.tunnelYScale
          [.split left (w.branch s halfPi32 p.tunnelYScale).1]

theorem ended_of_split (split : (w.advance p).1.action = .split) :
    ¬ (w.advance p).2.step < (w.advance p).2.length := by
  rw [step_advance, if_pos (.inr split)]
  exact UInt32.lt_irrefl _

theorem strokes_of_ended (ended : ¬ w.step < w.length) (p : CaveParams) (n : Nat)
    (made : List Stroke) : w.strokes p n made = made := by
  cases n with
  | zero => rfl
  | succ n => rw [strokes, if_neg ended]

/-- A walk ends by itself: as many steps as remain are enough for all of it. -/
theorem strokes_eq (p : CaveParams) {n : Nat} (enough : w.remaining ≤ n) (made : List Stroke) :
    w.strokes p n made = ((w.trail p).flatMap (strokesOf p)).reverse ++ made := by
  induction n generalizing w made with
  | zero =>
    have ended : ¬ w.step < w.length := by
      rw [UInt32.lt_iff_toNat_lt]
      rw [remaining] at enough
      omega
    rw [strokes_of_ended ended, trail_of_ended ended]
    rfl
  | succ n ih =>
    by_cases more : w.step < w.length
    · have less := remaining_advance more p
      have rest := ih (w := (w.advance p).2) (by omega)
      have split := @ended_of_split w p
      rw [strokes, if_pos more, trail_cons more, List.flatMap_cons, List.reverse_append,
        List.append_assoc]
      generalize w.advance p = advanced at rest split
      obtain ⟨s, after⟩ := advanced
      cases acted : s.action with
      | carve => simpa [strokesOf, acted] using rest _
      | skip => simpa [strokesOf, acted] using rest _
      | split =>
        have ended := split acted
        rw [trail_of_ended ended]
        simp only [strokesOf, acted]
        exact strokes_of_ended
          (w := ((after.branch s (-halfPi32) p.tunnelYScale).2.branch s halfPi32 p.tunnelYScale).2)
          ended p n _
    · rw [strokes_of_ended more, trail_of_ended more]
      rfl

theorem strokes_nil (p : CaveParams) {n : Nat} (enough : w.remaining ≤ n) :
    w.strokes p n [] = ((w.trail p).flatMap (strokesOf p)).reverse := by
  rw [strokes_eq p enough, List.append_nil]

theorem trail_cavern (cavern : w.kind = .cavern) (more : w.step < w.length) (p : CaveParams) :
    w.trail p = [w.advance p] := by
  have ended : ¬ (w.advance p).2.step < (w.advance p).2.length := by
    rw [step_advance, if_pos (.inl cavern)]
    exact UInt32.lt_irrefl _
  rw [trail_cons more, trail_of_ended ended]

theorem length_trail (wanders : w.kind ≠ .cavern)
    (whole : ∀ s ∈ w.trail p, s.1.action ≠ .split) : (w.trail p).length = w.remaining := by
  induction w using trail.induct p with
  | case1 w more ih =>
    rw [trail_cons more, List.forall_mem_cons] at whole
    obtain ⟨onward, whole⟩ := whole
    have bound := w.length.toNat_lt
    have next : (w.advance p).2.step = w.step + 1 := by
      rw [step_advance, if_neg (not_or.2 ⟨wanders, onward⟩)]
    rw [UInt32.lt_iff_toNat_lt] at more
    rw [trail_cons (UInt32.lt_iff_toNat_lt.2 more), List.length_cons, ih wanders whole, remaining,
      remaining, next, UInt32.toNat_add, UInt32.toNat_one, Nat.mod_eq_of_lt (by omega),
      (w.advance_kept p).1]
    omega
  | case2 w ended =>
    rw [UInt32.lt_iff_toNat_lt] at ended
    rw [trail_of_ended (by rwa [UInt32.lt_iff_toNat_lt]), List.length_nil, remaining]
    omega

theorem action_of_not_splits (narrow : ¬ w.Splits) :
    ∀ s ∈ w.trail p, s.1.action ≠ .split := by
  induction w using trail.induct p with
  | case1 w more ih =>
    rw [trail_cons more, List.forall_mem_cons]
    exact ⟨fun split => narrow ((w.action_advance p).1 split).1, ih narrow⟩
  | case2 w ended =>
    rw [trail_of_ended ended]
    exact List.forall_mem_nil _

theorem exists_split (splits : w.Splits) (ahead : w.step ≤ w.splitStep)
    (within : w.splitStep < w.length) : ∃ s ∈ w.trail p, s.1.action = .split := by
  induction w using trail.induct p with
  | case1 w more ih =>
    rw [trail_cons more]
    by_cases here : w.step = w.splitStep
    · exact ⟨_, List.mem_cons_self, (w.action_advance p).2 ⟨splits, here⟩⟩
    · have onward : (w.advance p).1.action ≠ .split :=
        fun split => here ((w.action_advance p).1 split).2
      have next : (w.advance p).2.step ≤ w.splitStep := by
        have bound := w.splitStep.toNat_lt
        have apart : w.step.toNat ≠ w.splitStep.toNat := mt UInt32.toNat_inj.1 here
        rw [UInt32.le_iff_toNat_le] at ahead
        rw [step_advance, if_neg (not_or.2 ⟨by simp [splits.1], onward⟩), UInt32.le_iff_toNat_le,
          UInt32.toNat_add, UInt32.toNat_one, Nat.mod_eq_of_lt (by omega)]
        omega
      obtain ⟨s, taken, split⟩ := ih splits next within
      exact ⟨s, List.mem_cons_of_mem _ taken, split⟩
  | case2 w ended => exact absurd (UInt32.lt_of_le_of_lt ahead within) ended

theorem trail_cases (w : Walker) (p : CaveParams) : (∀ s ∈ w.trail p, s.1.action ≠ .split) ∨
    ∃ front last, w.trail p = front ++ [last] ∧ (∀ s ∈ front, s.1.action ≠ .split) ∧
      last.1.action = .split ∧ last.1.step = w.splitStep ∧ last.1.step < w.length ∧
      last.2.length = w.length := by
  induction w using trail.induct p with
  | case1 w more ih =>
    rw [trail_cons more]
    by_cases split : (w.advance p).1.action = .split
    · rw [trail_of_ended (ended_of_split split)]
      exact .inr ⟨[], _, rfl, List.forall_mem_nil _, split, ((w.action_advance p).1 split).2, more,
        rfl⟩
    · rcases ih with whole | ⟨front, last, same, onward, found⟩
      · exact .inl (List.forall_mem_cons.2 ⟨split, whole⟩)
      · refine .inr ⟨w.advance p :: front, last, ?_, List.forall_mem_cons.2 ⟨split, onward⟩, found⟩
        rw [same]
        rfl
  | case2 w ended =>
    rw [trail_of_ended ended]
    exact .inl (List.forall_mem_nil _)

/-! ## Setting out -/

def reach (range : Int32) : Nat := (range.toInt * 16 - 16).toNat

/-- A range that is accepted: its walks are numbered without overflow. -/
def Ranges (range : Int32) : Prop := 1 ≤ range.toInt ∧ range.toInt ≤ 32

theorem span_eq {range : Int32} (ranges : Ranges range) :
    ∃ s, span range = .ok s ∧ s.toNat = reach range := by
  obtain ⟨least, most⟩ := ranges
  have sixteen : (16 : Int32).toInt = 16 := rfl
  obtain ⟨whole, multiplied, wholeValue⟩ :=
    Checked.exists_int32 (range.toInt * 16) (by omega) (by omega)
  obtain ⟨inner, subtracted, innerValue⟩ :=
    Checked.exists_int32 (whole.toInt - 16) (by omega) (by omega)
  have clamped : (max inner 0).toInt = inner.toInt := by
    rw [toInt_max, Int32.toInt_zero]
    omega
  refine ⟨(max inner 0).toUInt32, ?_, ?_⟩
  · rw [span, Checked.mul, sixteen, multiplied, Guarded.ok_bind, Checked.sub, sixteen, subtracted]
    rfl
  · have nonnegative : 0 ≤ max inner 0 := by
      rw [Int32.le_iff_toInt_le, Int32.toInt_zero]
      omega
    rw [Int32.toNat_toUInt32_of_le nonnegative, ← Int32.toNat_toInt, reach]
    congr 1
    omega

def lengthOf (range : Int32) (seed : CaveSeed) : Nat :=
  if 0 < seed.maxSteps then seed.maxSteps.toNat
  else reach range - ((Stream.ofSeed seed.rngSeed).below (UInt32.ofNat (reach range / 4))).1.toNat

theorem walkLength_eq {range : Int32} (seed : CaveSeed)
    (ranges : 0 < seed.maxSteps ∨ Ranges range) :
    ∃ length s, walkLength range seed (.ofSeed seed.rngSeed) = .ok (length, s) ∧
      length.toNat = lengthOf range seed := by
  rw [walkLength, lengthOf]
  by_cases given : 0 < seed.maxSteps
  · rw [if_pos given, if_pos given]
    exact ⟨_, _, rfl, rfl⟩
  · obtain ⟨span, found, value⟩ := span_eq (ranges.resolve_left given)
    have small : reach range < 4294967296 := value ▸ span.toNat_lt
    have quarter : span / 4 = UInt32.ofNat (reach range / 4) := by
      rw [← UInt32.toNat_inj, UInt32.toNat_div, value, UInt32.toNat_ofNat_of_lt' (by
        simp only [UInt32.size]
        omega)]
      rfl
    have most := (Stream.ofSeed seed.rngSeed).below_le (span / 4)
    rw [UInt32.le_iff_toNat_le, UInt32.toNat_div, value] at most
    rw [if_neg given, if_neg given, found, ok_bind, ← quarter]
    generalize (Stream.ofSeed seed.rngSeed).below (span / 4) = drawn at most ⊢
    obtain ⟨short, s⟩ := drawn
    have below : short.toNat ≤ reach range := most.trans (Nat.div_le_self _ _)
    obtain ⟨length, checked, lengthValue⟩ :=
      Checked.exists_uint32 (reach range - short.toNat) (by omega)
    have difference : Int.ofNat span.toNat - Int.ofNat short.toNat =
        ((reach range - short.toNat : Nat) : Int) := by
      rw [value]
      exact (Int.ofNat_sub below).symm
    refine ⟨length, s, ?_, lengthValue⟩
    dsimp only
    rw [difference, checked]
    rfl

theorem splitStep_lt {length splitStep : UInt32} {s : Stream}
    (checked : Checked.uint32 (Int.ofNat (s.below (length / 2)).1.toNat +
      Int.ofNat (length / 4).toNat) = .ok splitStep) (positive : 0 < length) :
    splitStep < length := by
  rw [UInt32.lt_iff_toNat_lt, UInt32.toNat_zero] at positive
  have half : (length / 2).toNat = length.toNat / 2 := UInt32.toNat_div length 2
  have quarter : (length / 4).toNat = length.toNat / 4 := UInt32.toNat_div length 4
  have sum := (Checked.uint32_eq_ok_iff _ _).1 checked
  have most := s.below_le (length / 2)
  rw [UInt32.le_iff_toNat_le, half] at most
  rw [Int.ofNat_eq_natCast, Int.ofNat_eq_natCast] at sum
  rw [UInt32.lt_iff_toNat_lt]
  by_cases short : length.toNat / 2 = 0
  · omega
  · have less := s.below_lt (n := length / 2) (by
      rw [UInt32.lt_iff_toNat_lt, half, UInt32.toNat_zero]
      omega)
    rw [UInt32.lt_iff_toNat_lt, half] at less
    omega

theorem exists_start (range : Int32) (p : CaveParams) (seed : CaveSeed)
    (ranges : 0 < seed.maxSteps ∨ Ranges range) :
    ∃ w, start range p seed = .ok w ∧ w.length.toNat = lengthOf range seed := by
  obtain ⟨length, s, measured, value⟩ := walkLength_eq seed ranges
  have quarter : (length / 4).toNat = length.toNat / 4 := UInt32.toNat_div length 4
  have half : (length / 2).toNat = length.toNat / 2 := UInt32.toNat_div length 2
  have bound := length.toNat_lt
  have most := s.below_le (length / 2)
  rw [UInt32.le_iff_toNat_le, half] at most
  obtain ⟨splitStep, checked, _⟩ :=
    Checked.exists_uint32 ((s.below (length / 2)).1.toNat + (length / 4).toNat) (by omega)
  rw [Int.natCast_add, ← Int.ofNat_eq_natCast, ← Int.ofNat_eq_natCast] at checked
  rw [start, measured, ok_bind]
  dsimp only
  rw [checked, ok_bind]
  exact ⟨_, rfl, value⟩

structure StartsAs (seed : CaveSeed) (w : Walker) : Prop where
  kind : w.kind = seed.kind
  size : w.size = seed.size
  step : w.step = if seed.kind = .cavern then w.length / 2 else seed.startStep
  inTime : 0 < w.length → w.splitStep < w.length

theorem StartsAs.of_start {range : Int32} {seed : CaveSeed}
    (started : start range p seed = .ok w) : StartsAs seed w := by
  obtain ⟨⟨length, s⟩, _, started⟩ := bind_eq_ok_iff.1 started
  obtain ⟨splitStep, checked, started⟩ := bind_eq_ok_iff.1 started
  cases started
  exact ⟨rfl, rfl, rfl, splitStep_lt checked⟩

end Walker

end Karst
