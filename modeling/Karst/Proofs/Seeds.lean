import Karst.Proofs.Geometry.Axis
import Karst.Proofs.Mixing

namespace Karst

open Function

def CubeCoord.words (c : CubeCoord) : List UInt64 :=
  [c.x.toUInt32.toUInt64 * 0x85ebca6b, c.y.toUInt32.toUInt64 * 0xc2b2ae35,
    c.z.toUInt32.toUInt64 * 0x27d4eb2f]

theorem coordHash_eq (seed : UInt64) (c : CubeCoord) :
    coordHash seed c = c.words.foldl stir (seed ^^^ goldenRatio64) := rfl

theorem spread_injective {c inverse : UInt64} (undoes : c * inverse = 1) :
    Injective fun x : Int32 => x.toUInt32.toUInt64 * c :=
  (multiple_injective undoes).comp signedWord_injective

theorem coordHash_ne {a b : CubeCoord} (apart : a.OneAxisApart b) (seed : UInt64) :
    coordHash seed a ≠ coordHash seed b := by
  obtain ⟨x, y, z⟩ := a
  obtain ⟨x', y', z'⟩ := b
  obtain ⟨axis, apart, rest⟩ := apart
  rw [coordHash_eq, coordHash_eq]
  cases axis with
  | x =>
    obtain rfl : y = y' := rest .y (by decide)
    obtain rfl : z = z' := rest .z (by decide)
    have undoes : (0x85ebca6b : UInt64) * 0xa7324a5cb9243 = 1 := by decide
    exact foldl_stir_ne [] _ ((spread_injective undoes).ne apart) _
  | y =>
    obtain rfl : x = x' := rest .x (by decide)
    obtain rfl : z = z' := rest .z (by decide)
    have undoes : (0xc2b2ae35 : UInt64) * 0xd16e308e7ed1b41d = 1 := by decide
    exact foldl_stir_ne [_] _ ((spread_injective undoes).ne apart) _
  | z =>
    obtain rfl : x = x' := rest .x (by decide)
    obtain rfl : y = y' := rest .y (by decide)
    have undoes : (0x27d4eb2f : UInt64) * 0x6ba7dffda0fe3bcf = 1 := by decide
    exact foldl_stir_ne [_, _] _ ((spread_injective undoes).ne apart) _

theorem coordHash_bijective (c : CubeCoord) : Bijective fun seed => coordHash seed c := by
  rw [← Finite.injective_iff_bijective]
  exact (foldl_stir_injective c.words).comp (masked_injective goldenRatio64)

theorem salted_injective : Injective fun salt => mix64 (salt + goldenRatio64) := by
  have shifted : Injective fun salt : UInt64 => salt + goldenRatio64 := add_left_injective _
  exact mix64_injective.comp shifted

theorem seeds_separated :
    (∀ (seed : UInt64) (a b : CubeCoord), a.OneAxisApart b →
      coordHash seed a ≠ coordHash seed b) ∧
    (∀ c : CubeCoord, Bijective fun seed => coordHash seed c) ∧
    (∀ seed : UInt64, Injective (deriveSeed seed)) ∧
    ∀ salt : UInt64, Injective fun seed => deriveSeed seed salt := by
  refine ⟨?_, coordHash_bijective, ?_, ?_⟩
  · intro seed a b apart
    exact coordHash_ne apart seed
  · intro seed
    exact (stir_right_injective seed).comp salted_injective
  · intro salt
    exact stir_left_injective _

theorem seeds_separated_lowest :
    CubeCoord.OneAxisApart ⟨-1, -2147483648, 0⟩ ⟨-1, -2147483647, 0⟩ ∧
      coordHash 7 ⟨-1, -2147483648, 0⟩ ≠ coordHash 7 ⟨-1, -2147483647, 0⟩ := by
  have apart : CubeCoord.OneAxisApart ⟨-1, -2147483648, 0⟩ ⟨-1, -2147483647, 0⟩ := by
    refine ⟨.y, by decide, ?_⟩
    intro other away
    cases other with
    | x => rfl
    | y => exact absurd rfl away
    | z => rfl
  exact ⟨apart, seeds_separated.1 7 _ _ apart⟩

end Karst
