import Karst.Hash
import Karst.Proofs.Guarded

namespace Karst

open Function

/-- A shift by a third of the width or more is undone by shifting once and twice as far. -/
theorem xorShift_injective {k : Nat} (far : 64 ≤ 3 * k) :
    Injective fun z : BitVec 64 => z ^^^ (z >>> k) := by
  have undone : LeftInverse (fun w : BitVec 64 => w ^^^ (w >>> k) ^^^ (w >>> (2 * k)))
      fun z => z ^^^ (z >>> k) := by
    intro z
    refine BitVec.eq_of_getLsbD_eq fun i _ => ?_
    have beyond : z.getLsbD (k + (2 * k + i)) = false := BitVec.getLsbD_of_ge _ _ (by omega)
    have twice : k + (k + i) = 2 * k + i := by omega
    simp only [BitVec.getLsbD_xor, BitVec.getLsbD_ushiftRight, beyond, twice]
    cases z.getLsbD i <;> cases z.getLsbD (k + i) <;> cases z.getLsbD (2 * k + i) <;> rfl
  exact undone.injective

theorem shiftedWord_injective {k : UInt64} (far : 64 ≤ 3 * (k.toNat % 64)) :
    Injective fun z : UInt64 => z ^^^ (z >>> k) := by
  intro a b same
  have bits := congrArg UInt64.toBitVec same
  simp only [UInt64.toBitVec_xor, UInt64.toBitVec_shiftRight, BitVec.ushiftRight_eq',
    BitVec.toNat_umod] at bits
  exact UInt64.toBitVec_inj.1 (xorShift_injective (k := k.toNat % 64) far bits)

theorem multiple_injective {c inverse : UInt64} (undoes : c * inverse = 1) :
    Injective fun z : UInt64 => z * c := by
  have undone : LeftInverse (fun w : UInt64 => w * inverse) fun z => z * c := by
    intro z
    simp only [UInt64.mul_assoc, undoes, UInt64.mul_one]
  exact undone.injective

theorem masked_injective (c : UInt64) : Injective fun z : UInt64 => z ^^^ c := by
  have undone : LeftInverse (fun w : UInt64 => w ^^^ c) fun z => z ^^^ c := by
    intro z
    simp only [UInt64.xor_assoc, UInt64.xor_self, UInt64.xor_zero]
  exact undone.injective

theorem mix64_injective : Injective mix64 := by
  have first : Injective fun z : UInt64 => (z ^^^ (z >>> 30)) * 0xbf58476d1ce4e5b9 :=
    (multiple_injective
      (show (0xbf58476d1ce4e5b9 : UInt64) * 0x96de1b173f119089 = 1 by decide)).comp
      (shiftedWord_injective (by decide))
  have second : Injective fun z : UInt64 => (z ^^^ (z >>> 27)) * 0x94d049bb133111eb :=
    (multiple_injective
      (show (0x94d049bb133111eb : UInt64) * 0x319642b2d24d8ec3 = 1 by decide)).comp
      (shiftedWord_injective (by decide))
  have third : Injective fun z : UInt64 => z ^^^ (z >>> 31) := shiftedWord_injective (by decide)
  exact third.comp (second.comp first)

/-! ## Chains -/

section Chains

variable {α β : Type} {f : α → β → α}

theorem foldl_injective (keeps : ∀ b, Injective fun a => f a b) (items : List β) :
    Injective fun a => items.foldl f a := by
  induction items with
  | nil => exact injective_id
  | cons b items ih => exact ih.comp (keeps b)

theorem foldl_ne (keeps : ∀ b, Injective fun a => f a b) (before after : List β) {v w : β}
    (apart : ∀ a, f a v ≠ f a w) (a : α) :
    (before ++ v :: after).foldl f a ≠ (before ++ w :: after).foldl f a := by
  rw [List.foldl_append, List.foldl_append, List.foldl_cons, List.foldl_cons]
  intro same
  exact apart _ (foldl_injective keeps after same)

end Chains

def stir (h w : UInt64) : UInt64 := mix64 (h ^^^ w)

theorem stir_left_injective (w : UInt64) : Injective fun h => stir h w :=
  mix64_injective.comp (masked_injective w)

theorem stir_right_injective (h : UInt64) : Injective (stir h) := by
  intro v w same
  rw [stir, stir, UInt64.xor_comm h v, UInt64.xor_comm h w] at same
  exact masked_injective h (mix64_injective same)

theorem foldl_stir_injective (words : List UInt64) : Injective fun h => words.foldl stir h :=
  foldl_injective stir_left_injective words

theorem foldl_stir_ne (before after : List UInt64) {v w : UInt64} (apart : v ≠ w) (h : UInt64) :
    (before ++ v :: after).foldl stir h ≠ (before ++ w :: after).foldl stir h :=
  foldl_ne stir_left_injective before after (fun h => (stir_right_injective h).ne apart) h

/-! ## Numbers as words -/

theorem toUInt64_injective : Injective UInt32.toUInt64 := fun _ _ => UInt32.toUInt64_inj.1

theorem toUInt32_injective : Injective Int32.toUInt32 := by
  rintro ⟨a⟩ ⟨b⟩ same
  exact congrArg Int32.ofUInt32 same

theorem signedWord_injective : Injective fun x : Int32 => x.toUInt32.toUInt64 :=
  toUInt64_injective.comp toUInt32_injective

end Karst
