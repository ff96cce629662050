import Karst.Generation.Pockets
import Karst.Proofs.Generation.Groups
import Karst.Proofs.Geometry.Key
import Karst.Proofs.Settings

namespace Karst

open Guarded

namespace CaveSeed

variable {p : CaveParams}

/-- The first roll comes up, and the settings allow for as many nodes as a word can tell. -/
def Overruns (p : CaveParams) (s : Stream) : Prop :=
  (s.oneIn p.rarity).1 = true ∧ p.maxInitNodes = 4294967295

theorem discover_of_overruns {s : Stream} (overruns : Overruns p s) (cube : CubeCoord)
    (found : Array CaveSeed) : discover p cube s found = .error .overflow := by
  obtain ⟨chosen, most⟩ := overruns
  have full : Checked.uint32 (Int.ofNat p.maxInitNodes.toNat + 1) = .error .overflow := by
    rw [most]
    exact if_neg (by decide)
  rw [discover]
  generalize s.oneIn p.rarity = drawn at chosen ⊢
  obtain ⟨_, s⟩ := drawn
  cases chosen
  dsimp only
  rw [if_pos rfl, full]
  rfl

theorem toNat_lt_of_ne {n : UInt32} (less : n ≠ 4294967295) : n.toNat < 2 ^ 32 - 1 := by
  have bound := n.toNat_lt
  have apart : n.toNat ≠ 4294967295 := fun same => less (UInt32.toNat_inj.1 same)
  omega

/-- Seeds are drawn, each of which a walk can set out from. -/
def Discovers (p : Params) (cube : CubeCoord) (s : Stream) (found : Array CaveSeed) : Prop :=
  ∃ pushed after, discover p.caves cube s found = .ok (found ++ pushed, after) ∧
    ∀ seed ∈ pushed, (∃ span, Walker.span p.range = .ok span) ∧
      ∃ w, Walker.start p.range p.caves seed = .ok w

theorem discovers_iff {p : Params} (accepted : p.check = .ok ()) {cube : CubeCoord}
    (packable : cube.Packable) (s : Stream) (found : Array CaveSeed) :
    Discovers p cube s found ↔ ¬ Overruns p.caves s := by
  obtain ⟨⟨least, most⟩, _⟩ := p.check_eq_ok_iff.1 accepted
  constructor
  · rintro ⟨_, _, done, _⟩ overruns
    rw [discover_of_overruns overruns] at done
    cases done
  · intro fits
    have ranges : Walker.Ranges p.range :=
      ⟨Int32.le_iff_toInt_le.1 least, Int32.le_iff_toInt_le.1 most⟩
    obtain ⟨corner, located, _⟩ := packable.exists_minBlock
    obtain ⟨groups, after, drawn, _⟩ := discover_spec located
      (fun chosen => toNat_lt_of_ne fun top => fits ⟨chosen, top⟩) found
    refine ⟨_, after, drawn, fun seed _ => ⟨?_, ?_⟩⟩
    · exact (Walker.span_eq ranges).imp fun _ span => span.1
    · exact (Walker.exists_start p.range p.caves seed (.inr ranges)).imp fun _ walker => walker.1

end CaveSeed

theorem PocketSeed.exists_discover (p : PocketParams) {cube : CubeCoord} {corner : BlockPos}
    (located : cube.minBlock = .ok corner) (s : Stream) (found : Array PocketSeed) :
    ∃ pushed after, discover p cube s found = .ok (found ++ pushed, after) := by
  simp only [discover, located, ok_bind]
  split
  case isTrue => exact ⟨#[_], _, rfl⟩
  case isFalse => exact ⟨#[], _, by rw [Array.append_empty]; rfl⟩

/-- The stream of this seed starts with a zero word. -/
def zeroSeed : UInt64 := 0x3e66cbc09

theorem nextUInt32_zeroSeed : (Stream.ofSeed zeroSeed).nextUInt32.1 = 0 := by decide +kernel

theorem Stream.oneIn_of_zero {s : Stream} (zero : s.nextUInt32.1 = 0) (n : UInt32) :
    (s.oneIn n).1 = true := by
  have lowest : (s.below n).1 = 0 := by
    rw [below]
    split
    case isTrue => rfl
    case isFalse =>
      generalize s.nextUInt32 = drawn at zero ⊢
      obtain ⟨w, s⟩ := drawn
      cases zero
      simp
  rw [oneIn]
  generalize s.below n = drawn at lowest ⊢
  obtain ⟨draw, s⟩ := drawn
  cases lowest
  rfl

namespace CaveSeed

/-- Settings that pass their check draw seeds everywhere in the packed range, except when they allow
for as many nodes as a word can tell and the first roll comes up. Pockets never fail. -/
theorem discovery_completes_iff {p : Params} (accepted : p.check = .ok ()) :
    (∀ cube s found, cube.Packable → (Discovers p cube s found ↔ ¬ Overruns p.caves s)) ∧
    (∀ cube s found, cube.Packable → Overruns p.caves s →
      discover p.caves cube s found = .error .overflow) ∧
    ((∀ cube s found, cube.Packable → Discovers p cube s found) ↔
      p.caves.maxInitNodes ≠ 4294967295) ∧
    ∀ cube s found, cube.Packable → ∃ pushed after,
      PocketSeed.discover p.pockets cube s found = .ok (found ++ pushed, after) := by
  refine ⟨fun cube s found packable => discovers_iff accepted packable s found,
    fun cube s found _ overruns => discover_of_overruns overruns cube found, ⟨?_, ?_⟩, ?_⟩
  · intro everywhere most
    have middle : (⟨0, 0, 0⟩ : CubeCoord).Packable := by decide
    exact (discovers_iff accepted middle _ #[]).1 (everywhere _ (.ofSeed zeroSeed) #[] middle)
      ⟨Stream.oneIn_of_zero nextUInt32_zeroSeed _, most⟩
  · intro room cube s found packable
    exact (discovers_iff accepted packable s found).2 fun overruns => room overruns.2
  · intro cube s found packable
    obtain ⟨corner, located, _⟩ := packable.exists_minBlock
    exact PocketSeed.exists_discover p.pockets located s found

theorem discovery_completes_default : Params.check {} = .ok () ∧
    Discovers {} ⟨-1048576, 1048575, 3⟩ (.ofSeed zeroSeed) #[] := by
  have edge : (⟨-1048576, 1048575, 3⟩ : CubeCoord).Packable := by decide
  obtain ⟨discovers, _⟩ := discovery_completes_iff (p := {}) rfl
  exact ⟨rfl, (discovers _ _ _ edge).2 fun overruns => absurd overruns.2 (by decide)⟩

def boundlessParams : Params := { caves := { rarity := 1, maxInitNodes := 4294967295 } }

theorem discovery_overflows : boundlessParams.check = .ok () ∧ (⟨0, 0, 0⟩ : CubeCoord).Packable ∧
    discover boundlessParams.caves ⟨0, 0, 0⟩ (.forCube 0x2542080 ⟨0, 0, 0⟩) #[] =
      .error .overflow := by
  have chosen : ((Stream.forCube 0x2542080 ⟨0, 0, 0⟩).oneIn 1).1 = true := by decide +kernel
  exact ⟨rfl, by decide, discover_of_overruns ⟨chosen, rfl⟩ _ _⟩

end CaveSeed

end Karst
