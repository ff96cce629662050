import Karst.Settings.Check
import Karst.Proofs.Guarded

namespace Karst

theorem Verdict.bind_eq_ok_iff {first : Verdict} {next : Unit → Verdict} :
    first >>= next = .ok () ↔ first = .ok () ∧ next () = .ok () := by
  cases first <;> simp [bind, Except.bind]

theorem NoiseLayer.check_eq_ok_iff (l : NoiseLayer) : l.check = .ok () ↔
    (0 < l.span ∧ cubeSize % l.span = 0) ∧ 1 ≤ l.octaves ∧ 0 < l.frequency := by
  rw [check, Verdict.bind_eq_ok_iff, require_eq_ok_iff, require_eq_ok_iff]

theorem check_of_checkLayers {earlier layers : List NoiseLayer}
    (accepted : checkLayers earlier layers = .ok ()) : ∀ l ∈ layers, l.check = .ok () := by
  induction layers generalizing earlier with
  | nil => simp
  | cons l layers ih =>
    simp only [checkLayers, Verdict.bind_eq_ok_iff] at accepted
    obtain ⟨first, _, rest⟩ := accepted
    exact List.forall_mem_cons.2 ⟨first, ih rest⟩

theorem span_dvd_of_checkLayers {layers : List NoiseLayer}
    (accepted : checkLayers [] layers = .ok ()) : ∀ l ∈ layers, l.span ∣ cubeSize := by
  intro l member
  obtain ⟨⟨_, whole⟩, _⟩ := l.check_eq_ok_iff.1 (check_of_checkLayers accepted l member)
  exact Nat.dvd_of_mod_eq_zero whole

theorem Params.check_eq_ok_iff (p : Params) : p.check = .ok () ↔
    (1 ≤ p.range ∧ p.range ≤ 32) ∧ p.caves.check = .ok () ∧ 1 ≤ p.pockets.rarity ∧
      p.caves.checkShape = .ok () ∧ p.pockets.checkShape = .ok () ∧
      (p.cacheTiers ≠ [] ∧ ∀ window ∈ p.cacheTiers, window ≠ 0) ∧
      (p.precalc.queueCapacity ≠ 0 ∧ p.precalc.cacheCapacity ≠ 0) ∧
      checkLayers [] p.layers = .ok () ∧ 0 < p.terrain.verticalScale := by
  simp only [check, Verdict.bind_eq_ok_iff, require_eq_ok_iff]

end Karst
