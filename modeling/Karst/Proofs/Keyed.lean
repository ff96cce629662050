import Mathlib.Data.List.Nodup

namespace Karst

variable {α κ : Type} {key : α → κ} {entries others : List α} {hit : α → Bool} {k : κ}

theorem find?_eq_some_iff_of_nodup_map (apart : (entries.map key).Nodup)
    (hits : ∀ a, hit a = true ↔ key a = k) {a : α} :
    entries.find? hit = some a ↔ a ∈ entries ∧ key a = k := by
  constructor
  · intro found
    exact ⟨List.mem_of_find?_eq_some found, (hits a).1 (List.find?_some found)⟩
  · rintro ⟨member, here⟩
    cases found : entries.find? hit with
    | none => exact absurd ((hits a).2 here) (List.find?_eq_none.1 found a member)
    | some other =>
      have there : key other = k := (hits other).1 (List.find?_some found)
      rw [List.inj_on_of_nodup_map apart (List.mem_of_find?_eq_some found) member
        (there.trans here.symm)]

theorem find?_eq_find?_of_perm (apart : (entries.map key).Nodup)
    (hits : ∀ a, hit a = true ↔ key a = k) (perm : others.Perm entries) :
    others.find? hit = entries.find? hit := by
  apply Option.ext
  intro a
  rw [find?_eq_some_iff_of_nodup_map ((perm.map key).nodup_iff.2 apart) hits,
    find?_eq_some_iff_of_nodup_map apart hits, perm.mem_iff]

end Karst
