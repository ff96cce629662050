import Karst.Feature.Driver
import Karst.Proofs.Cache.Tiered
import Karst.Proofs.Feature.Growth

namespace Karst

variable {σ κ : Type}

/-- The trees `held` under a key stand on the plot of that key, as a forest that `grown` admits. -/
structure Stocked (arena : FeatureArena σ) (held : κ → Option (Array Handle)) (plots : κ → List Nat)
    (grown : κ → Forest σ → Prop) : Prop where
  tidy : arena.Tidy FeatureNode.Blank
  planted : ∀ key roots, held key = some roots → (plots key).Nodup ∧
    ∃ forest, Planted arena roots.toList forest (plots key) ∧ grown key forest
  bare : ∀ key, held key = none → plots key = []
  apart : ∀ key other, key ≠ other → (plots key).Disjoint (plots other)
  live : ∀ i, arena.IsLive i ↔ ∃ key, i ∈ plots key

namespace Stocked

variable {arena other : FeatureArena σ} {held : κ → Option (Array Handle)} {plots : κ → List Nat}
  {grown : κ → Forest σ → Prop}

theorem empty (bare : ∀ key, held key = none) (tidy : arena.Tidy FeatureNode.Blank)
    (dead : ∀ i, ¬ arena.IsLive i) : Stocked arena held (fun _ => []) grown := by
  refine ⟨tidy, ?_, fun _ _ => rfl, ?_, ?_⟩
  · intro key roots found
    rw [bare key] at found
    cases found
  · simp
  · simpa using dead

variable [DecidableEq κ]

theorem update (stocked : Stocked arena held plots grown) {key : κ}
    {found : Option (Array Handle)} {slots : List Nat} (tidy : other.Tidy FeatureNode.Blank)
    (here : ∀ roots, found = some roots → slots.Nodup ∧
      ∃ forest, Planted other roots.toList forest slots ∧ grown key forest)
    (bare : found = none → slots = [])
    (kept : ∀ k, k ≠ key → ∀ roots forest, Planted arena roots forest (plots k) →
      Planted other roots forest (plots k))
    (apart : ∀ k, k ≠ key → (plots k).Disjoint slots)
    (live : ∀ i, other.IsLive i ↔ i ∈ slots ∨ ∃ k, k ≠ key ∧ i ∈ plots k) :
    Stocked other (Function.update held key found) (Function.update plots key slots) grown := by
  refine ⟨tidy, ?_, ?_, ?_, ?_⟩
  · intro k roots present
    by_cases same : k = key
    · subst same
      rw [Function.update_self] at present ⊢
      exact here roots present
    · rw [Function.update_of_ne same] at present ⊢
      obtain ⟨nodup, forest, planted, good⟩ := stocked.planted k roots present
      exact ⟨nodup, forest, kept k same _ _ planted, good⟩
  · intro k missing
    by_cases same : k = key
    · subst same
      rw [Function.update_self] at missing ⊢
      exact bare missing
    · rw [Function.update_of_ne same] at missing ⊢
      exact stocked.bare k missing
  · intro a b different
    by_cases aSame : a = key
    · subst aSame
      rw [Function.update_self, Function.update_of_ne (Ne.symm different)]
      exact (apart b (Ne.symm different)).symm
    · rw [Function.update_of_ne aSame]
      by_cases bSame : b = key
      · subst bSame
        rw [Function.update_self]
        exact apart a aSame
      · rw [Function.update_of_ne bSame]
        exact stocked.apart a b different
  · intro i
    rw [live]
    constructor
    · rintro (new | ⟨k, elsewhere, member⟩)
      · exact ⟨key, by rwa [Function.update_self]⟩
      · exact ⟨k, by rwa [Function.update_of_ne elsewhere]⟩
    · rintro ⟨k, member⟩
      by_cases same : k = key
      · subst same
        rw [Function.update_self] at member
        exact .inl member
      · rw [Function.update_of_ne same] at member
        exact .inr ⟨k, same, member⟩

theorem plant (stocked : Stocked arena held plots grown) {key : κ} (vacant : held key = none)
    {roots : Array Handle} {forest : Forest σ} {slots : List Nat} (more : Grown arena other slots)
    (planted : Planted other roots.toList forest slots) (good : grown key forest) :
    Stocked other (Function.update held key (some roots)) (Function.update plots key slots)
      grown := by
  refine stocked.update more.tidy ?_ ?_ ?_ ?_ ?_
  · intro found same
    cases same
    exact ⟨more.nodup, forest, planted, good⟩
  · intro absent
    cases absent
  · intro k _ found older standing
    exact more.planted standing
  · intro k _ i member new
    exact more.fresh i new ((stocked.live i).2 ⟨k, member⟩)
  · intro i
    rw [more.live, stocked.live, or_comm]
    refine or_congr_right (exists_congr fun k => ?_)
    constructor
    · intro member
      refine ⟨?_, member⟩
      rintro rfl
      rw [stocked.bare k vacant] at member
      cases member
    · exact And.right

theorem drop (stocked : Stocked arena held plots grown) {key : κ} {roots : Array Handle}
    (there : held key = some roots) :
    Stocked (roots.foldl FeatureArena.releaseTree arena) (Function.update held key none)
      (Function.update plots key []) grown := by
  obtain ⟨nodup, forest, planted, _⟩ := stocked.planted key roots there
  have cleared := planted.release stocked.tidy nodup
  rw [Array.foldl_toList] at cleared
  refine stocked.update cleared.tidy ?_ (fun _ => rfl) ?_ ?_ ?_
  · intro found present
    cases present
  · intro k same found older standing
    exact standing.frame fun i member => cleared.kept i (stocked.apart k key same member)
  · intro k _
    exact List.disjoint_nil_right _
  · intro i
    rw [cleared.live, stocked.live]
    constructor
    · rintro ⟨⟨k, member⟩, away⟩
      refine .inr ⟨k, ?_, member⟩
      rintro rfl
      exact away member
    · rintro (none_new | ⟨k, same, member⟩)
      · cases none_new
      · exact ⟨⟨k, member⟩, fun inside => stocked.apart k key same member inside⟩

theorem sweep (stocked : Stocked arena held plots grown) {gone : List (κ × Array Handle)}
    {left : κ → Option (Array Handle)} (nodup : (gone.map Prod.fst).Nodup)
    (there : ∀ p ∈ gone, held p.1 = some p.2)
    (rest : ∀ key, left key = none ∧ key ∈ gone.map Prod.fst ∨
      left key = held key ∧ key ∉ gone.map Prod.fst) :
    ∃ plots, Stocked (gone.foldl (fun arena p => p.2.foldl FeatureArena.releaseTree arena) arena)
      left plots grown := by
  induction gone generalizing arena held plots with
  | nil =>
    have same : left = held := by
      funext key
      simpa using rest key
    exact ⟨plots, same ▸ stocked⟩
  | cons p gone ih =>
    rw [List.map_cons, List.nodup_cons] at nodup
    refine ih (stocked.drop (there p (List.mem_cons_self ..))) nodup.2 ?_ ?_
    · intro q member
      have other : q.1 ≠ p.1 := fun same => nodup.1 (same ▸ List.mem_map_of_mem member)
      rw [Function.update_of_ne other]
      exact there q (List.mem_cons_of_mem _ member)
    · intro key
      have whole := rest key
      rw [List.map_cons, List.mem_cons, not_or] at whole
      by_cases here : key = p.1
      · subst here
        rw [Function.update_self]
        rcases whole with ⟨absent, _⟩ | ⟨_, other, _⟩
        · exact .inr ⟨absent, nodup.1⟩
        · exact (other rfl).elim
      · rw [Function.update_of_ne here]
        rcases whole with ⟨absent, same | member⟩ | ⟨kept, _, away⟩
        · exact (here same).elim
        · exact .inl ⟨absent, member⟩
        · exact .inr ⟨kept, away⟩

end Stocked

end Karst
