import Karst.Proofs.Cube.Checksum
import Karst.Proofs.Generation.Overlay
import Karst.Proofs.Region

namespace Karst

open Function Guarded

namespace RegionRun

variable {c : CubeCoord} {s t : UInt64} {sums others : List (CubeCoord × UInt64)}

theorem toNat_rotated (s : UInt64) :
    (s <<< 17 ||| s >>> 47).toNat = s.toNat % 2 ^ 47 * 2 ^ 17 + s.toNat / 2 ^ 47 := by
  have bound := s.toNat_lt
  have low : s.toNat / 2 ^ 47 < 2 ^ 17 := by omega
  rw [UInt64.toNat_or, UInt64.toNat_shiftLeft, UInt64.toNat_shiftRight,
    show (17 : UInt64).toNat % 64 = 17 from rfl, show (47 : UInt64).toNat % 64 = 47 from rfl,
    Nat.shiftRight_eq_div_pow, ← Nat.shiftLeft_eq (s.toNat % 2 ^ 47),
    Nat.shiftLeft_add_eq_or_of_lt low, Nat.shiftLeft_eq, Nat.shiftLeft_eq]
  congr 1
  omega

theorem rotated_injective : Injective fun s : UInt64 => s <<< 17 ||| s >>> 47 := by
  intro s t same
  have rotated := congrArg UInt64.toNat same
  simp only [toNat_rotated] at rotated
  have sBound := s.toNat_lt
  have tBound := t.toNat_lt
  rw [← UInt64.toNat_inj]
  omega

theorem absorb_left_injective (p : CubeCoord × UInt64) : Injective fun h => absorb h p.1 p.2 :=
  Fnv.mul_prime_injective.comp ((masked_injective _).comp (masked_injective _))

theorem absorb_ne (apart : s ≠ t) (h : UInt64) : absorb h c s ≠ absorb h c t := by
  intro same
  have masked := Fnv.mul_prime_injective same
  rw [UInt64.xor_right_inj] at masked
  exact apart (rotated_injective masked)

def resum (c : CubeCoord) (t : UInt64) (p : CubeCoord × UInt64) : CubeCoord × UInt64 :=
  if p.1 = c then (c, t) else p

theorem resum_fst (p : CubeCoord × UInt64) : (resum c t p).1 = p.1 := by
  rw [resum]
  split
  case isTrue here => exact here.symm
  case isFalse => rfl

theorem map_resum {before after : List (CubeCoord × UInt64)}
    (distinct : ((before ++ (c, s) :: after).map Prod.fst).Nodup) :
    (before ++ (c, s) :: after).map (resum c t) = before ++ (c, t) :: after := by
  have untouched {list : List (CubeCoord × UInt64)} (absent : ∀ p ∈ list, p.1 ≠ c) :
      list.map (resum c t) = list := by
    refine (List.map_congr_left fun p member => ?_).trans (List.map_id list)
    exact if_neg (absent p member)
  rw [List.map_append, List.map_cons, List.nodup_append, List.nodup_cons] at distinct
  obtain ⟨-, ⟨notAfter, -⟩, apart⟩ := distinct
  have inBefore : ∀ p ∈ before, p.1 ≠ c := fun p member =>
    apart p.1 (List.mem_map_of_mem member) c (List.mem_cons_self ..)
  have inAfter : ∀ p ∈ after, p.1 ≠ c := by
    rintro p member rfl
    exact notAfter (List.mem_map.2 ⟨p, member, rfl⟩)
  rw [List.map_append, List.map_cons, untouched inBefore, untouched inAfter, resum, if_pos rfl]

def precedes (a b : CubeCoord × UInt64) : Bool := (compare a.1 b.1).isLE

theorem checksum_eq (sums : List (CubeCoord × UInt64)) : checksum sums =
    (sums.mergeSort precedes).foldl (fun h p => absorb h p.1 p.2) Fnv.start := rfl

theorem checksum_resum_ne (distinct : (sums.map Prod.fst).Nodup) (member : (c, s) ∈ sums)
    (apart : s ≠ t) : checksum sums ≠ checksum (sums.map (resum c t)) := by
  have order := List.mergeSort_perm sums precedes
  obtain ⟨before, after, sorted⟩ := List.append_of_mem (order.mem_iff.2 member)
  have resorted : (sums.map (resum c t)).mergeSort precedes = before ++ (c, t) :: after := by
    -- the coordinates stay, and with them the order
    rw [← List.map_mergeSort (r := precedes) fun a _ b _ => by
      rw [precedes, precedes, resum_fst, resum_fst], sorted, map_resum]
    rw [← sorted]
    exact (order.map Prod.fst).nodup_iff.2 distinct
  rw [checksum_eq, checksum_eq, resorted, sorted]
  exact foldl_ne (v := (c, s)) (w := (c, t)) absorb_left_injective before after
    (absorb_ne apart) _

theorem checksum_ne (distinct : (sums.map Prod.fst).Nodup)
    (cubes : (sums.map Prod.fst).Perm (others.map Prod.fst)) (here : (c, s) ∈ sums)
    (there : (c, t) ∈ others) (apart : s ≠ t)
    (rest : ∀ d ≠ c, ∀ x y, (d, x) ∈ sums → (d, y) ∈ others → x = y) :
    checksum sums ≠ checksum others := by
  have keys : (sums.map (resum c t)).map Prod.fst = sums.map Prod.fst := by
    rw [List.map_map]
    exact List.map_congr_left fun p _ => resum_fst p
  have determined : ∀ p ∈ others, ∀ q ∈ others, p.1 = q.1 → p = q :=
    fun p first q second => List.inj_on_of_nodup_map (cubes.nodup_iff.1 distinct) first second
  have included : sums.map (resum c t) ⊆ others := by
    intro q member
    obtain ⟨⟨d, x⟩, old, rfl⟩ := List.mem_map.1 member
    obtain ⟨⟨d', y⟩, new, rfl⟩ := List.mem_map.1 (cubes.mem_iff.1 (List.mem_map_of_mem old))
    by_cases same : d' = c
    · rwa [resum, if_pos same]
    · rwa [resum, if_neg same, rest d' same x y old new]
  have length : others.length ≤ (sums.map (resum c t)).length := by
    have sizes := cubes.length_eq
    rw [List.length_map, List.length_map] at sizes
    rw [List.length_map, sizes]
  have order := (List.subperm_of_subset (.of_map Prod.fst (keys ▸ distinct))
    included).perm_of_length_le length
  rw [← checksum_perm order fun p first q second =>
    determined p (included first) q (included second)]
  exact checksum_resum_ne distinct here apart

end RegionRun

/-! ## What a run leaves -/

namespace Site

theorem sound_moves {settings : UInt32 → Params} {s : Site} (sound : s.generator.Sound settings)
    (moves : List JobMove) : (moves.foldl background s).generator.Sound settings :=
  List.foldlRecOn moves background (motive := fun s => s.generator.Sound settings) sound
    fun _ sound move _ => sound_background sound move

def cubes (world : World) : Site → List Turn → Guarded (List (CubeCoord × Cube))
  | _, [] => return []
  | s, t :: turns => do
      let s := t.moves.foldl background s
      let (_, cube, generator) ←
        s.generator.generateFull world (.empty t.cube) (fun _ => .plains) t.clock
      let rest ← cubes world { s with generator } turns
      return (t.cube, cube) :: rest

theorem cubes_spec {world : World} {s : Site} (sound : s.generator.Sound fun _ => world.params)
    (turns : List Turn) :
    Alike (fun left done => left = done.map fun p => (p.1, p.2.cube)) (s.cubes world turns)
      (Plain.survey world (turns.map Turn.cube)) := by
  induction turns generalizing s with
  | nil => exact .ok rfl
  | cons t turns ih =>
    rw [cubes, List.map_cons, Plain.survey_cons]
    refine (CubeGenerator.generateFull_spec (sound_moves sound t.moves) rfl (.empty t.cube)
      (fun _ => .plains) t.clock).bind ?_
    rintro ⟨count, cube, generator⟩ o ⟨_, rfl, kept, _⟩
    refine (ih kept).bind ?_
    rintro _ done rfl
    exact .ok rfl

end Site

def Turn.clocked {τ : Type} (clock : StateM τ Instant) : List CubeCoord → τ → List Turn
  | [], _ => []
  | c :: cubes, s => ⟨[], .constant (clock s).1, c⟩ :: clocked clock cubes (clock s).2

theorem Turn.map_cube_clocked {τ : Type} (clock : StateM τ Instant) (cubes : List CubeCoord)
    (s : τ) : (clocked clock cubes s).map Turn.cube = cubes := by
  induction cubes generalizing s with
  | nil => rfl
  | cons c cubes ih => exact congrArg (c :: ·) (ih _)

/-- What a run over `cubes` may end in, and the cubes it leaves behind. -/
inductive Leaves (world : World) (cubes : List CubeCoord) :
    Guarded RegionReport → Guarded (List (CubeCoord × Cube)) → Prop
  | interleaved {hints turns} (hinted : hints.map Prod.snd = cubes)
      (turned : turns.map Turn.cube = cubes) :
      Leaves world cubes (Survey.report world hints turns)
        (((⟨.ofParams world.params, []⟩ : Site).hintAll world hints).cubes world turns)
  | drained {τ : Type} (clock : StateM τ Instant) (s : τ) :
      Leaves world cubes (generateRegion clock world cubes s).1
        (Site.cubes world ⟨(RegionRun.start world cubes (clock s).1).generator, []⟩
          (Turn.clocked clock cubes (clock s).2))

def RegionRun.digest (left : List (CubeCoord × Cube)) : UInt64 :=
  checksum (left.map fun p => (p.1, p.2.checksum))

variable {world : World} {cubes : List CubeCoord} {outcome : Guarded RegionReport}

theorem RunsTo.exists_leaves (run : RunsTo world cubes outcome) :
    ∃ left, Leaves world cubes outcome left := by
  cases run with
  | interleaved hinted turned => exact ⟨_, .interleaved hinted turned⟩
  | drained clock s => exact ⟨_, .drained clock s⟩

theorem Leaves.runsTo {left : Guarded (List (CubeCoord × Cube))}
    (leaves : Leaves world cubes outcome left) : RunsTo world cubes outcome := by
  cases leaves with
  | interleaved hinted turned => exact .interleaved hinted turned
  | drained clock s => exact .drained clock s

theorem Leaves.eq_survey {left : Guarded (List (CubeCoord × Cube))}
    (leaves : Leaves world cubes outcome left) :
    Alike (fun left done => left = done.map fun p => (p.1, p.2.cube)) left
      (Plain.survey world cubes) := by
  cases leaves with
  | interleaved hinted turned =>
    rw [← turned]
    exact Site.cubes_spec (Survey.hints_spec _ (.start world)).sound _
  | drained clock s =>
    have spec := Site.cubes_spec
      (s := ⟨(RegionRun.start world cubes (clock s).1).generator, []⟩)
      ((hinted_spec cubes (.start world)).drain (clock s).1).sound
      (Turn.clocked clock cubes (clock s).2)
    rwa [Turn.map_cube_clocked] at spec

theorem Leaves.alike {left : Guarded (List (CubeCoord × Cube))}
    (leaves : Leaves world cubes outcome left) :
    Alike (fun r left => r.checksum = RegionRun.digest left ∧ left.map Prod.fst = cubes ∧
      ∀ p ∈ left, p.2.WellFormed) outcome left := by
  refine (leaves.runsTo.alike.trans leaves.eq_survey.reached.symm).mono ?_
  rintro r left ⟨done, totals, rfl, _, surveyed⟩
  obtain ⟨coords, each⟩ := Plain.survey_eq_ok_iff.1 surveyed
  refine ⟨?_, ?_, ?_⟩
  · have sums := congrArg RegionTotals.checksum totals
    rw [RegionRun.digest, List.map_map]
    exact sums
  · rw [List.map_map]
    exact coords
  · simp only [List.mem_map]
    rintro _ ⟨p, member, rfl⟩
    have empty := Cube.wellFormed_filled p.1 .air
    obtain ⟨o, made, same⟩ := (Plain.generateFull_same world empty empty rfl
      fun _ => .plains).exists_right (each p member)
    exact same.cube.left

def RegionRun.OneBlockApart (left other : List (CubeCoord × Cube)) : Prop :=
  ∃ c a b, (c, a) ∈ left ∧ (c, b) ∈ other ∧ a.OneBlockApart b ∧
    ∀ d ≠ c, ∀ a b, (d, a) ∈ left → (d, b) ∈ other → a.SameBlocks b

theorem RegionRun.digest_ne {left other : List (CubeCoord × Cube)}
    (distinct : (left.map Prod.fst).Nodup) (cubes : (left.map Prod.fst).Perm (other.map Prod.fst))
    (leftWf : ∀ p ∈ left, p.2.WellFormed) (otherWf : ∀ p ∈ other, p.2.WellFormed)
    (apart : OneBlockApart left other) : digest left ≠ digest other := by
  obtain ⟨c, a, b, here, there, differ, rest⟩ := apart
  have coords (list : List (CubeCoord × Cube)) :
      (list.map fun p => (p.1, p.2.checksum)).map Prod.fst = list.map Prod.fst := by
    rw [List.map_map]
    rfl
  refine checksum_ne (by rwa [coords]) (by rwa [coords, coords])
    (List.mem_map.2 ⟨_, here, rfl⟩) (List.mem_map.2 ⟨_, there, rfl⟩)
    (differ.checksum_ne (leftWf _ here) (otherWf _ there)) ?_
  intro d elsewhere x y first second
  obtain ⟨⟨_, a⟩, inLeft, ⟨⟩⟩ := List.mem_map.1 first
  obtain ⟨⟨_, b⟩, inOther, ⟨⟩⟩ := List.mem_map.1 second
  exact (rest _ elsewhere a b inLeft inOther).checksum_eq (leftWf _ inLeft) (otherWf _ inOther)

/-- A change of one block changes its cube's checksum, whatever the storage, and a change of one
cube's checksum changes the digest, so that two runs over one region with one digest are not just
one block apart. -/
theorem one_change_shows :
    (∀ a b : Cube, a.WellFormed → b.WellFormed → a.OneBlockApart b → a.checksum ≠ b.checksum) ∧
    (∀ before after c s t, ((before ++ (c, s) :: after).map Prod.fst).Nodup → s ≠ t →
      RegionRun.checksum (before ++ (c, s) :: after) ≠
        RegionRun.checksum (before ++ (c, t) :: after)) ∧
    (∀ world cubes r, RunsTo world cubes (.ok r) → ∃ left, Leaves world cubes (.ok r) (.ok left) ∧
      left.map Prod.fst = cubes ∧ r.checksum = RegionRun.digest left) ∧
    ∀ world cubes r left otherWorld again other remade, cubes.Nodup → cubes.Perm again →
      Leaves world cubes (.ok r) (.ok left) → Leaves otherWorld again (.ok other) (.ok remade) →
      r.checksum = other.checksum → ¬ RegionRun.OneBlockApart left remade := by
  refine ⟨fun a b left right apart => apart.checksum_ne left right, ?_, ?_, ?_⟩
  · intro before after c s t distinct apart
    rw [← RegionRun.map_resum (t := t) distinct]
    exact RegionRun.checksum_resum_ne distinct (by simp) apart
  · intro world cubes r run
    obtain ⟨left, leaves⟩ := run.exists_leaves
    obtain ⟨made, rfl, digest, coords, _⟩ := leaves.alike.exists_right rfl
    exact ⟨made, leaves, coords, digest⟩
  · intro world cubes r left otherWorld again other remade distinct order leaves reruns same apart
    obtain ⟨_, ⟨⟩, digest, rfl, leftWf⟩ := leaves.alike.exists_right rfl
    obtain ⟨_, ⟨⟩, redigest, rfl, otherWf⟩ := reruns.alike.exists_right rfl
    exact RegionRun.digest_ne distinct order leftWf otherWf apart
      (digest.symm.trans (same.trans redigest))

theorem one_change_shows_in_hollowWorld :
    (∃ after, (Cube.filled ⟨0, 0, 0⟩ .stone).set ⟨1, 2, 3⟩ .lava = .ok after ∧
      (Cube.filled ⟨0, 0, 0⟩ .stone).checksum ≠ after.checksum) ∧
    RegionRun.checksum [(⟨1, 0, 0⟩, 4), (⟨0, 0, 0⟩, 5)] ≠
      RegionRun.checksum [(⟨1, 0, 0⟩, 4), (⟨0, 0, 0⟩, 6)] ∧
    ∃ r other left remade, Leaves (hollowWorld 5) [⟨0, 0, 0⟩] (.ok r) (.ok left) ∧
      Leaves (hollowWorld 5) [⟨0, 0, 0⟩] (.ok other) (.ok remade) ∧ r.checksum = other.checksum ∧
      ¬ RegionRun.OneBlockApart left remade := by
  obtain ⟨cube, region, run, pair⟩ := one_change_shows
  refine ⟨?_, region [(⟨1, 0, 0⟩, 4)] [] ⟨0, 0, 0⟩ 5 6 (by decide) (by decide), ?_⟩
  · have stone := Cube.wellFormed_filled ⟨0, 0, 0⟩ .stone
    have place : (⟨1, 2, 3⟩ : LocalPos).Inside := by decide
    obtain ⟨after, done, wf, _, blocks⟩ := Cube.set_spec stone place .lava
    refine ⟨after, done, cube _ _ stone wf ⟨⟨1, 2, 3⟩, place, ?_, ?_⟩⟩
    · rw [Cube.get_eq_blockAt stone place, Cube.get_eq_blockAt wf place, blocks _ place,
        if_pos rfl, Cube.blockAt_filled _ _ place]
      decide
    · intro q inside away
      rw [Cube.get_eq_blockAt stone inside, Cube.get_eq_blockAt wf inside, blocks q inside,
        if_neg away]
  · obtain ⟨o, alone⟩ := hollowWorld_generateFull 5 (fun _ => .plains)
      (c := .empty ⟨0, 0, 0⟩) (by decide) (Cube.wellFormed_filled ⟨0, 0, 0⟩ .air)
    have surveyed : Plain.survey (hollowWorld 5) [⟨0, 0, 0⟩] = .ok [(⟨0, 0, 0⟩, o)] :=
      Plain.survey_eq_ok_iff.2 ⟨rfl, by simp [alone]⟩
    have first : RunsTo (hollowWorld 5) [⟨0, 0, 0⟩] (Survey.report (hollowWorld 5)
        [([.start], ⟨0, 0, 0⟩)] [⟨[.store 0 7], .constant 8, ⟨0, 0, 0⟩⟩]) := .interleaved rfl rfl
    have second : RunsTo (hollowWorld 5) [⟨0, 0, 0⟩] (generateRegion (pure 4 : StateM Unit Instant)
        (hollowWorld 5) [⟨0, 0, 0⟩] ()).1 := .drained _ _
    obtain ⟨r, ended, totals⟩ := first.alike.exists_left surveyed
    obtain ⟨other, reended, retotals⟩ := second.alike.exists_left surveyed
    rw [ended] at first
    rw [reended] at second
    have same : r.checksum = other.checksum :=
      congrArg RegionTotals.checksum (totals.trans retotals.symm)
    obtain ⟨left, leaves, _⟩ := run _ _ _ first
    obtain ⟨remade, releaves, _⟩ := run _ _ _ second
    exact ⟨r, other, left, remade, leaves, releaves, same,
      pair _ _ _ _ _ _ _ _ (by simp) (.refl _) leaves releaves same⟩

end Karst
