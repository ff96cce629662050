import Karst.Region
import Karst.Proofs.Geometry.Order
import Karst.Proofs.Pipeline.History

namespace Karst

open Guarded

structure RegionTotals where
  cubes : Nat
  stone : Nat
  carved : Nat
  pocketVoxels : Nat
  checksum : UInt64

def RegionReport.totals (r : RegionReport) : RegionTotals :=
  ⟨r.cubes, r.stone, r.stats.carved, r.stats.pocketVoxels, r.checksum⟩

structure Turn where
  moves : List JobMove
  clock : Readings
  cube : CubeCoord

namespace Site

def hint (s : Site) (world : World) (moves : List JobMove) (cube : CubeCoord) : Site :=
  let s := moves.foldl background s
  { s with generator := s.generator.pregenerate world cube }

def hintAll (s : Site) (world : World) (hints : List (List JobMove × CubeCoord)) : Site :=
  hints.foldl (fun s (moves, cube) => s.hint world moves cube) s

end Site

/-- The report of a run so far and the buffers of the running jobs. -/
structure Survey where
  run : RegionRun
  bench : List (Option (Array Float))

namespace Survey

def takeTurn (world : World) (v : Survey) (t : Turn) : Guarded Survey := do
  let s := t.moves.foldl Site.background ⟨v.run.generator, v.bench⟩
  let (_, cube, generator) ←
    s.generator.generateFull world (.empty t.cube) (fun _ => .plains) t.clock
  let stone := v.run.stone + cube.count (· == .stone)
  return ⟨⟨generator, stone, (t.cube, cube.checksum) :: v.run.sums⟩, s.bench⟩

def report (world : World) (hints : List (List JobMove × CubeCoord)) (turns : List Turn) :
    Guarded RegionReport := do
  let s := (⟨.ofParams world.params, []⟩ : Site).hintAll world hints
  let v ← turns.foldlM (takeTurn world) ⟨{ generator := s.generator }, s.bench⟩
  return v.run.report

end Survey

/-- What a run over `cubes` may end in: its background work left to itself, or done before the first
cube as `generateRegion` has it. -/
inductive RunsTo (world : World) (cubes : List CubeCoord) : Guarded RegionReport → Prop
  | interleaved {hints turns} (hinted : hints.map Prod.snd = cubes)
      (turned : turns.map Turn.cube = cubes) : RunsTo world cubes (Survey.report world hints turns)
  | drained {τ : Type} (clock : StateM τ Instant) (s : τ) :
      RunsTo world cubes (generateRegion clock world cubes s).1

def Plain.survey (world : World) (cubes : List CubeCoord) :
    Guarded (List (CubeCoord × Outcome)) :=
  cubes.mapM fun c => do
    let o ← Plain.generateFull world (.empty c) fun _ => .plains
    return (c, o)

def RegionTotals.ofOutcomes (done : List (CubeCoord × Outcome)) : RegionTotals where
  cubes := done.length
  stone := (done.map fun p => p.2.cube.count (· == .stone)).sum
  carved := (done.map fun p => p.2.carved).sum
  pocketVoxels := (done.map fun p => p.2.filled).sum
  checksum := RegionRun.checksum (done.map fun p => (p.1, p.2.cube.checksum))

theorem CubeCoord.eq_of_isLE {a b : CubeCoord} (le : (compare a b).isLE) (ge : (compare b a).isLE) :
    a = b := by
  have same : compare a b = .eq := Std.OrientedCmp.isLE_antisymm le ge
  exact Std.LawfulEqOrd.eq_of_compare same

theorem RegionRun.checksum_perm {sums other : List (CubeCoord × UInt64)} (order : sums.Perm other)
    (determined : ∀ p ∈ sums, ∀ q ∈ sums, p.1 = q.1 → p = q) : checksum sums = checksum other := by
  have sorted (list : List (CubeCoord × UInt64)) :
      (list.mergeSort fun a b => (compare a.1 b.1).isLE).Pairwise
        fun a b => (compare a.1 b.1).isLE := by
    refine List.pairwise_mergeSort ?_ ?_ list
    · intro a b c first second
      exact Std.TransOrd.isLE_trans first second
    · intro a b
      rw [Bool.or_eq_true, Std.OrientedOrd.eq_swap (a := b.1) (b := a.1)]
      cases compare a.1 b.1 <;> simp
  have permuted := ((List.mergeSort_perm sums fun a b => (compare a.1 b.1).isLE).trans order).trans
    (List.mergeSort_perm other fun a b => (compare a.1 b.1).isLE).symm
  have same := List.Perm.eq_of_pairwise (fun a b first second le ge => ?_) (sorted sums)
    (sorted other) permuted
  · rw [checksum, checksum, same]
  · -- equal coordinates mean equal sums, so the order is antisymmetric on them
    have inFirst := (List.mergeSort_perm sums _).mem_iff.1 first
    have inSecond := order.mem_iff.2 ((List.mergeSort_perm other _).mem_iff.1 second)
    exact determined a inFirst b inSecond (CubeCoord.eq_of_isLE le ge)

/-- The run has made exactly the cubes `done`, each as it comes out alone. -/
structure RegionRun.Tallies (world : World) (run : RegionRun) (done : List (CubeCoord × Outcome)) :
    Prop where
  sound : run.generator.Sound fun _ => world.params
  stone : run.stone = (done.map fun p => p.2.cube.count (· == .stone)).sum
  carved : run.generator.carved = (done.map fun p => p.2.carved).sum
  pocketVoxels : run.generator.pocketVoxels = (done.map fun p => p.2.filled).sum
  sums : run.sums.Perm (done.map fun p => (p.1, p.2.cube.checksum))

namespace RegionRun.Tallies

variable {world : World} {run : RegionRun} {done : List (CubeCoord × Outcome)}

theorem start (world : World) : Tallies world { generator := .ofParams world.params } [] :=
  ⟨CubeGenerator.sound_ofParams world.params, rfl, rfl, rfl, .refl _⟩

theorem background (tallies : run.Tallies world done) (bench : List (Option (Array Float)))
    (moves : List JobMove) :
    Tallies world
      { run with generator := (moves.foldl Site.background ⟨run.generator, bench⟩).generator }
      done := by
  induction moves generalizing run bench with
  | nil => exact tallies
  | cons move moves ih =>
    have sound := Site.sound_background (s := ⟨run.generator, bench⟩) tallies.sound move
    have moved : Tallies world
        { run with generator := (Site.background ⟨run.generator, bench⟩ move).generator } done :=
      ⟨sound, tallies.stone, tallies.carved, tallies.pocketVoxels, tallies.sums⟩
    exact ih moved _

theorem drain (tallies : run.Tallies world done) (now : Instant) :
    Tallies world { run with generator := run.generator.drain now } done :=
  ⟨⟨tallies.sound.precalc.drainUpTo now _, tallies.sound.worlds⟩, tallies.stone, tallies.carved,
    tallies.pocketVoxels, tallies.sums⟩

theorem pregenerate (tallies : run.Tallies world done) (c : CubeCoord) :
    Tallies world { run with generator := run.generator.pregenerate world c } done := by
  obtain ⟨sound, carved, pocketVoxels⟩ :=
    CubeGenerator.pregenerate_spec tallies.sound rfl c
  exact ⟨sound, tallies.stone, carved.trans tallies.carved,
    pocketVoxels.trans tallies.pocketVoxels, tallies.sums⟩

theorem next (tallies : run.Tallies world done) (c : CubeCoord) (clock : Readings) :
    Alike (fun out o => Tallies world
        ⟨out.2.2, run.stone + out.2.1.count (· == .stone), (c, out.2.1.checksum) :: run.sums⟩
        (done ++ [(c, o)]))
      (run.generator.generateFull world (.empty c) (fun _ => .plains) clock)
      (Plain.generateFull world (.empty c) fun _ => .plains) := by
  refine (CubeGenerator.generateFull_spec tallies.sound rfl (.empty c) (fun _ => .plains)
    clock).mono ?_
  rintro ⟨count, cube, after⟩ o ⟨_, rfl, kept, carved, pocketVoxels⟩
  simp only at carved pocketVoxels
  refine ⟨kept, ?_, ?_, ?_, ?_⟩
  · simp [tallies.stone]
  · simp [carved, tallies.carved]
  · simp [pocketVoxels, tallies.pocketVoxels]
  · rw [List.map_append]
    exact (tallies.sums.cons _).trans (List.perm_append_singleton ..).symm

theorem totals (tallies : run.Tallies world done)
    (determined : ∀ p ∈ done, ∀ q ∈ done, p.1 = q.1 → p = q) :
    run.report.totals = .ofOutcomes done := by
  have digest : checksum run.sums =
      checksum (done.map fun p => (p.1, p.2.cube.checksum)) := by
    refine (checksum_perm tallies.sums.symm ?_).symm
    simp only [List.mem_map]
    rintro _ ⟨p, first, rfl⟩ _ ⟨q, second, rfl⟩ same
    rw [determined p first q second same]
  have length : run.sums.length = done.length := by
    rw [tallies.sums.length_eq, List.length_map]
  simp only [RegionReport.totals, report, CubeGenerator.stats, length, digest, tallies.stone,
    tallies.carved, tallies.pocketVoxels, RegionTotals.ofOutcomes]

end RegionRun.Tallies

namespace Plain

variable {world : World} {cubes other : List CubeCoord} {done : List (CubeCoord × Outcome)}

theorem survey_cons (c : CubeCoord) (cubes : List CubeCoord) :
    survey world (c :: cubes) = (do
      let o ← generateFull world (.empty c) fun _ => .plains
      let rest ← survey world cubes
      return (c, o) :: rest) := by
  simp only [survey, List.mapM_cons, bind_assoc, pure_bind]

theorem survey_eq_ok_iff : survey world cubes = .ok done ↔
    done.map Prod.fst = cubes ∧ ∀ p ∈ done,
      generateFull world (.empty p.1) (fun _ => .plains) = .ok p.2 := by
  induction cubes generalizing done with
  | nil =>
    cases done with
    | nil => simp [survey]
    | cons p done => simp [survey]
  | cons c cubes ih =>
    rw [survey_cons]
    simp only [bind_eq_ok_iff, pure_eq, Except.ok.injEq]
    constructor
    · rintro ⟨o, made, rest, surveyed, rfl⟩
      obtain ⟨coords, each⟩ := ih.1 surveyed
      refine ⟨by rw [List.map_cons, coords], ?_⟩
      intro p member
      rcases List.mem_cons.1 member with rfl | later
      · exact made
      · exact each p later
    · rintro ⟨coords, each⟩
      cases done with
      | nil => cases coords
      | cons p done =>
        obtain ⟨rfl, tail⟩ := List.cons.inj coords
        exact ⟨p.2, each p (List.mem_cons_self ..), done,
          ih.2 ⟨tail, fun q member => each q (List.mem_cons_of_mem _ member)⟩, rfl⟩

theorem survey_perm (order : cubes.Perm other) (surveyed : survey world cubes = .ok done) :
    ∃ again, survey world other = .ok again ∧ done.Perm again := by
  obtain ⟨coords, each⟩ := survey_eq_ok_iff.1 surveyed
  have lifted : other.Perm (done.map Prod.fst) := coords ▸ order.symm
  obtain ⟨again, rfl, permuted⟩ :=
    (congrFun₂ (List.eq_map_comp_perm Prod.fst) other done).mpr lifted
  refine ⟨again, survey_eq_ok_iff.2 ⟨rfl, ?_⟩, permuted.symm⟩
  intro p member
  exact each p (permuted.mem_iff.1 member)

theorem survey_determined (surveyed : survey world cubes = .ok done) :
    ∀ p ∈ done, ∀ q ∈ done, p.1 = q.1 → p = q := by
  obtain ⟨_, each⟩ := survey_eq_ok_iff.1 surveyed
  intro p first q second same
  have one := each p first
  rw [same, each q second] at one
  exact Prod.ext same (Except.ok.inj one).symm

end Plain

namespace Survey

variable {world : World} {v : Survey} {done : List (CubeCoord × Outcome)}

theorem takeTurn_spec (tallies : v.run.Tallies world done) (t : Turn) :
    Alike (fun v o => v.run.Tallies world (done ++ [(t.cube, o)])) (takeTurn world v t)
      (Plain.generateFull world (.empty t.cube) fun _ => .plains) := by
  refine ((tallies.background v.bench t.moves).next t.cube t.clock).map_left ?_
  intro out o after
  exact ⟨_, rfl, after⟩

theorem turns_spec (tallies : v.run.Tallies world done) (turns : List Turn) :
    Alike (fun v rest => v.run.Tallies world (done ++ rest)) (turns.foldlM (takeTurn world) v)
      (Plain.survey world (turns.map Turn.cube)) := by
  induction turns generalizing v done with
  | nil =>
    refine .ok ?_
    simpa only [List.reverse_nil, List.append_nil] using tallies
  | cons t turns ih =>
    rw [List.foldlM_cons, List.map_cons, Plain.survey_cons]
    refine (takeTurn_spec tallies t).bind ?_
    intro v o after
    refine (ih after).map_right ?_
    intro v rest after
    refine ⟨_, rfl, ?_⟩
    rwa [List.append_cons]

theorem hints_spec (hints : List (List JobMove × CubeCoord)) {s : Site}
    (tallies : RegionRun.Tallies world { generator := s.generator } []) :
    RegionRun.Tallies world { generator := (s.hintAll world hints).generator } [] := by
  induction hints generalizing s with
  | nil => exact tallies
  | cons hint hints ih =>
    obtain ⟨moves, cube⟩ := hint
    exact ih ((tallies.background s.bench moves).pregenerate cube)

theorem report_spec (hints : List (List JobMove × CubeCoord)) (turns : List Turn) :
    Alike (fun r done => ∃ run : RegionRun, r = run.report ∧ run.Tallies world done)
      (report world hints turns) (Plain.survey world (turns.map Turn.cube)) := by
  have hinted := hints_spec (s := ⟨.ofParams world.params, []⟩) hints (.start world)
  refine (turns_spec (v := ⟨_, _⟩) hinted turns).map_left ?_
  intro v done tallies
  exact ⟨_, rfl, v.run, rfl, tallies⟩

end Survey

section Clock

variable {τ α β : Type} {world : World} {run : RegionRun} {done : List (CubeCoord × Outcome)}

theorem bind_fst (x : ExceptT Fault (StateM τ) α) (f : α → ExceptT Fault (StateM τ) β) (s : τ) :
    ((x >>= f) s).1 = (x s).1 >>= fun a => (f a (x s).2).1 := by
  change (ExceptT.bindCont f (x s).1 (x s).2).1 = _
  cases (x s).1 with
  | ok a => rfl
  | error fault => rfl

theorem lift_state (x : StateM τ α) (s : τ) :
    (liftM x : ExceptT Fault (StateM τ) α) s = (.ok (x s).1, (x s).2) := rfl

theorem lift_guarded (x : Guarded α) (s : τ) :
    (liftM x : ExceptT Fault (StateM τ) α) s = (x, s) := rfl

def RegionRun.advanceAll (clock : StateM τ Instant) (world : World) (run : RegionRun)
    (cubes : List CubeCoord) : ExceptT Fault (StateM τ) RegionRun :=
  cubes.foldlM (fun (run : RegionRun) cube => do run.advance world cube (← clock)) run

theorem advanceAll_cons (clock : StateM τ Instant) (c : CubeCoord) (cubes : List CubeCoord)
    (s : τ) :
    (run.advanceAll clock world (c :: cubes) s).1 =
      run.advance world c (clock s).1 >>= fun run =>
        (run.advanceAll clock world cubes (clock s).2).1 := by
  simp only [RegionRun.advanceAll, List.foldlM_cons, bind_assoc]
  rw [bind_fst, lift_state, ok_bind, bind_fst, lift_guarded]

theorem generateRegion_eq (clock : StateM τ Instant) (cubes : List CubeCoord) (s : τ) :
    (generateRegion clock world cubes s).1 =
      ((RegionRun.start world cubes (clock s).1).advanceAll clock world cubes (clock s).2).1 >>=
        fun run => .ok run.report := by
  unfold generateRegion ExceptT.run
  rw [bind_fst, lift_state, ok_bind, bind_fst]
  rfl

theorem advance_spec (tallies : run.Tallies world done) (c : CubeCoord) (now : Instant) :
    Alike (fun run o => run.Tallies world (done ++ [(c, o)])) (run.advance world c now)
      (Plain.generateFull world (.empty c) fun _ => .plains) := by
  refine (tallies.next c (.constant now)).map_left ?_
  intro out o after
  exact ⟨_, rfl, after⟩

theorem advanceAll_spec (tallies : run.Tallies world done) (clock : StateM τ Instant)
    (cubes : List CubeCoord) (s : τ) :
    Alike (fun run rest => run.Tallies world (done ++ rest))
      (run.advanceAll clock world cubes s).1 (Plain.survey world cubes) := by
  induction cubes generalizing run done s with
  | nil =>
    refine .ok ?_
    simpa only [List.reverse_nil, List.append_nil] using tallies
  | cons c cubes ih =>
    rw [advanceAll_cons, Plain.survey_cons]
    refine (advance_spec tallies c (clock s).1).bind ?_
    intro run o after
    refine (ih after (clock s).2).map_right ?_
    intro run rest after
    refine ⟨_, rfl, ?_⟩
    rwa [List.append_cons]

theorem hinted_spec (cubes : List CubeCoord) {g : CubeGenerator}
    (tallies : RegionRun.Tallies world { generator := g } []) :
    RegionRun.Tallies world
      { generator := cubes.foldl (fun g cube => g.pregenerate world cube) g } [] := by
  induction cubes generalizing g with
  | nil => exact tallies
  | cons c cubes ih => exact ih (tallies.pregenerate c)

theorem generateRegion_spec (clock : StateM τ Instant) (cubes : List CubeCoord) (s : τ) :
    Alike (fun r done => ∃ run : RegionRun, r = run.report ∧ run.Tallies world done)
      (generateRegion clock world cubes s).1 (Plain.survey world cubes) := by
  have started := (hinted_spec cubes (.start world)).drain (clock s).1
  rw [generateRegion_eq]
  refine (advanceAll_spec started clock cubes (clock s).2).map_left ?_
  intro run done tallies
  exact ⟨_, rfl, run, rfl, tallies⟩

end Clock

theorem RunsTo.alike {world : World} {cubes : List CubeCoord} {outcome : Guarded RegionReport}
    (run : RunsTo world cubes outcome) :
    Alike (fun r done => r.totals = .ofOutcomes done) outcome (Plain.survey world cubes) := by
  have spec : Alike (fun r done => ∃ run : RegionRun, r = run.report ∧ run.Tallies world done)
      outcome (Plain.survey world cubes) := by
    cases run with
    | interleaved hinted turned =>
      rw [← turned]
      exact Survey.report_spec _ _
    | drained clock s => exact generateRegion_spec clock cubes s
  refine spec.reached.mono ?_
  rintro r done ⟨⟨run, rfl, tallies⟩, _, surveyed⟩
  exact tallies.totals (Plain.survey_determined surveyed)

theorem RegionTotals.ofOutcomes_perm {done again : List (CubeCoord × Outcome)}
    (order : done.Perm again) (determined : ∀ p ∈ done, ∀ q ∈ done, p.1 = q.1 → p = q) :
    ofOutcomes done = ofOutcomes again := by
  have digest := RegionRun.checksum_perm (order.map fun p => (p.1, p.2.cube.checksum)) (by
    simp only [List.mem_map]
    rintro _ ⟨p, first, rfl⟩ _ ⟨q, second, rfl⟩ same
    rw [determined p first q second same])
  simp only [ofOutcomes, order.length_eq, digest, (order.map _).sum_eq]

/-- Whatever the order of the cubes, the background work and the clock: a region that can be
generated is generated to the same totals. -/
theorem totals_eq_of_perm {world : World} {cubes other : List CubeCoord} (order : cubes.Perm other)
    {report : RegionReport} {outcome : Guarded RegionReport} (run : RunsTo world cubes (.ok report))
    (rerun : RunsTo world other outcome) :
    ∃ again, outcome = .ok again ∧ again.totals = report.totals := by
  obtain ⟨done, surveyed, totals⟩ := run.alike.exists_right rfl
  obtain ⟨permuted, resurveyed, perm⟩ := Plain.survey_perm order surveyed
  obtain ⟨again, ended, retotals⟩ := rerun.alike.exists_left resurveyed
  refine ⟨again, ended, ?_⟩
  rw [totals, retotals, RegionTotals.ofOutcomes_perm perm (Plain.survey_determined surveyed)]

theorem totals_of_reversed : ∃ report again,
    RunsTo (hollowWorld 5) [⟨0, 0, 0⟩, ⟨1, 0, 0⟩] (.ok report) ∧
      RunsTo (hollowWorld 5) [⟨1, 0, 0⟩, ⟨0, 0, 0⟩] (.ok again) ∧ again.totals = report.totals := by
  have order : [(⟨0, 0, 0⟩ : CubeCoord), ⟨1, 0, 0⟩].Perm [⟨1, 0, 0⟩, ⟨0, 0, 0⟩] := .swap _ _ _
  obtain ⟨o, here⟩ := hollowWorld_generateFull 5 (fun _ => .plains)
    (c := .empty ⟨0, 0, 0⟩) (by decide) (Cube.wellFormed_filled ⟨0, 0, 0⟩ .air)
  obtain ⟨p, there⟩ := hollowWorld_generateFull 5 (fun _ => .plains)
    (c := .empty ⟨1, 0, 0⟩) (by decide) (Cube.wellFormed_filled ⟨1, 0, 0⟩ .air)
  have surveyed : Plain.survey (hollowWorld 5) [⟨0, 0, 0⟩, ⟨1, 0, 0⟩] =
      .ok [(⟨0, 0, 0⟩, o), (⟨1, 0, 0⟩, p)] :=
    Plain.survey_eq_ok_iff.2 ⟨rfl, by simp [here, there]⟩
  have first : RunsTo (hollowWorld 5) [⟨0, 0, 0⟩, ⟨1, 0, 0⟩] (Survey.report (hollowWorld 5)
      [([], ⟨0, 0, 0⟩), ([.start, .check 0], ⟨1, 0, 0⟩)]
      [⟨[.store 0 7], .constant 8, ⟨0, 0, 0⟩⟩, ⟨[], .constant 9, ⟨1, 0, 0⟩⟩]) :=
    .interleaved rfl rfl
  have second : RunsTo (hollowWorld 5) [⟨1, 0, 0⟩, ⟨0, 0, 0⟩] (generateRegion
      (pure 4 : StateM Unit Instant) (hollowWorld 5) [⟨1, 0, 0⟩, ⟨0, 0, 0⟩] ()).1 := .drained _ _
  obtain ⟨report, ended, _⟩ := first.alike.exists_left surveyed
  rw [ended] at first
  obtain ⟨again, done, same⟩ := totals_eq_of_perm order first second
  rw [done] at second
  exact ⟨report, again, first, second, same⟩

end Karst
