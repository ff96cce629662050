import Karst.Proofs.Feature.Transcript
import Karst.Proofs.Generation.Blocks
import Karst.Proofs.Generation.Walk

namespace Karst

open Guarded

/-! ## Turning back -/

section Turn

open Float.Model Float.Model.UnpackedFloat

theorem unpacked_sub (x : UnpackedFloat) {significand : Nat} {exponent : Int}
    (pos : 0 < significand) :
    UnpackedFloat.sub Format.binary32 x (.finite .positive significand exponent pos) =
      UnpackedFloat.add Format.binary32 x (.finite .negative significand exponent pos) := by
  cases x with
  | finite => simp only [UnpackedFloat.sub, UnpackedFloat.add, Sign.apply, Int.sub_eq_add_neg]
  | infinity => rfl
  | notANumber => rfl
  | zero => rfl

theorem add_neg_halfPi32 (yaw : Float32) : yaw + -halfPi32 = yaw - halfPi32 := by
  have ahead : halfPi32.toModel.unpack = .finite .positive 13176795 (-23) (by decide) := rfl
  have back : (-halfPi32).toModel.unpack = .finite .negative 13176795 (-23) (by decide) := rfl
  have same : yaw.toModel + (-halfPi32).toModel = yaw.toModel - halfPi32.toModel := by
    change Float32.Model.pack _ = Float32.Model.pack _
    rw [ahead, back, unpacked_sub]
  exact congrArg Float32.ofModel same

end Turn

namespace CaveSeed

variable {p : CaveParams} {range : Int32} {seed : CaveSeed} {w : Walker}
variable {f g : CaveSeed → Guarded (Script CaveSeed)}

/-! ## Strokes -/

theorem kind_of_mem_strokesOf {step : WalkStep × Walker} {left right : CaveSeed}
    (member : Stroke.split left right ∈ Walker.strokesOf p step) :
    step.1.action = .split ∧ left.kind = .branch ∧ right.kind = .branch := by
  obtain ⟨s, after⟩ := step
  cases acted : s.action with
  | carve => simp [Walker.strokesOf, acted] at member
  | skip => simp [Walker.strokesOf, acted] at member
  | split =>
    simp only [Walker.strokesOf, acted, List.mem_singleton, Stroke.split.injEq] at member
    obtain ⟨rfl, rfl⟩ := member
    exact ⟨rfl, rfl, rfl⟩

theorem mem_strokes (w : Walker) (p : CaveParams) (stroke : Stroke) :
    stroke ∈ w.strokes p w.remaining [] ↔ ∃ step ∈ w.trail p, stroke ∈ Walker.strokesOf p step := by
  rw [Walker.strokes_nil p le_rfl, List.mem_reverse, List.mem_flatMap]

theorem foldlM_carves (walk : CaveSeed → Guarded (Script CaveSeed)) {strokes : List Stroke}
    (plain : ∀ left right, Stroke.split left right ∉ strokes) (rest : Script CaveSeed) :
    ∃ script, strokes.foldlM (strokeScript p walk) rest = .ok script ∧
      script.branches = rest.branches := by
  induction strokes generalizing rest with
  | nil => exact ⟨rest, rfl, rfl⟩
  | cons stroke strokes ih =>
    cases stroke with
    | split left right => exact absurd List.mem_cons_self (plain left right)
    | carve shape =>
      obtain ⟨script, run, same⟩ := ih
        (fun left right member => plain left right (List.mem_cons_of_mem _ member))
        (shape.write (fun dy => !decide (dy ≤ p.floorCutoff)) (fill p) rest)
      refine ⟨script, run, same.trans ?_⟩
      exact shape.write_induction (R := fun script => script.branches = rest.branches) _
        (fun _ _ same => same) rfl

theorem walkScript_congr (same : ∀ w, Walker.start range p seed = .ok w → ∀ left right,
      Stroke.split left right ∈ w.strokes p w.remaining [] → f left = g left ∧ f right = g right) :
    walkScript range p f seed = walkScript range p g seed := by
  rw [walkScript, walkScript]
  cases started : Walker.start range p seed with
  | error fault => rfl
  | ok w =>
    rw [ok_bind, ok_bind]
    refine foldlM_congr ?_ _
    intro stroke member rest
    cases stroke with
    | carve shape => rfl
    | split left right =>
      obtain ⟨leftSame, rightSame⟩ := same w started left right member
      rw [strokeScript, strokeScript, leftSame, rightSame]

/-- A seed whose walk has no branches. -/
def Plain (seed : CaveSeed) : Prop := seed.kind ≠ .tunnel ∨ ¬ seed.size > 1

theorem Plain.whole (plain : seed.Plain) (starts : Walker.StartsAs seed w) :
    ∀ s ∈ w.trail p, s.1.action ≠ .split := by
  apply Walker.action_of_not_splits
  rintro ⟨tunnel, large⟩
  rcases plain with other | small
  · exact other (starts.kind ▸ tunnel)
  · exact small (starts.size ▸ large)

theorem split_not_mem (whole : ∀ s ∈ w.trail p, s.1.action ≠ .split) (left right : CaveSeed) :
    Stroke.split left right ∉ w.strokes p w.remaining [] := by
  intro member
  obtain ⟨step, taken, member⟩ := (mem_strokes w p _).1 member
  exact whole step taken (kind_of_mem_strokesOf member).1

theorem Plain.walkScript_eq (plain : seed.Plain) :
    walkScript range p f seed = walkScript range p g seed :=
  walkScript_congr fun _ started left right member =>
    absurd member (split_not_mem (plain.whole (.of_start started)) left right)

theorem plain_of_branch (branch : seed.kind = .branch) : seed.Plain :=
  .inl (by simp [branch])

/-- Two levels are all there are: a walk is as if its branches were walked in the same way. -/
theorem script_eq (range : Int32) (p : CaveParams) (seed : CaveSeed) :
    seed.script range p = walkScript range p (script range p) seed := by
  refine walkScript_congr fun w _ left right member => ?_
  obtain ⟨step, _, member⟩ := (mem_strokes w p _).1 member
  obtain ⟨_, leftKind, rightKind⟩ := kind_of_mem_strokesOf member
  exact ⟨(plain_of_branch leftKind).walkScript_eq, (plain_of_branch rightKind).walkScript_eq⟩

theorem exists_script_of_whole (started : Walker.start range p seed = .ok w)
    (whole : ∀ s ∈ w.trail p, s.1.action ≠ .split) :
    ∃ script, seed.script range p = .ok script ∧ script.branches = .none := by
  rw [script_eq, walkScript, started, ok_bind]
  exact foldlM_carves _ (split_not_mem whole) .done

def leftOf (p : CaveParams) (last : WalkStep × Walker) : CaveSeed :=
  (last.2.branch last.1 (-halfPi32) p.tunnelYScale).1

def rightOf (p : CaveParams) (last : WalkStep × Walker) : CaveSeed :=
  ((last.2.branch last.1 (-halfPi32) p.tunnelYScale).2.branch last.1 halfPi32 p.tunnelYScale).1

theorem exists_script_of_splits (started : Walker.start range p seed = .ok w)
    {front : List (WalkStep × Walker)} {last : WalkStep × Walker}
    (trail : w.trail p = front ++ [last]) (onward : ∀ s ∈ front, s.1.action ≠ .split)
    (split : last.1.action = .split) (positive : 0 < last.2.length) :
    ∃ script leftSets rightSets, seed.script range p = .ok script ∧
      script.branches = .tree (leftOf p last) leftSets .none
        (.tree (rightOf p last) rightSets .none .none) := by
  have walked (child : CaveSeed) (branch : child.kind = .branch) (long : 0 < child.maxSteps) :
      ∃ body, child.script range p = .ok body ∧ body.branches = .none := by
    obtain ⟨walker, started, _⟩ := Walker.exists_start range p child (.inl long)
    exact exists_script_of_whole started ((plain_of_branch branch).whole (.of_start started))
  obtain ⟨leftBody, leftRun, leftNone⟩ := walked (leftOf p last) rfl positive
  obtain ⟨rightBody, rightRun, rightNone⟩ := walked (rightOf p last) rfl positive
  have strokes : w.strokes p w.remaining [] = .split (leftOf p last) (rightOf p last) ::
      (front.flatMap (Walker.strokesOf p)).reverse := by
    have final : Walker.strokesOf p last = [.split (leftOf p last) (rightOf p last)] := by
      obtain ⟨s, after⟩ := last
      dsimp only at split
      rw [Walker.strokesOf, split]
      rfl
    rw [Walker.strokes_nil p le_rfl, trail, List.flatMap_append, List.flatMap_singleton, final,
      List.reverse_append, List.reverse_singleton, List.singleton_append]
  have plain : ∀ left right,
      Stroke.split left right ∉ (front.flatMap (Walker.strokesOf p)).reverse := by
    intro left right member
    obtain ⟨step, taken, member⟩ := List.mem_flatMap.1 (List.mem_reverse.1 member)
    exact onward step taken (kind_of_mem_strokesOf member).1
  obtain ⟨script, run, branches⟩ := foldlM_carves (p := p) (script range p) plain
    (.branch (leftOf p last) leftBody (.branch (rightOf p last) rightBody .done))
  refine ⟨script, leftBody.sets, rightBody.sets, ?_, ?_⟩
  · rw [script_eq, walkScript, started, ok_bind, strokes, List.foldlM_cons, strokeScript, leftRun,
      ok_bind, rightRun, ok_bind, pure_eq, ok_bind, run]
  · rw [branches, Script.branches, Script.branches, Script.branches, leftNone, rightNone]

theorem exists_script (ranges : Walker.Ranges range) (p : CaveParams) (seed : CaveSeed) :
    ∃ script, seed.script range p = .ok script := by
  obtain ⟨w, started, _⟩ := Walker.exists_start range p seed (.inr ranges)
  rcases w.trail_cases p with whole | ⟨front, last, trail, onward, split, _, within, same⟩
  · exact (exists_script_of_whole started whole).imp fun _ made => made.1
  · have long : 0 < last.2.length := by
      rw [same]
      exact UInt32.lt_of_le_of_lt UInt32.zero_le within
    obtain ⟨script, _, _, made, _⟩ := exists_script_of_splits started trail onward split long
    exact ⟨script, made⟩

end CaveSeed

/-! ## Trees -/

/-- The node at `h` is a branch that leaves a walk of this length at this step with this heading,
and has no branches of its own. -/
def FeatureArena.LeavesAt (arena : FeatureArena CaveSeed) (there : WalkStep) (length : UInt32)
    (yaw : Float32) (h : Handle) : Prop :=
  ∃ node child, arena.get? h = some node ∧ node.seed = some child ∧ node.children = [] ∧
    child.kind = .branch ∧ child.origin = there.pos ∧ child.startStep = there.step ∧
    child.maxSteps = length ∧ child.yaw = yaw ∧ child.pitch = there.pitch / 3

namespace FeatureArena.Shows

variable {σ : Type} {arena : FeatureArena σ} {roots handles : List Handle}

theorem eq_nil (shows : arena.Shows roots .none handles) : roots = [] := by
  cases shows
  rfl

theorem exists_tree {seed : σ} {sets : List (BlockPos × Block)} {inner outer : Forest σ}
    (shows : arena.Shows roots (.tree seed sets inner outer) handles) :
    ∃ h rest node below beyond, roots = h :: rest ∧ arena.get? h = some node ∧
      node.seed = some seed ∧ arena.Shows node.children inner below ∧
      arena.Shows rest outer beyond := by
  cases shows with
  | tree held shown within beside => exact ⟨_, _, _, _, _, rfl, held, shown.seed, within, beside⟩

end FeatureArena.Shows

namespace CaveSeed

open FeatureArena

variable {range : Int32} {p : CaveParams}

theorem leavesAt_left {arena : FeatureArena CaveSeed} {h : Handle} {node : FeatureNode CaveSeed}
    (held : arena.get? h = some node) {last : WalkStep × Walker}
    (seed : node.seed = some (leftOf p last)) (childless : node.children = []) :
    arena.LeavesAt last.1 last.2.length (last.1.yaw - halfPi32) h :=
  ⟨node, leftOf p last, held, seed, childless, rfl, rfl, rfl, rfl, add_neg_halfPi32 _, rfl⟩

theorem leavesAt_right {arena : FeatureArena CaveSeed} {h : Handle} {node : FeatureNode CaveSeed}
    (held : arena.get? h = some node) {last : WalkStep × Walker}
    (seed : node.seed = some (rightOf p last)) (childless : node.children = []) :
    arena.LeavesAt last.1 last.2.length (last.1.yaw + halfPi32) h :=
  ⟨node, rightOf p last, held, seed, childless, rfl, rfl, rfl, rfl, rfl, rfl⟩

/-- How the tree with this root grows from a seed that is walked as `w`. -/
structure Shape (p : CaveParams) (seed : CaveSeed) (w : Walker) (arena : FeatureArena CaveSeed)
    (root : FeatureNode CaveSeed) : Prop where
  ends : ∀ n, w.remaining ≤ n →
    w.strokes p n [] = ((w.trail p).flatMap (Walker.strokesOf p)).reverse
  splits : seed.kind = .tunnel → seed.size > 1 → seed.startStep = 0 → 0 < w.length →
    ∃ front last left right, w.trail p = front ++ [last] ∧ last.1.step = w.splitStep ∧
      last.1.step < w.length ∧ root.children = [left, right] ∧
      arena.LeavesAt last.1 w.length (last.1.yaw - halfPi32) left ∧
      arena.LeavesAt last.1 w.length (last.1.yaw + halfPi32) right
  childless : seed.Plain → root.children = []
  cavern : seed.kind = .cavern → 0 < w.length → (w.trail p).length = 1
  steps : seed.kind ≠ .cavern → (∀ s ∈ w.trail p, s.1.action ≠ .split) →
    (w.trail p).length = w.length.toNat - seed.startStep.toNat

theorem Shape.of_whole {seed : CaveSeed} {w : Walker} (starts : Walker.StartsAs seed w)
    (whole : ∀ s ∈ w.trail p, s.1.action ≠ .split) (arena : FeatureArena CaveSeed)
    {root : FeatureNode CaveSeed} (childless : root.children = []) : Shape p seed w arena root where
  ends _ := Walker.strokes_nil p
  splits tunnel large first long := by
    have ahead : w.step ≤ w.splitStep := by
      rw [starts.step, if_neg (by simp [tunnel]), first]
      exact UInt32.zero_le
    obtain ⟨s, taken, split⟩ := Walker.exists_split (p := p)
      ⟨starts.kind.trans tunnel, starts.size ▸ large⟩ ahead (starts.inTime long)
    exact absurd split (whole s taken)
  childless _ := childless
  cavern cavern long := by
    have more : w.step < w.length := by
      rw [UInt32.lt_iff_toNat_lt, UInt32.toNat_zero] at long
      rw [starts.step, if_pos cavern, UInt32.lt_iff_toNat_lt, UInt32.toNat_div]
      exact Nat.div_lt_self long (by decide)
    rw [Walker.trail_cavern (starts.kind.trans cavern) more, List.length_singleton]
  steps wanders _ := by
    rw [Walker.length_trail (starts.kind ▸ wanders) whole, Walker.remaining, starts.step,
      if_neg wanders]

theorem Shape.of_splits {seed : CaveSeed} {w : Walker} (starts : Walker.StartsAs seed w)
    {front : List (WalkStep × Walker)} {last : WalkStep × Walker}
    (trail : w.trail p = front ++ [last]) (split : last.1.action = .split)
    (here : last.1.step = w.splitStep) (within : last.1.step < w.length)
    {arena : FeatureArena CaveSeed} {root : FeatureNode CaveSeed} {left right : Handle}
    (children : root.children = [left, right])
    (goesLeft : arena.LeavesAt last.1 w.length (last.1.yaw - halfPi32) left)
    (goesRight : arena.LeavesAt last.1 w.length (last.1.yaw + halfPi32) right) :
    Shape p seed w arena root := by
  have branches : ¬ ∀ s ∈ w.trail p, s.1.action ≠ .split :=
    fun whole => whole last (by simp [trail]) split
  refine ⟨fun _ => Walker.strokes_nil p, ?_, ?_, ?_, fun _ whole => absurd whole branches⟩
  · intro _ _ _ _
    exact ⟨front, last, left, right, trail, here, within, children, goesLeft, goesRight⟩
  · exact fun plain => absurd (plain.whole starts) branches
  · intro cavern _
    exact absurd (Plain.whole (.inl (by simp [cavern])) starts) branches

/-- The shape of every cave tree, whatever was built and released in its arena before. A walk ends
by itself. A large tunnel that starts at its beginning has two branches, at right angles to it,
where it splits, and only a large tunnel has any; a cavern is one step, and any other walk that does
not split goes on to its length. -/
theorem tree_shape (ranges : Walker.Ranges range) (p : CaveParams) (world : World)
    (seed : CaveSeed) (history : List (TreeCall CaveSeed)) :
    ∃ script w arena built root,
      (caveGenerator range p).materialise world seed = .ok script ∧
      walkScript range p ((caveGenerator range p).materialise world) seed = .ok script ∧
      Walker.start range p seed = .ok w ∧ w.length.toNat = Walker.lengthOf range seed ∧
      FeatureArena.after .empty history = .ok arena ∧
      FeatureArena.materialise arena seed script = .ok built ∧
      built.arena.get? built.root = some root ∧ Shape p seed w built.arena root := by
  obtain ⟨w, started, length⟩ := Walker.exists_start range p seed (.inr ranges)
  have starts := Walker.StartsAs.of_start started
  obtain ⟨arena, run, builds⟩ := FeatureArena.materialise_after history
  rcases w.trail_cases p with whole | ⟨front, last, trail, onward, split, here, within, same⟩
  · obtain ⟨script, made, branches⟩ := exists_script_of_whole started whole
    obtain ⟨built, _, _, done, _, shows, _⟩ := builds seed script
    obtain ⟨_, _, root, _, _, roots, held, _, inside, _⟩ := shows.exists_tree
    obtain ⟨rfl, rfl⟩ := List.cons.inj roots
    exact ⟨script, w, arena, built, root, made, (script_eq range p seed).symm.trans made, started,
      length, run, done, held, .of_whole starts whole _ (branches ▸ inside).eq_nil⟩
  · have long : 0 < last.2.length := by
      rw [same]
      exact UInt32.lt_of_le_of_lt UInt32.zero_le within
    obtain ⟨script, leftSets, rightSets, made, branches⟩ :=
      exists_script_of_splits started trail onward split long
    obtain ⟨built, _, _, done, _, shows, _⟩ := builds seed script
    obtain ⟨_, _, root, _, _, roots, held, _, inside, _⟩ := shows.exists_tree
    obtain ⟨rfl, rfl⟩ := List.cons.inj roots
    rw [branches] at inside
    obtain ⟨left, others, leftNode, _, _, children, leftHeld, leftSeed, leftInside, beside⟩ :=
      inside.exists_tree
    obtain ⟨right, _, rightNode, _, _, rfl, rightHeld, rightSeed, rightInside, ending⟩ :=
      beside.exists_tree
    rw [ending.eq_nil] at children
    exact ⟨script, w, arena, built, root, made, (script_eq range p seed).symm.trans made, started,
      length, run, done, held, .of_splits starts trail split here within children
        (same ▸ leavesAt_left leftHeld leftSeed leftInside.eq_nil)
        (same ▸ leavesAt_right rightHeld rightSeed rightInside.eq_nil)⟩

def shortTunnel : CaveSeed :=
  { (default : CaveSeed) with size := 2, kind := .tunnel, maxSteps := 3 }

theorem tree_shape_shortTunnel :
    ∃ script built root left right,
      (caveGenerator 8 {}).materialise default shortTunnel = .ok script ∧
      FeatureArena.materialise .empty shortTunnel script = .ok built ∧
      built.arena.get? built.root = some root ∧ root.children = [left, right] := by
  have ranges : Walker.Ranges 8 := ⟨by decide, by decide⟩
  obtain ⟨script, w, arena, built, root, made, _, _, length, run, done, held, shape⟩ :=
    tree_shape ranges {} default shortTunnel []
  have untouched : arena = .empty := (Except.ok.inj run).symm
  have three : w.length.toNat = 3 := length
  have large : shortTunnel.size > 1 := by decide +kernel
  have long : 0 < w.length := by
    rw [UInt32.lt_iff_toNat_lt, three]
    decide
  obtain ⟨_, _, left, right, _, _, _, children, _⟩ := shape.splits rfl large rfl long
  exact ⟨script, built, root, left, right, made, untouched ▸ done, held, children⟩

end CaveSeed

end Karst
