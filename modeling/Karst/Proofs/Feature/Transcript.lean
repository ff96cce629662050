import Karst.Proofs.Cache.Handles
import Karst.Proofs.Feature.Growth

/-!
What a build comes to, whatever was built and released in its arena before. The tree is the one that
the script describes, each node with the first of its writes to each position, and the answers are
those that the script determines by itself.
-/

namespace Karst

open Guarded

variable {σ : Type}

/-! ## Answers -/

/-- The answers of a builder and its finished branches when the script is done, if `sofar` were given
before and the node has been written to at `seen`. -/
def Script.transcript : Script σ → List BlockPos → List Reply → List Reply
  | .done, _, sofar => sofar
  | .set p _ rest, seen, sofar => rest.transcript (seen ++ [p]) (sofar ++ [.fresh (p ∉ seen)])
  | .writes rest, seen, sofar =>
      rest.transcript seen (sofar ++ [.writes (sofar.count (.fresh true))])
  | .branch _ body rest, seen, sofar => rest.transcript seen (sofar ++ body.transcript [] [])

namespace Builder

theorem start_replies (arena : FeatureArena σ) (seed : σ) (replies : List Reply) :
    (start arena seed replies).2.replies = replies ∧ (start arena seed replies).2.written = 0 :=
  ⟨rfl, rfl⟩

theorem run_transcript (script : Script σ) {b after : Builder σ} {seed : σ}
    {before : List (BlockPos × Block)} {sofar earlier : List Reply}
    (tidy : b.arena.Tidy FeatureNode.Blank) (carries : b.node.Carries seed before)
    (replies : b.replies = sofar.reverse ++ earlier)
    (written : b.written = sofar.count (.fresh true)) (run : b.run script = .ok after) :
    after.replies = (script.transcript (before.map Prod.fst) sofar).reverse ++ earlier ∧
      after.written = (script.transcript (before.map Prod.fst) sofar).count (.fresh true) := by
  induction script generalizing b seed before sofar earlier after with
  | done =>
    cases run
    exact ⟨replies, written⟩
  | set p block rest ih =>
    obtain ⟨next, done, arena, filed, _, _, answered, counted⟩ := set_spec carries p block
    rw [Builder.run, done, ok_bind] at run
    have replied : next.replies =
        (sofar ++ [Reply.fresh (p ∉ before.map Prod.fst)]).reverse ++ earlier := by
      simp [answered, replies]
    have total : next.written =
        (sofar ++ [Reply.fresh (p ∉ before.map Prod.fst)]).count (.fresh true) := by
      rw [counted, written, List.count_append]
      cases decide (p ∉ before.map Prod.fst) <;> rfl
    simpa [Script.transcript] using ih (arena ▸ tidy) filed replied total run
  | writes rest ih =>
    have replied : Reply.writes b.written :: b.replies =
        (sofar ++ [Reply.writes (sofar.count (.fresh true))]).reverse ++ earlier := by
      simp [replies, written]
    have total : b.written =
        (sofar ++ [Reply.writes (sofar.count (.fresh true))]).count (.fresh true) := by
      simp [written]
    exact ih (b := { b with replies := .writes b.written :: b.replies }) tidy carries replied total
      run
  | branch child body rest bodyIh restIh =>
    have spec := start_spec tidy child b.replies
    obtain ⟨given, unwritten⟩ := start_replies b.arena child b.replies
    cases started : start b.arena child b.replies with
    | mk h inner =>
      rw [started] at spec given unwritten
      obtain ⟨grown, _, fresh, unbounded, _⟩ := spec
      have nothing : Bounding inner.node.bounds ∅ := by
        rw [unbounded]
        rfl
      obtain ⟨built, inside, slots, bodyRun, below⟩ := run_spec body grown.tidy fresh nothing
      obtain ⟨whole, _⟩ := finish_spec tidy started below
      -- The branch answers as if it were alone, and its answers then count for the parent.
      have alone : inner.replies = ([] : List Reply).reverse ++ b.replies := given
      obtain ⟨replied, total⟩ := bodyIh grown.tidy fresh alone unwritten bodyRun
      simp only [Builder.run, started, bodyRun, ok_bind] at run
      have together : built.replies = (sofar ++ body.transcript [] []).reverse ++ earlier := by
        simpa [replies] using replied
      have sum : b.written + built.written =
          (sofar ++ body.transcript [] []).count (.fresh true) := by
        simpa [written] using total
      exact restIh (b := ⟨built.finish h, b.node.adopt h built.node.bounds,
        b.written + built.written, built.replies⟩) whole.tidy
          ⟨carries.seed, carries.buckets, carries.spare⟩ together sum run

end Builder

theorem FeatureArena.materialise_transcript {arena : FeatureArena σ}
    (tidy : arena.Tidy FeatureNode.Blank) {seed : σ} {script : Script σ} {built : Materialised σ}
    (done : arena.materialise seed script = .ok built) :
    built.replies = script.transcript [] [] ∧
      built.written = (script.transcript [] []).count (.fresh true) := by
  have spec := Builder.start_spec tidy seed []
  obtain ⟨given, unwritten⟩ := Builder.start_replies arena seed []
  cases started : Builder.start arena seed [] with
  | mk h inner =>
    rw [started] at spec given unwritten
    obtain ⟨grown, _, fresh, _⟩ := spec
    simp only [materialise, started] at done
    obtain ⟨after, run, done⟩ := bind_eq_ok_iff.1 done
    cases done
    have alone : inner.replies = ([] : List Reply).reverse ++ [] := given
    obtain ⟨replied, total⟩ := Builder.run_transcript script grown.tidy fresh alone unwritten run
    exact ⟨by simpa using congrArg List.reverse replied, total⟩

/-! ## Trees -/

/-- The node is of `seed` and holds, by cube, just the first of the writes `sets` to each position, in
order, at places in the cube that stand for these positions. -/
structure FeatureNode.Shows (node : FeatureNode σ) (seed : σ) (sets : List (BlockPos × Block)) :
    Prop where
  seed : node.seed = some seed
  written : ∀ c, (node.bucket? c).isSome ↔ ∃ w ∈ sets, CubeCoord.ofBlock w.1 = c
  filled : ∀ c bucket, node.bucket? c = some bucket → bucket.ops ≠ #[]
  inside : ∀ c bucket, node.bucket? c = some bucket → ∀ op ∈ bucket.ops, op.pos.Inside
  firsts : ∀ c bucket, node.bucket? c = some bucket →
    bucket.ops.toList.map
        (fun op => (c.minBlock >>= fun corner => corner.atLocal op.pos, op.block)) =
      ((firsts sets).filter fun w => CubeCoord.ofBlock w.1 = c).map fun w => (.ok w.1, w.2)

theorem FeatureNode.Carries.shows {node : FeatureNode σ} {seed : σ}
    {sets : List (BlockPos × Block)} (carries : node.Carries seed sets) : node.Shows seed sets := by
  constructor
  · exact carries.seed
  · intro c
    rw [bucket?, carries.buckets, isSome_bucketOf]
  · intro c bucket found
    exact ops_ne_empty_of_bucketOf ((carries.buckets c).symm.trans found)
  · intro c bucket found
    exact pos_inside_of_bucketOf ((carries.buckets c).symm.trans found)
  · intro c bucket found
    have files := bucketOf_files sets c
    rw [← carries.buckets c, show node.buckets[c]? = some bucket from found] at files
    have ops := congrArg (List.map fun place : LocalPos × Block =>
      (c.minBlock >>= fun corner => corner.atLocal place.1, place.2)) files.2.ops
    rw [firstsIn, List.map_map, List.map_map] at ops
    refine ops.trans (List.map_congr_left ?_)
    intro w member
    obtain rfl : CubeCoord.ofBlock w.1 = c := by simpa using (List.mem_filter.1 member).2
    exact congrArg (·, w.2) w.1.atLocal_inCube

inductive FeatureArena.Shows (arena : FeatureArena σ) :
    List Handle → Forest σ → List Handle → Prop
  | none : Shows arena [] .none []
  | tree {h rest node seed sets inner outer below beyond}
      (held : arena.get? h = some node)
      (shows : node.Shows seed sets)
      (within : Shows arena node.children inner below)
      (beside : Shows arena rest outer beyond) :
      Shows arena (h :: rest) (.tree seed sets inner outer) (h :: (below ++ beyond))

theorem Planted.shows {arena : FeatureArena σ} {roots : List Handle} {forest : Forest σ}
    {slots : List Nat} (planted : Planted arena roots forest slots) :
    ∃ handles, FeatureArena.Shows arena roots forest handles ∧
      handles.map Handle.index = slots := by
  induction planted with
  | none => exact ⟨[], .none, rfl⟩
  | @tree h rest node seed sets inner outer innerSlots outerSlots held carries bounding within
      beside withinIh besideIh =>
    obtain ⟨below, shown, belowSlots⟩ := withinIh
    obtain ⟨beyond, shownBeside, beyondSlots⟩ := besideIh
    refine ⟨h :: (below ++ beyond), .tree held carries.shows shown shownBeside, ?_⟩
    simp [belowSlots, beyondSlots]

/-- Two arenas hold the same trees, if not in the same slots. -/
inductive FeatureArena.Twin (a b : FeatureArena σ) : List Handle → List Handle → Prop
  | none : Twin a b [] []
  | tree {g h rest others m n}
      (first : a.get? g = some m) (second : b.get? h = some n)
      (seed : m.seed = n.seed) (bounds : m.bounds = n.bounds)
      (buckets : ∀ c, m.bucket? c = n.bucket? c)
      (within : Twin a b m.children n.children) (beside : Twin a b rest others) :
      Twin a b (g :: rest) (h :: others)

theorem Planted.twin {a b : FeatureArena σ} {roots others : List Handle} {forest : Forest σ}
    {slots more : List Nat} (first : Planted a roots forest slots)
    (second : Planted b others forest more) : FeatureArena.Twin a b roots others := by
  induction first generalizing others more with
  | none =>
    cases second
    exact .none
  | tree held carries bounding within beside withinIh besideIh =>
    cases second with
    | tree otherHeld otherCarries otherBounding otherWithin otherBeside =>
      apply FeatureArena.Twin.tree held otherHeld
      · rw [carries.seed, otherCarries.seed]
      · exact bounding.unique otherBounding
      · intro c
        rw [FeatureNode.bucket?, carries.buckets, FeatureNode.bucket?, otherCarries.buckets]
      · exact withinIh otherWithin
      · exact besideIh otherBeside

/-! ## Histories -/

inductive TreeCall (σ : Type) where
  | materialise (seed : σ) (script : Script σ)
  | release (h : Handle)

namespace FeatureArena

variable {arena : FeatureArena σ}

def call (arena : FeatureArena σ) : TreeCall σ → Guarded (FeatureArena σ)
  | .materialise seed script => do return (← arena.materialise seed script).arena
  | .release h => .ok (arena.releaseTree h)

def after (arena : FeatureArena σ) (history : List (TreeCall σ)) : Guarded (FeatureArena σ) :=
  history.foldlM call arena

structure Cultivated (arena : FeatureArena σ) : Prop where
  tidy : arena.Tidy FeatureNode.Blank
  carried : ∀ h node, arena.get? h = some node → ∃ seed sets, node.Carries seed sets

namespace Cultivated

theorem empty : Cultivated (Arena.empty : FeatureArena σ) := by
  constructor
  · exact Arena.tidy_empty
  · intro h node held
    simp [Arena.empty, Arena.get?] at held

theorem grown {other : FeatureArena σ} {roots : List Handle} {forest : Forest σ} {slots : List Nat}
    (cultivated : arena.Cultivated) (grown : Grown arena other slots)
    (planted : Planted other roots forest slots) : other.Cultivated := by
  constructor
  · exact grown.tidy
  · intro h node held
    rcases (grown.live h.index).1 (Arena.isLive_of_get? held) with old | new
    · rw [Arena.get?_congr (grown.kept h.index old)] at held
      exact cultivated.carried h node held
    · obtain ⟨seed, sets, _, _, carries, _⟩ := planted.subtree new held
      exact ⟨seed, sets, carries⟩

theorem release (cultivated : arena.Cultivated) (h : Handle) :
    Cultivated (Arena.release arena h).2 := by
  constructor
  · cases held : arena.contains h with
    | false =>
      rw [Arena.release_stale held]
      exact cultivated.tidy
    | true =>
      obtain ⟨node, found⟩ := Option.isSome_iff_exists.1 held
      obtain ⟨seed, sets, carries⟩ := cultivated.carried h node found
      exact (Cleared.release cultivated.tidy found carries).tidy
  · intro g node held
    rw [Arena.get?_release] at held
    split at held
    case isTrue => cases held
    case isFalse => exact cultivated.carried g node held

theorem releaseTree (cultivated : arena.Cultivated) (h : Handle) :
    (arena.releaseTree h).Cultivated := by
  unfold FeatureArena.releaseTree
  generalize descendants arena arena.slots.size h = handles
  induction handles generalizing arena with
  | nil => exact cultivated
  | cons h handles ih => exact ih (cultivated.release h)

theorem call (cultivated : arena.Cultivated) (made : TreeCall σ) :
    ∃ next, arena.call made = .ok next ∧ next.Cultivated := by
  cases made with
  | materialise seed script =>
    obtain ⟨built, slots, done, grown, planted⟩ := materialise_spec cultivated.tidy seed script
    refine ⟨built.arena, ?_, cultivated.grown grown planted⟩
    rw [FeatureArena.call, done]
    rfl
  | release h => exact ⟨_, rfl, cultivated.releaseTree h⟩

theorem after (cultivated : arena.Cultivated) (history : List (TreeCall σ)) :
    ∃ next, arena.after history = .ok next ∧ next.Cultivated :=
  exists_foldlM cultivated fun made _ _ cultivated => cultivated.call made

end Cultivated

theorem materialise_after (history : List (TreeCall σ)) :
    ∃ arena, after .empty history = .ok arena ∧ ∀ (seed : σ) (script : Script σ),
      ∃ built plain handles, arena.materialise seed script = .ok built ∧
        materialise .empty seed script = .ok plain ∧
        Shows built.arena [built.root] (.tree seed script.sets script.branches .none) handles ∧
        (handles.map Handle.index).Nodup ∧
        built.replies = script.transcript [] [] ∧
        built.written = (script.transcript [] []).count (.fresh true) ∧
        Twin built.arena plain.arena [built.root] [plain.root] := by
  obtain ⟨arena, run, cultivated⟩ := Cultivated.empty.after history
  refine ⟨arena, run, ?_⟩
  intro seed script
  obtain ⟨built, slots, done, grown, planted⟩ := materialise_spec cultivated.tidy seed script
  obtain ⟨plain, _, plainDone, _, plainPlanted⟩ :=
    materialise_spec Cultivated.empty.tidy seed script
  obtain ⟨handles, shows, same⟩ := planted.shows
  obtain ⟨replies, written⟩ := materialise_transcript cultivated.tidy done
  exact ⟨built, plain, handles, done, plainDone, shows, same ▸ grown.nodup, replies, written,
    planted.twin plainPlanted⟩

end FeatureArena

end Karst
