import Karst.Proofs.Feature.Stock
import Karst.Proofs.Feature.Transcript

/-!
Bounds are exact, so that pruning loses nothing. In an arena where trees were built and released in any
order, the bounds of each live node are the least around the cubes written at it or below it; a walk
that turns back where the bounds miss its target ends, and it finds every bucket for the target.
-/

namespace Karst

open Guarded

variable {σ : Type}

/-! ## Walks -/

namespace FeatureArena

/-- The walk from some nodes, one after the other, into every branch that `enter` admits, ends after
these visits. -/
inductive Walks (arena : FeatureArena σ) (enter : FeatureNode σ → Bool) :
    List Handle → List (FeatureNode σ) → Prop
  | done : Walks arena enter [] []
  | stale {h rest visited} (missing : arena.get? h = none) (beside : Walks arena enter rest visited) :
      Walks arena enter (h :: rest) visited
  | prune {h rest node visited} (held : arena.get? h = some node) (refused : enter node = false)
      (beside : Walks arena enter rest visited) : Walks arena enter (h :: rest) visited
  | visit {h rest node inner visited} (held : arena.get? h = some node) (admitted : enter node)
      (within : Walks arena enter node.children inner) (beside : Walks arena enter rest visited) :
      Walks arena enter (h :: rest) (node :: (inner ++ visited))

def walk (arena : FeatureArena σ) (enter : FeatureNode σ → Bool) : Nat → Handle →
    List (FeatureNode σ)
  | 0, _ => []
  | depth + 1, h =>
      match arena.get? h with
      | some node =>
          if enter node then node :: node.children.flatMap (walk arena enter depth) else []
      | none => []

theorem nodes_eq_walk (arena : FeatureArena σ) (depth : Nat) (h : Handle) :
    arena.nodes depth h = arena.walk (fun _ => true) depth h := by
  induction depth generalizing h with
  | zero => rfl
  | succ depth ih =>
    rw [nodes, walk]
    cases arena.get? h with
    | none => rfl
    | some node => simp only [if_true, funext ih]

theorem affecting_eq_walk (arena : FeatureArena σ) (target : CubeCoord) (depth : Nat)
    (h : Handle) :
    arena.affecting target depth h = arena.walk (fun node => node.affects target) depth h := by
  induction depth generalizing h with
  | zero => rfl
  | succ depth ih =>
    rw [affecting, walk]
    cases arena.get? h with
    | none => rfl
    | some node => simp only [funext ih]

theorem walk_stale {arena : FeatureArena σ} {h : Handle} (missing : arena.get? h = none)
    (enter : FeatureNode σ → Bool) (depth : Nat) : arena.walk enter depth h = [] := by
  cases depth with
  | zero => rfl
  | succ depth => simp only [walk, missing]

end FeatureArena

section planted

variable {arena : FeatureArena σ} {roots : List Handle} {forest : Forest σ} {slots : List Nat}

/-- In a forest every walk ends, at a depth of no more than the number of its nodes. -/
theorem Planted.walks (planted : Planted arena roots forest slots) (enter : FeatureNode σ → Bool)
    {depth : Nat} (enough : slots.length ≤ depth) :
    arena.Walks enter roots (roots.flatMap (arena.walk enter depth)) := by
  induction planted generalizing depth with
  | none => exact .done
  | @tree h rest node seed sets inner outer innerSlots outerSlots held carries bounding within
      beside withinIh besideIh =>
    -- Only the way down costs depth, and a branch lacks at least the slot of its parent.
    simp only [List.length_cons, List.length_append] at enough
    have after := @besideIh depth (by omega)
    cases depth with
    | zero => omega
    | succ depth =>
      rw [List.flatMap_cons]
      simp only [FeatureArena.walk, held]
      cases admitted : enter node with
      | true => exact .visit held admitted (withinIh (by omega)) after
      | false => exact .prune held admitted after

theorem Planted.cubes_eq (planted : Planted arena roots forest slots) {depth : Nat}
    (enough : slots.length ≤ depth) :
    forest.cubes =
      {c | ∃ below ∈ roots.flatMap (arena.nodes depth), (below.bucket? c).isSome} := by
  ext c
  have found := planted.filterMap_nodes c enough
  rw [← not_iff_not, ← Forest.buckets_eq_nil_iff, ← found, List.filterMap_eq_nil_iff]
  simp

theorem Planted.bounding {h : Handle} {node : FeatureNode σ} {seed : σ}
    {sets : List (BlockPos × Block)} {branches : Forest σ}
    (planted : Planted arena [h] (.tree seed sets branches .none) slots)
    (held : arena.get? h = some node) :
    Bounding node.bounds (Forest.tree seed sets branches .none).cubes := by
  cases planted with
  | tree first carries bounding within beside =>
    rw [first] at held
    cases held
    rw [Forest.cubes, Forest.cubes, Set.union_empty]
    exact bounding

end planted

/-! ## What a build does to its arena -/

namespace Arena

variable {α : Type} {arena other third : Arena α}

theorem exchange_eq_modify (arena : Arena α) (h : Handle) (value : α) :
    (arena.exchange h value).2 = arena.modify h fun _ => value := by
  obtain ⟨slots, free, nextGeneration, allocated, recycled⟩ := arena
  cases found : slots[h.index]? with
  | none =>
    simp only [exchange, modify, found]
    congr 1
    apply Array.ext_getElem?
    grind
  | some slot =>
    obtain ⟨old, generation, live⟩ := slot
    cases answers : Slot.answers ⟨old, generation, live⟩ h with
    | false =>
      simp only [exchange, modify, found, answers, Bool.false_eq_true, if_false]
      congr 1
      apply Array.ext_getElem?
      grind [Slot.answers]
    | true =>
      simp only [exchange, modify, found, answers, if_true]
      congr 1
      apply Array.ext_getElem?
      grind [Slot.answers]

variable [Recyclable α]

/-- Calls alone lead from the one arena to the other, and `count` of them allocate. -/
def LeadsTo (arena other : Arena α) (count : Nat) : Prop :=
  ∃ calls : List (ArenaCall α), ∀ run : ArenaRun α, run.arena = arena →
    (run.after calls).arena = other ∧ (run.after calls).issued.length = run.issued.length + count

namespace LeadsTo

variable {count more : Nat}

theorem refl (arena : Arena α) : arena.LeadsTo arena 0 := ⟨[], fun _ same => ⟨same, rfl⟩⟩

theorem trans (first : arena.LeadsTo other count) (second : other.LeadsTo third more) :
    arena.LeadsTo third (count + more) := by
  obtain ⟨early, reached⟩ := first
  obtain ⟨late, last⟩ := second
  refine ⟨early ++ late, ?_⟩
  intro run same
  obtain ⟨midway, issued⟩ := reached run same
  obtain ⟨done, total⟩ := last _ midway
  rw [ArenaRun.after, List.foldl_append]
  exact ⟨done, by rw [← Nat.add_assoc, ← issued]; exact total⟩

theorem alloc (arena : Arena α) : arena.LeadsTo arena.alloc.2 1 := by
  refine ⟨[.alloc], ?_⟩
  intro run same
  subst same
  exact ⟨rfl, List.length_append⟩

theorem exchange (arena : Arena α) (h : Handle) (value : α) :
    arena.LeadsTo (arena.exchange h value).2 0 := by
  refine ⟨[.modify h fun _ => value], ?_⟩
  intro run same
  subst same
  exact ⟨(exchange_eq_modify ..).symm, rfl⟩

end LeadsTo

end Arena

def Script.nodesBelow : Script σ → Nat
  | .done => 0
  | .set _ _ rest => rest.nodesBelow
  | .writes rest => rest.nodesBelow
  | .branch _ body rest => 1 + body.nodesBelow + rest.nodesBelow

namespace Builder

theorem start_leadsTo (arena : FeatureArena σ) (seed : σ) (replies : List Reply) :
    Arena.LeadsTo arena.alloc.2 (start arena seed replies).2.arena 0 :=
  .exchange ..

theorem run_leadsTo (script : Script σ) {b after : Builder σ} (run : b.run script = .ok after) :
    b.arena.LeadsTo after.arena script.nodesBelow := by
  induction script generalizing b after with
  | done =>
    cases run
    exact .refl _
  | set p block rest ih =>
    obtain ⟨next, written, run⟩ := bind_eq_ok_iff.1 run
    obtain ⟨⟨isFirst, node⟩, recorded, written⟩ := bind_eq_ok_iff.1 written
    have same : next.arena = b.arena := by
      cases isFirst <;> cases written <;> rfl
    exact same ▸ ih run
  | writes rest ih => exact ih (b := { b with replies := .writes b.written :: b.replies }) run
  | branch child body rest bodyIh restIh =>
    obtain ⟨built, bodyRun, run⟩ := bind_eq_ok_iff.1 run
    have started := (Arena.LeadsTo.alloc b.arena).trans (start_leadsTo b.arena child b.replies)
    exact ((started.trans (bodyIh bodyRun)).trans (.exchange ..)).trans (restIh run)

end Builder

theorem FeatureArena.materialise_calls {arena : FeatureArena σ} {seed : σ} {script : Script σ}
    {built : Materialised σ} (done : arena.materialise seed script = .ok built) :
    built.root = arena.alloc.1 ∧ ∃ calls, ∀ run : ArenaRun (FeatureNode σ), run.arena = arena →
      (run.after calls).arena = built.arena ∧
        run.issued ++ [built.root] <+: (run.after calls).issued ∧
        (run.after calls).issued.length = run.issued.length + (1 + script.nodesBelow) := by
  cases started : Builder.start arena seed [] with
  | mk root first =>
    have begun := Builder.start_leadsTo arena seed []
    obtain rfl : arena.alloc.1 = root := congrArg Prod.fst started
    simp only [materialise, started] at done begun
    obtain ⟨filled, filling, done⟩ := bind_eq_ok_iff.1 done
    cases done
    obtain ⟨calls, reached⟩ :=
      (begun.trans (Builder.run_leadsTo script filling)).trans
        (.exchange filled.arena arena.alloc.1 filled.node)
    refine ⟨rfl, .alloc :: calls, ?_⟩
    intro run same
    subst same
    obtain ⟨arena, issued⟩ := reached (run.call .alloc) rfl
    refine ⟨arena, (run.call .alloc).issued_after calls, ?_⟩
    have first : (run.call .alloc).issued.length = run.issued.length + 1 := List.length_append
    rw [first, Nat.zero_add, Nat.add_zero] at issued
    rw [← Nat.add_assoc]
    exact issued

/-! ## Releasing -/

namespace ArenaRun

variable {α : Type} [Recyclable α]

theorem after_release (run : ArenaRun α) (handles : List Handle) :
    (run.after (handles.map .release)).arena =
        handles.foldl (fun arena h => (arena.release h).2) run.arena ∧
      (run.after (handles.map .release)).issued = run.issued := by
  induction handles generalizing run with
  | nil => exact ⟨rfl, rfl⟩
  | cons h handles ih => exact ih (run.call (.release h))

end ArenaRun

theorem Arena.get?_foldl_release {α : Type} [Recyclable α] (handles : List Handle)
    (arena : Arena α) (g : Handle) :
    (handles.foldl (fun arena h => (arena.release h).2) arena).get? g =
      if g ∈ handles then none else arena.get? g := by
  induction handles generalizing arena with
  | nil => rfl
  | cons h handles ih =>
    rw [List.foldl_cons, ih, get?_release]
    by_cases same : h = g
    · simp [same]
    · simp [same, Ne.symm same]

namespace FeatureArena

variable {arena : FeatureArena σ}

theorem get?_releaseTree_self (arena : FeatureArena σ) (h : Handle) :
    Arena.get? (arena.releaseTree h) h = none := by
  rw [releaseTree, Arena.get?_foldl_release]
  split
  case isTrue => rfl
  case isFalse outside =>
    cases held : Arena.get? arena h with
    | none => rfl
    | some node =>
      have bound := (Array.getElem?_eq_some_iff.1 (Arena.get?_eq_some_iff.1 held)).1
      exact (outside (mem_descendants_self (Nat.zero_lt_of_lt bound) h)).elim

theorem releaseTree_stale {h : Handle} (missing : arena.get? h = none) :
    arena.releaseTree h = arena := by
  have stale : Arena.contains arena h = false := by simp [Arena.contains, missing]
  unfold releaseTree
  cases arena.slots.size with
  | zero => rfl
  | succ depth => simp [descendants, missing, Arena.release_stale stale]

end FeatureArena

/-! ## Histories -/

def TreeCall.nodes : TreeCall σ → Nat
  | .materialise _ script => 1 + script.nodesBelow
  | .release _ => 0

/-- An arena with the roots that were built in it and those of them that were released. -/
structure Grove (σ : Type) where
  arena : FeatureArena σ := {}
  roots : List Handle := []
  released : List Handle := []

namespace Grove

def call (g : Grove σ) : TreeCall σ → Guarded (Grove σ)
  | .materialise seed script => do
      let built ← g.arena.materialise seed script
      return { g with arena := built.arena, roots := g.roots ++ [built.root] }
  | .release h =>
      if h ∈ g.roots then
        .ok { g with arena := g.arena.releaseTree h, released := g.released ++ [h] }
      else .ok g

def after (g : Grove σ) (history : List (TreeCall σ)) : Guarded (Grove σ) := history.foldlM call g

def held (g : Grove σ) (h : Handle) : Option (Array Handle) :=
  if h ∈ g.roots ∧ h ∉ g.released then some #[h] else none

theorem held_planted {g : Grove σ} {arena : FeatureArena σ} {root : Handle}
    (unknown : root ∉ g.released) :
    held ⟨arena, g.roots ++ [root], g.released⟩ =
      Function.update g.held root (some #[root]) := by
  funext h
  by_cases same : h = root
  · subst same
    simp [held, unknown]
  · simp [held, same]

theorem held_released {g : Grove σ} {arena : FeatureArena σ} {root : Handle} :
    held ⟨arena, g.roots, g.released ++ [root]⟩ = Function.update g.held root none := by
  funext h
  by_cases same : h = root
  · subst same
    simp [held]
  · simp [held, same]

/-- The run of the arena under a grove, and what holds of the grove as long as no generation is used
again. -/
structure Rooted (g : Grove σ) (run : ArenaRun (FeatureNode σ)) : Prop where
  sound : run.Sound
  arena : run.arena = g.arena
  cultivated : g.arena.Cultivated
  roots : ∀ h ∈ g.roots, h ∈ run.issued
  released : ∀ h ∈ g.released, h ∈ g.roots
  stale : run.issued.length < 2 ^ 32 → ∀ h ∈ g.released, g.arena.get? h = none
  stocked : run.issued.length < 2 ^ 32 →
    ∃ plots, Stocked g.arena g.held plots fun _ _ => True

variable {g : Grove σ} {run : ArenaRun (FeatureNode σ)}

theorem rooted_empty : Rooted ({} : Grove σ) {} := by
  constructor
  · exact ArenaRun.sound_start
  · rfl
  · exact .empty
  · simp
  · simp
  · simp
  · intro _
    exact ⟨_, .empty (fun _ => rfl) Arena.tidy_empty Arena.not_isLive_empty⟩

namespace Rooted

theorem stale_after (rooted : g.Rooted run) {calls : List (ArenaCall (FeatureNode σ))}
    (few : (run.after calls).issued.length < 2 ^ 32) {h : Handle} (member : h ∈ g.released) :
    (run.after calls).arena.get? h = none := by
  have missing := rooted.stale ((run.issued_after calls).length_le.trans_lt few) h member
  have followed := rooted.sound.get?_after (rooted.roots h (rooted.released h member))
    (Nat.le_pred_of_lt few)
  rw [rooted.arena, missing] at followed
  rw [← Option.not_isSome_iff_eq_none, followed, ArenaCall.isSome_foldl_onto]
  simp

theorem not_mem_roots (rooted : g.Rooted run) {calls : List (ArenaCall (FeatureNode σ))}
    {root : Handle} (issued : run.issued ++ [root] <+: (run.after calls).issued)
    (few : (run.after calls).issued.length < 2 ^ 32) : root ∉ g.roots := by
  intro member
  have distinct := (rooted.sound.after calls).nodup_issued (Nat.le_pred_of_lt few)
  obtain ⟨_, _, apart⟩ := List.nodup_append.1 (distinct.sublist issued.sublist)
  exact apart root (rooted.roots root member) root (List.mem_singleton_self root) rfl

theorem materialise (rooted : g.Rooted run) (seed : σ) (script : Script σ) :
    ∃ next further, g.call (.materialise seed script) = .ok next ∧ next.Rooted further ∧
      further.issued.length = run.issued.length + (1 + script.nodesBelow) := by
  obtain ⟨built, slots, done, grown, planted⟩ :=
    FeatureArena.materialise_spec rooted.cultivated.tidy seed script
  obtain ⟨_, calls, reached⟩ := FeatureArena.materialise_calls done
  obtain ⟨arena, issued, count⟩ := reached run rooted.arena
  have older : run.issued <+: (run.after calls).issued := (List.prefix_append ..).trans issued
  refine ⟨{ g with arena := built.arena, roots := g.roots ++ [built.root] }, run.after calls, ?_, ?_,
    count⟩
  · rw [call, done]
    rfl
  constructor
  · exact rooted.sound.after calls
  · exact arena
  · exact rooted.cultivated.grown grown planted
  · intro h member
    rcases List.mem_append.1 member with old | new
    · exact older.subset (rooted.roots h old)
    · exact issued.subset (List.mem_append_right _ new)
  · intro h member
    exact List.mem_append_left _ (rooted.released h member)
  · intro few h member
    rw [← arena]
    exact rooted.stale_after few member
  · intro few
    obtain ⟨plots, stocked⟩ := rooted.stocked (older.length_le.trans_lt few)
    -- The root has a generation of its own, so no older tree is held under it.
    have unknown := rooted.not_mem_roots issued few
    have vacant : g.held built.root = none := by simp [held, unknown]
    refine ⟨Function.update plots built.root slots, ?_⟩
    rw [held_planted fun member => unknown (rooted.released _ member)]
    exact stocked.plant vacant grown planted trivial

theorem release (rooted : g.Rooted run) (h : Handle) :
    ∃ next further, g.call (.release h) = .ok next ∧ next.Rooted further ∧
      further.issued.length = run.issued.length := by
  by_cases root : h ∈ g.roots
  · obtain ⟨arena, issued⟩ :=
      run.after_release (FeatureArena.descendants g.arena g.arena.slots.size h)
    refine ⟨{ g with arena := g.arena.releaseTree h, released := g.released ++ [h] },
      run.after ((FeatureArena.descendants g.arena g.arena.slots.size h).map .release), ?_, ?_,
      congrArg List.length issued⟩
    · rw [call, if_pos root]
    constructor
    · exact rooted.sound.after _
    · rw [arena, rooted.arena]
      rfl
    · exact rooted.cultivated.releaseTree h
    · rw [issued]
      exact rooted.roots
    · intro other member
      rcases List.mem_append.1 member with old | new
      · exact rooted.released other old
      · rw [List.mem_singleton.1 new]
        exact root
    · intro few other member
      rcases List.mem_append.1 member with old | new
      · have missing := rooted.stale_after few old
        rwa [arena, rooted.arena] at missing
      · rw [List.mem_singleton.1 new]
        exact g.arena.get?_releaseTree_self h
    · intro few
      rw [issued] at few
      obtain ⟨plots, stocked⟩ := rooted.stocked few
      rw [held_released]
      by_cases again : h ∈ g.released
      · have vacant : g.held h = none := by simp [held, again]
        rw [Function.update_eq_self_iff.2 vacant.symm,
          FeatureArena.releaseTree_stale (rooted.stale few h again)]
        exact ⟨plots, stocked⟩
      · have standing : g.held h = some #[h] := if_pos ⟨root, again⟩
        have dropped := stocked.drop standing
        exact ⟨_, by simpa using dropped⟩
  · exact ⟨g, run, by rw [call, if_neg root], rooted, rfl⟩

theorem call (rooted : g.Rooted run) (made : TreeCall σ) :
    ∃ next further, g.call made = .ok next ∧ next.Rooted further ∧
      further.issued.length = run.issued.length + made.nodes := by
  cases made with
  | materialise seed script => exact rooted.materialise seed script
  | release h => exact rooted.release h

theorem after (rooted : g.Rooted run) (history : List (TreeCall σ)) :
    ∃ next further, g.after history = .ok next ∧ next.Rooted further ∧
      further.issued.length = run.issued.length + (history.map TreeCall.nodes).sum := by
  induction history generalizing g run with
  | nil => exact ⟨g, run, rfl, rooted, rfl⟩
  | cons made history ih =>
    obtain ⟨next, further, done, rooted, count⟩ := rooted.call made
    obtain ⟨last, final, rest, rooted, total⟩ := ih rooted
    refine ⟨last, final, ?_, rooted, ?_⟩
    · rw [Grove.after, List.foldlM_cons, done]
      exact rest
    · rw [total, count, List.map_cons, List.sum_cons, Nat.add_assoc]

theorem planted (rooted : g.Rooted run) (few : run.issued.length < 2 ^ 32) {h : Handle}
    {node : FeatureNode σ} (held : g.arena.get? h = some node) :
    ∃ seed sets branches slots, Planted g.arena [h] (.tree seed sets branches .none) slots ∧
      slots.length ≤ g.arena.slots.size := by
  obtain ⟨plots, stocked⟩ := rooted.stocked few
  obtain ⟨root, member⟩ := (stocked.live h.index).1 (Arena.isLive_of_get? held)
  cases owner : g.held root with
  | none =>
    rw [stocked.bare root owner] at member
    cases member
  | some roots =>
    obtain ⟨nodup, forest, planted, _⟩ := stocked.planted root roots owner
    obtain ⟨seed, sets, branches, slots, _, tree, fewer⟩ := planted.subtree member held
    exact ⟨seed, sets, branches, slots, tree, fewer.length_le.trans (planted.length_le nodup)⟩

theorem walks (rooted : g.Rooted run) (few : run.issued.length < 2 ^ 32)
    (enter : FeatureNode σ → Bool) (h : Handle) :
    g.arena.Walks enter [h] (g.arena.walk enter g.arena.slots.size h) := by
  cases held : g.arena.get? h with
  | none =>
    rw [FeatureArena.walk_stale held]
    exact .stale held .done
  | some node =>
    obtain ⟨_, _, _, _, planted, enough⟩ := rooted.planted few held
    have ends := planted.walks enter enough
    rwa [List.flatMap_singleton] at ends

theorem bounding (rooted : g.Rooted run) (few : run.issued.length < 2 ^ 32) {h : Handle}
    {node : FeatureNode σ} (held : g.arena.get? h = some node) :
    Bounding node.bounds
      {c | ∃ below ∈ g.arena.nodes g.arena.slots.size h, (below.bucket? c).isSome} := by
  obtain ⟨_, _, _, _, planted, enough⟩ := rooted.planted few held
  have cubes := planted.cubes_eq enough
  rw [List.flatMap_singleton] at cubes
  rw [← cubes]
  exact planted.bounding held

theorem filter_visit (rooted : g.Rooted run) (few : run.issued.length < 2 ^ 32) (h : Handle)
    (target : CubeCoord) :
    (g.arena.visit h target).filter (fun node => (node.bucket? target).isSome) =
      (g.arena.nodes g.arena.slots.size h).filter fun node => (node.bucket? target).isSome := by
  cases held : g.arena.get? h with
  | none =>
    rw [FeatureArena.visit, FeatureArena.affecting_eq_walk, FeatureArena.nodes_eq_walk,
      FeatureArena.walk_stale held, FeatureArena.walk_stale held]
  | some node =>
    obtain ⟨_, _, _, _, planted, enough⟩ := rooted.planted few held
    have found := planted.filter_affecting target enough
    rwa [List.flatMap_singleton, List.flatMap_singleton] at found

end Rooted

/-- After any builds and releases, the walk through a tree ends; the bounds of its top are exact; and
the pruned walk for a target ends too and finds the same buckets. -/
theorem walks_after (history : List (TreeCall σ))
    (few : (history.map TreeCall.nodes).sum < 2 ^ 32) :
    ∃ g, after {} history = .ok g ∧ g.arena.allocated = (history.map TreeCall.nodes).sum ∧
      (∀ h, ∃ all, g.arena.Walks (fun _ => true) [h] all ∧
        (∀ node, g.arena.get? h = some node →
          Bounding node.bounds {c | ∃ below ∈ all, (below.bucket? c).isSome}) ∧
        ∀ target, g.arena.Walks (fun node => node.affects target) [h] (g.arena.visit h target) ∧
          (g.arena.visit h target).filter (fun node => (node.bucket? target).isSome) =
            all.filter fun node => (node.bucket? target).isSome) ∧
      ∀ h ∈ g.released, ∀ target, g.arena.visit h target = [] := by
  obtain ⟨g, run, done, rooted, count⟩ := rooted_empty.after history
  rw [List.length_nil, Nat.zero_add] at count
  rw [← count] at few
  refine ⟨g, done, ?_, ?_, ?_⟩
  · rw [← rooted.arena, rooted.sound.counted, count]
  · intro h
    have walks := rooted.walks few (fun _ => true) h
    rw [← FeatureArena.nodes_eq_walk] at walks
    refine ⟨_, walks, fun node held => rooted.bounding few held, ?_⟩
    intro target
    have pruned := rooted.walks few (fun node => node.affects target) h
    rw [← FeatureArena.affecting_eq_walk] at pruned
    exact ⟨pruned, rooted.filter_visit few h target⟩
  · intro h member target
    rw [FeatureArena.visit, FeatureArena.affecting_eq_walk,
      FeatureArena.walk_stale (rooted.stale few h member)]

def regrowth : List (TreeCall Nat) :=
  [.materialise 1 (.set ⟨0, 0, 0⟩ .air .done), .release ⟨0, 1⟩,
    .materialise 2 (.set ⟨0, 0, 0⟩ .air (.branch 3 (.set ⟨40, -20, 3⟩ .lava .done) .done))]

theorem walks_after_regrowth : (regrowth.map TreeCall.nodes).sum < 2 ^ 32 ∧
    ∃ g, after {} regrowth = .ok g ∧ (∀ target, g.arena.visit ⟨0, 1⟩ target = []) ∧
      ∃ all, g.arena.Walks (fun _ => true) [⟨0, 2⟩] all ∧
        (g.arena.visit ⟨0, 2⟩ ⟨2, -2, 0⟩).filter (fun node => (node.bucket? ⟨2, -2, 0⟩).isSome) =
          all.filter fun node => (node.bucket? ⟨2, -2, 0⟩).isSome := by
  have few : (regrowth.map TreeCall.nodes).sum < 2 ^ 32 := by decide
  obtain ⟨g, done, _, walks, gone⟩ := walks_after regrowth few
  obtain ⟨all, ends, _, pruned⟩ := walks ⟨0, 2⟩
  refine ⟨few, g, done, ?_, all, ends, (pruned _).2⟩
  apply gone
  -- The release counts because its handle is the root that the first build gave out.
  obtain ⟨first, built, done⟩ := bind_eq_ok_iff.1 done
  obtain ⟨next, released, done⟩ := bind_eq_ok_iff.1 done
  obtain ⟨last, rebuilt, done⟩ := bind_eq_ok_iff.1 done
  obtain ⟨tree, materialised, built⟩ := bind_eq_ok_iff.1 built
  obtain ⟨other, _, rebuilt⟩ := bind_eq_ok_iff.1 rebuilt
  obtain ⟨root, _⟩ := FeatureArena.materialise_calls materialised
  have known : tree.root = ⟨0, 1⟩ := root
  cases built
  rw [call, if_pos (by simp [known])] at released
  cases released
  cases rebuilt
  cases done
  exact List.mem_append_right _ (List.mem_singleton_self _)

end Grove

end Karst
