import Karst.Proofs.Feature.Forest

namespace Karst

variable {σ : Type}

theorem cubesOf_cons (w : BlockPos × Block) (sets : List (BlockPos × Block)) :
    cubesOf (w :: sets) = insert (CubeCoord.ofBlock w.1) (cubesOf sets) := by
  ext c
  simp [cubesOf, eq_comm]

structure Grown (arena other : FeatureArena σ) (slots : List Nat) : Prop where
  tidy : other.Tidy FeatureNode.Blank
  nodup : slots.Nodup
  fresh : ∀ i ∈ slots, ¬ arena.IsLive i
  live : ∀ i, other.IsLive i ↔ arena.IsLive i ∨ i ∈ slots
  kept : ∀ i, arena.IsLive i → other.slots[i]? = arena.slots[i]?

namespace Grown

variable {arena other third : FeatureArena σ} {slots more : List Nat}

theorem refl (tidy : arena.Tidy FeatureNode.Blank) : Grown arena arena [] := by
  refine ⟨tidy, List.nodup_nil, ?_, ?_, fun _ _ => rfl⟩
  · simp
  · simp

theorem trans (first : Grown arena other slots) (second : Grown other third more) :
    Grown arena third (slots ++ more) := by
  have later (i : Nat) (member : i ∈ more) : ¬ arena.IsLive i ∧ i ∉ slots := by
    have unborn := second.fresh i member
    rwa [first.live, not_or] at unborn
  refine ⟨second.tidy, ?_, ?_, ?_, ?_⟩
  · refine List.nodup_append.2 ⟨first.nodup, second.nodup, ?_⟩
    rintro i early j late rfl
    exact (later i late).2 early
  · intro i member
    rcases List.mem_append.1 member with early | late
    · exact first.fresh i early
    · exact (later i late).1
  · intro i
    rw [second.live, first.live, List.mem_append, or_assoc]
  · intro i live
    rw [second.kept i ((first.live i).2 (.inl live)), first.kept i live]

theorem planted {roots : List Handle} {forest : Forest σ} {held : List Nat}
    (grown : Grown arena other slots) (planted : Planted arena roots forest held) :
    Planted other roots forest held :=
  planted.frame fun i member => grown.kept i (planted.isLive i member)

theorem alloc (tidy : arena.Tidy FeatureNode.Blank) :
    Grown arena arena.alloc.2 [arena.alloc.1.index] := by
  obtain ⟨dead, ⟨value, _, held⟩, others, after⟩ :=
    Arena.alloc_spec tidy FeatureNode.blank_fresh
  refine ⟨after, List.nodup_singleton _, ?_, ?_, ?_⟩
  · simpa using dead
  · intro i
    by_cases same : i = arena.alloc.1.index
    · subst same
      simp [Arena.isLive_of_get? held]
    · simp [same, Arena.isLive_congr (others i same)]
  · intro i live
    exact others i (by rintro rfl; exact dead live)

theorem exchange {h : Handle} {node : FeatureNode σ} (grown : Grown arena other slots)
    (new : h.index ∈ slots) (held : other.get? h = some node) (value : FeatureNode σ) :
    Grown arena (other.exchange h value).2 slots := by
  obtain ⟨_, now, others, _⟩ := Arena.exchange_spec held value
  refine ⟨grown.tidy.exchange held, grown.nodup, grown.fresh, ?_, ?_⟩
  · intro i
    rw [← grown.live]
    by_cases same : i = h.index
    · subst same
      simp [Arena.isLive_of_get? now, Arena.isLive_of_get? held]
    · exact Arena.isLive_congr (others i same)
  · intro i live
    rw [others i, grown.kept i live]
    rintro rfl
    exact grown.fresh _ new live

end Grown

namespace Builder

theorem start_spec {arena : FeatureArena σ} (tidy : arena.Tidy FeatureNode.Blank) (seed : σ)
    (replies : List Reply) :
    let (h, b) := start arena seed replies
    Grown arena b.arena [h.index] ∧ b.arena.get? h = some {} ∧ b.node.Carries seed [] ∧
      b.node.bounds = none ∧ b.node.children = [] := by
  obtain ⟨_, ⟨value, blank, held⟩, _, _⟩ := Arena.alloc_spec tidy FeatureNode.blank_fresh
  obtain ⟨taken, now, _, _⟩ := Arena.exchange_spec held ({} : FeatureNode σ)
  have grown := (Grown.alloc tidy).exchange (List.mem_singleton_self _) held {}
  have started : start arena seed replies = (arena.alloc.1,
      ⟨(arena.alloc.2.exchange arena.alloc.1 {}).2, { value with seed := some seed }, 0, replies⟩) :=
    taken ▸ rfl
  have empty := blank.1
  rw [started]
  refine ⟨grown, now, blank.carries seed, ?_, ?_⟩
  · rw [empty]
  · rw [empty]

theorem set_spec {b : Builder σ} {seed : σ} {before : List (BlockPos × Block)}
    (carries : b.node.Carries seed before) (p : BlockPos) (block : Block) :
    ∃ next, b.set p block = .ok next ∧ next.arena = b.arena ∧
      next.node.Carries seed (before ++ [(p, block)]) ∧ next.node.children = b.node.children ∧
      next.node.bounds = some (FeatureNode.extendBounds b.node.bounds (CubeCoord.ofBlock p)) ∧
      next.replies = .fresh (decide (p ∉ before.map Prod.fst)) :: b.replies ∧
      next.written = b.written + (decide (p ∉ before.map Prod.fst)).toNat := by
  obtain ⟨arena, node, written, replies⟩ := b
  obtain ⟨next, recorded, after, children, bounds⟩ := carries.record p block
  simp only [Builder.set, recorded, Guarded.ok_bind]
  cases decide (p ∉ before.map Prod.fst) with
  | true => exact ⟨_, rfl, rfl, after, children, bounds, rfl, rfl⟩
  | false => exact ⟨_, rfl, rfl, after, children, bounds, rfl, rfl⟩

/-- What running a script does to a builder whose node carried `before` in `cubes`. -/
structure Walked (b after : Builder σ) (script : Script σ) (seed : σ)
    (before : List (BlockPos × Block)) (cubes : Set CubeCoord) (handles : List Handle)
    (slots : List Nat) : Prop where
  grown : Grown b.arena after.arena slots
  planted : Planted after.arena handles script.branches slots
  children : after.node.children = b.node.children ++ handles
  carries : after.node.Carries seed (before ++ script.sets)
  bounding : Bounding after.node.bounds (cubes ∪ cubesOf script.sets ∪ script.branches.cubes)

theorem finish_spec {arena : FeatureArena σ} {seed : σ} {replies : List Reply} {h : Handle}
    {inner built : Builder σ} {script : Script σ} {handles : List Handle} {slots : List Nat}
    (tidy : arena.Tidy FeatureNode.Blank) (started : start arena seed replies = (h, inner))
    (walked : Walked inner built script seed [] ∅ handles slots) :
    Grown arena (built.finish h) (h.index :: slots) ∧
      Planted (built.finish h) [h] (.tree seed script.sets script.branches .none)
        (h.index :: slots) := by
  have spec := start_spec tidy seed replies
  rw [started] at spec
  obtain ⟨grown, held, _, _, childless⟩ := spec
  have whole := grown.trans walked.grown
  have still : built.arena.get? h = some {} :=
    (Arena.get?_congr (walked.grown.kept _ (Arena.isLive_of_get? held))).trans held
  obtain ⟨_, now, others, _⟩ := Arena.exchange_spec still built.node
  have apart : h.index ∉ slots := (List.nodup_cons.1 whole.nodup).1
  refine ⟨whole.exchange (List.mem_cons_self ..) still _, ?_⟩
  have children : built.node.children = handles := by
    rw [walked.children, childless, List.nil_append]
  have within : Planted (built.finish h) built.node.children script.branches slots := by
    rw [children]
    exact walked.planted.frame fun i member => others i fun same => apart (same ▸ member)
  have bounding := walked.bounding
  rw [Set.empty_union] at bounding
  have tree := Planted.tree now walked.carries bounding within .none
  rwa [List.append_nil] at tree

/-- Running a script never fails. -/
theorem run_spec (script : Script σ) {b : Builder σ} {seed : σ}
    {before : List (BlockPos × Block)} {cubes : Set CubeCoord}
    (tidy : b.arena.Tidy FeatureNode.Blank) (carries : b.node.Carries seed before)
    (bounding : Bounding b.node.bounds cubes) :
    ∃ after handles slots, b.run script = .ok after ∧
      Walked b after script seed before cubes handles slots := by
  induction script generalizing b seed before cubes with
  | done =>
    refine ⟨b, [], [], rfl, .refl tidy, .none, ?_, ?_, ?_⟩
    · simp
    · simpa [Script.sets] using carries
    · simpa [Script.sets, Script.branches, cubesOf, Forest.cubes] using bounding
  | set p block rest ih =>
    obtain ⟨next, done, arena, filed, children, bounds, _⟩ := set_spec carries p block
    have extended := bounding.extend (CubeCoord.ofBlock p)
    rw [← bounds] at extended
    obtain ⟨after, handles, slots, run, walked⟩ := ih (arena ▸ tidy) filed extended
    refine ⟨after, handles, slots, ?_, ?_, walked.planted, ?_, ?_, ?_⟩
    · simpa only [Builder.run, done, Guarded.ok_bind] using run
    · exact arena ▸ walked.grown
    · rw [walked.children, children]
    · simpa [Script.sets] using walked.carries
    · have same : insert (CubeCoord.ofBlock p) cubes ∪ cubesOf rest.sets =
          cubes ∪ cubesOf (Script.set p block rest).sets := by
        rw [Script.sets, cubesOf_cons, Set.union_insert, Set.insert_union]
      exact same ▸ walked.bounding
  | writes rest ih =>
    obtain ⟨after, handles, slots, run, walked⟩ :=
      ih (b := { b with replies := .writes b.written :: b.replies }) tidy carries bounding
    exact ⟨after, handles, slots, run, walked.grown, walked.planted, walked.children,
      walked.carries, walked.bounding⟩
  | branch child body rest bodyIh restIh =>
    cases started : start b.arena child b.replies with
    | mk h inner =>
      have spec := start_spec tidy child b.replies
      rw [started] at spec
      obtain ⟨grown, held, fresh, unbounded, _⟩ := spec
      have nothing : Bounding inner.node.bounds ∅ := by
        rw [unbounded]
        rfl
      obtain ⟨built, inside, innerSlots, bodyRun, below⟩ := bodyIh grown.tidy fresh nothing
      obtain ⟨whole, tree⟩ := finish_spec tidy started below
      obtain ⟨after, handles, slots, run, walked⟩ :=
        restIh (b := ⟨built.finish h, b.node.adopt h built.node.bounds, b.written + built.written,
            built.replies⟩) whole.tidy
          ⟨carries.seed, carries.buckets, carries.spare⟩ (bounding.unite below.bounding)
      refine ⟨after, h :: handles, h.index :: innerSlots ++ slots, ?_, ?_, ?_, ?_, ?_, ?_⟩
      · simp only [Builder.run, started, bodyRun, Guarded.ok_bind]
        exact run
      · exact whole.trans walked.grown
      · exact (walked.grown.planted tree).beside walked.planted
      · rw [walked.children]
        simp [FeatureNode.adopt]
      · exact walked.carries
      · have same : cubes ∪ (∅ ∪ cubesOf body.sets ∪ body.branches.cubes) ∪ cubesOf rest.sets ∪
            rest.branches.cubes =
            cubes ∪ cubesOf (Script.branch child body rest).sets ∪
              (Script.branch child body rest).branches.cubes := by
          ext c
          simp only [Script.sets, Script.branches, Forest.cubes, Set.mem_union]
          tauto
        exact same ▸ walked.bounding

end Builder

variable {arena : FeatureArena σ}

theorem FeatureArena.materialise_spec (tidy : arena.Tidy FeatureNode.Blank) (seed : σ)
    (script : Script σ) :
    ∃ built slots, arena.materialise seed script = .ok built ∧ Grown arena built.arena slots ∧
      Planted built.arena [built.root] (.tree seed script.sets script.branches .none) slots := by
  cases started : Builder.start arena seed [] with
  | mk h inner =>
    have spec := Builder.start_spec tidy seed []
    rw [started] at spec
    obtain ⟨grown, held, fresh, unbounded, _⟩ := spec
    have nothing : Bounding inner.node.bounds ∅ := by
      rw [unbounded]
      rfl
    obtain ⟨built, handles, slots, run, walked⟩ :=
      Builder.run_spec script grown.tidy fresh nothing
    obtain ⟨whole, tree⟩ := Builder.finish_spec tidy started walked
    refine ⟨⟨h, built.finish h, built.written, built.replies.reverse⟩, h.index :: slots, ?_,
      whole, tree⟩
    simp only [materialise, started, run, Guarded.ok_bind, Guarded.pure_eq]

end Karst
