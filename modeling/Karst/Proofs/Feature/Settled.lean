import Karst.Proofs.Cube.Worn
import Karst.Proofs.Feature.Replay
import Karst.Proofs.Feature.Writes

/-!
Replaying once is enough. A generator whose refusals are final, and which refuses what it wrote
itself, finds nothing to write the second time.
-/

namespace Karst

open Guarded

/-- Once the step was made, it changes nothing more, even after other changes that `R` allows. -/
def Settles {α : Type} (R : α → α → Prop) (step : α → Guarded α) : Prop :=
  ∀ a b, R a a → step a = .ok b → R a b ∧ ∀ c, R b c → step c = .ok c

theorem Settles.foldlM {α ι : Type} {R : α → α → Prop} (trans : ∀ {a b c}, R a b → R b c → R a c)
    (target : ∀ {a b}, R a b → R b b) {f : α → ι → Guarded α} {items : List ι}
    (each : ∀ item ∈ items, Settles R (f · item)) : Settles R (items.foldlM f) := by
  induction items with
  | nil =>
    intro a b start run
    cases run
    exact ⟨start, fun _ _ => rfl⟩
  | cons item items ih =>
    intro a b start run
    simp only [List.foldlM_cons, bind_eq_ok_iff] at run
    obtain ⟨next, first, run⟩ := run
    obtain ⟨moved, quiet⟩ := each item (List.mem_cons_self ..) a next start first
    obtain ⟨further, restQuiet⟩ :=
      ih (fun item member => each item (List.mem_cons_of_mem _ member)) next b (target moved) run
    refine ⟨trans moved further, ?_⟩
    -- what comes after all the steps also comes after the first
    intro c later
    simp only [List.foldlM_cons, quiet c (trans further later), ok_bind]
    exact restQuiet c later

variable {inert : Block → Prop}

structure Replayed.Worn (inert : Block → Prop) (r s : Replayed) : Prop where
  cube : Cube.Worn inert r.cube s.cube
  stream : s.stream = r.stream

namespace Replayed

theorem Worn.trans {r s t : Replayed} (first : Worn inert r s) (second : Worn inert s t) :
    Worn inert r t :=
  ⟨first.cube.trans second.cube, second.stream.trans first.stream⟩

theorem Worn.target {r s : Replayed} (worn : Worn inert r s) : Worn inert s s :=
  ⟨.refl worn.cube.right, rfl⟩

/-- The writes of a bucket may be refused for good: wherever a decision is made at all, inert blocks
are refused, and still water always is. -/
structure Refuses (inert : Block → Prop) (bucket : OpBucket)
    (allowed : VoxelOp → Block → Guarded Bool) : Prop where
  inside : ∀ op ∈ bucket.ops, op.pos.Inside
  covers : ∀ op ∈ bucket.ops, inert op.block
  inert : ∀ op current decision, allowed op current = .ok decision →
    ∀ b, inert b → allowed op b = .ok false
  water : ∀ op b, b.isStillWater → allowed op b ≠ .ok true

variable {bucket : OpBucket} {allowed : VoxelOp → Block → Guarded Bool}

theorem offer_refused {op : VoxelOp} {progress : Nat × Cube} (wf : progress.2.WellFormed)
    (inside : op.pos.Inside) (refused : allowed op (progress.2.blockAt op.pos) = .ok false) :
    offer allowed progress op = .ok progress := by
  rw [offer, Cube.get_eq_blockAt wf inside, ok_bind, refused]
  rfl

theorem settles_offer (refuses : Refuses inert bucket allowed) {op : VoxelOp}
    (member : op ∈ bucket.ops) :
    Settles (fun x y : Nat × Cube => Cube.Worn inert x.2 y.2) (offer allowed · op) := by
  have inside := refuses.inside op member
  intro progress after start made
  simp only [offer, Cube.get_eq_blockAt start.left inside, ok_bind] at made
  obtain ⟨decision, decided, made⟩ := bind_eq_ok_iff.1 made
  cases decision with
  | true =>
    -- what is written is inert, and stays so under whatever comes later
    have dry : (progress.2.blockAt op.pos).isStillWater = false := by
      cases wet : (progress.2.blockAt op.pos).isStillWater with
      | true => exact absurd decided (refuses.water op _ wet)
      | false => rfl
    obtain ⟨next, written, worn, here⟩ :=
      Cube.Worn.set start.left inside (refuses.covers op member) dry
    simp only [if_true, written, ok_bind, pure_eq, Except.ok.injEq] at made
    subst made
    refine ⟨worn, ?_⟩
    intro later further
    refine offer_refused further.right inside (refuses.inert op _ _ decided _ ?_)
    rcases further.blocks op.pos inside with same | ⟨covered, _⟩
    · rw [same, here]
      exact refuses.covers op member
    · exact covered
  | false =>
    -- the block that was refused is still there, or an inert one is
    simp only [Bool.false_eq_true, if_false, pure_eq, Except.ok.injEq] at made
    subst made
    refine ⟨start, ?_⟩
    intro later further
    refine offer_refused further.right inside ?_
    rcases further.blocks op.pos inside with same | ⟨covered, _⟩
    · rwa [same]
    · exact refuses.inert op _ _ decided _ covered

theorem guarded_settles (refuses : Refuses inert bucket allowed) {c : Cube} (wf : c.WellFormed)
    {s : Stream} {r : Replayed} (replayed : guarded bucket c s allowed = .ok r) :
    r.stream = s ∧ Cube.Worn inert c r.cube ∧
      ∀ d, Cube.Worn inert r.cube d → guarded bucket d s allowed = .ok ⟨0, d, s⟩ := by
  rw [guarded_eq] at replayed
  obtain ⟨progress, run, done⟩ := bind_eq_ok_iff.1 replayed
  cases done
  have settles : Settles (fun x y : Nat × Cube => Cube.Worn inert x.2 y.2)
      (bucket.ops.toList.foldlM (offer allowed)) :=
    Settles.foldlM (fun first second => first.trans second) (fun worn => .refl worn.right)
      fun op member => settles_offer refuses (by simpa using member)
  obtain ⟨worn, quiet⟩ := settles (0, c) progress (.refl wf) run
  refine ⟨rfl, worn, ?_⟩
  intro d further
  have still : bucket.ops.toList.foldlM (offer allowed) (0, d) = .ok (0, d) := quiet (0, d) further
  rw [guarded_eq, still]
  rfl

end Replayed

namespace Generator

variable {σ : Type} {generator : Generator σ} {world : World} {biomes : BiomeSource}

def ReplaySettles (generator : Generator σ) (world : World) (biomes : BiomeSource)
    (inert : Block → Prop) : Prop :=
  ∀ (bucket : OpBucket) (c : Cube) (s : Stream) (r : Replayed),
    (∀ op ∈ bucket.ops, op.pos.Inside) → (∀ op ∈ bucket.ops, inert op.block) → c.WellFormed →
    generator.replay world bucket c biomes s = .ok r →
    r.stream = s ∧ Cube.Worn inert c r.cube ∧
      ∀ d, Cube.Worn inert r.cube d → generator.replay world bucket d biomes s = .ok ⟨0, d, s⟩

theorem ReplaySettles.replayBuckets (settles : generator.ReplaySettles world biomes inert)
    {buckets : List OpBucket} (inside : ∀ bucket ∈ buckets, ∀ op ∈ bucket.ops, op.pos.Inside)
    (covers : ∀ bucket ∈ buckets, ∀ op ∈ bucket.ops, inert op.block) :
    Settles (Replayed.Worn inert) (generator.replayBuckets world biomes buckets) := by
  refine Settles.foldlM (R := Replayed.Worn inert) (fun first second => first.trans second)
    (fun worn => worn.target) ?_
  intro bucket member progress after start made
  obtain ⟨step, replayed, made⟩ := bind_eq_ok_iff.1 made
  cases made
  obtain ⟨stream, worn, quiet⟩ := settles bucket progress.cube progress.stream step
    (inside bucket member) (covers bucket member) start.cube.left replayed
  refine ⟨⟨worn, stream⟩, ?_⟩
  intro later further
  have still : later.stream = progress.stream := further.stream.trans stream
  have nothing := quiet later.cube further.cube
  rw [← still] at nothing
  simp only [nothing, ok_bind, pure_eq, Nat.add_zero]

theorem ReplaySettles.replayOrigin (settles : generator.ReplaySettles world biomes inert)
    (writes : generator.Writes world inert) (target origin : CubeCoord) :
    Settles (Replayed.Worn inert) (generator.replayOrigin world biomes target · origin) := by
  intro progress after start made
  obtain ⟨list, found, made⟩ := bind_eq_ok_iff.1 made
  obtain ⟨forest, grown, made⟩ := bind_eq_ok_iff.1 made
  have only := writes.grow found grown
  have inside : ∀ bucket ∈ forest.buckets target, ∀ op ∈ bucket.ops, op.pos.Inside :=
    fun bucket member => Forest.pos_inside_of_mem_buckets member
  have buckets := settles.replayBuckets inside fun bucket member => only.of_mem_buckets member
  obtain ⟨worn, quiet⟩ := buckets progress after start made
  refine ⟨worn, ?_⟩
  intro later further
  simp only [Generator.replayOrigin, found, grown, ok_bind]
  exact quiet later further

theorem ReplaySettles.uncached (settles : generator.ReplaySettles world biomes inert)
    (writes : generator.Writes world inert) {c after : Cube} {written : Nat} (wf : c.WellFormed)
    (replayed : generator.uncached world c biomes = .ok (written, after)) :
    Cube.Worn inert c after ∧
      ∀ d, Cube.Worn inert after d → generator.uncached world d biomes = .ok (0, d) := by
  obtain ⟨origins, around, replayed⟩ := bind_eq_ok_iff.1 replayed
  obtain ⟨progress, run, replayed⟩ := bind_eq_ok_iff.1 replayed
  cases replayed
  have each : Settles (Replayed.Worn inert)
      (origins.foldlM (generator.replayOrigin world biomes c.coord)) :=
    Settles.foldlM (fun first second => first.trans second) (fun worn => worn.target)
      fun origin _ => settles.replayOrigin writes c.coord origin
  obtain ⟨worn, quiet⟩ := each ⟨0, c, .forCube world.seed c.coord⟩ progress ⟨.refl wf, rfl⟩ run
  refine ⟨worn.cube, ?_⟩
  intro d further
  have still : origins.foldlM (generator.replayOrigin world biomes c.coord)
      ⟨0, d, .forCube world.seed c.coord⟩ = .ok ⟨0, d, .forCube world.seed c.coord⟩ :=
    quiet _ ⟨further, worn.stream.symm⟩
  have coord : d.coord = c.coord := further.coord.trans worn.cube.coord
  simp only [Generator.uncached, coord, around, still, ok_bind, pure_eq]

end Generator

end Karst
