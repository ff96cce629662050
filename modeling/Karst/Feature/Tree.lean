import Std.Data.HashMap
import Karst.Cache.Arena
import Karst.Feature.Bucket
import Karst.Feature.Script
import Karst.Geometry.Box

/-!
Materialised features: trees of nodes in an arena. A node holds the writes of its own walk by cube,
its branches, and the box of cubes that its writes and those of its branches touch.
-/

namespace Karst

structure FeatureNode (σ : Type) where
  seed : Option σ := none
  bounds : Option CubeBox := none
  buckets : Std.HashMap CubeCoord OpBucket := {}
  children : List Handle := []
  spare : List OpBucket := []

namespace FeatureNode

variable {σ : Type}

/-- Forgets everything but the emptied buckets, which serve the node built here next. -/
def recycle (node : FeatureNode σ) : FeatureNode σ :=
  { spare := node.buckets.fold (fun spare _ bucket => bucket.recycle :: spare) node.spare }

instance : Recyclable (FeatureNode σ) where
  fresh := {}
  recycle := recycle

def affects (node : FeatureNode σ) (c : CubeCoord) : Bool :=
  node.bounds.any fun box => box.contains c

def bucket? (node : FeatureNode σ) (c : CubeCoord) : Option OpBucket := node.buckets[c]?

def opCount (node : FeatureNode σ) : Nat := node.buckets.fold (fun total _ b => total + b.size) 0

def extendBounds (bounds : Option CubeBox) (c : CubeCoord) : CubeBox :=
  match bounds with
  | some box => box.extend c
  | none => .point c

def uniteBounds (bounds other : Option CubeBox) : Option CubeBox :=
  match bounds, other with
  | some a, some b => some (a.union b)
  | none, some b => some b
  | a, none => a

/-- Files a write under its cube, in a spare bucket if the cube has none yet. Answers whether it is
the first at its position. -/
def record (node : FeatureNode σ) (p : BlockPos) (block : Block) :
    Guarded (Bool × FeatureNode σ) := do
  let cube := CubeCoord.ofBlock p
  let l ← p.relativeTo (← cube.minBlock)
  unless l.Inside do throw .assertionFailed
  match node with
  | ⟨seed, bounds, buckets, children, spare⟩ =>
      let bounds := some (extendBounds bounds cube)
      match buckets[cube]?.map fun bucket => bucket.isTaken l, spare with
      | some true, spare => return (false, ⟨seed, bounds, buckets, children, spare⟩)
      | some false, spare =>
          return (true,
            ⟨seed, bounds, buckets.modify cube fun b => b.push l block, children, spare⟩)
      | none, bucket :: spare =>
          if bucket.isTaken l then
            return (false, ⟨seed, bounds, buckets.insert cube bucket, children, spare⟩)
          else
            return (true,
              ⟨seed, bounds, buckets.insert cube (bucket.push l block), children, spare⟩)
      | none, [] =>
          return (true,
            ⟨seed, bounds, buckets.insert cube (OpBucket.empty.push l block), children, []⟩)

def adopt (node : FeatureNode σ) (child : Handle) (bounds : Option CubeBox) : FeatureNode σ :=
  { node with children := node.children ++ [child], bounds := uniteBounds node.bounds bounds }

end FeatureNode

abbrev FeatureArena (σ : Type) := Arena (FeatureNode σ)

namespace Arena

variable {α : Type}

def exchange (arena : Arena α) (h : Handle) (other : α) : α × Arena α :=
  match arena with
  | ⟨slots, free, nextGeneration, allocated, recycled⟩ =>
      match slots[h.index]? with
      | some slot =>
          if Slot.answers slot h then
            match slot with
            | ⟨value, generation, live⟩ =>
                (value, ⟨slots.setIfInBounds h.index ⟨other, generation, live⟩, free,
                  nextGeneration, allocated, recycled⟩)
          else (other, ⟨slots, free, nextGeneration, allocated, recycled⟩)
      | none => (other, ⟨slots, free, nextGeneration, allocated, recycled⟩)

end Arena

/-- A node under construction, out of its slot, with the count of writes recorded in it and its
finished branches, and the answers given so far, last first. -/
structure Builder (σ : Type) where
  arena : FeatureArena σ
  node : FeatureNode σ
  written : Nat := 0
  replies : List Reply := []

namespace Builder

variable {σ : Type}

def start (arena : FeatureArena σ) (seed : σ) (replies : List Reply) : Handle × Builder σ :=
  let (h, arena) := arena.alloc
  let (node, arena) := arena.exchange h {}
  (h, { arena, node := { node with seed := some seed }, replies })

def finish (b : Builder σ) (h : Handle) : FeatureArena σ := (b.arena.exchange h b.node).2

def set (b : Builder σ) (p : BlockPos) (block : Block) : Guarded (Builder σ) :=
  match b with
  | ⟨arena, node, written, replies⟩ => do
      let (isFirst, node) ← node.record p block
      if isFirst then return ⟨arena, node, written + 1, .fresh true :: replies⟩
      else return ⟨arena, node, written, .fresh false :: replies⟩

def run : Script σ → Builder σ → Guarded (Builder σ)
  | .done, b => .ok b
  | .set p block rest, b => do run rest (← b.set p block)
  | .writes rest, b => run rest { b with replies := .writes b.written :: b.replies }
  | .branch seed body rest, b => do
      let (h, inner) := start b.arena seed b.replies
      let inner ← run body inner
      let bounds := inner.node.bounds
      run rest
        { arena := inner.finish h
          node := b.node.adopt h bounds
          written := b.written + inner.written
          replies := inner.replies }

end Builder

structure Materialised (σ : Type) where
  root : Handle
  arena : FeatureArena σ
  written : Nat
  replies : List Reply

namespace FeatureArena

variable {σ : Type}

def materialise (arena : FeatureArena σ) (seed : σ) (script : Script σ) :
    Guarded (Materialised σ) := do
  let (root, builder) := Builder.start arena seed []
  let builder ← builder.run script
  let written := builder.written
  let replies := builder.replies.reverse
  return { root, arena := builder.finish root, written, replies }

/-- A node and everything under it, the last branch first; `depth` bounds the descent and no tree is
deeper than its arena has slots. -/
def descendants (arena : FeatureArena σ) : Nat → Handle → List Handle
  | 0, _ => []
  | depth + 1, h =>
      h :: match arena.get? h with
        | some node => node.children.reverse.flatMap (descendants arena depth)
        | none => []

def releaseTree (arena : FeatureArena σ) (root : Handle) : FeatureArena σ :=
  (descendants arena arena.slots.size root).foldl (fun arena h => (arena.release h).2) arena

def affecting (arena : FeatureArena σ) (target : CubeCoord) : Nat → Handle → List (FeatureNode σ)
  | 0, _ => []
  | depth + 1, h =>
      match arena.get? h with
      | some node =>
          if node.affects target then
            node :: node.children.flatMap (affecting arena target depth)
          else []
      | none => []

/-- The nodes of a tree that may write into `target`, parents first. -/
def visit (arena : FeatureArena σ) (root : Handle) (target : CubeCoord) : List (FeatureNode σ) :=
  affecting arena target arena.slots.size root

end FeatureArena

end Karst
