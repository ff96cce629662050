import Karst.Block
import Karst.Geometry.Coord

namespace Karst

inductive Script (σ : Type) where
  | done
  | set (p : BlockPos) (block : Block) (rest : Script σ)
  /-- Asks how many writes were recorded so far. -/
  | writes (rest : Script σ)
  | branch (seed : σ) (body rest : Script σ)
deriving Inhabited

inductive Reply where
  | fresh (isFirst : Bool)
  | writes (count : Nat)
deriving DecidableEq, Repr

end Karst
