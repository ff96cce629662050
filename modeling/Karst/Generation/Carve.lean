import Karst.Biome

namespace Karst

/-- A carvable rock, whatever its state, or the ground cover of the biome. -/
def canCarve (current : Block) (biome : Biome) (carvable : List Block) : Bool :=
  carvable.any (fun b => b.id == current.id) ||
    current.id == biome.carveSurface.1.id || current.id == biome.carveSurface.2.id

end Karst
