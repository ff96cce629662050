import Karst.Feature.Generator
import Karst.Generation.Ellipsoid

namespace Karst

structure PocketSeed where
  center : Vec3
  radius : Float
  yScale : Float
  fluid : Block
deriving Inhabited

namespace PocketSeed

def discover (p : PocketParams) (cube : CubeCoord) (s : Stream) (found : Array PocketSeed) :
    Guarded (Array PocketSeed × Stream) := do
  let (chosen, s) := s.oneIn p.rarity
  if chosen then
    let corner ← cube.minBlock
    let (center, s) := s.nextPoint corner
    let (share, s) := s.nextFloat
    let radius := p.minRadius + share * (p.maxRadius - p.minRadius)
    return (found.push ⟨center, radius, p.yScale, p.fluid⟩, s)
  else
    return (found, s)

def script (seed : PocketSeed) : Script PocketSeed :=
  let shape : Ellipsoid := ⟨seed.center, seed.radius, seed.radius * seed.yScale⟩
  shape.write (fun _ => true) (fun _ => seed.fluid) .done

/-- Only stone is replaced, so that no pocket leaks into a cave or the open air. -/
def replay (bucket : OpBucket) (cube : Cube) (s : Stream) : Guarded Replayed :=
  Replayed.guarded bucket cube s fun _ current => return current.id == Block.stone.id

end PocketSeed

def pocketGenerator (p : PocketParams) : Generator PocketSeed where
  range := 1
  discover _ cube s found := PocketSeed.discover p cube s found
  materialise _ seed := return seed.script
  replay _ bucket cube _ s := PocketSeed.replay bucket cube s

end Karst
