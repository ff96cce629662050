import Karst.Cube.Perimeter
import Karst.Feature.Generator
import Karst.Generation.Carve
import Karst.Generation.Ellipsoid

/-!
Caves. A seed starts a walk of as many steps as the feature range allows; heading and pitch wander,
and an ellipsoid is carved around the walker at most steps, its size rising and falling over the
walk. A large tunnel splits in the second quarter or third of its walk into two branches at right
angles, and ends there. A cavern is carved once.
-/

namespace Karst

inductive CaveKind where
  | tunnel
  | cavern
  | branch
deriving DecidableEq, Repr, Inhabited

structure CaveSeed where
  origin : Vec3
  yaw : Float32
  pitch : Float32
  size : Float32
  kind : CaveKind
  startStep : UInt32
  /-- The length of the walk; 0 leaves it to the walk. -/
  maxSteps : UInt32
  yScale : Float
  rngSeed : UInt64
deriving Inhabited

inductive StepAction where
  | carve
  | skip
  | split
deriving DecidableEq, Repr

structure WalkStep where
  step : UInt32
  pos : Vec3
  yaw : Float32
  pitch : Float32
  radius : Float
  height : Float
  action : StepAction

structure Walker where
  stream : Stream
  kind : CaveKind
  size : Float32
  yScale : Float
  step : UInt32
  length : UInt32
  splitStep : UInt32
  steep : Bool
  pos : Vec3
  yaw : Float32
  pitch : Float32
  yawChange : Float32
  pitchChange : Float32

def pi32 : Float32 := Float32.ofBits 0x40490fdb

def tau32 : Float32 := Float32.ofBits 0x40c90fdb

def halfPi32 : Float32 := Float32.ofBits 0x3fc90fdb

namespace Walker

def span (range : Int32) : Guarded UInt32 := do
  let reach ← Checked.mul range 16
  return (max (← Checked.sub reach 16) 0).toUInt32

def walkLength (range : Int32) (seed : CaveSeed) (s : Stream) : Guarded (UInt32 × Stream) := do
  if 0 < seed.maxSteps then
    return (seed.maxSteps, s)
  else
    let span ← span range
    let (short, s) := s.below (span / 4)
    return (← Checked.uint32 (Int.ofNat span.toNat - Int.ofNat short.toNat), s)

def start (range : Int32) (p : CaveParams) (seed : CaveSeed) : Guarded Walker := do
  let (length, s) ← walkLength range seed (.ofSeed seed.rngSeed)
  let (delay, s) := s.below (length / 2)
  let splitStep ← Checked.uint32 (Int.ofNat delay.toNat + Int.ofNat (length / 4).toNat)
  let (steep, s) := s.oneIn p.steepRarity
  return { stream := s, kind := seed.kind, size := seed.size, yScale := seed.yScale
           step := if seed.kind = .cavern then length / 2 else seed.startStep
           length, splitStep, steep, pos := seed.origin, yaw := seed.yaw, pitch := seed.pitch
           yawChange := 0, pitchChange := 0 }

/-- Half the circle is spent over the walk, so that the size is greatest in the middle. -/
def envelope (w : Walker) : Float32 :=
  (w.step.toFloat32 * pi32 / w.length.toFloat32).sin * w.size

def impulse (s : Stream) : Float32 × Stream :=
  let (a, s) := s.nextFloat32
  let (c, s) := s.nextFloat32
  let (d, s) := s.nextFloat32
  ((a - c) * d, s)

def chooseAction (w : Walker) (p : CaveParams) (s : Stream) : StepAction × Stream :=
  if w.kind = .tunnel ∧ w.step = w.splitStep ∧ w.size > 1 then (.split, s)
  else if w.kind = .cavern then (.carve, s)
  else
    let (skipped, s) := s.oneIn p.carveSkipRarity
    (if skipped then .skip else .carve, s)

def advance (w : Walker) (p : CaveParams) : WalkStep × Walker :=
  let radius := p.minRadius + w.envelope.toFloat
  let pos := w.pos + Vec3.ofAngles w.yaw w.pitch
  let pitch := w.pitch * (if w.steep then 0.92 else 0.7) + w.pitchChange * 0.1
  let yaw := w.yaw + w.yawChange * 0.1
  let (pitchImpulse, s) := impulse w.stream
  let (yawImpulse, s) := impulse s
  let (action, s) := w.chooseAction p s
  (⟨w.step, pos, yaw, pitch, radius, radius * w.yScale, action⟩,
    { w with
      stream := s
      step := if w.kind = .cavern ∨ action = .split then w.length else w.step + 1
      pos, yaw, pitch
      pitchChange := w.pitchChange * 0.9 + pitchImpulse * 2
      yawChange := w.yawChange * 0.75 + yawImpulse * 4 })

def branch (w : Walker) (there : WalkStep) (turn : Float32) (yScale : Float) : CaveSeed × Walker :=
  let (rngSeed, s) := w.stream.nextUInt64
  let (share, s) := s.nextFloat32
  ({ origin := there.pos, yaw := there.yaw + turn, pitch := there.pitch / 3
     size := share * 0.5 + 0.5, kind := .branch, startStep := there.step, maxSteps := w.length
     yScale, rngSeed },
    { w with stream := s })

end Walker

inductive Stroke where
  | carve (shape : Ellipsoid)
  | split (left right : CaveSeed)

namespace Walker

/-- The strokes of at most `steps` further steps, the last one first, before those in `made`. -/
def strokes (p : CaveParams) : (steps : Nat) → Walker → (made : List Stroke) → List Stroke
  | 0, _, made => made
  | steps + 1, w, made =>
      if w.step < w.length then
        let (s, w) := w.advance p
        match s.action with
        | .carve => strokes p steps w (.carve ⟨s.pos, s.radius, s.height⟩ :: made)
        | .skip => strokes p steps w made
        | .split =>
            let (left, w) := w.branch s (-halfPi32) p.tunnelYScale
            let (right, w) := w.branch s halfPi32 p.tunnelYScale
            strokes p steps w (.split left right :: made)
      else made

def remaining (w : Walker) : Nat := w.length.toNat - w.step.toNat

end Walker

namespace CaveSeed

def fill (p : CaveParams) (y : Int32) : Block :=
  match p.lavaLevel with
  | some level => if y < level then .lava else .air
  | none => .air

/-- The script of a stroke and then `rest`; `walk` gives that of a branch. -/
def strokeScript (p : CaveParams) (walk : CaveSeed → Guarded (Script CaveSeed))
    (rest : Script CaveSeed) : Stroke → Guarded (Script CaveSeed)
  | .carve shape =>
      return shape.write (fun dy => !decide (dy ≤ p.floorCutoff)) (fill p) rest
  | .split left right => do
      let leftBody ← walk left
      let rightBody ← walk right
      return .branch left leftBody (.branch right rightBody rest)

def walkScript (range : Int32) (p : CaveParams) (walk : CaveSeed → Guarded (Script CaveSeed))
    (seed : CaveSeed) : Guarded (Script CaveSeed) := do
  let walker ← Walker.start range p seed
  (walker.strokes p walker.remaining []).foldlM (strokeScript p walk) .done

/-- Only a tunnel splits, so that branches have none of their own. -/
def script (range : Int32) (p : CaveParams) (seed : CaveSeed) : Guarded (Script CaveSeed) :=
  walkScript range p (walkScript range p fun _ => return .done) seed

def drawTunnel (p : CaveParams) (origin : Vec3) (s : Stream) : CaveSeed × Stream :=
  let (turn, s) := s.nextFloat32
  let (slope, s) := s.nextFloat32
  let (a, s) := s.nextFloat32
  let (b, s) := s.nextFloat32
  let size := a * 2 + b
  let (boosted, s) := s.oneIn p.sizeBoostRarity
  let (size, s) :=
    if boosted then
      let (a, s) := s.nextFloat32
      let (b, s) := s.nextFloat32
      (size * (a * b * 3 + 1), s)
    else (size, s)
  let (rngSeed, s) := s.nextUInt64
  ({ origin, yaw := turn * tau32, pitch := (slope - 0.5) * 2 / 8, size, kind := .tunnel
     startStep := 0, maxSteps := 0, yScale := p.tunnelYScale, rngSeed }, s)

def drawCavern (p : CaveParams) (origin : Vec3) (s : Stream) : CaveSeed × Stream :=
  let (share, s) := s.nextFloat32
  let (rngSeed, s) := s.nextUInt64
  ({ origin, yaw := 0, pitch := 0, size := 1 + share * 6, kind := .cavern
     startStep := 0, maxSteps := 0, yScale := p.cavernYScale, rngSeed }, s)

def drawTunnels (p : CaveParams) (origin : Vec3) :
    Nat → Stream → Array CaveSeed → Array CaveSeed × Stream
  | 0, s, found => (found, s)
  | count + 1, s, found =>
      let (seed, s) := drawTunnel p origin s
      drawTunnels p origin count s (found.push seed)

def drawGroup (p : CaveParams) (corner : BlockPos) (s : Stream) (found : Array CaveSeed) :
    Guarded (Array CaveSeed × Stream) := do
  let (origin, s) := s.nextPoint corner
  let (wide, s) := s.oneIn p.cavernRarity
  if wide then
    let (cavern, s) := drawCavern p origin s
    let (extra, s) := s.below p.maxCavernArms
    let arms ← Checked.uint32 (1 + Int.ofNat extra.toNat)
    return drawTunnels p origin arms.toNat s (found.push cavern)
  else
    return drawTunnels p origin 1 s found

def drawGroups (p : CaveParams) (corner : BlockPos) :
    Nat → Stream → Array CaveSeed → Guarded (Array CaveSeed × Stream)
  | 0, s, found => return (found, s)
  | count + 1, s, found => do
      let (found, s) ← drawGroup p corner s found
      drawGroups p corner count s found

def discover (p : CaveParams) (cube : CubeCoord) (s : Stream) (found : Array CaveSeed) :
    Guarded (Array CaveSeed × Stream) := do
  let (chosen, s) := s.oneIn p.rarity
  if chosen then
    let (inner, s) := s.below (← Checked.uint32 (Int.ofNat p.maxInitNodes.toNat + 1))
    let inner ← Checked.uint32 (Int.ofNat inner.toNat + 1)
    let (middle, s) := s.below inner
    let middle ← Checked.uint32 (Int.ofNat middle.toNat + 1)
    let (count, s) := s.below middle
    let corner ← cube.minBlock
    drawGroups p corner count.toNat s found
  else
    return (found, s)

def replay (p : CaveParams) (bucket : OpBucket) (cube : Cube) (biomes : BiomeSource) (s : Stream) :
    Guarded Replayed := do
  match bucket.localBounds with
  | none => return ⟨0, cube, s⟩
  | some (lower, upper) =>
      if p.waterThreshold < (← cube.perimeterWater lower upper p.waterThreshold) then
        return ⟨0, cube, s⟩
      else
        let corner ← cube.coord.minBlock
        Replayed.guarded bucket cube s fun op current => do
          return canCarve current (biomes (← corner.atLocal op.pos)) p.carvable

end CaveSeed

def caveGenerator (range : Int32) (p : CaveParams) : Generator CaveSeed where
  range
  discover _ cube s found := CaveSeed.discover p cube s found
  materialise _ seed := seed.script range p
  replay _ bucket cube biomes s := CaveSeed.replay p bucket cube biomes s

end Karst
