import Karst.Generation.Caves
import Karst.Generation.Pockets
import Karst.Proofs.Feature.Writes

namespace Karst

open Guarded

variable {σ : Type} {P : Block → Prop} {Q : BlockPos → Block → Prop}

namespace Ellipsoid

theorem downFrom_induction {R : Script σ → Prop} {before : Int32 → Script σ → Script σ}
    (each : ∀ n rest, R rest → R (before n rest)) (count : Nat) (last : Int32) {rest : Script σ}
    (start : R rest) : R (downFrom before count last rest) := by
  induction count generalizing last rest with
  | zero => exact start
  | succ count ih => exact ih (last - 1) (each last rest start)

theorem along_induction {R : Script σ → Prop} {before : Int32 → Script σ → Script σ}
    (each : ∀ n rest, R rest → R (before n rest)) (first last : Int32) {rest : Script σ}
    (start : R rest) : R (along first last before rest) :=
  downFrom_induction each _ last start

theorem write_induction {R : Script σ → Prop} (e : Ellipsoid) (keep : Float → Bool)
    {fill : Int32 → Block} (each : ∀ p rest, R rest → R (.set p (fill p.y) rest))
    {rest : Script σ} (start : R rest) : R (e.write keep fill rest) := by
  apply along_induction _ _ _ start
  intro y rest start
  dsimp only
  split
  case isFalse => exact start
  case isTrue =>
    apply along_induction _ _ _ start
    intro z rest start
    apply along_induction _ _ _ start
    intro x rest start
    split
    case isTrue => exact each ⟨x, y, z⟩ rest start
    case isFalse => exact start

theorem all_write (e : Ellipsoid) (keep : Float → Bool) {fill : Int32 → Block}
    (fills : ∀ p : BlockPos, Q p (fill p.y)) {rest : Script σ} (all : rest.All Q) :
    (e.write keep fill rest).All Q :=
  e.write_induction keep (fun p _ all => ⟨fills p, all⟩) all

end Ellipsoid

namespace CaveSeed

variable {p : CaveParams} {walk : CaveSeed → Guarded (Script CaveSeed)}

theorem fill_of (air : P .air) (lava : P .lava) (y : Int32) : P (fill p y) := by
  unfold fill
  split
  case h_1 =>
    split
    case isTrue => exact lava
    case isFalse => exact air
  case h_2 => exact air

theorem all_strokeScript (fills : ∀ place : BlockPos, Q place (fill p place.y))
    (walks : ∀ seed script, walk seed = .ok script → script.All Q) {rest script : Script CaveSeed}
    (all : rest.All Q) {stroke : Stroke} (drawn : strokeScript p walk rest stroke = .ok script) :
    script.All Q := by
  cases stroke with
  | carve shape =>
    cases drawn
    exact shape.all_write _ fills all
  | split left right =>
    obtain ⟨leftBody, leftWalk, drawn⟩ := bind_eq_ok_iff.1 drawn
    obtain ⟨rightBody, rightWalk, drawn⟩ := bind_eq_ok_iff.1 drawn
    cases drawn
    exact ⟨walks left leftBody leftWalk, walks right rightBody rightWalk, all⟩

theorem all_walkScript (fills : ∀ place : BlockPos, Q place (fill p place.y))
    (walks : ∀ seed script, walk seed = .ok script → script.All Q) {range : Int32}
    {seed : CaveSeed} {script : Script CaveSeed}
    (made : walkScript range p walk seed = .ok script) : script.All Q := by
  obtain ⟨walker, _, made⟩ := bind_eq_ok_iff.1 made
  refine foldlM_invariant (P := Script.All Q) made trivial ?_
  intro stroke _ rest next all drawn
  exact all_strokeScript fills walks all drawn

theorem all_script (fills : ∀ place : BlockPos, Q place (fill p place.y)) {range : Int32}
    {seed : CaveSeed} {script : Script CaveSeed} (made : seed.script range p = .ok script) :
    script.All Q := by
  refine all_walkScript fills ?_ made
  intro branch body walked
  refine all_walkScript fills ?_ walked
  intro _ _ ended
  cases ended
  trivial

theorem only_script (air : P .air) (lava : P .lava) {range : Int32} {seed : CaveSeed}
    {script : Script CaveSeed} (made : seed.script range p = .ok script) : script.Only P :=
  Script.only_iff_all.2 (all_script (fun place => fill_of air lava place.y) made)

end CaveSeed

theorem caveGenerator_writes (range : Int32) (p : CaveParams) (world : World) (air : P .air)
    (lava : P .lava) : (caveGenerator range p).Writes world P := by
  intro cube list _ seed _ script made
  exact CaveSeed.only_script air lava made

namespace PocketSeed

theorem fluid_of_discover {p : PocketParams} {cube : CubeCoord} {s after : Stream}
    {list : Array PocketSeed} (found : discover p cube s #[] = .ok (list, after)) :
    ∀ seed ∈ list, seed.fluid = p.fluid := by
  unfold discover at found
  generalize s.oneIn p.rarity = draw at found
  obtain ⟨chosen, s⟩ := draw
  cases chosen with
  | true =>
    obtain ⟨corner, _, found⟩ := bind_eq_ok_iff.1 found
    cases found
    intro seed member
    rw [List.push_toArray, List.nil_append, List.mem_toArray, List.mem_singleton] at member
    rw [member]
  | false =>
    cases found
    simp

theorem only_script {seed : PocketSeed} (fluid : P seed.fluid) : seed.script.Only P := by
  rw [Script.only_iff_all]
  unfold script
  exact Ellipsoid.all_write _ _ (fun _ => fluid) trivial

end PocketSeed

theorem pocketGenerator_writes (p : PocketParams) (world : World) (fluid : P p.fluid) :
    (pocketGenerator p).Writes world P := by
  intro cube list found seed member script made
  obtain ⟨⟨_, after⟩, discovered, found⟩ := bind_eq_ok_iff.1 found
  cases found
  simp only [pocketGenerator] at discovered
  cases made
  have same := PocketSeed.fluid_of_discover discovered seed member
  apply PocketSeed.only_script
  rwa [same]

end Karst
