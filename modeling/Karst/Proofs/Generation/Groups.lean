import Karst.Proofs.Generation.Walk

namespace Karst

open Guarded

theorem Stream.below_next (s : Stream) (n : UInt32) :
    ∃ w after next, s.below n = (w, after) ∧ w.toNat < max 1 n.toNat ∧
      Checked.uint32 (Int.ofNat w.toNat + 1) = .ok next ∧ next.toNat = w.toNat + 1 := by
  have below := s.below_lt_max n
  have bound := n.toNat_lt
  obtain ⟨next, fits, value⟩ := Checked.exists_uint32 ((s.below n).1.toNat + 1) (by omega)
  exact ⟨_, _, next, rfl, below, fits, value⟩

namespace CaveSeed

variable {p : CaveParams} {origin : Vec3} {group : List CaveSeed}

/-- A seed as it is found: the walk starts at its beginning, and its length is left to it. -/
structure Fresh (origin : Vec3) (kind : CaveKind) (yScale : Float) (seed : CaveSeed) : Prop where
  origin : seed.origin = origin
  kind : seed.kind = kind
  startStep : seed.startStep = 0
  maxSteps : seed.maxSteps = 0
  yScale : seed.yScale = yScale

/-- The seeds that one origin gives. -/
inductive Group (p : CaveParams) (origin : Vec3) : List CaveSeed → Prop
  | alone {tunnel} (fresh : Fresh origin .tunnel p.tunnelYScale tunnel) : Group p origin [tunnel]
  | armed {cavern arms} (fresh : Fresh origin .cavern p.cavernYScale cavern)
      (tunnels : ∀ arm ∈ arms, Fresh origin .tunnel p.tunnelYScale arm)
      (least : 1 ≤ arms.length) (most : arms.length ≤ max 1 p.maxCavernArms.toNat) :
      Group p origin (cavern :: arms)

theorem Group.length_le (grouped : Group p origin group) :
    group.length ≤ 1 + max 1 p.maxCavernArms.toNat := by
  cases grouped with
  | alone => exact Nat.le_add_right 1 _
  | armed _ _ _ most =>
    rw [List.length_cons, Nat.add_comm]
    exact Nat.add_le_add_left most 1

theorem Group.fresh (grouped : Group p origin group) :
    ∀ seed ∈ group, Fresh origin .tunnel p.tunnelYScale seed ∨
      Fresh origin .cavern p.cavernYScale seed := by
  intro seed member
  cases grouped with
  | alone fresh =>
    obtain rfl := List.mem_singleton.1 member
    exact .inl fresh
  | armed fresh tunnels =>
    rcases List.mem_cons.1 member with rfl | arm
    · exact .inr fresh
    · exact .inl (tunnels seed arm)

theorem length_flatten_le {groups : List (List CaveSeed)}
    (grouped : ∀ group ∈ groups, ∃ origin, Group p origin group) :
    groups.flatten.length ≤ groups.length * (1 + max 1 p.maxCavernArms.toNat) := by
  rw [List.length_flatten, ← List.length_map (f := List.length), ← smul_eq_mul]
  apply List.sum_le_card_nsmul
  intro length member
  obtain ⟨group, listed, rfl⟩ := List.mem_map.1 member
  obtain ⟨origin, grouped⟩ := grouped group listed
  exact grouped.length_le

/-! ## Draws -/

theorem fresh_drawTunnel (p : CaveParams) (origin : Vec3) (s : Stream) :
    Fresh origin .tunnel p.tunnelYScale (drawTunnel p origin s).1 :=
  ⟨rfl, rfl, rfl, rfl, rfl⟩

theorem fresh_drawCavern (p : CaveParams) (origin : Vec3) (s : Stream) :
    Fresh origin .cavern p.cavernYScale (drawCavern p origin s).1 :=
  ⟨rfl, rfl, rfl, rfl, rfl⟩

theorem drawTunnels_spec (p : CaveParams) (origin : Vec3) (count : Nat) (s : Stream)
    (found : Array CaveSeed) :
    ∃ (tunnels : List CaveSeed) (after : Stream),
      drawTunnels p origin count s found = (found ++ tunnels.toArray, after) ∧
      tunnels.length = count ∧ ∀ seed ∈ tunnels, Fresh origin .tunnel p.tunnelYScale seed := by
  induction count generalizing s found with
  | zero => exact ⟨[], s, by rw [drawTunnels, Array.append_empty], rfl, List.forall_mem_nil _⟩
  | succ count ih =>
    rw [drawTunnels]
    have fresh := fresh_drawTunnel p origin s
    generalize drawTunnel p origin s = drawn at fresh ⊢
    obtain ⟨seed, s⟩ := drawn
    obtain ⟨tunnels, after, drawn, length, rest⟩ := ih s (found.push seed)
    refine ⟨seed :: tunnels, after, ?_, ?_, List.forall_mem_cons.2 ⟨fresh, rest⟩⟩
    · dsimp only
      rw [drawn, List.toArray_cons, ← Array.append_assoc, Array.append_singleton]
    · rw [List.length_cons, length]

theorem drawGroup_spec (p : CaveParams) (corner : BlockPos) (s : Stream) (found : Array CaveSeed) :
    ∃ (group : List CaveSeed) (after : Stream),
      drawGroup p corner s found = .ok (found ++ group.toArray, after) ∧
      ∃ origin, Group p origin group := by
  rw [drawGroup]
  generalize s.nextPoint corner = point
  obtain ⟨origin, s⟩ := point
  dsimp only
  generalize s.oneIn p.cavernRarity = drawn
  obtain ⟨wide, s⟩ := drawn
  cases wide with
  | false =>
    obtain ⟨tunnels, after, drawn, length, fresh⟩ := drawTunnels_spec p origin 1 s found
    obtain ⟨tunnel, rfl⟩ := List.length_eq_one_iff.1 length
    refine ⟨[tunnel], after, congrArg Except.ok drawn, origin, .alone ?_⟩
    exact fresh tunnel (List.mem_singleton_self tunnel)
  | true =>
    have wideFresh := fresh_drawCavern p origin s
    dsimp only
    generalize drawCavern p origin s = drawn at wideFresh ⊢
    obtain ⟨cavern, s⟩ := drawn
    obtain ⟨extra, s, count, drawn, below, fits, value⟩ := s.below_next p.maxCavernArms
    dsimp only at wideFresh ⊢
    rw [drawn]
    obtain ⟨arms, after, drawn, length, fresh⟩ :=
      drawTunnels_spec p origin count.toNat s (found.push cavern)
    rw [Int.add_comm] at fits
    refine ⟨cavern :: arms, after, ?_, origin, .armed wideFresh fresh (by omega) (by omega)⟩
    rw [List.toArray_cons, ← Array.append_assoc, Array.append_singleton]
    simp only [if_true, fits, ok_bind, pure_eq, drawn]

theorem drawGroups_spec (p : CaveParams) (corner : BlockPos) (count : Nat) (s : Stream)
    (found : Array CaveSeed) :
    ∃ (groups : List (List CaveSeed)) (after : Stream),
      drawGroups p corner count s found = .ok (found ++ groups.flatten.toArray, after) ∧
      groups.length = count ∧ ∀ group ∈ groups, ∃ origin, Group p origin group := by
  induction count generalizing s found with
  | zero => exact ⟨[], s, by simp [drawGroups], rfl, List.forall_mem_nil _⟩
  | succ count ih =>
    obtain ⟨group, s, drawn, first⟩ := drawGroup_spec p corner s found
    obtain ⟨groups, after, others, length, rest⟩ := ih s (found ++ group.toArray)
    refine ⟨group :: groups, after, ?_, ?_, List.forall_mem_cons.2 ⟨first, rest⟩⟩
    · rw [drawGroups, drawn, ok_bind]
      dsimp only
      rw [others, Array.append_assoc, List.flatten_cons, ← List.append_toArray]
    · rw [List.length_cons, length]

theorem discover_spec {cube : CubeCoord} {corner : BlockPos} (located : cube.minBlock = .ok corner)
    {s : Stream} (room : (s.oneIn p.rarity).1 = true → p.maxInitNodes.toNat < 2 ^ 32 - 1)
    (found : Array CaveSeed) :
    ∃ (groups : List (List CaveSeed)) (after : Stream),
      discover p cube s found = .ok (found ++ groups.flatten.toArray, after) ∧
      groups.length ≤ p.maxInitNodes.toNat ∧
      ∀ group ∈ groups, ∃ origin, Group p origin group := by
  rw [discover]
  generalize s.oneIn p.rarity = drawn at room ⊢
  obtain ⟨chosen, s⟩ := drawn
  cases chosen with
  | false => exact ⟨[], s, by simp, Nat.zero_le _, List.forall_mem_nil _⟩
  | true =>
    have few := room rfl
    obtain ⟨limit, first, limitValue⟩ : ∃ limit : UInt32,
        Checked.uint32 (Int.ofNat p.maxInitNodes.toNat + 1) = .ok limit ∧
          limit.toNat = p.maxInitNodes.toNat + 1 :=
      Checked.exists_uint32 (p.maxInitNodes.toNat + 1) (by omega)
    obtain ⟨a, s, inner, outermost, _, second, innerValue⟩ := s.below_next limit
    obtain ⟨b, s, middle, between, _, third, middleValue⟩ := s.below_next inner
    obtain ⟨count, s, _, innermost, _⟩ := s.below_next middle
    obtain ⟨groups, after, drawn, length, grouped⟩ :=
      drawGroups_spec p corner count.toNat s found
    refine ⟨groups, after, ?_, by omega, grouped⟩
    dsimp only
    rw [if_pos rfl, first, ok_bind, outermost]
    dsimp only
    rw [second, ok_bind, between]
    dsimp only
    rw [third, ok_bind, innermost]
    dsimp only
    rw [located, ok_bind, drawn]

/-- The seeds found in a cube follow those found before, in groups of one origin each, with no more
groups and no more arms than the settings allow. -/
theorem seeds_grouped (room : p.maxInitNodes.toNat < 2 ^ 32 - 1) {cube : CubeCoord}
    {corner : BlockPos} (located : cube.minBlock = .ok corner) (s : Stream)
    (found : Array CaveSeed) :
    ∃ (groups : List (List CaveSeed)) (after : Stream),
      discover p cube s found = .ok (found ++ groups.flatten.toArray, after) ∧
      groups.length ≤ p.maxInitNodes.toNat ∧
      (∀ group ∈ groups, ∃ origin, Group p origin group) ∧
      (∀ seed ∈ groups.flatten, seed.startStep = 0 ∧ seed.maxSteps = 0 ∧ seed.kind ≠ .branch ∧
        (seed.kind = .tunnel → seed.yScale = p.tunnelYScale) ∧
        (seed.kind = .cavern → seed.yScale = p.cavernYScale)) ∧
      groups.flatten.length ≤ p.maxInitNodes.toNat * (1 + max 1 p.maxCavernArms.toNat) := by
  obtain ⟨groups, after, drawn, few, grouped⟩ := discover_spec located (fun _ => room) found
  refine ⟨groups, after, drawn, few, grouped, ?_, ?_⟩
  · intro seed member
    obtain ⟨group, listed, member⟩ := List.mem_flatten.1 member
    obtain ⟨origin, group⟩ := grouped group listed
    rcases group.fresh seed member with tunnel | cavern
    · simp [tunnel.startStep, tunnel.maxSteps, tunnel.kind, tunnel.yScale]
    · simp [cavern.startStep, cavern.maxSteps, cavern.kind, cavern.yScale]
  · calc groups.flatten.length
        ≤ groups.length * (1 + max 1 p.maxCavernArms.toNat) := length_flatten_le grouped
      _ ≤ p.maxInitNodes.toNat * (1 + max 1 p.maxCavernArms.toNat) := Nat.mul_le_mul_right _ few

theorem seeds_grouped_around_cavern :
    ∃ (groups : List (List CaveSeed)) (after : Stream),
      discover {} ⟨0, 0, 0⟩ (.forCube 165 ⟨0, 0, 0⟩) #[] = .ok (groups.flatten.toArray, after) ∧
      groups.flatten.map CaveSeed.kind = [.tunnel, .cavern, .tunnel, .tunnel, .tunnel, .tunnel] ∧
      ∀ group ∈ groups, ∃ origin, Group {} origin group := by
  have kinds : ((discover {} ⟨0, 0, 0⟩ (.forCube 165 ⟨0, 0, 0⟩) #[]).toOption.map fun found =>
      found.1.toList.map CaveSeed.kind) =
        some [.tunnel, .cavern, .tunnel, .tunnel, .tunnel, .tunnel] := by decide +kernel
  have located : CubeCoord.minBlock ⟨0, 0, 0⟩ = .ok ⟨0, 0, 0⟩ := rfl
  obtain ⟨groups, after, drawn, _, grouped, _⟩ :=
    seeds_grouped (p := {}) (by decide) located (.forCube 165 ⟨0, 0, 0⟩) #[]
  rw [Array.empty_append] at drawn
  rw [drawn] at kinds
  exact ⟨groups, after, drawn, Option.some.inj kinds, grouped⟩

end CaveSeed

end Karst
