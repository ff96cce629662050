import Karst.Terrain
import Karst.Proofs.Noise.Lattice

namespace Karst

theorem Verdict.bind_eq_error_iff {first : Verdict} {next : Unit → Verdict} {misfit : Misfit} :
    first >>= next = .error misfit ↔
      first = .error misfit ∨ first = .ok () ∧ next () = .error misfit := by
  cases first <;> simp [bind, Except.bind]

theorem require_eq_error_iff (holds : Prop) [Decidable holds] (misfit other : Misfit) :
    require holds misfit = .error other ↔ ¬ holds ∧ misfit = other := by
  unfold require
  split <;> simp_all

namespace NoiseLayer

def Fits (l : NoiseLayer) : Prop := 0 < l.span ∧ l.span ∣ cubeSize

def Strong (l : NoiseLayer) : Prop := 1 ≤ l.octaves ∧ 0 < l.frequency

/-- What is said of a layer that follows `earlier` ones: the first of its faults. -/
inductive Complaint (earlier : List NoiseLayer) (l : NoiseLayer) : String → Prop
  | span (odd : ¬ l.Fits) : Complaint earlier l
      ("noise layer '" ++ l.name ++ "' span " ++ toString l.span ++ " must divide 16")
  | strength (fits : l.Fits) (weak : ¬ l.Strong) : Complaint earlier l
      ("noise layer '" ++ l.name ++ "' needs octaves >= 1 and a positive frequency")
  | repeated (fits : l.Fits) (strong : l.Strong) (taken : l.name ∈ earlier.map name) :
      Complaint earlier l ("duplicate noise layer '" ++ l.name ++ "'")

variable {l : NoiseLayer}

theorem fits_iff : l.Fits ↔ 0 < l.span ∧ cubeSize % l.span = 0 :=
  and_congr_right fun _ => Nat.dvd_iff_mod_eq_zero

theorem check_eq_ok_iff_fits : l.check = .ok () ↔ l.Fits ∧ l.Strong := by
  rw [check_eq_ok_iff, fits_iff, Strong]

theorem complaint_of_check {misfit : Misfit} (refused : l.check = .error misfit)
    (earlier : List NoiseLayer) : l.Complaint earlier misfit.message := by
  rw [check, Verdict.bind_eq_error_iff, require_eq_error_iff, require_eq_ok_iff,
    require_eq_error_iff, ← fits_iff] at refused
  rcases refused with ⟨odd, rfl⟩ | ⟨fits, weak, rfl⟩
  · exact .span odd
  · exact .strength fits weak

end NoiseLayer

structure LayersSound (layers : List NoiseLayer) : Prop where
  fit : ∀ l ∈ layers, l.Fits
  strong : ∀ l ∈ layers, l.Strong
  apart : (layers.map NoiseLayer.name).Nodup

theorem layersSound_nil : LayersSound [] := ⟨by simp, by simp, List.nodup_nil⟩

variable {earlier layers : List NoiseLayer} {l : NoiseLayer}

theorem LayersSound.of_append (sound : LayersSound (earlier ++ layers)) : LayersSound earlier := by
  obtain ⟨fit, strong, apart⟩ := sound
  rw [List.map_append] at apart
  exact ⟨fun l member => fit l (List.mem_append_left _ member),
    fun l member => strong l (List.mem_append_left _ member), apart.of_append_left⟩

theorem layersSound_concat : LayersSound (earlier ++ [l]) ↔
    LayersSound earlier ∧ (l.Fits ∧ l.Strong) ∧ l.name ∉ earlier.map NoiseLayer.name := by
  constructor
  · intro sound
    have last : l ∈ earlier ++ [l] := List.mem_concat_self
    have apart := sound.apart
    rw [List.map_append, List.map_singleton, List.nodup_append', List.disjoint_singleton] at apart
    exact ⟨sound.of_append, ⟨sound.fit l last, sound.strong l last⟩, apart.2.2⟩
  · rintro ⟨sound, ⟨fits, strong⟩, new⟩
    refine ⟨?_, ?_, ?_⟩
    · rw [List.forall_mem_append]
      exact ⟨sound.fit, by simpa using fits⟩
    · rw [List.forall_mem_append]
      exact ⟨sound.strong, by simpa using strong⟩
    · rw [List.map_append, List.map_singleton, List.nodup_append', List.disjoint_singleton]
      exact ⟨sound.apart, List.nodup_singleton _, new⟩

theorem forall_name_ne_iff :
    (∀ e ∈ earlier, e.name ≠ l.name) ↔ l.name ∉ earlier.map NoiseLayer.name := by
  simp

theorem checkLayers_cons_eq_ok_iff (sound : LayersSound earlier) :
    checkLayers earlier (l :: layers) = .ok () ↔
      LayersSound (earlier ++ [l]) ∧ checkLayers (earlier ++ [l]) layers = .ok () := by
  simp only [checkLayers, Verdict.bind_eq_ok_iff, require_eq_ok_iff, forall_name_ne_iff,
    NoiseLayer.check_eq_ok_iff_fits, layersSound_concat, sound, true_and, and_assoc]

theorem checkLayers_eq_ok_iff (sound : LayersSound earlier) :
    checkLayers earlier layers = .ok () ↔ LayersSound (earlier ++ layers) := by
  induction layers generalizing earlier with
  | nil => simpa [checkLayers] using sound
  | cons l layers ih =>
    rw [checkLayers_cons_eq_ok_iff sound, List.append_cons earlier l layers]
    constructor
    · rintro ⟨longer, passed⟩
      exact (ih longer).1 passed
    · intro whole
      have longer : LayersSound (earlier ++ [l]) := whole.of_append
      exact ⟨longer, (ih longer).2 whole⟩

theorem exists_complaint (sound : LayersSound earlier) {misfit : Misfit}
    (refused : checkLayers earlier layers = .error misfit) :
    ∃ before l after, layers = before ++ l :: after ∧ LayersSound (earlier ++ before) ∧
      l.Complaint (earlier ++ before) misfit.message := by
  induction layers generalizing earlier with
  | nil => cases refused
  | cons l layers ih =>
    simp only [checkLayers, Verdict.bind_eq_error_iff, require_eq_error_iff, require_eq_ok_iff,
      forall_name_ne_iff, NoiseLayer.check_eq_ok_iff_fits, not_not] at refused
    -- the layer itself is at fault, or its name is taken, or the fault lies further on
    rcases refused with faulty | ⟨⟨fits, strong⟩, ⟨taken, rfl⟩ | ⟨new, later⟩⟩
    · exact ⟨[], l, layers, rfl, by simpa using sound, NoiseLayer.complaint_of_check faulty _⟩
    · exact ⟨[], l, layers, rfl, by simpa using sound, .repeated fits strong (by simpa using taken)⟩
    · have longer := layersSound_concat.2 ⟨sound, ⟨fits, strong⟩, new⟩
      obtain ⟨before, other, after, rfl, soundBefore, complaint⟩ := ih longer later
      rw [← List.append_cons] at soundBefore complaint
      exact ⟨l :: before, other, after, rfl, soundBefore, complaint⟩

namespace LayerSet

variable {set : LayerSet} {name : String} {i : Nat}

theorem layerIndex?_eq_some_iff (apart : (set.layers.map NoiseLayer.name).Nodup) :
    set.layerIndex? name = some i ↔ ∃ l, set.layers[i]? = some l ∧ l.name = name := by
  rw [layerIndex?, List.findIdx?_eq_some_iff_getElem]
  constructor
  · rintro ⟨bound, named, _⟩
    exact ⟨_, List.getElem?_eq_getElem bound, beq_iff_eq.1 named⟩
  · rintro ⟨l, here, rfl⟩
    obtain ⟨bound, rfl⟩ := List.getElem?_eq_some_iff.1 here
    refine ⟨bound, beq_self_eq_true _, ?_⟩
    intro j before same
    have last : i < (set.layers.map NoiseLayer.name).length := by simpa using bound
    have first : j < (set.layers.map NoiseLayer.name).length := before.trans last
    have named : (set.layers.map NoiseLayer.name)[j] = (set.layers.map NoiseLayer.name)[i] := by
      simpa using same
    have equal : j = i := apart.getElem_inj_iff.1 named
    omega

end LayerSet

/-- The settings pass everything that is checked before their layers. -/
structure Params.ReachesLayers (p : Params) : Prop where
  range : 1 ≤ p.range ∧ p.range ≤ 32
  caves : p.caves.check = .ok ()
  pockets : 1 ≤ p.pockets.rarity
  caveShape : p.caves.checkShape = .ok ()
  pocketShape : p.pockets.checkShape = .ok ()
  windows : p.cacheTiers ≠ [] ∧ ∀ window ∈ p.cacheTiers, window ≠ 0
  capacities : p.precalc.queueCapacity ≠ 0 ∧ p.precalc.cacheCapacity ≠ 0

theorem Params.ReachesLayers.check_eq {p : Params} (reached : p.ReachesLayers) :
    p.check = checkLayers [] p.layers >>= fun _ =>
      require (0 < p.terrain.verticalScale) .verticalScale := by
  have range := (require_eq_ok_iff _ (.rangeOutside p.range)).2 reached.range
  have pockets := (require_eq_ok_iff _ (.belowOne "pockets.rarity")).2 reached.pockets
  have windows := (require_eq_ok_iff _ .cacheWindows).2 reached.windows
  have capacities := (require_eq_ok_iff _ .precalcCapacities).2 reached.capacities
  simp only [check, range, reached.caves, pockets, reached.caveShape, reached.pocketShape,
    windows, capacities]
  rfl

/-- Terrain is shaped by the layers of the set that are named for it, and their samples are what it
finds in a grid. -/
structure Terrain.Follows (t : Terrain) (set : LayerSet) : Prop where
  density : ∀ i, t.density = some i ↔ ∃ l, set.layers[i]? = some l ∧ l.name = "density"
  detail : ∀ i, t.detail = some i ↔ ∃ l, set.layers[i]? = some l ∧ l.name = "detail"
  samples : ∀ cube corner, CubeCoord.Reaches cube corner → ∀ buffer, ∃ grid,
    set.compute cube buffer = .ok grid ∧ ∀ i l, set.layers[i]? = some l → ∀ q, l.OnLattice q →
      grid.lattice i q = .ok (l.sampleAt (noiseSeed set.seed l.salt) (l.pointAt corner q))

theorem LayersSound.follows {set : LayerSet} (sound : LayersSound set.layers)
    (params : TerrainParams) : (Terrain.ofLayers set params).Follows set := by
  have divides : ∀ l ∈ set.layers, l.span ∣ cubeSize := fun l member => (sound.fit l member).2
  refine ⟨fun i => LayerSet.layerIndex?_eq_some_iff sound.apart,
    fun i => LayerSet.layerIndex?_eq_some_iff sound.apart, ?_⟩
  intro cube corner reaches buffer
  refine ⟨_, LayerSet.compute_eq reaches divides buffer, ?_⟩
  intro i l here q on
  exact LayerSet.lattice_gridAt here (divides l (List.mem_of_getElem? here)) on

theorem Params.layers_checked {p : Params} (reached : p.ReachesLayers) :
    (checkLayers [] p.layers = .ok () ↔ LayersSound p.layers) ∧
    (LayersSound p.layers → p.check = require (0 < p.terrain.verticalScale) .verticalScale) ∧
    (¬ LayersSound p.layers → ∃ before l after misfit, p.layers = before ++ l :: after ∧
      LayersSound before ∧ p.check = .error misfit ∧ l.Complaint before misfit.message) ∧
    (LayersSound p.layers → ∀ id seed, let set : LayerSet := ⟨id, seed, p.layers⟩
      (∀ i l, p.layers[i]? = some l → set.layerIndex? l.name = some i) ∧
        (Terrain.ofLayers set p.terrain).Follows set) := by
  have passes : checkLayers [] p.layers = .ok () ↔ LayersSound p.layers :=
    checkLayers_eq_ok_iff layersSound_nil
  refine ⟨passes, ?_, ?_, ?_⟩
  · intro sound
    rw [reached.check_eq, passes.2 sound]
    rfl
  · intro faulty
    cases outcome : checkLayers [] p.layers with
    | ok => exact absurd (passes.1 outcome) faulty
    | error misfit =>
      obtain ⟨before, l, after, split, sound, complaint⟩ :=
        exists_complaint layersSound_nil outcome
      refine ⟨before, l, after, misfit, split, sound, ?_, complaint⟩
      rw [reached.check_eq, outcome]
      rfl
  · intro sound id seed set
    refine ⟨?_, LayersSound.follows sound p.terrain⟩
    intro i l here
    exact (LayerSet.layerIndex?_eq_some_iff sound.apart).2 ⟨l, here, rfl⟩

def crowdedParams : Params :=
  { layers := [densityLayer, { detailLayer with span := 3, octaves := 0 }, densityLayer] }

theorem Params.layers_checked_crowded :
    crowdedParams.ReachesLayers ∧ ¬ LayersSound crowdedParams.layers ∧
    crowdedParams.check = .error (.layerSpan "detail" 3) ∧
    (∃ before l after misfit, crowdedParams.layers = before ++ l :: after ∧ LayersSound before ∧
      crowdedParams.check = .error misfit ∧ l.Complaint before misfit.message) ∧
    (⟨3, 9, [densityLayer, detailLayer]⟩ : LayerSet).layerIndex? "detail" = some 1 := by
  have reached : crowdedParams.ReachesLayers :=
    ⟨by decide, rfl, by decide, rfl, rfl, by decide, by decide⟩
  have odd : ¬ LayersSound crowdedParams.layers := by
    intro sound
    exact absurd (sound.fit _ (List.mem_cons_of_mem _ List.mem_cons_self)).2 (by decide)
  have default : Params.ReachesLayers {} :=
    ⟨by decide, rfl, by decide, rfl, rfl, by decide, by decide⟩
  obtain ⟨passes, _, _, found⟩ := Params.layers_checked default
  obtain ⟨_, _, refused, _⟩ := Params.layers_checked reached
  exact ⟨reached, odd, rfl, refused odd, (found (passes.1 rfl) 3 9).1 1 detailLayer rfl⟩

end Karst
