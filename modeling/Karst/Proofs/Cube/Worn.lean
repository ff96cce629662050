import Karst.Proofs.Cube.Perimeter

namespace Karst

namespace Cube

/-- `d` is `c` after writes of inert blocks, none of them over still water. -/
structure Worn (inert : Block → Prop) (c d : Cube) : Prop where
  left : c.WellFormed
  right : d.WellFormed
  coord : d.coord = c.coord
  blocks : ∀ p : LocalPos, p.Inside → d.blockAt p = c.blockAt p ∨
    (inert (d.blockAt p) ∧ (c.blockAt p).isStillWater = false)

namespace Worn

variable {inert : Block → Prop} {c d e : Cube}

theorem refl (wf : c.WellFormed) : Worn inert c c := ⟨wf, wf, rfl, fun _ _ => .inl rfl⟩

theorem trans (first : Worn inert c d) (second : Worn inert d e) : Worn inert c e := by
  refine ⟨first.left, second.right, second.coord.trans first.coord, ?_⟩
  intro p inside
  rcases second.blocks p inside with same | ⟨covered, dry⟩
  · rw [same]
    exact first.blocks p inside
  · rcases first.blocks p inside with same | ⟨_, dryBefore⟩
    · exact .inr ⟨covered, same ▸ dry⟩
    · exact .inr ⟨covered, dryBefore⟩

theorem stillWater (worn : Worn inert c d) {p : LocalPos} (inside : p.Inside)
    (wet : (c.blockAt p).isStillWater) : (d.blockAt p).isStillWater := by
  rcases worn.blocks p inside with same | ⟨_, dry⟩
  · rwa [same]
  · rw [dry] at wet
    cases wet

theorem set (wf : c.WellFormed) {p : LocalPos} (inside : p.Inside) {block : Block}
    (covers : inert block) (dry : (c.blockAt p).isStillWater = false) :
    ∃ after, c.set p block = .ok after ∧ Worn inert c after ∧ after.blockAt p = block := by
  obtain ⟨after, written, afterWf, coord, blocks⟩ := setIndex_spec wf inside.index_lt block
  have size := size_toArray wf
  have here : after.blockAt p = block := by
    rw [blockAt, blocks, Array.getD_eq_getD_getElem?,
      Array.getElem?_setIfInBounds_self_of_lt (size ▸ inside.index_lt), Option.getD_some]
  refine ⟨after, written, ⟨wf, afterWf, coord, ?_⟩, here⟩
  intro q qInside
  by_cases same : q = p
  · subst same
    exact .inr ⟨here ▸ covers, dry⟩
  · have apart : p.index ≠ q.index := fun equal => same (qInside.index_inj inside equal.symm)
    left
    rw [blockAt, blockAt, blocks, Array.getD_eq_getD_getElem?, Array.getD_eq_getD_getElem?,
      Array.getElem?_setIfInBounds_ne apart]

end Worn

theorem Worn.waterAround_le {inert : Block → Prop} {c d : Cube} (worn : Worn inert c d)
    (lower upper : LocalPos) : c.waterAround lower upper ≤ d.waterAround lower upper :=
  List.countP_mono_left fun p member wet => worn.stillWater (inside_around p member) wet

end Cube

end Karst
