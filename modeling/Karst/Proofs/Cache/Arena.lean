import Karst.Feature.Tree
import Karst.Proofs.Guarded

namespace Karst.Arena

variable {α : Type}

def IsLive (arena : Arena α) (i : Nat) : Prop :=
  ∃ slot, arena.slots[i]? = some slot ∧ slot.live = true

/-- The free list names every dead slot once, and dead slots hold spent values. -/
structure Tidy (spent : α → Prop) (arena : Arena α) : Prop where
  nodup : arena.free.Nodup
  mem_free : ∀ i, i ∈ arena.free ↔ ∃ slot, arena.slots[i]? = some slot ∧ slot.live = false
  spent : ∀ (i : Nat) (slot : Slot α), arena.slots[i]? = some slot → slot.live = false →
    spent slot.value

variable {spent : α → Prop} {arena : Arena α} {h : Handle} {value : α}

theorem tidy_empty : (empty : Arena α).Tidy spent := by
  constructor <;> simp [empty]

theorem not_isLive_empty (i : Nat) : ¬ (empty : Arena α).IsLive i := by
  simp [IsLive, empty]

theorem tidy_clear (arena : Arena α) : arena.clear.Tidy spent := by
  constructor <;> simp [clear]

theorem not_isLive_clear (arena : Arena α) (i : Nat) : ¬ arena.clear.IsLive i := by
  simp [IsLive, clear]

theorem get?_eq_some_iff :
    arena.get? h = some value ↔ arena.slots[h.index]? = some ⟨value, h.generation, true⟩ := by
  unfold get?
  cases found : arena.slots[h.index]? with
  | none => simp
  | some slot =>
    obtain ⟨held, generation, live⟩ := slot
    cases live <;> simp [Slot.answers, Slot.mk.injEq, and_comm]

theorem isLive_of_get? (held : arena.get? h = some value) : arena.IsLive h.index :=
  ⟨_, get?_eq_some_iff.1 held, rfl⟩

theorem get?_eq_none_of_held {g : Handle} (held : arena.get? h = some value)
    (same : g.index = h.index) (other : g ≠ h) : arena.get? g = none := by
  cases found : arena.get? g with
  | none => rfl
  | some value =>
    rw [get?_eq_some_iff] at held found
    rw [same, held] at found
    have generation : g.generation = h.generation := by simp_all
    cases g
    cases h
    simp_all

theorem get?_congr {other : Arena α} (same : other.slots[h.index]? = arena.slots[h.index]?) :
    other.get? h = arena.get? h := by
  simp only [get?, same]

theorem isLive_congr {other : Arena α} {i : Nat} (same : other.slots[i]? = arena.slots[i]?) :
    other.IsLive i ↔ arena.IsLive i := by
  simp only [IsLive, same]

theorem Tidy.live_eq (tidy : arena.Tidy spent) {indices : List Nat} (nodup : indices.Nodup)
    (covers : ∀ i, i ∈ indices ↔ arena.IsLive i) : arena.live = indices.length := by
  have whole : (indices ++ arena.free).Perm (List.range arena.slots.size) := by
    apply (List.perm_ext_iff_of_nodup ?_ List.nodup_range).2
    · intro i
      rw [List.mem_append, covers, tidy.mem_free, List.mem_range]
      constructor
      · rintro (⟨slot, found, _⟩ | ⟨slot, found, _⟩)
        · exact (Array.getElem?_eq_some_iff.1 found).1
        · exact (Array.getElem?_eq_some_iff.1 found).1
      · intro bound
        have found := Array.getElem?_eq_getElem bound
        cases on : arena.slots[i].live with
        | true => exact .inl ⟨_, found, on⟩
        | false => exact .inr ⟨_, found, on⟩
    · apply List.nodup_append.2 ⟨nodup, tidy.nodup, ?_⟩
      rintro i live j free rfl
      obtain ⟨slot, found, on⟩ := (covers i).1 live
      obtain ⟨other, there, off⟩ := (tidy.mem_free i).1 free
      rw [found] at there
      cases there
      rw [on] at off
      cases off
  have count := whole.length_eq
  rw [List.length_append, List.length_range] at count
  unfold Arena.live
  omega

section alloc

variable [Recyclable α]

theorem alloc_recycled {index : Nat} {free : List Nat} (first : arena.free = index :: free) :
    arena.alloc.1.index = index ∧ arena.alloc.2.free = free ∧
      arena.alloc.2.slots = arena.slots.modify index fun slot =>
        { slot with generation := arena.alloc.1.generation, live := true } := by
  obtain ⟨slots, _, nextGeneration, allocated, recycled⟩ := arena
  cases first
  exact ⟨rfl, rfl, rfl⟩

theorem alloc_new (none_free : arena.free = []) :
    arena.alloc.1.index = arena.slots.size ∧ arena.alloc.2.free = [] ∧
      arena.alloc.2.slots =
        arena.slots.push ⟨Recyclable.fresh, arena.alloc.1.generation, true⟩ := by
  obtain ⟨slots, _, nextGeneration, allocated, recycled⟩ := arena
  cases none_free
  exact ⟨rfl, rfl, rfl⟩

structure Allocated (spent : α → Prop) (arena : Arena α) : Prop where
  dead : ¬ arena.IsLive arena.alloc.1.index
  held : ∃ value, spent value ∧ arena.alloc.2.get? arena.alloc.1 = some value
  others : ∀ i, i ≠ arena.alloc.1.index → arena.alloc.2.slots[i]? = arena.slots[i]?
  tidy : arena.alloc.2.Tidy spent

theorem allocated_new (tidy : arena.Tidy spent) (fresh : spent Recyclable.fresh)
    (none_free : arena.free = []) : arena.Allocated spent := by
  obtain ⟨index, rest, slots⟩ := alloc_new none_free
  have dead (i : Nat) (slot : Slot α) (found : arena.slots[i]? = some slot) :
      slot.live = true := by
    by_contra dead
    have member := (tidy.mem_free i).2 ⟨slot, found, by simpa using dead⟩
    simp [none_free] at member
  refine ⟨?_, ⟨Recyclable.fresh, fresh, ?_⟩, ?_, ?_, ?_, ?_⟩
  · simp [IsLive, index]
  · rw [get?_eq_some_iff, slots, index]
    simp
  · intro i other
    rw [index] at other
    rw [slots, Array.getElem?_push, if_neg other]
  · simp [rest]
  · intro i
    rw [rest, slots, Array.getElem?_push]
    constructor
    · simp
    · rintro ⟨slot, found, off⟩
      split at found
      case isTrue =>
        cases found
        cases off
      case isFalse =>
        rw [dead i slot found] at off
        cases off
  · intro i slot found off
    rw [slots, Array.getElem?_push] at found
    split at found
    case isTrue =>
      cases found
      cases off
    case isFalse => exact tidy.spent i slot found off

theorem allocated_recycled (tidy : arena.Tidy spent) {first : Nat} {others : List Nat}
    (free : arena.free = first :: others) : arena.Allocated spent := by
  obtain ⟨index, rest, slots⟩ := alloc_recycled free
  obtain ⟨slot, found, off⟩ := (tidy.mem_free first).1 (by simp [free])
  have nodup := tidy.nodup
  rw [free, List.nodup_cons] at nodup
  refine ⟨?_, ⟨slot.value, tidy.spent first slot found off, ?_⟩, ?_, ?_, ?_, ?_⟩
  · rintro ⟨other, held, on⟩
    rw [index, found] at held
    cases held
    rw [off] at on
    cases on
  · rw [get?_eq_some_iff, slots, index, Array.getElem?_modify, if_pos rfl, found]
    rfl
  · intro i other
    rw [index] at other
    rw [slots, Array.getElem?_modify, if_neg (Ne.symm other)]
  · rw [rest]
    exact nodup.2
  · intro i
    rw [rest, slots, Array.getElem?_modify]
    by_cases same : first = i
    · subst same
      simp [nodup.1, found]
    · rw [if_neg same, ← tidy.mem_free i, free]
      simp [Ne.symm same]
  · intro i other held off
    rw [slots, Array.getElem?_modify] at held
    split at held
    case isTrue same =>
      subst same
      rw [found] at held
      cases held
      cases off
    case isFalse => exact tidy.spent i other held off

theorem alloc_spec (tidy : arena.Tidy spent) (fresh : spent Recyclable.fresh) :
    arena.Allocated spent := by
  cases free : arena.free with
  | nil => exact allocated_new tidy fresh free
  | cons first others => exact allocated_recycled tidy free

end alloc

theorem exchange_spec (held : arena.get? h = some value) (other : α) :
    (arena.exchange h other).1 = value ∧
      (arena.exchange h other).2.get? h = some other ∧
      (∀ i, i ≠ h.index → (arena.exchange h other).2.slots[i]? = arena.slots[i]?) ∧
      (arena.exchange h other).2.free = arena.free := by
  obtain ⟨slots, free, nextGeneration, allocated, recycled⟩ := arena
  have found : slots[h.index]? = some ⟨value, h.generation, true⟩ := get?_eq_some_iff.1 held
  have bound : h.index < slots.size := (Array.getElem?_eq_some_iff.1 found).1
  have taken : exchange ⟨slots, free, nextGeneration, allocated, recycled⟩ h other = (value,
      ⟨slots.setIfInBounds h.index ⟨other, h.generation, true⟩, free, nextGeneration, allocated,
        recycled⟩) := by
    simp [exchange, found, Slot.answers]
  rw [taken]
  refine ⟨rfl, ?_, ?_, rfl⟩
  · rw [get?_eq_some_iff]
    simp [bound]
  · intro i different
    rw [Array.getElem?_setIfInBounds, if_neg (Ne.symm different)]

theorem Tidy.of_live_change {other : Arena α} {i : Nat} (tidy : arena.Tidy spent)
    (live : arena.IsLive i) (stays : other.IsLive i)
    (others : ∀ j, j ≠ i → other.slots[j]? = arena.slots[j]?) (free : other.free = arena.free) :
    other.Tidy spent := by
  have off_elsewhere {a : Arena α} (on : a.IsLive i) {j : Nat} {slot : Slot α}
      (found : a.slots[j]? = some slot) (off : slot.live = false) : j ≠ i := by
    rintro rfl
    obtain ⟨held, there, alive⟩ := on
    rw [found] at there
    cases there
    rw [off] at alive
    cases alive
  refine ⟨free ▸ tidy.nodup, ?_, ?_⟩
  · intro j
    rw [free, tidy.mem_free]
    constructor
    · rintro ⟨slot, found, off⟩
      exact ⟨slot, by rw [others j (off_elsewhere live found off), found], off⟩
    · rintro ⟨slot, found, off⟩
      exact ⟨slot, by rw [← others j (off_elsewhere stays found off), found], off⟩
  · intro j slot found off
    exact tidy.spent j slot (by rw [← others j (off_elsewhere stays found off), found]) off

theorem Tidy.exchange {other : α} (tidy : arena.Tidy spent) (held : arena.get? h = some value) :
    (arena.exchange h other).2.Tidy spent := by
  obtain ⟨_, now, others, free⟩ := exchange_spec held other
  exact tidy.of_live_change (isLive_of_get? held) (isLive_of_get? now) others free

section release

variable [Recyclable α]

theorem release_spec (tidy : arena.Tidy spent) (held : arena.get? h = some value)
    (empties : spent (Recyclable.recycle value)) :
    ¬ (arena.release h).2.IsLive h.index ∧
      (∀ i, i ≠ h.index → (arena.release h).2.slots[i]? = arena.slots[i]?) ∧
      (arena.release h).2.Tidy spent := by
  obtain ⟨slots, free, nextGeneration, allocated, recycled⟩ := arena
  have found : slots[h.index]? = some ⟨value, h.generation, true⟩ := get?_eq_some_iff.1 held
  simp only [release, contains, held, Option.isSome_some, if_true]
  refine ⟨?_, ?_, ?_, ?_, ?_⟩
  · simp [IsLive, Array.getElem?_modify, found]
  · intro i different
    rw [Array.getElem?_modify, if_neg (Ne.symm different)]
  · refine List.nodup_cons.2 ⟨?_, tidy.nodup⟩
    intro member
    obtain ⟨slot, there, off⟩ := (tidy.mem_free _).1 member
    rw [show slots[h.index]? = some slot from there] at found
    cases found
    cases off
  · intro i
    rw [List.mem_cons, Array.getElem?_modify]
    by_cases same : h.index = i
    · subst same
      simp [found]
    · rw [if_neg same, ← tidy.mem_free i]
      simp [Ne.symm same]
  · intro i slot there off
    rw [Array.getElem?_modify] at there
    split at there
    case isTrue same =>
      subst same
      rw [found] at there
      cases there
      exact empties
    case isFalse => exact tidy.spent i slot there off

end release

end Karst.Arena
