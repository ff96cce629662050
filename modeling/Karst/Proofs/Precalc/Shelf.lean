import Karst.Precalc.Shelf
import Karst.Proofs.Guarded

namespace Karst.Shelf

structure Orderly (shelf : Shelf) : Prop where
  nodup : shelf.order.Nodup
  listed : ∀ key, key ∈ shelf.order ↔ key ∈ shelf.entries
  apart : ∀ key ∈ shelf.pending, key ∉ shelf.entries

variable {shelf next : Shelf} {capacity timeToLive : Nat} {now : Instant} {key : GridKey}

theorem orderly_empty : ({} : Shelf).Orderly := by
  constructor <;> simp

theorem Orderly.size_eq (orderly : shelf.Orderly) : shelf.entries.size = shelf.order.length := by
  rw [← Std.HashMap.length_keys]
  apply List.Perm.length_eq
  apply (List.perm_ext_iff_of_nodup Std.HashMap.nodup_keys orderly.nodup).2
  intro key
  rw [Std.HashMap.mem_keys, orderly.listed]

theorem reserve?_spec (reserved : shelf.reserve? key = some next) :
    next.entries = shelf.entries ∧ next.order = shelf.order := by
  unfold reserve? at reserved
  split at reserved
  case isTrue => cases reserved
  case isFalse =>
    cases reserved
    exact ⟨rfl, rfl⟩

theorem Orderly.reserve (orderly : shelf.Orderly) (reserved : shelf.reserve? key = some next) :
    next.Orderly := by
  unfold reserve? at reserved
  split at reserved
  case isTrue => cases reserved
  case isFalse new =>
    cases reserved
    simp only [Bool.or_eq_true, not_or, Std.HashMap.contains_iff_mem] at new
    constructor
    · exact orderly.nodup
    · exact orderly.listed
    · intro other member
      rcases Std.HashSet.mem_insert.1 member with same | old
      · exact eq_of_beq same ▸ new.2
      · exact orderly.apart other old

theorem Orderly.forget (orderly : shelf.Orderly) (key : GridKey) : (shelf.forget key).Orderly := by
  constructor
  · exact orderly.nodup
  · exact orderly.listed
  · intro other member
    exact orderly.apart other (Std.HashSet.mem_erase.1 member).2

theorem Orderly.remove (orderly : shelf.Orderly) (key : GridKey) :
    (shelf.remove key).2.Orderly := by
  constructor
  · exact orderly.nodup.filter _
  · intro other
    simp only [Shelf.remove, List.mem_filter, orderly.listed, bne_iff_ne, Std.HashMap.mem_erase,
      beq_eq_false_iff_ne]
    rw [and_comm, ne_comm]
  · intro other member stored
    exact orderly.apart other (Std.HashSet.mem_erase.1 member).2 (Std.HashMap.mem_erase.1 stored).2

/-! ## One world cleared -/

section clearWorld

variable (shelf) (world : UInt32)

theorem getElem?_clearWorld (key : GridKey) : (shelf.clearWorld world).2.entries[key]? =
    if key.world = world then none else shelf.entries[key]? := by
  simp only [clearWorld, Std.HashMap.getElem?_filter']
  by_cases here : key.world = world
  · simp [here]
  · cases found : shelf.entries[key]? <;> simp [here]

theorem mem_pending_clearWorld (key : GridKey) :
    key ∈ (shelf.clearWorld world).2.pending ↔ key ∈ shelf.pending ∧ key.world ≠ world := by
  simp [clearWorld, Std.HashSet.mem_filter]

theorem mem_entries_clearWorld (key : GridKey) :
    key ∈ (shelf.clearWorld world).2.entries ↔ key ∈ shelf.entries ∧ key.world ≠ world := by
  rw [Std.HashMap.mem_iff_isSome_getElem?, Std.HashMap.mem_iff_isSome_getElem?,
    getElem?_clearWorld]
  by_cases here : key.world = world <;> simp [here]

end clearWorld

theorem Orderly.clearWorld (orderly : shelf.Orderly) (world : UInt32) :
    (shelf.clearWorld world).2.Orderly := by
  constructor
  · exact orderly.nodup.filter _
  · intro key
    rw [mem_entries_clearWorld, ← orderly.listed]
    simp [Shelf.clearWorld]
  · intro key member stored
    exact orderly.apart key ((mem_pending_clearWorld shelf world key).1 member).1
      ((mem_entries_clearWorld shelf world key).1 stored).1

/-! ## Storing and evicting -/

theorem Orderly.store (orderly : shelf.Orderly) {grid : NoiseGrid}
    (stored : shelf.store? key grid now = some next) :
    next.Orderly ∧ ∃ older, next.order = older ++ [key] ∧ key ∉ older ∧
      next.entries[key]? = some ⟨grid, now⟩ := by
  unfold store? at stored
  split at stored
  case isFalse => cases stored
  case isTrue wanted =>
    cases stored
    have new : key ∉ shelf.order := by
      rw [orderly.listed]
      exact orderly.apart key (by simpa using wanted)
    constructor
    · constructor
      · simpa [List.nodup_append] using ⟨orderly.nodup, fun other member same => new (same ▸ member)⟩
      · intro other
        simp only [List.mem_append, List.mem_singleton, orderly.listed, Std.HashMap.mem_insert,
          beq_iff_eq]
        rw [or_comm, eq_comm]
      · intro other member held
        simp only [Std.HashSet.mem_erase, beq_eq_false_iff_ne] at member
        rcases Std.HashMap.mem_insert.1 held with same | old
        · exact member.1 (eq_of_beq same)
        · exact orderly.apart other member.2 old
    · exact ⟨shelf.order, rfl, new, by simp⟩

theorem evictFrom_spec (capacity timeToLive : Nat) (now : Instant) (pending : Std.HashSet GridKey)
    (gone : List NoiseGrid) {order : List GridKey} {entries : Std.HashMap GridKey ShelvedGrid}
    (nodup : order.Nodup) (listed : ∀ key, key ∈ order ↔ key ∈ entries) :
    let out := (evictFrom capacity timeToLive now pending order entries gone).1
    out.order <:+ order ∧ out.order.length ≤ capacity ∧ out.pending = pending ∧
      ∀ key, key ∈ out.order ↔ key ∈ out.entries := by
  -- The rest of the queue lists what is left once its first key is dropped from the entries.
  induction order generalizing entries gone with
  | nil => exact ⟨List.suffix_rfl, Nat.zero_le _, rfl, listed⟩
  | cons first order ih =>
    rw [List.nodup_cons] at nodup
    have held := (listed first).1 (List.mem_cons_self ..)
    rw [Std.HashMap.mem_iff_isSome_getElem?] at held
    rw [evictFrom]
    split
    case h_1 missing =>
      rw [missing] at held
      cases held
    case h_2 shelved there =>
      split
      case isTrue =>
        have left : ∀ key, key ∈ order ↔ key ∈ entries.erase first := by
          intro key
          rw [Std.HashMap.mem_erase, ← listed, List.mem_cons, beq_eq_false_iff_ne]
          constructor
          · intro member
            exact ⟨fun same => nodup.1 (same ▸ member), .inr member⟩
          · rintro ⟨other, member⟩
            exact member.resolve_left (Ne.symm other)
        obtain ⟨suffix, room, same, stays⟩ := ih (shelved.grid :: gone) nodup.2 left
        exact ⟨suffix.trans (List.suffix_cons first order), room, same, stays⟩
      case isFalse stop =>
        simp only [Bool.or_eq_true, decide_eq_true_eq, not_or, Nat.not_lt] at stop
        exact ⟨List.suffix_rfl, stop.2, rfl, listed⟩

theorem Orderly.evict (orderly : shelf.Orderly) (capacity timeToLive : Nat) (now : Instant) :
    (shelf.evict capacity timeToLive now).1.Orderly ∧
      (shelf.evict capacity timeToLive now).1.order.length ≤ capacity := by
  obtain ⟨suffix, room, pending, listed⟩ :=
    evictFrom_spec capacity timeToLive now shelf.pending [] orderly.nodup orderly.listed
  constructor
  · constructor
    · exact orderly.nodup.sublist suffix.sublist
    · exact listed
    · intro key member stored
      have old := (orderly.listed key).1 (suffix.subset ((listed key).2 stored))
      exact orderly.apart key (pending ▸ member) old
  · exact room

theorem evictFrom_last {pending : Std.HashSet GridKey} {older : List GridKey}
    {entries : Std.HashMap GridKey ShelvedGrid} {gone : List NoiseGrid} {shelved : ShelvedGrid}
    (room : 0 < capacity) (fresh : hasExpired timeToLive now shelved = false) (away : key ∉ older)
    (held : entries[key]? = some shelved) :
    (evictFrom capacity timeToLive now pending (older ++ [key]) entries gone).1.entries[key]? =
      some shelved := by
  induction older generalizing entries gone with
  | nil => simp [evictFrom, held, fresh, Nat.not_lt.2 (show 1 ≤ capacity from room)]
  | cons first older ih =>
    rw [List.mem_cons, not_or] at away
    rw [List.cons_append, evictFrom]
    split
    case h_1 => exact ih away.2 held
    case h_2 =>
      split
      case isTrue =>
        apply ih away.2
        rw [Std.HashMap.getElem?_erase, held]
        simp [Ne.symm away.1]
      case isFalse => exact held

end Karst.Shelf
