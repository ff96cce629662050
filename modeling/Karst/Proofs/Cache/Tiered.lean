import Karst.Cache.Tiered
import Karst.Proofs.Guarded

namespace Karst.TieredCache

variable {κ β : Type} [BEq κ] [Hashable κ] {cache : TieredCache κ β}

theorem value_of_settle {now : Instant} {entry after : Cached β}
    (stays : cache.settle now entry = some after) : after.value = entry.value := by
  unfold settle at stays
  split at stays
  case isTrue =>
    split at stays
    case isTrue =>
      cases stays
      rfl
    case isFalse => cases stays
  case isFalse =>
    cases stays
    rfl

theorem maybeExpire_cases (cache : TieredCache κ β) (now : Instant) :
    cache.maybeExpire now = ([], cache) ∨ cache.maybeExpire now = cache.expire now := by
  unfold maybeExpire
  split
  case h_1 =>
    split
    case isTrue => exact .inl rfl
    case isFalse => exact .inr rfl
  case h_2 => exact .inr rfl

theorem misses_maybeExpire (cache : TieredCache κ β) (now : Instant) :
    (cache.maybeExpire now).2.misses = cache.misses := by
  rcases cache.maybeExpire_cases now with same | same <;> rw [same]
  rfl

theorem windows_maybeExpire (cache : TieredCache κ β) (now : Instant) :
    (cache.maybeExpire now).2.windows = cache.windows := by
  rcases cache.maybeExpire_cases now with same | same <;> rw [same]
  rfl

structure Swept (cache after : TieredCache κ β) (gone : List (κ × β)) : Prop where
  nodup : (gone.map Prod.fst).Nodup
  held : ∀ p ∈ gone, cache.peek p.1 = some p.2
  left : ∀ key, after.peek key = none ∧ key ∈ gone.map Prod.fst ∨
    after.peek key = cache.peek key ∧ key ∉ gone.map Prod.fst

theorem Swept.peek_eq {after : TieredCache κ β} {gone : List (κ × β)}
    (swept : Swept cache after gone) {key : κ} {value : β} (stays : after.peek key = some value) :
    cache.peek key = some value := by
  rcases swept.left key with ⟨absent, _⟩ | ⟨same, _⟩
  · rw [absent] at stays
    cases stays
  · exact same ▸ stays

variable [LawfulBEq κ]

@[simp] theorem peek_ofWindows (windows : List Nat) (key : κ) :
    (ofWindows windows : TieredCache κ β).peek key = none := by
  cases windows <;> simp [ofWindows, peek]

@[simp] theorem peek_clear (key : κ) : cache.clear.peek key = none := by
  simp [clear, peek]

@[simp] theorem peek_hit (key other : κ) : (cache.hit key).peek other = cache.peek other := by
  simp only [peek, hit, Std.HashMap.getElem?_modify]
  split
  case isTrue same =>
    rw [eq_of_beq same]
    cases cache.entries[other]? <;> rfl
  case isFalse => rfl

@[simp] theorem peek_place_self (key : κ) (now : Instant) (value : β) :
    (cache.place key now value).peek key = some value := by
  simp [peek, place]

theorem peek_place_of_ne {key other : κ} (different : other ≠ key) (now : Instant) (value : β) :
    (cache.place key now value).peek other = cache.peek other := by
  simp [peek, place, Std.HashMap.getElem?_insert, different.symm]

theorem peek_place [DecidableEq κ] (key : κ) (now : Instant) (value : β) :
    (cache.place key now value).peek = Function.update cache.peek key (some value) := by
  funext other
  by_cases here : other = key
  · rw [here, peek_place_self, Function.update_self]
  · rw [peek_place_of_ne here, Function.update_of_ne here]

theorem mem_keys_expire (now : Instant) (key : κ) :
    key ∈ (cache.expire now).1.map Prod.fst ↔
      ∃ entry, cache.entries[key]? = some entry ∧ cache.settle now entry = none := by
  simp only [expire, List.map_map, List.mem_map, List.mem_filter, Prod.exists, Function.comp,
    Std.HashMap.mem_toList_iff_getElem?_eq_some, Option.isNone_iff_eq_none]
  constructor
  · rintro ⟨other, entry, ⟨found, leaves⟩, rfl⟩
    exact ⟨entry, found, leaves⟩
  · rintro ⟨entry, found, leaves⟩
    exact ⟨key, entry, ⟨found, leaves⟩, rfl⟩

theorem expire_spec (now : Instant) : Swept cache (cache.expire now).2 (cache.expire now).1 := by
  refine ⟨?_, ?_, ?_⟩
  · simp only [expire, List.map_map]
    refine List.pairwise_map.2 ((cache.entries.distinct_keys_toList.filter _).imp ?_)
    intro a b distinct
    exact ne_of_beq_false distinct
  · simp only [expire, List.mem_map, List.mem_filter]
    rintro _ ⟨⟨key, entry⟩, ⟨member, _⟩, rfl⟩
    rw [Std.HashMap.mem_toList_iff_getElem?_eq_some] at member
    simp [peek, member]
  · intro key
    have after : (cache.expire now).2.peek key =
        ((cache.entries[key]?).bind (cache.settle now)).map Cached.value := by
      simp only [peek, expire, Std.HashMap.getElem?_filterMap']
    rw [mem_keys_expire, after, peek]
    cases found : cache.entries[key]? with
    | none => simp
    | some entry =>
      cases stays : cache.settle now entry with
      | none => simp [stays]
      | some next => simp [stays, value_of_settle stays]

theorem maybeExpire_spec (now : Instant) :
    Swept cache (cache.maybeExpire now).2 (cache.maybeExpire now).1 := by
  rcases cache.maybeExpire_cases now with same | same <;> rw [same]
  · refine ⟨List.nodup_nil, ?_, fun key => .inr ⟨rfl, List.not_mem_nil⟩⟩
    simp
  · exact expire_spec now

end Karst.TieredCache
