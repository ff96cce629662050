import Karst.Proofs.Cache.Tenure

namespace Karst

variable {κ β : Type}

namespace TieredCache

variable [BEq κ] [Hashable κ]

/-- The promotions that `after` has counted more than `before`: one for each of the keys `risen`,
whose entries are one tier higher. -/
structure Promotes (risen : List κ) (before after : TieredCache κ β) : Prop where
  nodup : risen.Nodup
  counted : after.promotions = before.promotions + risen.length
  raised : ∀ key ∈ risen, ∃ tier, before.tierOf key = some tier ∧ after.tierOf key = some (tier + 1)
  level : ∀ key, key ∉ risen → ∀ i j, before.tierOf key = some i → after.tierOf key = some j → j = i

variable {risen : List κ} {before after cache : TieredCache κ β}

theorem Promotes.tier_le (promotes : Promotes risen before after) {key : κ} {i j : Nat}
    (first : before.tierOf key = some i) (last : after.tierOf key = some j) : i ≤ j := by
  by_cases member : key ∈ risen
  · obtain ⟨tier, early, late⟩ := promotes.raised key member
    rw [first] at early
    rw [last] at late
    cases early
    cases late
    exact Nat.le_succ i
  · exact (promotes.level key member i j first last).ge

theorem Promotes.none (counted : after.promotions = before.promotions)
    (level : ∀ key i j, before.tierOf key = some i → after.tierOf key = some j → j = i) :
    Promotes [] before after :=
  ⟨.nil, counted, fun _ member => (List.not_mem_nil member).elim, fun key _ => level key⟩

variable {now : Instant} {entry : Cached β}

theorem isPromoted_iff (known : entry.tier.toNat ≤ cache.lastTier) :
    cache.isPromoted now entry ↔
      entry.deadline ≤ now ∧ entry.touched = true ∧
        cache.nextTier entry = entry.tier.toNat + 1 := by
  have next : cache.nextTier entry ≠ entry.tier.toNat ↔
      cache.nextTier entry = entry.tier.toNat + 1 := by
    rw [nextTier]
    omega
  simp [isPromoted, isDue, next, and_assoc]

theorem nextTier_of_top (known : entry.tier.toNat ≤ cache.lastTier)
    (top : cache.nextTier entry ≠ entry.tier.toNat + 1) :
    cache.nextTier entry = entry.tier.toNat := by
  rw [nextTier] at *
  omega

variable [LawfulBEq κ]

theorem tierOf_hit (cache : TieredCache κ β) (key other : κ) :
    (cache.hit key).tierOf other = cache.tierOf other := by
  simp only [tierOf, hit, Std.HashMap.getElem?_modify]
  split
  case isTrue same =>
    rw [eq_of_beq same]
    cases cache.entries[other]? <;> rfl
  case isFalse => rfl

theorem tierOf_place_of_ne (cache : TieredCache κ β) {key other : κ} (apart : key ≠ other)
    (now : Instant) (value : β) :
    (cache.place key now value).tierOf other = cache.tierOf other := by
  simp [tierOf, place, Std.HashMap.getElem?_insert, apart]

theorem tierOf_expire (cache : TieredCache κ β) (now : Instant) (key : κ) :
    (cache.expire now).2.tierOf key = ((cache.entries[key]?).bind (cache.settle now)).map
      fun entry => entry.tier.toNat := by
  rw [tierOf, getElem?_expire]

theorem tierOf_clear (cache : TieredCache κ β) (key : κ) : cache.clear.tierOf key = none := by
  simp [tierOf, clear]

end TieredCache

namespace CacheWatch

open TieredCache

variable [DecidableEq κ] [Hashable κ] {watch : CacheWatch κ β} {windows : List Nat}

namespace Sound

theorem tier_le (sound : watch.Sound windows) {key : κ} {entry : Cached β}
    (held : watch.cache.entries[key]? = some entry) :
    entry.tier.toNat ≤ watch.cache.lastTier := by
  obtain ⟨tenure, _, marks⟩ := sound.exists_tenure held
  obtain ⟨window, known, _⟩ := marks.window
  rw [← sound.served] at known
  exact Nat.le_of_lt_succ (List.getElem?_eq_some_iff.1 known).1

theorem promotes_get (watch : CacheWatch κ β) (key : κ) (now : Instant) (make : κ → β) :
    Promotes [] watch.cache (watch.get key now make).cache := by
  cases held : watch.cache.peek key with
  | some value =>
    rw [get_of_some held]
    refine .none rfl ?_
    intro other i j early late
    rw [tierOf_hit, early] at late
    exact (Option.some_inj.1 late).symm
  | none =>
    rw [get_of_none held]
    refine .none rfl ?_
    intro other i j early late
    have apart : key ≠ other := by
      rintro rfl
      rw [peek, Option.map_eq_none_iff] at held
      simp [tierOf, held] at early
    rw [tierOf_place_of_ne _ apart, early] at late
    exact (Option.some_inj.1 late).symm

theorem promotes_sweep (sound : watch.Sound windows) (now : Instant) :
    ∃ risen, Promotes risen watch.cache (watch.sweep now).cache := by
  have settled (key : κ) (entry : Cached β) (held : watch.cache.entries[key]? = some entry) :
      watch.cache.tierOf key = some entry.tier.toNat ∧ (watch.sweep now).cache.tierOf key =
        (watch.cache.settle now entry).map fun left => left.tier.toNat := by
    rw [CacheWatch.sweep, tierOf_expire, tierOf, held]
    exact ⟨rfl, rfl⟩
  have raised (entry : Cached β) (late : entry.deadline ≤ now) (read : entry.touched = true) :
      (watch.cache.settle now entry).map (fun left => left.tier.toNat) =
        some (watch.cache.nextTier entry) := by
    rw [settle_read late read, Option.map_some,
      toNat_nextTier (sound.served ▸ sound.few) entry]
  refine ⟨(watch.cache.entries.toList.filter
    fun p => watch.cache.isPromoted now p.2).map Prod.fst, ?_, ?_, ?_, ?_⟩
  · refine List.pairwise_map.2 ((watch.cache.entries.distinct_keys_toList.filter _).imp ?_)
    intro a b distinct
    exact ne_of_beq_false distinct
  · rw [List.length_map, ← List.countP_eq_length_filter]
    rfl
  · intro key member
    obtain ⟨⟨_, entry⟩, listed, rfl⟩ := List.mem_map.1 member
    obtain ⟨listed, promoted⟩ := List.mem_filter.1 listed
    rw [Std.HashMap.mem_toList_iff_getElem?_eq_some] at listed
    obtain ⟨late, read, next⟩ := (isPromoted_iff (sound.tier_le listed)).1 promoted
    obtain ⟨before, after⟩ := settled _ entry listed
    exact ⟨_, before, by rw [after, raised entry late read, next]⟩
  · intro key missing i j early late
    obtain ⟨entry, held, rfl⟩ := Option.map_eq_some_iff.1 early
    rw [(settled key entry held).2] at late
    by_cases ended : entry.deadline ≤ now
    · cases read : entry.touched with
      | true =>
        rw [raised entry ended read] at late
        have stays : watch.cache.nextTier entry ≠ entry.tier.toNat + 1 := by
          intro next
          apply missing
          refine List.mem_map.2 ⟨(key, entry), List.mem_filter.2 ⟨?_, ?_⟩, rfl⟩
          · exact Std.HashMap.mem_toList_iff_getElem?_eq_some.2 held
          · exact (isPromoted_iff (sound.tier_le held)).2 ⟨ended, read, next⟩
        rw [← Option.some_inj.1 late]
        exact nextTier_of_top (sound.tier_le held) stays
      | false =>
        rw [settle_unread ended read] at late
        cases late
    · rw [settle_early (Nat.lt_of_not_le ended)] at late
      exact (Option.some_inj.1 late).symm

theorem promotes_call (sound : watch.Sound windows) (made : CacheCall κ β) :
    ∃ risen, Promotes risen watch.cache (watch.call made).cache := by
  have unchanged : Promotes [] watch.cache watch.cache := by
    refine .none rfl ?_
    intro key i j early late
    rw [early] at late
    exact (Option.some_inj.1 late).symm
  cases made with
  | get key now make => exact ⟨[], promotes_get watch key now make⟩
  | peek key => exact ⟨[], unchanged⟩
  | expire now => exact sound.promotes_sweep now
  | maybeExpire now =>
    rw [sound.call_maybeExpire now]
    split
    case isTrue => exact sound.promotes_sweep now
    case isFalse => exact ⟨[], unchanged⟩
  | clear =>
    refine ⟨[], .none rfl ?_⟩
    intro key i j _ late
    rw [CacheWatch.call, tierOf_clear] at late
    cases late

theorem tier_le_after (sound : watch.Sound windows) {key : κ} (more : List (CacheCall κ β))
    (stays : ∀ part, part <+: more → (watch.after part).cache.tierOf key ≠ none) {i j : Nat}
    (early : watch.cache.tierOf key = some i)
    (late : (watch.after more).cache.tierOf key = some j) : i ≤ j := by
  induction more generalizing watch i with
  | nil =>
    rw [CacheWatch.after, List.foldl_nil, early] at late
    exact (Option.some_inj.1 late).le
  | cons made more ih =>
    obtain ⟨k, next⟩ := Option.ne_none_iff_exists'.1 (stays [made] (by simp))
    obtain ⟨risen, promotes⟩ := sound.promotes_call made
    refine (promotes.tier_le early next).trans (ih (sound.call made) ?_ next late)
    intro part initial
    exact stays (made :: part) (List.cons_prefix_cons.2 ⟨rfl, initial⟩)

end Sound

/-- Tiers only climb: an entry that stays never falls, each promotion that is counted raises one
entry by one tier, and an entry is due when it has been in its tier for the window of that tier. -/
structure TiersClimb (κ β : Type) [DecidableEq κ] [Hashable κ] (windows : List Nat) : Prop where
  rises : ∀ (history more : List (CacheCall κ β)) (key : κ) (i j : Nat),
    (∀ part, part <+: more →
      ((start windows).after (history ++ part)).cache.tierOf key ≠ none) →
    ((start windows).after history).cache.tierOf key = some i →
    ((start windows).after (history ++ more)).cache.tierOf key = some j → i ≤ j
  promotes : ∀ (history : List (CacheCall κ β)) (made : CacheCall κ β),
    ∃ risen, Promotes risen ((start windows).after history).cache
      ((start windows).after (history ++ [made])).cache
  due : ∀ (history : List (CacheCall κ β)) (key : κ) (i : Nat),
    let watch := (start windows).after history
    watch.cache.tierOf key = some i → ∃ tenure entry window,
      watch.tenure key = some tenure ∧ watch.cache.entries[key]? = some entry ∧
        (ofWindows windows : TieredCache κ β).windows[i]? = some window ∧
        entry.deadline = tenure.since + window

theorem tiersClimb_of_few (few : windows.length ≤ 256) : TiersClimb κ β windows := by
  have sound (history : List (CacheCall κ β)) := (sound_start (β := β) few).after history
  refine ⟨?_, ?_, ?_⟩
  · intro history more key i j stays early late
    simp only [after_append] at stays late
    exact (sound history).tier_le_after more stays early late
  · intro history made
    rw [after_append]
    exact (sound history).promotes_call made
  · intro history key i watch reported
    obtain ⟨entry, held, rfl⟩ := Option.map_eq_some_iff.1 reported
    obtain ⟨tenure, noted, marks⟩ := (sound history).exists_tenure held
    obtain ⟨window, known, deadline⟩ := marks.window
    exact ⟨tenure, entry, window, noted, held, known, deadline⟩

def climb (key : κ) (value : β) (apart : Nat) : Nat → List (CacheCall κ β)
  | 0 => [.get key 0 fun _ => value]
  | n + 1 => climb key value apart n ++
      [.get key (n * apart) (fun _ => value), .expire ((n + 1) * apart)]

theorem after_climb (watch : CacheWatch κ β) (key : κ) (value : β) (apart n : Nat) :
    watch.after (climb key value apart (n + 1)) =
      ((watch.after (climb key value apart n)).get key (n * apart) fun _ => value).sweep
        ((n + 1) * apart) := by
  rw [climb, after_append]
  rfl

theorem windows_get (watch : CacheWatch κ β) (key : κ) (now : Instant) (make : κ → β) :
    (watch.get key now make).cache.windows = watch.cache.windows := by
  cases held : watch.cache.peek key with
  | some value =>
    rw [get_of_some held]
    rfl
  | none =>
    rw [get_of_none held]
    rfl

theorem getElem?_get_sweep {key : κ} {entry : Cached β} {later : Instant}
    (held : watch.cache.entries[key]? = some entry) (ended : entry.deadline ≤ later)
    (now : Instant) (make : κ → β) :
    ((watch.get key now make).sweep later).cache.entries[key]? =
      some ⟨entry.value, UInt8.ofNat (watch.cache.nextTier entry),
        later + watch.cache.window (watch.cache.nextTier entry), false⟩ := by
  have peeked : watch.cache.peek key = some entry.value := by rw [peek, held, Option.map_some]
  have touched : (watch.cache.hit key).entries[key]? = some { entry with touched := true } := by
    simp [hit, held]
  have climbed : (watch.cache.hit key).settle later { entry with touched := true } = some _ :=
    settle_read ended rfl
  rw [get_of_some peeked, sweep, getElem?_expire, touched]
  exact climbed

section Many

variable {apart : Nat} (many : 256 < windows.length) (wide : ∀ window ∈ windows, window ≤ apart)

include many wide

/-- With more tiers than a byte can number, every 256th promotion leads back to the first one. -/
theorem exists_after_climb (key : κ) (value : β) (n : Nat) :
    let watch := (start windows : CacheWatch κ β).after (climb key value apart n)
    watch.cache.windows = windows ∧ ∃ entry, watch.cache.entries[key]? = some entry ∧
      entry.tier.toNat = n % 256 ∧ entry.deadline ≤ (n + 1) * apart := by
  induction n with
  | zero =>
    cases windows with
    | nil => cases many
    | cons youngest older =>
      have vacant : (ofWindows (youngest :: older) : TieredCache κ β).peek key = none :=
        peek_ofWindows _ key
      have placed : (start (youngest :: older)).after (climb key value apart 0) =
          (start (youngest :: older)).get key 0 fun _ => value := rfl
      have window : youngest ≤ apart := wide youngest List.mem_cons_self
      rw [placed, get_of_none vacant]
      refine ⟨rfl, _, Std.HashMap.getElem?_insert_self, rfl, ?_⟩
      simpa [start, ofWindows] using window
  | succ n ih =>
    obtain ⟨served, entry, held, tier, deadline⟩ := ih
    rw [after_climb]
    generalize (start windows : CacheWatch κ β).after (climb key value apart n) = watch at *
    have below : n % 256 < 256 := Nat.mod_lt _ (by decide)
    have top : 256 ≤ watch.cache.lastTier := by
      have length := watch.cache.length_windows
      rw [served] at length
      omega
    have next : watch.cache.nextTier entry = n % 256 + 1 := by
      rw [nextTier, tier]
      omega
    have known := watch.cache.nextTier_known entry
    have step := getElem?_get_sweep held deadline (n * apart) fun _ => value
    refine ⟨(windows_get watch key _ _).trans served, _, step, ?_, ?_⟩
    · rw [next, UInt8.toNat_ofNat', Nat.mod_add_mod]
    · rw [served] at known
      have window := wide _ (List.mem_of_getElem? known)
      rw [Nat.succ_mul (n + 1)]
      exact Nat.add_le_add_left window _

theorem tierOf_after_climb (key : κ) (value : β) (n : Nat) :
    ((start windows).after (climb key value apart n)).cache.tierOf key = some (n % 256) := by
  obtain ⟨_, entry, held, tier, _⟩ := exists_after_climb many wide key value n
  rw [tierOf, held, Option.map_some, tier]

end Many

theorem tierOf_get (watch : CacheWatch κ β) {key : κ} {tier : Nat}
    (reported : watch.cache.tierOf key = some tier) (now : Instant) (make : κ → β) :
    (watch.get key now make).cache.tierOf key = some tier := by
  obtain ⟨entry, held, _⟩ := Option.map_eq_some_iff.1 reported
  have peeked : watch.cache.peek key = some entry.value := by rw [peek, held, Option.map_some]
  rw [get_of_some peeked, tierOf_hit, reported]

theorem not_tiersClimb_of_many (many : 256 < windows.length) (key : κ) (value : β) :
    ¬ TiersClimb κ β windows := by
  intro climbs
  have wide (window : Nat) (member : window ∈ windows) : window ≤ windows.sum :=
    List.single_le_sum (by simp) window member
  have high := tierOf_after_climb many wide key value 255
  have low := tierOf_after_climb many wide key value (255 + 1)
  rw [climb] at low
  refine absurd (climbs.rises _ _ key _ _ ?_ high low) (by decide)
  -- The entry is there at each of the three moments of the last round.
  intro part initial
  rcases List.prefix_cons_iff.1 initial with rfl | ⟨_, rfl, rest⟩
  · rw [List.append_nil, high]
    exact Option.some_ne_none _
  rcases List.prefix_cons_iff.1 rest with rfl | ⟨_, rfl, none⟩
  · rw [after_append]
    have read := tierOf_get _ high (255 * windows.sum) fun _ => value
    exact fun gone => Option.some_ne_none _ (read.symm.trans gone)
  · rw [List.prefix_nil.1 none, low]
    exact Option.some_ne_none _

theorem tiersClimb_iff [Inhabited κ] [Inhabited β] :
    TiersClimb κ β windows ↔ windows.length ≤ 256 :=
  ⟨fun climbs => not_lt.1 fun many => not_tiersClimb_of_many many default default climbs,
    tiersClimb_of_few⟩

theorem tier_falls_among_257 :
    ((start (List.replicate 257 10)).after (climb (0 : Nat) (1 : Nat) 10 255)).cache.tierOf 0 =
        some 255 ∧
      ((start (List.replicate 257 10)).after (climb (0 : Nat) (1 : Nat) 10 256)).cache.tierOf 0 =
        some 0 ∧
      ¬ TiersClimb Nat Nat (List.replicate 257 10) := by
  have many : 256 < (List.replicate 257 10).length := by rw [List.length_replicate]; decide
  have wide (window : Nat) (member : window ∈ List.replicate 257 10) : window ≤ 10 :=
    (List.eq_of_mem_replicate member).le
  exact ⟨tierOf_after_climb many wide 0 1 255, tierOf_after_climb many wide 0 1 256,
    not_tiersClimb_of_many many 0 1⟩

end CacheWatch

end Karst
