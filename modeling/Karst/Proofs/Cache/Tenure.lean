import Karst.Proofs.Cache.Ledger

/-!
A cache and what an onlooker notes of it: since when each entry has been in its tier, whether it was
read there, and when the last sweep was. As long as a byte can number the tiers, the deadlines and
marks of the entries are what the notes say.
-/

namespace Karst

/-- The stay of an entry in one tier: since when, and whether it was read there. -/
structure Tenure where
  since : Instant
  read : Bool

def Tenure.swept (now : Instant) (window : Nat) (tenure : Tenure) : Tenure :=
  if tenure.since + window ≤ now then ⟨now, false⟩ else tenure

structure CacheWatch (κ β : Type) [BEq κ] [Hashable κ] where
  cache : TieredCache κ β
  tenure : κ → Option Tenure := fun _ => none
  lastSweep : Option Instant := none

variable {κ β : Type}

namespace CacheWatch

variable [DecidableEq κ] [Hashable κ]

def start (windows : List Nat) : CacheWatch κ β := { cache := .ofWindows windows }

def get (watch : CacheWatch κ β) (key : κ) (now : Instant) (make : κ → β) : CacheWatch κ β :=
  { watch with
    cache := (watch.cache.getOrInsert key now fun _ => make key).2
    tenure := Function.update watch.tenure key <|
      match watch.cache.peek key with
      | some _ => (watch.tenure key).map fun tenure => { tenure with read := true }
      | none => some ⟨now, false⟩ }

def sweep (watch : CacheWatch κ β) (now : Instant) : CacheWatch κ β :=
  let swept := (watch.cache.expire now).2
  { cache := swept
    tenure := fun key =>
      match watch.tenure key, watch.cache.tierOf key, swept.peek key with
      | some tenure, some tier, some _ => some (tenure.swept now (watch.cache.window tier))
      | _, _, _ => none
    lastSweep := some now }

def isDue (watch : CacheWatch κ β) (now : Instant) : Bool :=
  watch.lastSweep.all fun last => last + watch.cache.youngest / 2 ≤ now

def call (watch : CacheWatch κ β) : CacheCall κ β → CacheWatch κ β
  | .get key now make => watch.get key now make
  | .peek _ => watch
  | .expire now => watch.sweep now
  | .maybeExpire now =>
      { (if watch.isDue now then watch.sweep now else watch) with
        cache := (watch.cache.maybeExpire now).2 }
  | .clear => { cache := watch.cache.clear }

def after (watch : CacheWatch κ β) (history : List (CacheCall κ β)) : CacheWatch κ β :=
  history.foldl call watch

theorem after_append (watch : CacheWatch κ β) (history more : List (CacheCall κ β)) :
    watch.after (history ++ more) = (watch.after history).after more :=
  List.foldl_append

end CacheWatch

namespace TieredCache

variable [BEq κ] [Hashable κ] {cache : TieredCache κ β}

theorem window_eq {tier window : Nat} (known : cache.windows[tier]? = some window) :
    cache.window tier = window := by
  rw [TieredCache.window, List.getD_eq_getElem?_getD, known, Option.getD_some]

theorem length_windows (cache : TieredCache κ β) : cache.windows.length = cache.lastTier + 1 :=
  rfl

theorem length_windows_ofWindows {windows : List Nat} (few : windows.length ≤ 256) :
    (ofWindows windows : TieredCache κ β).windows.length ≤ 256 := by
  cases windows with
  | nil => exact Nat.le_of_ble_eq_true rfl
  | cons youngest older => exact few

theorem getElem?_expire [LawfulBEq κ] (now : Instant) (key : κ) :
    (cache.expire now).2.entries[key]? = (cache.entries[key]?).bind (cache.settle now) :=
  Std.HashMap.getElem?_filterMap'

variable {now : Instant} {entry : Cached β}

theorem settle_early (early : now < entry.deadline) : cache.settle now entry = some entry := by
  simp [settle, isDue, early]

theorem settle_unread (ended : entry.deadline ≤ now) (unread : entry.touched = false) :
    cache.settle now entry = none := by
  simp [settle, isDue, ended, unread]

theorem settle_read (ended : entry.deadline ≤ now) (read : entry.touched = true) :
    cache.settle now entry = some ⟨entry.value, UInt8.ofNat (cache.nextTier entry),
      now + cache.window (cache.nextTier entry), false⟩ := by
  simp [settle, isDue, ended, read]

theorem nextTier_known (cache : TieredCache κ β) (entry : Cached β) :
    cache.windows[cache.nextTier entry]? = some (cache.window (cache.nextTier entry)) := by
  have bound : cache.nextTier entry < cache.windows.length :=
    Nat.lt_succ_of_le (Nat.min_le_right ..)
  rw [window, List.getElem?_eq_getElem bound, List.getD_eq_getElem _ _ bound]

theorem toNat_nextTier (few : cache.windows.length ≤ 256) (entry : Cached β) :
    (UInt8.ofNat (cache.nextTier entry)).toNat = cache.nextTier entry := by
  have bound : cache.nextTier entry ≤ cache.lastTier := Nat.min_le_right ..
  rw [length_windows] at few
  apply UInt8.toNat_ofNat_of_lt'
  simp only [UInt8.size]
  omega

end TieredCache

structure Tenure.Marks (windows : List Nat) (tenure : Tenure) (entry : Cached β) : Prop where
  window : ∃ window, windows[entry.tier.toNat]? = some window ∧
    entry.deadline = tenure.since + window
  touched : entry.touched = tenure.read

namespace CacheWatch

variable [DecidableEq κ] [Hashable κ] {watch : CacheWatch κ β} {windows : List Nat}

theorem get_of_some {key : κ} {value : β} (held : watch.cache.peek key = some value)
    (now : Instant) (make : κ → β) :
    watch.get key now make = { watch with
      cache := watch.cache.hit key
      tenure := Function.update watch.tenure key
        ((watch.tenure key).map fun tenure => { tenure with read := true }) } := by
  simp only [get, TieredCache.getOrInsert_of_some held, held]

theorem get_of_none {key : κ} (vacant : watch.cache.peek key = none) (now : Instant)
    (make : κ → β) :
    watch.get key now make = { watch with
      cache := watch.cache.place key now (make key)
      tenure := Function.update watch.tenure key (some ⟨now, false⟩) } := by
  simp only [get, TieredCache.getOrInsert_of_none vacant, vacant]

theorem tenure_sweep (watch : CacheWatch κ β) (now : Instant) (key : κ) :
    (watch.sweep now).tenure key = (watch.tenure key).bind fun tenure =>
      (watch.cache.entries[key]?).bind fun entry => (watch.cache.settle now entry).map fun _ =>
        tenure.swept now (watch.cache.window entry.tier.toNat) := by
  simp only [sweep, TieredCache.tierOf, TieredCache.peek, TieredCache.getElem?_expire now key]
  cases watch.tenure key with
  | none => rfl
  | some tenure =>
    cases watch.cache.entries[key]? with
    | none => rfl
    | some entry =>
      rw [Option.bind_some, Option.bind_some, Option.bind_some]
      cases watch.cache.settle now entry <;> rfl

/-- A cache with these windows, and notes that agree with it. -/
structure Sound (windows : List Nat) (watch : CacheWatch κ β) : Prop where
  few : windows.length ≤ 256
  served : watch.cache.windows = windows
  due : watch.cache.nextSweep = watch.lastSweep.map (· + watch.cache.youngest / 2)
  marked : ∀ key, Option.Rel (Tenure.Marks windows) (watch.tenure key) watch.cache.entries[key]?

theorem sound_start (few : windows.length ≤ 256) : (start windows : CacheWatch κ β).Sound
    (TieredCache.ofWindows windows : TieredCache κ β).windows := by
  refine ⟨TieredCache.length_windows_ofWindows few, rfl, ?_, ?_⟩
  · cases windows <;> rfl
  · intro key
    have vacant : (TieredCache.ofWindows windows : TieredCache κ β).entries[key]? = none := by
      cases windows <;> simp [TieredCache.ofWindows]
    rw [start, vacant]
    exact .none

namespace Sound

theorem get (sound : watch.Sound windows) (key : κ) (now : Instant) (make : κ → β) :
    (watch.get key now make).Sound windows := by
  cases held : watch.cache.peek key with
  | some value =>
    rw [get_of_some held]
    refine ⟨sound.few, sound.served, sound.due, ?_⟩
    intro other
    have noted := sound.marked other
    dsimp only
    rw [TieredCache.hit, Std.HashMap.getElem?_modify]
    by_cases here : key = other
    · subst here
      rw [Function.update_self, if_pos (beq_self_eq_true key)]
      generalize watch.tenure key = tenure at noted
      generalize watch.cache.entries[key]? = entry at noted
      cases noted with
      | none => exact .none
      | some marks => exact .some ⟨marks.window, rfl⟩
    · rw [Function.update_of_ne (Ne.symm here), if_neg (by simpa using here)]
      exact noted
  | none =>
    rw [get_of_none held]
    refine ⟨sound.few, sound.served, sound.due, ?_⟩
    intro other
    dsimp only
    rw [TieredCache.place, Std.HashMap.getElem?_insert]
    by_cases here : key = other
    · subst here
      rw [Function.update_self, if_pos (beq_self_eq_true key)]
      exact .some ⟨⟨_, sound.served ▸ rfl, rfl⟩, rfl⟩
    · rw [Function.update_of_ne (Ne.symm here), if_neg (by simpa using here)]
      exact sound.marked other

theorem sweep (sound : watch.Sound windows) (now : Instant) :
    (watch.sweep now).Sound windows := by
  refine ⟨sound.few, sound.served, rfl, ?_⟩
  intro key
  have noted := sound.marked key
  rw [tenure_sweep, CacheWatch.sweep, TieredCache.getElem?_expire]
  generalize watch.tenure key = tenure at noted
  generalize watch.cache.entries[key]? = entry at noted
  cases noted with
  | none => exact .none
  | @some tenure entry marks =>
    obtain ⟨window, known, deadline⟩ := marks.window
    rw [← sound.served] at known
    simp only [Option.bind_some, Tenure.swept, TieredCache.window_eq known, ← deadline]
    by_cases late : entry.deadline ≤ now
    · cases read : entry.touched with
      | true =>
        rw [TieredCache.settle_read late read, Option.map_some, if_pos late]
        refine .some ⟨⟨_, ?_, rfl⟩, rfl⟩
        rw [TieredCache.toNat_nextTier (sound.served ▸ sound.few) entry, ← sound.served]
        exact watch.cache.nextTier_known entry
      | false =>
        rw [TieredCache.settle_unread late read]
        exact .none
    · rw [TieredCache.settle_early (Nat.lt_of_not_le late), Option.map_some, if_neg late]
      exact .some marks

theorem maybeExpire_eq (sound : watch.Sound windows) (now : Instant) :
    watch.cache.maybeExpire now =
      if watch.isDue now then watch.cache.expire now else ([], watch.cache) := by
  rw [TieredCache.maybeExpire, sound.due, isDue]
  cases watch.lastSweep with
  | none => rfl
  | some last =>
    by_cases early : now < last + watch.cache.youngest / 2
    · simp [early, Nat.not_le_of_lt early]
    · simp [early, Nat.le_of_not_lt early]

theorem call_maybeExpire (sound : watch.Sound windows) (now : Instant) :
    watch.call (.maybeExpire now) = if watch.isDue now then watch.sweep now else watch := by
  rw [CacheWatch.call, sound.maybeExpire_eq now]
  split
  case isTrue => rfl
  case isFalse => rfl

theorem clear (sound : watch.Sound windows) : (watch.call .clear).Sound windows := by
  refine ⟨sound.few, sound.served, rfl, ?_⟩
  intro key
  have vacant : watch.cache.clear.entries[key]? = none := by simp [TieredCache.clear]
  rw [CacheWatch.call, vacant]
  exact .none

theorem call (sound : watch.Sound windows) (made : CacheCall κ β) :
    (watch.call made).Sound windows := by
  cases made with
  | get key now make => exact sound.get key now make
  | peek key => exact sound
  | expire now => exact sound.sweep now
  | maybeExpire now =>
    rw [sound.call_maybeExpire now]
    split
    case isTrue => exact sound.sweep now
    case isFalse => exact sound
  | clear => exact sound.clear

theorem after (sound : watch.Sound windows) (history : List (CacheCall κ β)) :
    (watch.after history).Sound windows := by
  induction history generalizing watch with
  | nil => exact sound
  | cons made history ih => exact ih (sound.call made)

theorem exists_tenure (sound : watch.Sound windows) {key : κ} {entry : Cached β}
    (held : watch.cache.entries[key]? = some entry) :
    ∃ tenure, watch.tenure key = some tenure ∧ tenure.Marks windows entry := by
  have marked := sound.marked key
  rw [held] at marked
  generalize watch.tenure key = noted at marked
  cases marked with
  | some marks => exact ⟨_, rfl, marks⟩

end Sound

end CacheWatch

end Karst
