import Karst.Proofs.Cache.Tenure

namespace Karst

variable {κ β : Type}

namespace CacheCall

def time? : CacheCall κ β → Option Instant
  | .get _ now _ | .expire now | .maybeExpire now => some now
  | .peek _ | .clear => none

def InOrder (clock : Instant) (history : List (CacheCall κ β)) : Prop :=
  (clock :: history.filterMap time?).Pairwise (· ≤ ·)

instance (clock : Instant) (history : List (CacheCall κ β)) : Decidable (InOrder clock history) :=
  inferInstanceAs (Decidable (List.Pairwise _ _))

variable {clock : Instant} {made : CacheCall κ β} {history : List (CacheCall κ β)}

theorem InOrder.head (ordered : InOrder clock (made :: history)) {now : Instant}
    (timed : made.time? = some now) : clock ≤ now := by
  rw [InOrder, List.filterMap_cons_some timed] at ordered
  exact List.rel_of_pairwise_cons ordered List.mem_cons_self

theorem InOrder.tail (ordered : InOrder clock (made :: history)) :
    InOrder (made.time?.getD clock) history := by
  cases timed : made.time? with
  | some now =>
    rw [InOrder, List.filterMap_cons_some timed] at ordered
    exact List.Pairwise.of_cons ordered
  | none => rwa [InOrder, List.filterMap_cons_none timed] at ordered

end CacheCall

open CacheCall TieredCache

namespace CacheWatch

variable [DecidableEq κ] [Hashable κ] {watch : CacheWatch κ β} {windows : List Nat}
variable {clock now : Instant} {key : κ} {entry : Cached β}

def released (watch : CacheWatch κ β) : CacheCall κ β → List (κ × β)
  | .expire now => (watch.cache.expire now).1
  | .maybeExpire now => (watch.cache.maybeExpire now).1
  | .get .. | .peek _ | .clear => []

/-- The last sweep was before the end of every window, and not after `clock`. -/
def Prompt (clock : Instant) (watch : CacheWatch κ β) : Prop :=
  ∀ last, watch.lastSweep = some last → last ≤ clock ∧
    ∀ (key : κ) (entry : Cached β), watch.cache.entries[key]? = some entry → last < entry.deadline

theorem deadline_get {other : κ} (make : κ → β)
    (held : (watch.get key now make).cache.entries[other]? = some entry) :
    (∃ earlier, watch.cache.entries[other]? = some earlier ∧
      entry.deadline = earlier.deadline) ∨ entry.deadline = now + watch.cache.youngest := by
  cases found : watch.cache.peek key with
  | some value =>
    rw [get_of_some found, hit, Std.HashMap.getElem?_modify] at held
    split at held
    case isTrue same =>
      obtain ⟨earlier, there, rfl⟩ := Option.map_eq_some_iff.1 held
      rw [eq_of_beq same] at there
      exact .inl ⟨earlier, there, rfl⟩
    case isFalse => exact .inl ⟨entry, held, rfl⟩
  | none =>
    rw [get_of_none found, place, Std.HashMap.getElem?_insert] at held
    split at held
    case isTrue =>
      cases held
      exact .inr rfl
    case isFalse => exact .inl ⟨entry, held, rfl⟩

theorem Prompt.mono (prompt : watch.Prompt clock) (forward : clock ≤ now) : watch.Prompt now := by
  intro last swept
  obtain ⟨past, before⟩ := prompt last swept
  exact ⟨past.trans forward, before⟩

section Positive

variable (positive : ∀ window ∈ windows, 0 < window)

include positive

theorem Sound.lt_deadline_sweep (sound : watch.Sound windows)
    (held : (watch.sweep now).cache.entries[key]? = some entry) : now < entry.deadline := by
  rw [CacheWatch.sweep, getElem?_expire, Option.bind_eq_some_iff] at held
  obtain ⟨earlier, _, left⟩ := held
  by_cases ended : earlier.deadline ≤ now
  · cases read : earlier.touched with
    | true =>
      have known := watch.cache.nextTier_known earlier
      rw [sound.served] at known
      rw [settle_read ended read] at left
      cases left
      exact Nat.lt_add_of_pos_right (positive _ (List.mem_of_getElem? known))
    | false =>
      rw [settle_unread ended read] at left
      cases left
  · rw [settle_early (Nat.lt_of_not_le ended)] at left
    cases left
    exact Nat.lt_of_not_le ended

namespace Prompt

theorem get (prompt : watch.Prompt clock) (sound : watch.Sound windows) (forward : clock ≤ now)
    (key : κ) (make : κ → β) : (watch.get key now make).Prompt now := by
  intro last swept
  obtain ⟨past, before⟩ := prompt last swept
  refine ⟨past.trans forward, ?_⟩
  intro other entry held
  rcases deadline_get make held with ⟨earlier, there, same⟩ | fresh
  · rw [same]
    exact before other earlier there
  · have youngest : 0 < watch.cache.youngest :=
      positive _ (sound.served ▸ List.mem_cons_self)
    rw [fresh]
    exact (past.trans forward).trans_lt (Nat.lt_add_of_pos_right youngest)

theorem sweep (sound : watch.Sound windows) : (watch.sweep now).Prompt now := by
  intro last swept
  cases swept
  exact ⟨le_rfl, fun key entry held => sound.lt_deadline_sweep positive held⟩

theorem call (prompt : watch.Prompt clock) (sound : watch.Sound windows) {made : CacheCall κ β}
    (forward : ∀ now, made.time? = some now → clock ≤ now) :
    (watch.call made).Prompt (made.time?.getD clock) := by
  cases made with
  | get key now make => exact prompt.get positive sound (forward now rfl) key make
  | peek key => exact prompt
  | expire now => exact sweep positive sound
  | maybeExpire now =>
    rw [sound.call_maybeExpire now]
    split
    case isTrue => exact sweep positive sound
    case isFalse => exact prompt.mono (forward now rfl)
  | clear =>
    intro last swept
    cases swept

theorem after (prompt : watch.Prompt clock) (sound : watch.Sound windows)
    (history more : List (CacheCall κ β)) (ordered : InOrder clock (history ++ more)) :
    ∃ later, InOrder later more ∧ (watch.after history).Prompt later := by
  induction history generalizing watch clock with
  | nil => exact ⟨clock, ordered, prompt⟩
  | cons made history ih =>
    have forward (now : Instant) (timed : made.time? = some now) : clock ≤ now :=
      ordered.head timed
    exact ih (prompt.call positive sound forward) (sound.call made) ordered.tail

end Prompt

end Positive

end CacheWatch

end Karst
