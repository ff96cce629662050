import Karst.Proofs.Cache.Holdings

namespace Karst

variable {κ β : Type}

inductive CacheEvent.Kind where
  | made
  | released
  | dropped
deriving DecidableEq

structure CacheEvent (κ β : Type) where
  kind : CacheEvent.Kind
  key : κ
  value : β

abbrev CacheLog (κ β : Type) := List (CacheEvent κ β)

namespace CacheLog

def note (log : CacheLog κ β) (kind : CacheEvent.Kind) (pairs : List (κ × β)) : CacheLog κ β :=
  log ++ pairs.map fun p => ⟨kind, p.1, p.2⟩

def pairs (log : CacheLog κ β) (kind : CacheEvent.Kind) : List (κ × β) :=
  (log.filter fun event => event.kind = kind).map fun event => (event.key, event.value)

/-- The value is the latest that was made for the key, and nothing has happened under it since. -/
def Standing (log : CacheLog κ β) (key : κ) (value : β) : Prop :=
  ∃ before since, log = before ++ ⟨.made, key, value⟩ :: since ∧ ∀ event ∈ since, event.key ≠ key

variable {log : CacheLog κ β} {kind : CacheEvent.Kind} {key : κ} {value : β}

theorem pairs_note (log : CacheLog κ β) (kind other : CacheEvent.Kind) (list : List (κ × β)) :
    (log.note kind list).pairs other = log.pairs other ++ if kind = other then list else [] := by
  rw [note, pairs, List.filter_append, List.map_append, List.filter_map, List.map_map]
  split
  case isTrue same => simp [pairs, same, Function.comp_def]
  case isFalse different => simp [pairs, different, Function.comp_def]

theorem not_standing_nil : ¬ Standing ([] : CacheLog κ β) key value := by
  rintro ⟨before, since, same, _⟩
  simp at same

theorem standing_concat {event : CacheEvent κ β} : Standing (log ++ [event]) key value ↔
    event = ⟨.made, key, value⟩ ∨ (event.key ≠ key ∧ log.Standing key value) := by
  constructor
  · rintro ⟨before, since, same, quiet⟩
    rcases List.eq_nil_or_concat since with rfl | ⟨since, last, rfl⟩
    · exact .inl (List.singleton_inj.1 (List.append_inj' same rfl).2)
    · rw [List.concat_eq_append, ← List.cons_append, ← List.append_assoc] at same
      obtain ⟨earlier, here⟩ := List.append_inj' same rfl
      cases here
      refine .inr ⟨quiet event (by simp), before, since, earlier, ?_⟩
      intro other member
      exact quiet other (by simp [member])
  · rintro (rfl | ⟨elsewhere, before, since, rfl, quiet⟩)
    · exact ⟨log, [], rfl, by simp⟩
    · refine ⟨before, since ++ [event], by simp, ?_⟩
      intro other member
      rcases List.mem_append.1 member with earlier | last
      · exact quiet other earlier
      · exact List.mem_singleton.1 last ▸ elsewhere

theorem standing_made {made : κ} {fresh : β} : (log.note .made [(made, fresh)]).Standing key value ↔
    (made = key ∧ fresh = value) ∨ (made ≠ key ∧ log.Standing key value) := by
  simp [note, standing_concat]

theorem standing_note (unmade : kind ≠ .made) (list : List (κ × β)) :
    (log.note kind list).Standing key value ↔
      log.Standing key value ∧ key ∉ list.map Prod.fst := by
  induction list generalizing log with
  | nil => simp [note]
  | cons first list ih =>
    have split : log.note kind (first :: list) =
        (log ++ [⟨kind, first.1, first.2⟩] : CacheLog κ β).note kind list := by
      simp [note]
    rw [split, ih, standing_concat, List.map_cons, List.mem_cons]
    simp only [CacheEvent.mk.injEq, unmade, false_and, false_or]
    tauto

end CacheLog

inductive CacheCall (κ β : Type) where
  | get (key : κ) (now : Instant) (make : κ → β)
  | peek (key : κ)
  | expire (now : Instant)
  | maybeExpire (now : Instant)
  | clear

namespace CacheCall

def isGet : CacheCall κ β → Bool
  | .get .. => true
  | _ => false

def isClear : CacheCall κ β → Bool
  | .clear => true
  | _ => false

end CacheCall

structure CacheRun (κ β : Type) [BEq κ] [Hashable κ] where
  cache : TieredCache κ β
  log : CacheLog κ β := []

namespace CacheRun

variable [BEq κ] [Hashable κ]

def start (windows : List Nat) : CacheRun κ β := ⟨.ofWindows windows, []⟩

def made (run : CacheRun κ β) : List (κ × β) := run.log.pairs .made

def released (run : CacheRun κ β) : List (κ × β) := run.log.pairs .released

def dropped (run : CacheRun κ β) : List (κ × β) := run.log.pairs .dropped

def swept (run : CacheRun κ β) (gone : List (κ × β)) (cache : TieredCache κ β) : CacheRun κ β :=
  ⟨cache, run.log.note .released gone⟩

def call (run : CacheRun κ β) : CacheCall κ β → CacheRun κ β
  | .get key now make =>
      let (value, cache) := run.cache.getOrInsert key now fun _ => make key
      if (run.cache.peek key).isNone then ⟨cache, run.log.note .made [(key, value)]⟩
      else ⟨cache, run.log⟩
  | .peek _ => run
  | .expire now =>
      let (gone, cache) := run.cache.expire now
      run.swept gone cache
  | .maybeExpire now =>
      let (gone, cache) := run.cache.maybeExpire now
      run.swept gone cache
  | .clear => ⟨run.cache.clear, run.log.note .dropped run.cache.holdings⟩

def after (run : CacheRun κ β) (history : List (CacheCall κ β)) : CacheRun κ β :=
  history.foldl call run

end CacheRun

namespace TieredCache

variable [BEq κ] [Hashable κ] {cache : TieredCache κ β} {key : κ}

theorem getOrInsert_of_some {value : β} (held : cache.peek key = some value) (now : Instant)
    (make : Unit → β) : cache.getOrInsert key now make = (value, cache.hit key) := by
  rw [getOrInsert, held]

theorem getOrInsert_of_none (vacant : cache.peek key = none) (now : Instant) (make : Unit → β) :
    cache.getOrInsert key now make = (make (), cache.place key now (make ())) := by
  rw [getOrInsert, vacant]

structure Tallies (cache after : TieredCache κ β) (gone : List (κ × β)) : Prop where
  hits : after.hits = cache.hits
  misses : after.misses = cache.misses
  clears : after.clears = cache.clears
  expiries : after.expiries = cache.expiries + gone.length

theorem expire_tallies (now : Instant) :
    Tallies cache (cache.expire now).2 (cache.expire now).1 :=
  ⟨rfl, rfl, rfl, by simp [expire]⟩

theorem maybeExpire_tallies (now : Instant) :
    Tallies cache (cache.maybeExpire now).2 (cache.maybeExpire now).1 := by
  rcases cache.maybeExpire_cases now with same | same <;> rw [same]
  · exact ⟨rfl, rfl, rfl, rfl⟩
  · exact expire_tallies now

theorem length_holdings [EquivBEq κ] [LawfulHashable κ] (cache : TieredCache κ β) :
    cache.holdings.length = cache.stats.entries := by
  rw [holdings, List.length_map, Std.HashMap.length_toList, stats]

end TieredCache

namespace CacheRun

open CacheLog

variable [BEq κ] [Hashable κ]

theorem call_get_of_some {run : CacheRun κ β} {key : κ} {value : β}
    (held : run.cache.peek key = some value) (now : Instant) (make : κ → β) :
    run.call (.get key now make) = ⟨run.cache.hit key, run.log⟩ := by
  simp [call, TieredCache.getOrInsert_of_some held, held]

theorem call_get_of_none {run : CacheRun κ β} {key : κ} (vacant : run.cache.peek key = none)
    (now : Instant) (make : κ → β) : run.call (.get key now make) =
      ⟨run.cache.place key now (make key), run.log.note .made [(key, make key)]⟩ := by
  simp [call, TieredCache.getOrInsert_of_none vacant, vacant]

/-- The run after some calls, of which `gets` were look-ups and `clears` clearings. -/
structure Balanced (gets clears : Nat) (run : CacheRun κ β) : Prop where
  split : run.made.Perm (run.released ++ run.dropped ++ run.cache.holdings)
  standing : ∀ key value, run.cache.peek key = some value ↔ run.log.Standing key value
  misses : run.cache.misses = run.made.length
  gets : run.cache.hits + run.cache.misses = gets
  expiries : run.cache.expiries = run.released.length
  clears : run.cache.clears = clears

variable {run : CacheRun κ β} {gets clears : Nat}

theorem Balanced.peek_eq_none (balanced : run.Balanced gets clears) {key : κ}
    (fallen : ∀ value, ¬ run.log.Standing key value) : run.cache.peek key = none := by
  apply Option.eq_none_iff_forall_ne_some.2
  intro value held
  exact fallen value ((balanced.standing key value).1 held)

variable [LawfulBEq κ]

theorem balanced_start (windows : List Nat) :
    Balanced 0 0 (start windows : CacheRun κ β) := by
  constructor
  · simp [start, made, released, dropped, pairs]
  · intro key value
    simp [start, not_standing_nil]
  all_goals cases windows <;> rfl

namespace Balanced

theorem get (balanced : run.Balanced gets clears) (key : κ) (now : Instant) (make : κ → β) :
    (run.call (.get key now make)).Balanced (gets + 1) clears := by
  have counted := balanced.gets
  cases held : run.cache.peek key with
  | some value =>
    rw [call_get_of_some held]
    constructor
    · exact balanced.split.trans ((TieredCache.holdings_hit key).symm.append_left _)
    · intro other value
      rw [TieredCache.peek_hit]
      exact balanced.standing other value
    · exact balanced.misses
    · simp only [TieredCache.hit]
      omega
    · exact balanced.expiries
    · exact balanced.clears
  | none =>
    rw [call_get_of_none held]
    constructor
    · have gained : (run.made ++ [(key, make key)]).Perm
          (run.released ++ run.dropped ++ (run.cache.place key now (make key)).holdings) := by
        calc
          List.Perm _ ((key, make key) :: run.made) := List.perm_append_singleton ..
          List.Perm _ ((key, make key) :: (run.released ++ run.dropped ++ run.cache.holdings)) :=
            balanced.split.cons _
          List.Perm _ (run.released ++ run.dropped ++ (key, make key) :: run.cache.holdings) :=
            List.perm_middle.symm
          List.Perm _ _ := (TieredCache.holdings_place held now (make key)).symm.append_left _
      simpa [made, released, dropped, pairs_note] using gained
    · intro other value
      rw [standing_made, ← balanced.standing]
      by_cases here : key = other
      · subst here
        simp [held]
      · simp [TieredCache.peek_place_of_ne (Ne.symm here), here]
    · simpa [TieredCache.place, made, pairs_note] using balanced.misses
    · simp only [TieredCache.place]
      omega
    · simpa [TieredCache.place, released, pairs_note] using balanced.expiries
    · exact balanced.clears

theorem swept (balanced : run.Balanced gets clears) {gone : List (κ × β)} {cache : TieredCache κ β}
    (parts : TieredCache.Swept run.cache cache gone)
    (tallies : TieredCache.Tallies run.cache cache gone) :
    (run.swept gone cache).Balanced gets clears := by
  constructor
  · have moved : run.made.Perm (run.released ++ gone ++ run.dropped ++ cache.holdings) := by
      calc
        List.Perm _ (run.released ++ run.dropped ++ run.cache.holdings) := balanced.split
        List.Perm _ (run.released ++ run.dropped ++ (gone ++ cache.holdings)) :=
          parts.holdings.append_left _
        List.Perm _ _ := by
          simp only [List.append_assoc]
          exact (List.perm_append_comm_assoc ..).append_left _
    simpa [CacheRun.swept, made, released, dropped, pairs_note] using moved
  · intro key value
    rw [CacheRun.swept, standing_note (by decide), ← balanced.standing]
    rcases parts.left key with ⟨absent, left⟩ | ⟨same, stays⟩
    · simp only [absent, left, not_true, and_false, reduceCtorEq]
    · simp only [same, stays, not_false_eq_true, and_true]
  · rw [CacheRun.swept, tallies.misses, balanced.misses]
    simp [made, pairs_note]
  · have counted := balanced.gets
    rwa [← tallies.hits, ← tallies.misses] at counted
  · rw [CacheRun.swept, tallies.expiries, balanced.expiries]
    simp [released, pairs_note]
  · exact tallies.clears.trans balanced.clears

theorem clear (balanced : run.Balanced gets clears) :
    (run.call .clear).Balanced gets (clears + 1) := by
  constructor
  · simpa [call, made, released, dropped, pairs_note] using balanced.split
  · intro key value
    rw [call, standing_note (by decide), ← balanced.standing, TieredCache.peek_clear,
      ← TieredCache.mem_holdings]
    simp only [reduceCtorEq, false_iff, not_and, not_not]
    exact fun held => List.mem_map_of_mem held
  · simpa [call, TieredCache.clear, made, pairs_note] using balanced.misses
  · exact balanced.gets
  · simpa [call, TieredCache.clear, released, pairs_note] using balanced.expiries
  · exact congrArg Nat.succ balanced.clears

theorem call (balanced : run.Balanced gets clears) (made : CacheCall κ β) :
    (run.call made).Balanced (gets + [made].countP CacheCall.isGet)
      (clears + [made].countP CacheCall.isClear) := by
  cases made with
  | get key now make => exact balanced.get key now make
  | peek key => exact balanced
  | expire now => exact balanced.swept (TieredCache.expire_spec now) (TieredCache.expire_tallies now)
  | maybeExpire now =>
    exact balanced.swept (TieredCache.maybeExpire_spec now) (TieredCache.maybeExpire_tallies now)
  | clear => exact balanced.clear

theorem after (balanced : run.Balanced gets clears) (history : List (CacheCall κ β)) :
    (run.after history).Balanced (gets + history.countP CacheCall.isGet)
      (clears + history.countP CacheCall.isClear) := by
  induction history generalizing run gets clears with
  | nil => exact balanced
  | cons first history ih =>
    have rest := ih (balanced.call first)
    rw [← List.singleton_append, List.countP_append, List.countP_append, ← Nat.add_assoc,
      ← Nat.add_assoc]
    exact rest

end Balanced

/-- Every value made is in one place, with the key it was made for: given back by a sweep, dropped by
a clearing, or held. A look-up answers the standing value and makes one only if there is none. -/
theorem ledger_after (windows : List Nat) (history : List (CacheCall κ β)) :
    let run := (start windows : CacheRun κ β).after history
    run.made.Perm (run.released ++ run.dropped ++ run.cache.holdings) ∧
      (∀ key value, run.cache.peek key = some value ↔ (key, value) ∈ run.cache.holdings) ∧
      (∀ key value, run.cache.peek key = some value ↔ run.log.Standing key value) ∧
      (∀ key value, run.log.Standing key value → ∀ now make,
        run.cache.getOrInsert key now make = (value, run.cache.hit key)) ∧
      (∀ key, (∀ value, ¬ run.log.Standing key value) → ∀ now make,
        run.cache.getOrInsert key now make = (make (), run.cache.place key now (make ()))) ∧
      run.cache.stats.misses = run.made.length ∧
      run.cache.stats.hits + run.cache.stats.misses = history.countP CacheCall.isGet ∧
      run.cache.stats.expiries = run.released.length ∧
      run.cache.stats.clears = history.countP CacheCall.isClear ∧
      run.cache.stats.entries = run.cache.holdings.length ∧
      (run.cache.holdings.map Prod.fst).Nodup := by
  intro run
  have balanced : run.Balanced (0 + _) (0 + _) := (balanced_start windows).after history
  simp only [Nat.zero_add] at balanced
  refine ⟨balanced.split, fun key value => TieredCache.mem_holdings.symm, balanced.standing, ?_, ?_,
    balanced.misses, balanced.gets, balanced.expiries, balanced.clears,
    run.cache.length_holdings.symm, run.cache.nodup_holdings⟩
  · intro key value standing now make
    exact TieredCache.getOrInsert_of_some ((balanced.standing key value).2 standing) now make
  · intro key fallen now make
    exact TieredCache.getOrInsert_of_none (balanced.peek_eq_none fallen) now make

def turnover : List (CacheCall Nat Nat) :=
  [.get 1 0 (· + 10), .get 2 0 (· + 10), .get 1 5 (· + 90), .expire 10, .get 2 11 (· + 20),
    .maybeExpire 12, .clear, .get 1 3 (· + 30)]

theorem ledger_after_turnover :
    let run := (start [10, 25] : CacheRun Nat Nat).after turnover
    run.made.Perm (run.released ++ run.dropped ++ run.cache.holdings) ∧
      run.cache.stats.hits + run.cache.stats.misses = 5 ∧ run.cache.stats.clears = 1 ∧
      (run.cache.getOrInsert 1 9 fun _ => 0).1 = 31 := by
  intro run
  obtain ⟨split, _, _, answers, _, _, gets, _, clears, _, _⟩ := ledger_after [10, 25] turnover
  have standing : run.log.Standing 1 31 := by
    have last : run = (((start [10, 25]).after (turnover.take 6)).call .clear).call
        (.get 1 3 (· + 30)) := rfl
    rw [last, call_get_of_none (TieredCache.peek_clear 1)]
    exact standing_made.2 (.inl ⟨rfl, rfl⟩)
  exact ⟨split, gets, clears, congrArg Prod.fst (answers 1 31 standing 9 fun _ => 0)⟩

end CacheRun

end Karst
