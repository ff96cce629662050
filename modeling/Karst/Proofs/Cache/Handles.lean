import Karst.Proofs.Cache.Arena

namespace Karst

variable {α : Type}

def Recyclable.IsEmpty [Recyclable α] (value : α) : Prop :=
  value = fresh ∨ ∃ used, value = recycle used

inductive ArenaCall (α : Type) where
  | alloc
  | modify (h : Handle) (f : α → α)
  | release (h : Handle)
  | clear

/-- What a handle stands for after a call, if it stood for `held` before. -/
def ArenaCall.onto (h : Handle) (held : Option α) : ArenaCall α → Option α
  | .alloc => held
  | .modify g f => if g = h then held.map f else held
  | .release g => if g = h then none else held
  | .clear => none

/-- An arena with a record of its run: the handles it gave out, those of them since it was last
cleared, and how many values were dropped by clearing. -/
structure ArenaRun (α : Type) where
  arena : Arena α := {}
  issued : List Handle := []
  recent : List Handle := []
  dropped : Nat := 0

namespace ArenaRun

variable [Recyclable α]

def call (run : ArenaRun α) : ArenaCall α → ArenaRun α
  | .alloc =>
      { run with
        arena := run.arena.alloc.2
        issued := run.issued ++ [run.arena.alloc.1]
        recent := run.recent ++ [run.arena.alloc.1] }
  | .modify h f => { run with arena := run.arena.modify h f }
  | .release h => { run with arena := (run.arena.release h).2 }
  | .clear =>
      { run with
        arena := run.arena.clear
        recent := []
        dropped := run.dropped + run.arena.live }

def after (run : ArenaRun α) (history : List (ArenaCall α)) : ArenaRun α := history.foldl call run

end ArenaRun

namespace Arena

variable {arena : Arena α} {spent : α → Prop} {g h : Handle}

theorem slots_modify (arena : Arena α) (h : Handle) (f : α → α) (i : Nat) :
    (arena.modify h f).slots[i]? = arena.slots[i]?.map fun slot =>
      if h.index = i ∧ Slot.answers slot h then { slot with value := f slot.value } else slot := by
  obtain ⟨slots, free, nextGeneration, allocated, recycled⟩ := arena
  simp only [modify, Array.getElem?_modify]
  by_cases here : h.index = i
  · simp only [here, if_true, true_and]
    cases slots[i]? <;> rfl
  · simp [here]

theorem get?_modify (arena : Arena α) (g h : Handle) (f : α → α) :
    (arena.modify h f).get? g = if h = g then (arena.get? g).map f else arena.get? g := by
  unfold get?
  rw [slots_modify]
  cases arena.slots[g.index]? with
  | none => simp
  | some slot =>
    cases slot
    cases g
    cases h
    simp only [Slot.answers, Option.map_some, Handle.mk.injEq, Bool.and_eq_true, beq_iff_eq]
    grind

theorem Tidy.modify (tidy : arena.Tidy spent) (h : Handle) (f : α → α) :
    (arena.modify h f).Tidy spent := by
  have free : (arena.modify h f).free = arena.free := rfl
  constructor
  · exact tidy.nodup
  · intro i
    rw [free, tidy.mem_free, slots_modify]
    cases arena.slots[i]? with
    | none => simp
    | some slot =>
      simp only [Option.map_some]
      grind
  · intro i slot found off
    rw [slots_modify] at found
    cases held : arena.slots[i]? with
    | none => simp [held] at found
    | some old =>
      have spent := tidy.spent i old held
      simp only [held, Option.map_some, Option.some.injEq] at found
      grind [Slot.answers]

theorem Tidy.live_add_free (tidy : arena.Tidy spent) :
    arena.live + arena.free.length = arena.slots.size := by
  have bounded : arena.free ⊆ List.range arena.slots.size := by
    intro i member
    obtain ⟨slot, found, _⟩ := (tidy.mem_free i).1 member
    exact List.mem_range.2 (Array.getElem?_eq_some_iff.1 found).1
  have fewer := (tidy.nodup.subperm bounded).length_le
  rw [List.length_range] at fewer
  unfold live
  omega

section release

variable [Recyclable α]

theorem fst_release (arena : Arena α) (h : Handle) : (arena.release h).1 = arena.contains h := by
  cases held : arena.contains h <;> simp [release, held]

theorem release_stale (stale : arena.contains h = false) : (arena.release h).2 = arena := by
  simp [release, stale]

theorem slots_release (held : arena.contains h) (i : Nat) :
    (arena.release h).2.slots[i]? = if h.index = i then
      arena.slots[i]?.map fun slot => ⟨Recyclable.recycle slot.value, slot.generation, false⟩
    else arena.slots[i]? := by
  simp only [release, held, if_true, Array.getElem?_modify]

theorem get?_release (arena : Arena α) (g h : Handle) :
    (arena.release h).2.get? g = if h = g then none else arena.get? g := by
  cases held : arena.contains h with
  | false =>
    rw [release_stale held]
    split
    case isTrue same =>
      subst same
      simpa [contains] using held
    case isFalse => rfl
  | true =>
    by_cases here : h.index = g.index
    · have dead : (arena.release h).2.get? g = none := by
        simp only [get?, slots_release held, here, if_true]
        cases arena.slots[g.index]? <;> simp [Slot.answers]
      rw [dead]
      split
      case isTrue => rfl
      case isFalse other =>
        obtain ⟨value, found⟩ := Option.isSome_iff_exists.1 held
        exact (get?_eq_none_of_held found here.symm (Ne.symm other)).symm
    · rw [if_neg (fun same => here (congrArg Handle.index same))]
      apply get?_congr
      rw [slots_release held, if_neg here]

theorem Tidy.release {h : Handle} (tidy : arena.Tidy Recyclable.IsEmpty) :
    (arena.release h).2.Tidy Recyclable.IsEmpty := by
  cases held : arena.contains h with
  | false =>
    rw [release_stale held]
    exact tidy
  | true =>
    obtain ⟨value, found⟩ := Option.isSome_iff_exists.1 held
    exact (release_spec tidy found (.inr ⟨value, rfl⟩)).2.2

theorem release_counts (held : arena.contains h) :
    (arena.release h).2.free = h.index :: arena.free ∧
      (arena.release h).2.slots.size = arena.slots.size ∧
      (arena.release h).2.recycled = arena.recycled + 1 := by
  simp [release, held]

theorem release_keeps (arena : Arena α) (h : Handle) :
    (arena.release h).2.nextGeneration = arena.nextGeneration ∧
      (arena.release h).2.allocated = arena.allocated ∧
      (arena.release h).2.slots.size = arena.slots.size := by
  cases held : arena.contains h <;> simp [release, held]

end release

section alloc

variable [Recyclable α]

theorem get?_alloc_of_ne (allocated : arena.Allocated spent) (other : g ≠ arena.alloc.1) :
    arena.alloc.2.get? g = arena.get? g := by
  by_cases same : g.index = arena.alloc.1.index
  · obtain ⟨value, _, held⟩ := allocated.held
    rw [get?_eq_none_of_held held same other]
    cases found : arena.get? g with
    | none => rfl
    | some value => exact (allocated.dead (same ▸ isLive_of_get? found)).elim
  · exact get?_congr (allocated.others _ same)

theorem alloc_counts (arena : Arena α) : arena.alloc.1.generation = arena.nextGeneration ∧
    arena.alloc.2.nextGeneration = following arena.nextGeneration ∧
      arena.alloc.2.allocated = arena.allocated + 1 ∧ arena.alloc.2.recycled = arena.recycled := by
  obtain ⟨slots, free, nextGeneration, allocated, recycled⟩ := arena
  cases free <;> exact ⟨rfl, rfl, rfl, rfl⟩

theorem lt_size_alloc (tidy : arena.Tidy spent) (i : Nat) :
    i < arena.alloc.2.slots.size ↔ i < arena.slots.size ∨ i = arena.alloc.1.index := by
  cases free : arena.free with
  | nil =>
    obtain ⟨index, _, slots⟩ := alloc_new free
    rw [index, slots, Array.size_push]
    omega
  | cons first others =>
    obtain ⟨index, _, slots⟩ := alloc_recycled free
    obtain ⟨slot, found, _⟩ := (tidy.mem_free first).1 (by simp [free])
    have bound := (Array.getElem?_eq_some_iff.1 found).1
    rw [index, slots, Array.size_modify]
    omega

theorem live_alloc (tidy : arena.Tidy spent) (allocated : arena.Allocated spent) :
    arena.alloc.2.live = arena.live + 1 := by
  have before := tidy.live_add_free
  have after := allocated.tidy.live_add_free
  cases free : arena.free with
  | nil =>
    obtain ⟨_, rest, slots⟩ := alloc_new free
    simp only [free, rest, slots, Array.size_push, List.length_nil] at before after
    omega
  | cons first others =>
    obtain ⟨_, rest, slots⟩ := alloc_recycled free
    simp only [free, rest, slots, Array.size_modify, List.length_cons] at before after
    omega

theorem toNat_following (generation : UInt32) :
    (following generation).toNat = max ((generation.toNat + 1) % 2 ^ 32) 1 := by
  simp [following, UInt32.toNat_max, UInt32.toNat_add]

def Numbered (arena : Arena α) : Prop :=
  arena.nextGeneration.toNat = arena.allocated % (2 ^ 32 - 1) + 1

theorem Numbered.alloc (numbered : arena.Numbered) : arena.alloc.2.Numbered := by
  obtain ⟨_, next, allocated, _⟩ := arena.alloc_counts
  unfold Numbered at numbered ⊢
  rw [next, allocated, toNat_following, numbered]
  omega

end alloc

end Arena

namespace ArenaRun

variable [Recyclable α] {run : ArenaRun α} {h : Handle}

structure Sound (run : ArenaRun α) : Prop where
  tidy : run.arena.Tidy Recyclable.IsEmpty
  numbered : run.arena.Numbered
  counted : run.arena.allocated = run.issued.length
  generations : ∀ k h, run.issued[k]? = some h → h.generation.toNat = k % (2 ^ 32 - 1) + 1
  recent : run.recent <:+ run.issued
  known : ∀ h, run.arena.contains h → h ∈ run.recent
  indices : ∀ i, i < run.arena.slots.size ↔ ∃ h ∈ run.recent, h.index = i
  balance : run.arena.allocated = run.arena.recycled + run.arena.live + run.dropped

theorem sound_start : ({} : ArenaRun α).Sound := by
  constructor
  · exact Arena.tidy_empty
  all_goals simp [Arena.Numbered, Arena.contains, Arena.get?, Arena.live]

namespace Sound

theorem alloc (sound : run.Sound) : (run.call .alloc).Sound := by
  have allocated := Arena.alloc_spec sound.tidy (.inl rfl)
  obtain ⟨generation, _, counted, recycled⟩ := run.arena.alloc_counts
  constructor
  · exact allocated.tidy
  · exact sound.numbered.alloc
  · simp [call, counted, sound.counted]
  · intro k h found
    rw [call, List.getElem?_append] at found
    split at found
    case isTrue => exact sound.generations k h found
    case isFalse old =>
      have last : k = run.issued.length := by
        have bound := (List.getElem?_eq_some_iff.1 found).1
        simp at bound
        omega
      simp [last] at found
      rw [← found, generation, sound.numbered, sound.counted, last]
  · obtain ⟨early, whole⟩ := sound.recent
    exact ⟨early, by simp [call, ← whole]⟩
  · intro h held
    simp only [call, List.mem_append, List.mem_singleton] at held ⊢
    by_cases same : h = run.arena.alloc.1
    · exact .inr same
    · rw [Arena.contains, Arena.get?_alloc_of_ne allocated same] at held
      exact .inl (sound.known h held)
  · intro i
    simp only [call, List.mem_append, List.mem_singleton, Arena.lt_size_alloc sound.tidy,
      sound.indices]
    grind
  · simp only [call, counted, recycled, Arena.live_alloc sound.tidy allocated]
    have balance := sound.balance
    omega

theorem modify (sound : run.Sound) (h : Handle) (f : α → α) : (run.call (.modify h f)).Sound := by
  have size : (run.arena.modify h f).slots.size = run.arena.slots.size := by
    simp [Arena.modify]
  constructor
  · exact sound.tidy.modify h f
  · exact sound.numbered
  · exact sound.counted
  · exact sound.generations
  · exact sound.recent
  · intro g held
    simp only [call, Arena.contains, Arena.get?_modify] at held
    apply sound.known
    split at held
    case isTrue => simpa [Arena.contains] using held
    case isFalse => exact held
  · simpa [call, size] using sound.indices
  · have live : (run.arena.modify h f).live = run.arena.live := by
      rw [Arena.live, size]
      rfl
    simp only [call, live]
    exact sound.balance

theorem release (sound : run.Sound) (h : Handle) : (run.call (.release h)).Sound := by
  obtain ⟨next, allocated, size⟩ := run.arena.release_keeps h
  constructor
  · exact sound.tidy.release
  · unfold Arena.Numbered
    simp only [call, next, allocated]
    exact sound.numbered
  · simp only [call, allocated]
    exact sound.counted
  · exact sound.generations
  · exact sound.recent
  · intro g held
    simp only [call, Arena.contains, Arena.get?_release] at held
    apply sound.known
    split at held
    case isTrue => cases held
    case isFalse => exact held
  · simpa [call, size] using sound.indices
  · have balance := sound.balance
    have before := sound.tidy.live_add_free
    have after := (sound.tidy.release (h := h)).live_add_free
    simp only [call, allocated]
    cases held : run.arena.contains h with
    | false =>
      rw [Arena.release_stale held]
      exact balance
    | true =>
      obtain ⟨free, _, recycled⟩ := Arena.release_counts held
      rw [free, size, List.length_cons] at after
      omega

theorem clear (sound : run.Sound) : (run.call .clear).Sound := by
  constructor
  · exact Arena.tidy_clear _
  · exact sound.numbered
  · exact sound.counted
  · exact sound.generations
  · exact List.nil_suffix
  · intro h held
    simp [call, Arena.clear, Arena.contains, Arena.get?] at held
  · simp [call, Arena.clear]
  · have balance := sound.balance
    have none_live : run.arena.clear.live = 0 := Nat.zero_sub _
    simp only [call, none_live]
    change run.arena.allocated = run.arena.recycled + 0 + (run.dropped + run.arena.live)
    omega

theorem call (sound : run.Sound) (c : ArenaCall α) : (run.call c).Sound := by
  cases c with
  | alloc => exact sound.alloc
  | modify h f => exact sound.modify h f
  | release h => exact sound.release h
  | clear => exact sound.clear

theorem after (sound : run.Sound) (history : List (ArenaCall α)) : (run.after history).Sound := by
  induction history generalizing run with
  | nil => exact sound
  | cons c history ih => exact ih (sound.call c)

theorem nodup_issued (sound : run.Sound) (few : run.issued.length ≤ 2 ^ 32 - 1) :
    run.issued.Nodup := by
  rw [List.nodup_iff_getElem?_ne_getElem?]
  intro i j before bound same
  have earlier : i < run.issued.length := Nat.lt_trans before bound
  rw [List.getElem?_eq_getElem earlier, List.getElem?_eq_getElem bound, Option.some.injEq] at same
  have first := sound.generations i _ (List.getElem?_eq_getElem earlier)
  have second := sound.generations j _ (List.getElem?_eq_getElem bound)
  rw [same, second] at first
  omega

theorem get?_call (sound : run.Sound) (c : ArenaCall α) (issued : h ∈ run.issued)
    (few : (run.call c).issued.length ≤ 2 ^ 32 - 1) :
    (run.call c).arena.get? h = c.onto h (run.arena.get? h) := by
  cases c with
  | alloc =>
    have distinct := sound.alloc.nodup_issued few
    rw [ArenaRun.call, List.nodup_append] at distinct
    apply Arena.get?_alloc_of_ne (Arena.alloc_spec sound.tidy (.inl rfl))
    exact distinct.2.2 h issued _ (List.mem_singleton_self _)
  | modify g f => exact Arena.get?_modify ..
  | release g => exact Arena.get?_release ..
  | clear => simp [ArenaRun.call, ArenaCall.onto, Arena.clear, Arena.get?]

end Sound

theorem issued_after (run : ArenaRun α) (history : List (ArenaCall α)) :
    run.issued <+: (run.after history).issued := by
  induction history generalizing run with
  | nil => exact List.prefix_rfl
  | cons c history ih =>
    have step : run.issued <+: (run.call c).issued := by
      cases c <;> simp [call]
    exact step.trans (ih _)

theorem Sound.get?_after (sound : run.Sound) (issued : h ∈ run.issued)
    {history : List (ArenaCall α)} (few : (run.after history).issued.length ≤ 2 ^ 32 - 1) :
    (run.after history).arena.get? h = history.foldl (ArenaCall.onto h) (run.arena.get? h) := by
  induction history generalizing run with
  | nil => rfl
  | cons c history ih =>
    have step : run.issued <+: (run.call c).issued := run.issued_after [c]
    have short := ((run.call c).issued_after history).length_le
    have first := sound.get?_call c issued (short.trans few)
    rw [List.foldl_cons, ← first]
    exact ih (sound.call c) (step.subset issued) few

end ArenaRun

theorem ArenaCall.isSome_foldl_onto (h : Handle) (held : Option α) (history : List (ArenaCall α)) :
    (history.foldl (ArenaCall.onto h) held).isSome ↔
      held.isSome ∧ .clear ∉ history ∧ .release h ∉ history := by
  induction history generalizing held with
  | nil => simp
  | cons c history ih =>
    rw [List.foldl_cons, ih]
    cases c with
    | alloc => simp [onto]
    | modify g f => by_cases same : g = h <;> simp [onto, same]
    | release g =>
      by_cases same : g = h
      · simp [onto, same]
      · simp [onto, same, Ne.symm same]
    | clear => simp [onto]

namespace ArenaRun

variable [Recyclable α] {run : ArenaRun α}

theorem Sound.live_eq (sound : run.Sound) (few : run.issued.length ≤ 2 ^ 32 - 1) :
    run.arena.live = (run.issued.filter fun h => run.arena.contains h).length := by
  have apart : ((run.issued.filter fun h => run.arena.contains h).map Handle.index).Nodup := by
    apply List.Nodup.map_on
    · intro g first h second same
      simp only [List.mem_filter] at first second
      obtain ⟨value, held⟩ := Option.isSome_iff_exists.1 second.2
      by_contra other
      have none_held := Arena.get?_eq_none_of_held held same other
      simp [Arena.contains, none_held] at first
    · exact (sound.nodup_issued few).filter _
  have covers (i : Nat) : i ∈ (run.issued.filter fun h => run.arena.contains h).map Handle.index ↔
      run.arena.IsLive i := by
    simp only [List.mem_map, List.mem_filter]
    constructor
    · rintro ⟨h, ⟨_, held⟩, rfl⟩
      obtain ⟨value, found⟩ := Option.isSome_iff_exists.1 held
      exact Arena.isLive_of_get? found
    · rintro ⟨⟨value, generation, live⟩, found, rfl⟩
      have held : run.arena.contains ⟨i, generation⟩ := by
        rw [Arena.contains, Arena.get?_eq_some_iff.2 found]
        rfl
      exact ⟨_, ⟨sound.recent.subset (sound.known _ held), held⟩, rfl⟩
  rw [sound.tidy.live_eq apart covers, List.length_map]

theorem Sound.slots_eq (sound : run.Sound) :
    run.arena.slots.size = (run.recent.map Handle.index).toFinset.card := by
  have same : (run.recent.map Handle.index).toFinset = Finset.range run.arena.slots.size := by
    ext i
    simp [sound.indices]
  rw [same, Finset.card_range]

theorem traced (before later : List (ArenaCall α))
    (few : (({} : ArenaRun α).after (before ++ .alloc :: later)).issued.length ≤ 2 ^ 32 - 1) :
    let run := ({} : ArenaRun α).after (before ++ .alloc :: later)
    let arena := (({} : ArenaRun α).after before).arena
    ∃ value, Recyclable.IsEmpty value ∧ arena.alloc.2.get? arena.alloc.1 = some value ∧
      run.arena.get? arena.alloc.1 = later.foldl (ArenaCall.onto arena.alloc.1) (some value) ∧
      (run.arena.contains arena.alloc.1 ↔ .clear ∉ later ∧ .release arena.alloc.1 ∉ later) := by
  intro run arena
  have earlier := (sound_start (α := α)).after before
  obtain ⟨value, empty, held⟩ := (Arena.alloc_spec earlier.tidy (.inl rfl)).held
  have resumed : run = ((({} : ArenaRun α).after before).call .alloc).after later := by
    simp [run, after]
  have short : ((({} : ArenaRun α).after before).call .alloc |>.after later).issued.length ≤
      2 ^ 32 - 1 := by
    rw [← resumed]
    exact few
  have followed := earlier.alloc.get?_after (List.mem_append_right _ (List.mem_singleton_self _))
    short
  rw [← resumed, call, held] at followed
  refine ⟨value, empty, held, followed, ?_⟩
  rw [Arena.contains, followed, ArenaCall.isSome_foldl_onto]
  simp [arena]

theorem handles_after (history : List (ArenaCall α))
    (few : (({} : ArenaRun α).after history).issued.length ≤ 2 ^ 32 - 1) :
    let run := ({} : ArenaRun α).after history
    run.issued.Nodup ∧ (∀ h, run.arena.contains h → h ∈ run.issued) ∧
      (∀ before later, history = before ++ .alloc :: later →
        let arena := (({} : ArenaRun α).after before).arena
        ∃ value, Recyclable.IsEmpty value ∧ arena.alloc.2.get? arena.alloc.1 = some value ∧
          run.arena.get? arena.alloc.1 =
            later.foldl (ArenaCall.onto arena.alloc.1) (some value) ∧
          (run.arena.contains arena.alloc.1 ↔ .clear ∉ later ∧ .release arena.alloc.1 ∉ later)) ∧
      (∀ h, (run.arena.release h).1 = run.arena.contains h ∧
        (run.arena.release h).2.contains h = false ∧
          ∀ g, g ≠ h → (run.arena.release h).2.get? g = run.arena.get? g) ∧
      run.arena.stats.live = (run.issued.filter fun h => run.arena.contains h).length ∧
      run.arena.stats.live + run.arena.stats.free = (run.recent.map Handle.index).toFinset.card ∧
      run.arena.stats.allocated = run.arena.stats.recycled + run.arena.stats.live + run.dropped := by
  intro run
  have sound : run.Sound := sound_start.after history
  constructor
  · exact sound.nodup_issued few
  constructor
  · intro h held
    exact sound.recent.subset (sound.known h held)
  constructor
  · intro before later same
    subst same
    exact traced before later few
  constructor
  · intro h
    refine ⟨Arena.fst_release .., ?_, ?_⟩
    · simp [Arena.contains, Arena.get?_release]
    · intro g other
      rw [Arena.get?_release, if_neg (Ne.symm other)]
  constructor
  · exact sound.live_eq few
  constructor
  · rw [← sound.slots_eq]
    exact sound.tidy.live_add_free
  · exact sound.balance

def reuse : List (ArenaCall (List Nat)) :=
  [.alloc, .modify ⟨0, 1⟩ (5 :: ·), .release ⟨0, 1⟩, .alloc, .modify ⟨0, 1⟩ (6 :: ·),
    .modify ⟨0, 2⟩ (7 :: ·)]

theorem handles_after_reuse : (({} : ArenaRun (List Nat)).after reuse).issued.length ≤ 2 ^ 32 - 1 ∧
    (({} : ArenaRun (List Nat)).after reuse).issued = [⟨0, 1⟩, ⟨0, 2⟩] ∧
      ¬ (({} : ArenaRun (List Nat)).after reuse).arena.contains ⟨0, 1⟩ ∧
      (({} : ArenaRun (List Nat)).after reuse).arena.get? ⟨0, 2⟩ = some [7] := by
  have few : (({} : ArenaRun (List Nat)).after reuse).issued.length ≤ 2 ^ 32 - 1 := by decide
  obtain ⟨_, _, traced, _⟩ := handles_after reuse few
  obtain ⟨_, _, _, _, resolves⟩ := traced [] _ rfl
  obtain ⟨value, _, held, followed, _⟩ := traced (reuse.take 3) _ rfl
  refine ⟨few, by decide, ?_, ?_⟩
  · intro held
    exact (resolves.1 held).2 (by simp [Arena.alloc, after])
  · obtain rfl : [] = value := Option.some.inj held
    exact followed

end ArenaRun

end Karst
