import Mathlib
import Karst.Fault

namespace Karst.Guarded

variable {α β γ δ ι : Type}

theorem bind_eq_ok_iff {x : Guarded α} {f : α → Guarded β} {b : β} :
    x >>= f = .ok b ↔ ∃ a, x = .ok a ∧ f a = .ok b := by
  cases x <;> simp [bind, Except.bind]

theorem map_eq_ok_iff {x : Guarded α} {f : α → β} {b : β} :
    x.map f = .ok b ↔ ∃ a, x = .ok a ∧ f a = b := by
  cases x <;> simp [Except.map]

@[simp] theorem ok_bind (a : α) (f : α → Guarded β) : (Except.ok a : Guarded α) >>= f = f a := rfl

@[simp] theorem pure_eq (a : α) : (pure a : Guarded α) = .ok a := rfl

/-- Both computations fail with one fault, or both succeed with results that `R` relates. -/
inductive Alike (R : α → β → Prop) : Guarded α → Guarded β → Prop
  | ok {a b} (related : R a b) : Alike R (.ok a) (.ok b)
  | error (fault : Fault) : Alike R (.error fault) (.error fault)

theorem Alike.of_eq {x y : Guarded α} (same : x = y) : Alike Eq x y := by
  subst same
  cases x with
  | ok a => exact .ok rfl
  | error fault => exact .error fault

theorem Alike.bind {R : α → β → Prop} {S : γ → δ → Prop} {x : Guarded α} {y : Guarded β}
    {f : α → Guarded γ} {g : β → Guarded δ} (alike : Alike R x y)
    (next : ∀ a b, R a b → Alike S (f a) (g b)) : Alike S (x >>= f) (y >>= g) := by
  cases alike with
  | ok related => exact next _ _ related
  | error fault => exact .error fault

theorem Alike.reached {R : α → β → Prop} {x : Guarded α} {y : Guarded β} (alike : Alike R x y) :
    Alike (fun a b => R a b ∧ x = .ok a ∧ y = .ok b) x y := by
  cases alike with
  | ok related => exact .ok ⟨related, rfl, rfl⟩
  | error fault => exact .error fault

theorem Alike.map_left {R : α → β → Prop} {S : γ → β → Prop} {x : Guarded α} {y : Guarded β}
    {f : α → Guarded γ} (alike : Alike R x y) (next : ∀ a b, R a b → ∃ c, f a = .ok c ∧ S c b) :
    Alike S (x >>= f) y := by
  cases alike with
  | ok related =>
    obtain ⟨c, done, after⟩ := next _ _ related
    rw [ok_bind, done]
    exact .ok after
  | error fault => exact .error fault

theorem Alike.mono {R S : α → β → Prop} {x : Guarded α} {y : Guarded β} (alike : Alike R x y)
    (weaker : ∀ a b, R a b → S a b) : Alike S x y := by
  cases alike with
  | ok related => exact .ok (weaker _ _ related)
  | error fault => exact .error fault

theorem Alike.map_eq {R : α → β → Prop} {x : Guarded α} {y : Guarded β} (alike : Alike R x y)
    (f : α → γ) (g : β → γ) (same : ∀ a b, R a b → f a = g b) : x.map f = y.map g := by
  cases alike with
  | ok related => exact congrArg Except.ok (same _ _ related)
  | error fault => rfl

theorem Alike.trans {R : α → β → Prop} {S : β → γ → Prop} {x : Guarded α} {y : Guarded β}
    {z : Guarded γ} (first : Alike R x y) (second : Alike S y z) :
    Alike (fun a c => ∃ b, R a b ∧ S b c) x z := by
  cases first with
  | ok related =>
    cases second with
    | ok next => exact .ok ⟨_, related, next⟩
  | error fault =>
    cases second with
    | error => exact .error fault

theorem Alike.symm {R : α → β → Prop} {x : Guarded α} {y : Guarded β} (alike : Alike R x y) :
    Alike (fun b a => R a b) y x := by
  cases alike with
  | ok related => exact .ok related
  | error fault => exact .error fault

theorem Alike.map_right {R : α → β → Prop} {S : α → δ → Prop} {x : Guarded α} {y : Guarded β}
    {g : β → Guarded δ} (alike : Alike R x y) (next : ∀ a b, R a b → ∃ d, g b = .ok d ∧ S a d) :
    Alike S x (y >>= g) :=
  (alike.symm.map_left (S := fun d a => S a d) fun b a => next a b).symm

theorem Alike.exists_right {R : α → β → Prop} {x : Guarded α} {y : Guarded β} {a : α}
    (alike : Alike R x y) (done : x = .ok a) : ∃ b, y = .ok b ∧ R a b := by
  subst done
  cases alike with
  | ok related => exact ⟨_, rfl, related⟩

theorem Alike.exists_left {R : α → β → Prop} {x : Guarded α} {y : Guarded β} {b : β}
    (alike : Alike R x y) (done : y = .ok b) : ∃ a, x = .ok a ∧ R a b :=
  alike.symm.exists_right done

theorem Alike.foldlM {R : α → β → Prop} {f : α → ι → Guarded α} {g : β → ι → Guarded β}
    {items : List ι} {a : α} {b : β} (start : R a b)
    (step : ∀ item ∈ items, ∀ a b, R a b → Alike R (f a item) (g b item)) :
    Alike R (items.foldlM f a) (items.foldlM g b) := by
  induction items generalizing a b with
  | nil => exact .ok start
  | cons item items ih =>
    rw [List.foldlM_cons, List.foldlM_cons]
    refine (step item (List.mem_cons_self ..) a b start).bind ?_
    intro a b related
    exact ih related fun item member => step item (List.mem_cons_of_mem _ member)

theorem Alike.foldlM_range {R : Nat → α → β → Prop} {f : α → Nat → Guarded α}
    {g : β → Nat → Guarded β} {n : Nat} {a : α} {b : β} (start : R 0 a b)
    (step : ∀ i < n, ∀ a b, R i a b → Alike (R (i + 1)) (f a i) (g b i)) :
    Alike (R n) ((List.range n).foldlM f a) ((List.range n).foldlM g b) := by
  induction n with
  | zero => exact .ok start
  | succ n ih =>
    rw [List.range_succ, List.foldlM_append, List.foldlM_append]
    refine (ih fun i below => step i (by omega)).bind ?_
    intro a b related
    simpa only [List.foldlM_cons, List.foldlM_nil, bind_pure] using step n (by omega) a b related

theorem mapM_list_eq_ok {f : α → Guarded β} {g : α → β} {items : List α}
    (each : ∀ a ∈ items, f a = .ok (g a)) : items.mapM f = .ok (items.map g) := by
  induction items with
  | nil => rfl
  | cons a items ih =>
    rw [List.forall_mem_cons] at each
    rw [List.mapM_cons, each.1, ih each.2]
    rfl

theorem foldlM_invariant {P : α → Prop} {f : α → ι → Guarded α} {items : List ι} {a b : α}
    (run : items.foldlM f a = .ok b) (start : P a)
    (step : ∀ item ∈ items, ∀ a b, P a → f a item = .ok b → P b) : P b := by
  induction items generalizing a with
  | nil =>
    cases run
    exact start
  | cons item items ih =>
    rw [List.foldlM_cons, bind_eq_ok_iff] at run
    obtain ⟨next, first, run⟩ := run
    exact ih run (step item (List.mem_cons_self ..) _ _ start first)
      fun item member => step item (List.mem_cons_of_mem _ member)

theorem exists_step_of_foldlM {f : α → ι → Guarded α} {items : List ι} {a b : α}
    (run : items.foldlM f a = .ok b) : ∀ item ∈ items, ∃ a b, f a item = .ok b := by
  induction items generalizing a with
  | nil => simp
  | cons first items ih =>
    rw [List.foldlM_cons, bind_eq_ok_iff] at run
    obtain ⟨next, done, run⟩ := run
    intro item member
    rcases List.mem_cons.1 member with rfl | later
    · exact ⟨a, next, done⟩
    · exact ih run item later

theorem foldlM_congr {f g : α → ι → Guarded α} {items : List ι}
    (same : ∀ item ∈ items, ∀ a, f a item = g a item) (a : α) :
    items.foldlM f a = items.foldlM g a := by
  induction items generalizing a with
  | nil => rfl
  | cons item items ih =>
    rw [List.foldlM_cons, List.foldlM_cons, same item List.mem_cons_self]
    exact congrArg _ (funext (ih fun other member => same other (List.mem_cons_of_mem _ member)))

theorem foldlM_filter {f : α → ι → Guarded α} {items : List ι} {keep : ι → Bool}
    (idle : ∀ item ∈ items, keep item = false → ∀ a, f a item = .ok a) (a : α) :
    (items.filter keep).foldlM f a = items.foldlM f a := by
  induction items generalizing a with
  | nil => rfl
  | cons item items ih =>
    have rest := ih fun other member => idle other (List.mem_cons_of_mem _ member)
    rw [List.filter_cons, List.foldlM_cons]
    cases kept : keep item with
    | true =>
      rw [if_pos rfl, List.foldlM_cons]
      exact congrArg _ (funext rest)
    | false =>
      rw [idle item (List.mem_cons_self ..) kept, ok_bind, ← rest]
      rfl

theorem exists_foldlM {P : α → Prop} {f : α → ι → Guarded α} {items : List ι} {a : α} (start : P a)
    (step : ∀ item ∈ items, ∀ a, P a → ∃ b, f a item = .ok b ∧ P b) :
    ∃ b, items.foldlM f a = .ok b ∧ P b := by
  induction items generalizing a with
  | nil => exact ⟨a, rfl, start⟩
  | cons item items ih =>
    obtain ⟨b, first, kept⟩ := step item (List.mem_cons_self ..) a start
    rw [List.foldlM_cons, first]
    exact ih kept fun item member => step item (List.mem_cons_of_mem _ member)

def editAt (items : List α) (k : Nat) (change : α → Guarded α) : Guarded (List α) :=
  match items[k]? with
  | some a => do return items.set k (← change a)
  | none => return items

theorem exists_editAt {P : α → Prop} {items : List α} (kept : ∀ a ∈ items, P a) (k : Nat)
    {change : α → Guarded α} (changes : ∀ a, P a → ∃ next, change a = .ok next ∧ P next) :
    ∃ next, editAt items k change = .ok next ∧ ∀ a ∈ next, P a := by
  unfold editAt
  cases found : items[k]? with
  | none => exact ⟨items, rfl, kept⟩
  | some a =>
    obtain ⟨next, done, keeps⟩ := changes a (kept a (List.mem_of_getElem? found))
    refine ⟨items.set k next, by simp only [done, ok_bind, pure_eq], ?_⟩
    intro other member
    rcases List.mem_or_eq_of_mem_set member with old | rfl
    · exact kept other old
    · exact keeps

end Karst.Guarded
