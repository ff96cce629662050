import Karst.Proofs.Cache.Tiered

namespace Karst.TieredCache

variable {κ β : Type} [BEq κ] [Hashable κ]

def holdings (cache : TieredCache κ β) : List (κ × β) :=
  cache.entries.toList.map fun p => (p.1, p.2.value)

@[simp] theorem holdings_ofWindows (windows : List Nat) :
    (ofWindows windows : TieredCache κ β).holdings = [] := by
  cases windows <;> simp [ofWindows, holdings]

@[simp] theorem holdings_clear (cache : TieredCache κ β) : cache.clear.holdings = [] := by
  simp [clear, holdings]

variable [LawfulBEq κ] {cache after : TieredCache κ β} {key : κ} {value : β}

theorem mem_holdings : (key, value) ∈ cache.holdings ↔ cache.peek key = some value := by
  simp [holdings, peek, Std.HashMap.mem_toList_iff_getElem?_eq_some]

theorem exists_peek (held : key ∈ cache.entries) : ∃ value, cache.peek key = some value :=
  ⟨_, congrArg (Option.map Cached.value) (Std.HashMap.getElem?_eq_some_getElem held)⟩

theorem nodup_holdings (cache : TieredCache κ β) : (cache.holdings.map Prod.fst).Nodup := by
  rw [holdings, List.map_map]
  apply List.pairwise_map.2
  apply cache.entries.distinct_keys_toList.imp
  intro a b distinct
  exact ne_of_beq_false distinct

theorem holdings_perm {list : List (κ × β)} (nodup : (list.map Prod.fst).Nodup)
    (agrees : ∀ key value, (key, value) ∈ list ↔ cache.peek key = some value) :
    cache.holdings.Perm list := by
  apply (List.perm_ext_iff_of_nodup (cache.nodup_holdings.of_map _) (nodup.of_map _)).2
  intro p
  rw [agrees, mem_holdings]

theorem holdings_hit (key : κ) : (cache.hit key).holdings.Perm cache.holdings := by
  apply holdings_perm cache.nodup_holdings
  intro other value
  rw [mem_holdings, peek_hit]

theorem holdings_place (vacant : cache.peek key = none) (now : Instant) (value : β) :
    (cache.place key now value).holdings.Perm ((key, value) :: cache.holdings) := by
  apply holdings_perm
  · rw [List.map_cons, List.nodup_cons]
    constructor
    · intro member
      obtain ⟨⟨other, held⟩, there, same⟩ := List.mem_map.1 member
      cases same
      rw [mem_holdings, vacant] at there
      cases there
    · exact cache.nodup_holdings
  · intro other held
    rw [List.mem_cons, mem_holdings, Prod.mk.injEq]
    by_cases here : other = key
    · subst here
      simp [vacant, eq_comm]
    · simp [here, peek_place_of_ne here]

theorem Swept.holdings {gone : List (κ × β)} (swept : Swept cache after gone) :
    cache.holdings.Perm (gone ++ after.holdings) := by
  apply holdings_perm
  · rw [List.map_append, List.nodup_append]
    refine ⟨swept.nodup, after.nodup_holdings, ?_⟩
    intro key left other stays same
    subst same
    obtain ⟨⟨other, value⟩, held, rfl⟩ := List.mem_map.1 stays
    rw [mem_holdings] at held
    rcases swept.left other with ⟨absent, _⟩ | ⟨_, away⟩
    · rw [absent] at held
      cases held
    · exact away left
  · intro key value
    rw [List.mem_append, mem_holdings]
    constructor
    · intro member
      rcases member with left | stays
      · exact swept.held _ left
      · exact swept.peek_eq stays
    · intro held
      rcases swept.left key with ⟨_, left⟩ | ⟨same, _⟩
      · obtain ⟨⟨other, last⟩, member, rfl⟩ := List.mem_map.1 left
        have there := swept.held _ member
        rw [held] at there
        cases there
        exact .inl member
      · exact .inr (same.trans held)

end Karst.TieredCache
