import Karst.Block
import Karst.Proofs.Keyed
import Karst.Proofs.Text.Decimal
import Mathlib.Data.List.TakeDrop
import Mathlib.Data.List.TakeWhile

namespace Karst.Block

/-! ## The catalogue -/

theorem ne_colon_of_mem {name : String} {id : UInt16} (h : (name, id) ∈ catalogue) :
    ∀ c ∈ name.toList, (c != ':') = true := by
  have plain : ∀ entry ∈ catalogue, entry.1.toList.all (· != ':') = true := by decide
  exact List.all_eq_true.mp (plain _ h)

theorem nodup_ids : (catalogue.map Prod.snd).Nodup := by decide

theorem nodup_names : (catalogue.map Prod.fst).Nodup := by decide

theorem name?_eq_some_iff {b : Block} {name : String} :
    b.name? = some name ↔ (name, b.id) ∈ catalogue := by
  rw [name?, Option.map_eq_some_iff]
  simp only [find?_eq_some_iff_of_nodup_map nodup_ids fun _ => beq_iff_eq]
  constructor
  · rintro ⟨entry, ⟨member, here⟩, rfl⟩
    rwa [← here]
  · intro member
    exact ⟨_, ⟨member, rfl⟩, rfl⟩

theorem idOfName?_eq_some_iff {name : String} {id : UInt16} :
    idOfName? name = some id ↔ (name, id) ∈ catalogue := by
  rw [idOfName?, Option.map_eq_some_iff]
  simp only [find?_eq_some_iff_of_nodup_map nodup_names fun _ => beq_iff_eq]
  constructor
  · rintro ⟨_, ⟨member, rfl⟩, rfl⟩
    exact member
  · intro member
    exact ⟨_, ⟨member, rfl⟩, rfl⟩

/-! ## Reading a name -/

theorem ofName?_name {name : String} {id : UInt16} (h : (name, id) ∈ catalogue) :
    ofName? name = some ⟨id, 0⟩ := by
  have span : name.toList.span (· != ':') = (name.toList, []) := by
    rw [List.span_eq_takeWhile_dropWhile, List.takeWhile_eq_self_iff.mpr (ne_colon_of_mem h),
      List.dropWhile_eq_nil_iff.mpr (ne_colon_of_mem h)]
  simp only [ofName?, span, idOfName?_eq_some_iff.mpr h, Option.map_some]

theorem ofName?_name_state {name numeral : String} {id : UInt16} {n : Nat}
    (h : (name, id) ∈ catalogue) (hn : Decimal.unsigned? 65535 numeral.toList = some n) :
    ofName? (name ++ ":" ++ numeral) = some ⟨id, UInt16.ofNat n⟩ := by
  have span : (name ++ ":" ++ numeral).toList.span (· != ':') =
      (name.toList, ':' :: numeral.toList) := by
    rw [List.span_eq_takeWhile_dropWhile, String.toList_append, String.toList_append,
      List.append_assoc, List.takeWhile_append_of_pos (ne_colon_of_mem h),
      List.dropWhile_append_of_pos (ne_colon_of_mem h)]
    simp
  simp only [ofName?, span, hn, String.ofList_toList, idOfName?_eq_some_iff.mpr h,
    Option.bind_eq_bind, Option.bind_some, Option.pure_def]

theorem eq_of_ofName? {text : String} {b : Block} (h : ofName? text = some b) :
    (text, b.id) ∈ catalogue ∧ b.state = 0 ∨
      ∃ base numeral n, text = base ++ ":" ++ String.ofList numeral ∧ (base, b.id) ∈ catalogue ∧
        Decimal.unsigned? 65535 numeral = some n ∧ b.state = UInt16.ofNat n := by
  unfold ofName? at h
  rw [List.span_eq_takeWhile_dropWhile] at h
  -- The two parts are the text again, and the second, if it is not empty, starts with a colon.
  have whole : text.toList.takeWhile (· != ':') ++ text.toList.dropWhile (· != ':') = text.toList :=
    List.takeWhile_append_dropWhile
  have stop := List.head?_dropWhile_not (· != ':') text.toList
  generalize text.toList.takeWhile (· != ':') = base at h whole
  generalize text.toList.dropWhile (· != ':') = suffix at h whole stop
  cases suffix with
  | nil =>
    obtain ⟨id, known, rfl⟩ := Option.map_eq_some_iff.mp h
    exact .inl ⟨idOfName?_eq_some_iff.mp known, rfl⟩
  | cons colon numeral =>
    obtain ⟨n, read, h⟩ := Option.bind_eq_some_iff.mp h
    obtain ⟨id, known, h⟩ := Option.bind_eq_some_iff.mp h
    cases h
    obtain rfl : colon = ':' := by simpa using stop
    refine .inr ⟨String.ofList base, numeral, n, ?_, idOfName?_eq_some_iff.mp known, read, rfl⟩
    rw [← String.toList_inj, ← whole]
    simp

theorem exists_name_of_ofName? {text : String} {b : Block} (h : ofName? text = some b) :
    ∃ name, (name, b.id) ∈ catalogue := by
  obtain ⟨known, _⟩ | ⟨base, _, _, _, known, _⟩ := eq_of_ofName? h
  · exact ⟨text, known⟩
  · exact ⟨base, known⟩

/-! ## Reading a written form -/

theorem ofData_id (id : UInt16) : ofData (.integer id.toNat) = .ok ⟨id, 0⟩ := by
  have inside : (0 : Int) ≤ id.toNat ∧ (id.toNat : Int) ≤ 65535 := by
    have := id.toNat_lt
    omega
  simp only [ofData, Data.toUInt16, Data.toInteger, if_pos inside]
  show Except.ok (⟨UInt16.ofNat (id.toNat : Int).toNat, 0⟩ : Block) = .ok ⟨id, 0⟩
  rw [Int.toNat_natCast, UInt16.ofNat_toNat]

theorem ofData_toData_of_mem {name : String} {b : Block} (h : (name, b.id) ∈ catalogue) :
    ofData b.toData = .ok b := by
  obtain ⟨id, state⟩ := b
  unfold toData
  rw [name?_eq_some_iff.mpr h]
  by_cases hs : state = 0
  · subst hs
    simp [ofData, ofName?_name h]
  · have hn : Decimal.unsigned? 65535 (toString state.toNat).toList = some state.toNat := by
      apply Decimal.unsigned?_toString
      have := state.toNat_lt
      omega
    simp only [if_neg hs, ofData, ofName?_name_state h hn, UInt16.ofNat_toNat]

theorem ofData_toData (b : Block) :
    ofData b.toData = .ok ⟨b.id, if b.name?.isSome then b.state else 0⟩ := by
  cases named : b.name? with
  | some name => exact ofData_toData_of_mem (name?_eq_some_iff.mp named)
  | none =>
    unfold toData
    rw [named]
    exact ofData_id b.id

theorem name?_isSome_or_of_ofData {data : Data} {b : Block} (h : ofData data = .ok b) :
    b.name?.isSome ∨ b.state = 0 := by
  unfold ofData at h
  split at h
  case h_1 value =>
    apply Or.inr
    cases read : (Data.integer value).toUInt16 with
    | error failure => rw [read] at h; cases h
    | ok id => rw [read] at h; cases h; rfl
  case h_2 text =>
    apply Or.inl
    cases read : ofName? text with
    | none => rw [read] at h; cases h
    | some found =>
      rw [read] at h
      cases h
      obtain ⟨name, known⟩ := exists_name_of_ofName? read
      exact Option.isSome_of_eq_some (name?_eq_some_iff.mpr known)
  case h_3 => cases h

/-- A block is read back from what it is written as exactly if it has a name or is in state 0; of
any other there is no written form at all, and its own reads as the block of that number in state
0. -/
theorem reads_back_iff (b : Block) :
    (ofData b.toData = .ok b ↔ b.name?.isSome ∨ b.state = 0) ∧
      ((∃ data, ofData data = .ok b) ↔ b.name?.isSome ∨ b.state = 0) ∧
      (¬ (b.name?.isSome ∨ b.state = 0) → ofData b.toData = .ok ⟨b.id, 0⟩) := by
  have survives (h : b.name?.isSome ∨ b.state = 0) : ofData b.toData = .ok b := by
    rw [ofData_toData]
    obtain h | h := h
    · rw [if_pos h]
    · rw [h, ite_self, ← h]
  refine ⟨⟨name?_isSome_or_of_ofData, survives⟩, ⟨?_, fun h => ⟨b.toData, survives h⟩⟩, ?_⟩
  · rintro ⟨data, read⟩
    exact name?_isSome_or_of_ofData read
  · intro lost
    rw [ofData_toData, if_neg (fun named => lost (.inl named))]

theorem unnamed_state_lost :
    ofData (toData ⟨50, 3⟩) = .ok ⟨50, 0⟩ ∧ ofData (toData ⟨50, 3⟩) ≠ .ok ⟨50, 3⟩ := by
  decide

end Karst.Block
