import Karst.Proofs.Block

namespace Karst.Block

/-- The ways to spell a block with the catalogue name `base`. -/
inductive Spells (base : String) : String → Block → Prop
  | bare {id : UInt16} (known : (base, id) ∈ catalogue) : Spells base base ⟨id, 0⟩
  | stated {id : UInt16} {sign digits : String} {value : Nat} (known : (base, id) ∈ catalogue)
      (optional : sign = "" ∨ sign = "+") (present : digits ≠ "")
      (numeric : ∀ c ∈ digits.toList, c.isDigit = true)
      (reads : Nat.ofDigitChars 10 digits.toList 0 = value) (fits : value ≤ 65535) :
      Spells base (base ++ ":" ++ sign ++ digits) ⟨id, UInt16.ofNat value⟩

variable {base text : String} {b : Block}

theorem Spells.known (spells : Spells base text b) : (base, b.id) ∈ catalogue := by
  cases spells with
  | bare known => exact known
  | stated known => exact known

theorem Spells.ofName?_eq (spells : Spells base text b) : ofName? text = some b := by
  cases spells with
  | bare known => exact ofName?_name known
  | stated known optional present numeric reads fits =>
    rw [String.append_assoc]
    apply ofName?_name_state known
    exact Decimal.unsigned?_iff_digits.mpr ⟨_, _, rfl, optional, present, numeric, reads, fits⟩

theorem exists_spells_of_ofName? (h : ofName? text = some b) : ∃ base, Spells base text b := by
  obtain ⟨id, state⟩ := b
  obtain ⟨known, bare⟩ | ⟨base, numeral, n, whole, known, read, stated⟩ := eq_of_ofName? h
  · cases bare
    exact ⟨text, .bare known⟩
  · cases stated
    obtain ⟨sign, digits, rfl, optional, present, numeric, reads, fits⟩ :=
      Decimal.unsigned?_iff_digits.mp read
    refine ⟨base, ?_⟩
    rw [whole, String.ofList_toList, ← String.append_assoc]
    exact .stated known optional present numeric reads fits

theorem exists_toData_spells (known : (base, b.id) ∈ catalogue) :
    ∃ text, b.toData = .text text ∧ Spells base text b := by
  obtain ⟨id, state⟩ := b
  unfold toData
  rw [name?_eq_some_iff.mpr known]
  by_cases bare : state = 0
  · subst bare
    exact ⟨base, rfl, .bare known⟩
  · have small := state.toNat_lt
    have read : Decimal.unsigned? 65535 (toString state.toNat).toList = some state.toNat :=
      Decimal.unsigned?_toString (by omega)
    obtain ⟨sign, digits, whole, optional, present, numeric, reads, fits⟩ :=
      Decimal.unsigned?_iff_digits.mp read
    refine ⟨base ++ ":" ++ toString state.toNat, if_neg bare, ?_⟩
    have printed : toString state.toNat = sign ++ digits := String.toList_inj.mp whole
    have spells := Spells.stated known optional present numeric reads fits
    rwa [UInt16.ofNat_toNat, String.append_assoc, ← printed] at spells

/-- Reading accepts the spellings of blocks and nothing else; the first colon of a spelling ends its
name, which is the name of the block. The written form is a spelling, the same for all spellings of
one block and different for different blocks. -/
theorem spellings_canonical :
    (∀ text b, ofName? text = some b ↔ ∃ base, Spells base text b) ∧
    (∀ base text b, Spells base text b → ':' ∉ base.toList ∧ b.name? = some base ∧
      ∃ written, b.toData = .text written ∧ Spells base written b ∧ ofName? written = some b ∧
        ofData b.toData = .ok b) ∧
    ∀ s t b c, ofName? s = some b → ofName? t = some c → (b.toData = c.toData ↔ b = c) := by
  refine ⟨fun text b => ⟨exists_spells_of_ofName?, fun ⟨_, spells⟩ => spells.ofName?_eq⟩, ?_, ?_⟩
  · intro base text b spells
    have known := spells.known
    obtain ⟨written, writes, again⟩ := exists_toData_spells known
    refine ⟨?_, name?_eq_some_iff.mpr known, written, writes, again, again.ofName?_eq,
      ofData_toData_of_mem known⟩
    intro colon
    simpa using ne_colon_of_mem known ':' colon
  · intro s t b c first second
    constructor
    · intro same
      obtain ⟨_, knownB⟩ := exists_name_of_ofName? first
      obtain ⟨_, knownC⟩ := exists_name_of_ofName? second
      have back := ofData_toData_of_mem knownB
      rw [same, ofData_toData_of_mem knownC] at back
      exact (Except.ok.inj back).symm
    · exact congrArg toData

theorem spellings_canonical_padded :
    Spells "water" "water:+0003" ⟨9, 3⟩ ∧ ofName? "water:+0003" = some ⟨9, 3⟩ ∧
      (⟨9, 3⟩ : Block).name? = some "water" ∧ ofName? "water:3" = some ⟨9, 3⟩ ∧
      toData ⟨9, 3⟩ ≠ toData ⟨9, 0⟩ ∧ ofName? "water:" = none ∧ ofName? "water:1:2" = none ∧
      ofName? "water:65536" = none := by
  obtain ⟨accepts, names, canonical⟩ := spellings_canonical
  have numeric : "0003".toList.all Char.isDigit = true := by decide
  have padded : Spells "water" ("water" ++ ":" ++ "+" ++ "0003") ⟨9, UInt16.ofNat 3⟩ :=
    .stated (by decide) (.inr rfl) (by decide) (List.all_eq_true.mp numeric) (by decide) (by decide)
  have first : ofName? "water:+0003" = some ⟨9, 3⟩ := (accepts _ _).2 ⟨_, padded⟩
  have second : ofName? "water" = some ⟨9, 0⟩ := by decide
  obtain ⟨_, name, _⟩ := names _ _ _ padded
  refine ⟨padded, first, name, by decide, ?_, by decide, by decide, by decide⟩
  intro same
  exact absurd ((canonical _ _ _ _ first second).1 same) (by decide)

end Karst.Block
