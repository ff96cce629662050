import Karst.Text.Decimal
import Mathlib.Data.List.Basic

namespace Karst.Decimal

theorem digit?_of_isDigit {c : Char} (h : c.isDigit = true) :
    digit? c = some (c.toNat - '0'.toNat) := by
  apply if_pos
  simpa [Char.isDigit, Char.le_def] using h

theorem digit?_of_not_isDigit {c : Char} (h : ¬ c.isDigit = true) : digit? c = none := by
  apply if_neg
  simpa [Char.isDigit, Char.le_def] using h

theorem extend_eq_some_iff {digits : List Char} {value n : Nat} :
    extend value digits = some n ↔
      (∀ c ∈ digits, c.isDigit = true) ∧ Nat.ofDigitChars 10 digits value = n := by
  induction digits generalizing value with
  | nil => simp [extend]
  | cons c rest ih =>
    by_cases hc : c.isDigit = true
    · simp only [extend, digit?_of_isDigit hc, ih, Nat.ofDigitChars_cons, List.forall_mem_cons, hc,
        true_and]
    · simp [extend, digit?_of_not_isDigit hc, hc]

theorem natural?_eq_some_iff {numeral : List Char} {n : Nat} :
    natural? numeral = some n ↔
      numeral ≠ [] ∧ (∀ c ∈ numeral, c.isDigit = true) ∧ Nat.ofDigitChars 10 numeral 0 = n := by
  cases numeral with
  | nil => simp [natural?]
  | cons c rest => simp [natural?, extend_eq_some_iff]

theorem natural?_toDigits (n : Nat) : natural? (Nat.toDigits 10 n) = some n := by
  apply natural?_eq_some_iff.mpr
  refine ⟨Nat.toDigits_ne_nil, ?_, Nat.ofDigitChars_ten_toDigits⟩
  intro c hc
  exact Nat.isDigit_of_mem_toDigits (by decide) (by decide) hc

theorem unsigned?_of_natural? {upper n : Nat} {numeral : List Char}
    (h : natural? numeral = some n) (hn : n ≤ upper) : unsigned? upper numeral = some n := by
  have unsign : unsigned? upper numeral = (natural? numeral).filter (· ≤ upper) := by
    obtain ⟨-, digits, -⟩ := natural?_eq_some_iff.mp h
    unfold unsigned?
    split
    · exact absurd (digits '+' List.mem_cons_self) (by decide)
    · rfl
  rw [unsign, h, Option.filter_some, if_pos (decide_eq_true hn)]

theorem unsigned?_of_plus {upper n : Nat} {digits : List Char}
    (h : natural? digits = some n) (hn : n ≤ upper) : unsigned? upper ('+' :: digits) = some n := by
  have unsign : unsigned? upper ('+' :: digits) = (natural? digits).filter (· ≤ upper) := rfl
  rw [unsign, h, Option.filter_some, if_pos (decide_eq_true hn)]

theorem unsigned?_eq_some_iff {upper n : Nat} {numeral : List Char} :
    unsigned? upper numeral = some n ↔
      ∃ digits, (numeral = digits ∨ numeral = '+' :: digits) ∧ natural? digits = some n ∧
        n ≤ upper := by
  constructor
  · intro h
    unfold unsigned? at h
    split at h
    case h_1 digits =>
      obtain ⟨read, bound⟩ := Option.filter_eq_some_iff.mp h
      exact ⟨digits, .inr rfl, read, of_decide_eq_true bound⟩
    case h_2 =>
      obtain ⟨read, bound⟩ := Option.filter_eq_some_iff.mp h
      exact ⟨numeral, .inl rfl, read, of_decide_eq_true bound⟩
  · rintro ⟨digits, rfl | rfl, read, bound⟩
    · exact unsigned?_of_natural? read bound
    · exact unsigned?_of_plus read bound

theorem unsigned?_iff_digits {upper n : Nat} {numeral : List Char} :
    unsigned? upper numeral = some n ↔ ∃ sign digits : String,
      numeral = (sign ++ digits).toList ∧ (sign = "" ∨ sign = "+") ∧ digits ≠ "" ∧
      (∀ c ∈ digits.toList, c.isDigit = true) ∧ Nat.ofDigitChars 10 digits.toList 0 = n ∧
      n ≤ upper := by
  simp only [unsigned?_eq_some_iff, natural?_eq_some_iff]
  constructor
  · rintro ⟨digits, form, ⟨present, numeric, reads⟩, fits⟩
    obtain ⟨sign, form, optional⟩ : ∃ sign : String,
        numeral = sign.toList ++ digits ∧ (sign = "" ∨ sign = "+") := by
      obtain form | form := form
      · exact ⟨"", form, .inl rfl⟩
      · exact ⟨"+", form, .inr rfl⟩
    refine ⟨sign, String.ofList digits, ?_, optional, ?_, ?_, ?_, fits⟩
    · rw [form, String.toList_append, String.toList_ofList]
    · intro none
      exact present (by simpa using congrArg String.toList none)
    · rwa [String.toList_ofList]
    · rwa [String.toList_ofList]
  · rintro ⟨sign, digits, rfl, optional, present, numeric, reads, fits⟩
    refine ⟨digits.toList, ?_, ⟨?_, numeric, reads⟩, fits⟩
    · obtain rfl | rfl := optional
      · exact .inl (by simp)
      · exact .inr (by simp)
    · intro none
      exact present (by simpa using none)

theorem unsigned?_toString {upper n : Nat} (hn : n ≤ upper) :
    unsigned? upper (toString n).toList = some n := by
  rw [Nat.toString_eq_ofList_toDigits, String.toList_ofList]
  exact unsigned?_of_natural? (natural?_toDigits n) hn

end Karst.Decimal
