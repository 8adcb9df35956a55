import Mathlib.Algebra.Group.Nat.Defs
import StylesheetTrace.Proofs.Text.Refusal
import StylesheetTrace.Proofs.Text.Scan
import StylesheetTrace.Text.Number

/-!
# Decimal numbers read back

A number below `10 ^ 4300` is read back from its decimal digits, which end where a character that is
no digit follows. A longer row of digits is refused.
-/

namespace StylesheetTrace.Text

/-- An ASCII digit has its distance from zero as its value. -/
theorem digitValue?_of_isDigit {c : Char} (h : c.isDigit = true) :
    digitValue? c = some (c.toNat - '0'.toNat) := by
  have hc : 48 ≤ c.toNat ∧ c.toNat ≤ 57 := by
    simpa [Char.isDigit, UInt32.le_iff_toNat_le] using h
  unfold digitValue?
  rw [if_pos (by omega), if_pos hc]
  rfl

/-- An ASCII digit is a digit. -/
theorem isDigit_of_isDigit {c : Char} (h : c.isDigit = true) : isDigit c = true := by
  rw [isDigit, digitValue?_of_isDigit h]
  rfl

/-- The decimal digits of a number. -/
def decimal (n : Nat) : List Char :=
  (toString n).toList

/-- The digits of a number are its digits to the base ten. -/
theorem decimal_eq_toDigits (n : Nat) : decimal n = Nat.toDigits 10 n := by
  unfold decimal
  exact Nat.toList_repr

/-- A number has a digit. -/
theorem decimal_ne_nil (n : Nat) : decimal n ≠ [] := by
  rw [decimal_eq_toDigits]
  exact Nat.toDigits_ne_nil

/-- The digits of a number are ASCII digits. -/
theorem isDigit_of_mem_decimal {n : Nat} {c : Char} (h : c ∈ decimal n) : c.isDigit = true := by
  rw [decimal_eq_toDigits] at h
  exact Nat.isDigit_of_mem_toDigits (by decide) (by decide) h

/-- The digits of a number are taken off the head of a text that goes on with no digit. -/
theorem takeWhile_decimal (n : Nat) {s : List Char} (h : ∀ c ∈ s.head?, isDigit c = false) :
    (decimal n ++ s).takeWhile isDigit = decimal n := by
  rw [takeWhile_append_of_head h, List.takeWhile_eq_self_iff]
  exact fun c hc => isDigit_of_isDigit (isDigit_of_mem_decimal hc)

/-- The text behind the digits of a number is left when it goes on with no digit. -/
theorem dropWhile_decimal (n : Nat) {s : List Char} (h : ∀ c ∈ s.head?, isDigit c = false) :
    (decimal n ++ s).dropWhile isDigit = s := by
  have hdrop : (decimal n).dropWhile isDigit = [] :=
    List.dropWhile_eq_nil_iff.mpr fun c hc => isDigit_of_isDigit (isDigit_of_mem_decimal hc)
  rw [dropWhile_append_of_head h, hdrop, List.nil_append]

/-- The value of ASCII digits is the number that they write to the base ten. -/
theorem digitsValue_eq_ofDigitChars {ds : List Char} (h : ∀ c ∈ ds, c.isDigit = true) :
    digitsValue ds = Nat.ofDigitChars 10 ds 0 := by
  have hfold : ∀ init, ds.foldl (fun n c => 10 * n + (digitValue? c).getD 0) init =
      Nat.ofDigitChars 10 ds init := by
    induction ds with
    | nil => intro init; rfl
    | cons c ds ih =>
      intro init
      rw [List.foldl_cons, Nat.ofDigitChars_cons, digitValue?_of_isDigit (h c List.mem_cons_self)]
      exact ih (fun d hd => h d (List.mem_cons_of_mem c hd)) _
  exact hfold 0

/-- A number has at most 4300 digits when it is below the power of ten with that exponent. -/
theorem length_decimal_le_iff {n : Nat} :
    (decimal n).length ≤ TooLong.limit ↔ n < 10 ^ TooLong.limit := by
  rw [decimal_eq_toDigits]
  exact Nat.length_toDigits_le_iff (by decide) (by decide)

/-- A number with at most 4300 digits is read back from them. -/
theorem readDigits_decimal {n : Nat} (h : n < 10 ^ TooLong.limit) :
    readDigits (decimal n) = .ok n := by
  have hlen : (decimal n).length ≤ TooLong.limit := length_decimal_le_iff.mpr h
  have hvalue : digitsValue (decimal n) = n := by
    rw [digitsValue_eq_ofDigitChars fun c hc => isDigit_of_mem_decimal hc, decimal_eq_toDigits,
      Nat.ofDigitChars_ten_toDigits]
  rw [readDigits, if_neg (Nat.not_lt.mpr hlen), hvalue]

/-- A row of digits is read as its value when it is not too long. -/
theorem readDigits_eq_ok {ds : List Char} {n : Nat} :
    readDigits ds = .ok n ↔ ds.length ≤ TooLong.limit ∧ digitsValue ds = n := by
  unfold readDigits
  split
  · rename_i hlong
    exact iff_of_false (by simp) fun h => absurd h.1 (Nat.not_le.mpr hlong)
  · rename_i hshort
    rw [Except.ok.injEq]
    exact (and_iff_right (Nat.not_lt.mp hshort)).symm

/-- A row of digits is not refused when it is not too long. -/
theorem hasResult_readDigits {ds : List Char} :
    HasResult (readDigits ds) ↔ ds.length ≤ TooLong.limit := by
  constructor
  · rintro ⟨n, hn⟩
    exact (readDigits_eq_ok.mp hn).1
  · exact fun h => ⟨digitsValue ds, readDigits_eq_ok.mpr ⟨h, rfl⟩⟩

end StylesheetTrace.Text
