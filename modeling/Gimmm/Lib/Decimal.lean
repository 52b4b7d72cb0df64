/-
Decimal integers as text: what a C++ stream reads of a text into an integer of a bounded range. Of the
text of an integer in the range it reads that integer back.
-/
import Mathlib.Algebra.Order.Ring.Int
import Mathlib.Data.List.TakeWhile

namespace Decimal

/-- `isspace` of the C locale. -/
def isSpace (c : Char) : Bool := c = ' ' ∨ (9 ≤ c.toNat ∧ c.toNat ≤ 13)

/-- The value of the digits at the front of a text, 0 if there is none. -/
def scanNat (cs : List Char) : Nat := Nat.ofDigitChars 10 (cs.takeWhile Char.isDigit) 0

/-- The number after an optional sign. -/
def scanInt : List Char → Int
  | '-' :: cs => -scanNat cs
  | '+' :: cs => scanNat cs
  | cs => scanNat cs

/-- `stream >> value` for a value between `lo` and `hi`: it skips blanks and gives the nearest bound for a
number out of the range. -/
def scan (lo hi : Int) (cs : List Char) : Int := max lo (min hi (scanInt (cs.dropWhile isSpace)))

theorem isDigit_range {c : Char} (h : c.isDigit = true) : 48 ≤ c.toNat ∧ c.toNat ≤ 57 := by
  simp only [Char.isDigit, Bool.and_eq_true, decide_eq_true_eq, UInt32.le_iff_toNat_le] at h
  exact h

theorem isSpace_of_isDigit {c : Char} (h : c.isDigit = true) : isSpace c = false := by
  have hr := isDigit_range h
  have hs : c ≠ ' ' := by rintro rfl; simp at hr
  simp [isSpace, hs]; omega

/-- A text of digits is read to its end. -/
theorem scanNat_toDigits (n : Nat) : scanNat (Nat.toDigits 10 n) = n := by
  have hall : (Nat.toDigits 10 n).takeWhile Char.isDigit = Nat.toDigits 10 n :=
    List.takeWhile_eq_self_iff.2 fun c hc => Nat.isDigit_of_mem_toDigits (by decide) (by decide) hc
  rw [scanNat, hall, Nat.ofDigitChars_ten_toDigits]

theorem scanInt_digits {cs : List Char} (h : ∀ c ∈ cs, c.isDigit = true) : scanInt cs = scanNat cs := by
  unfold scanInt
  split
  · exact absurd (h '-' (List.mem_cons_self ..)) (by decide)
  · exact absurd (h '+' (List.mem_cons_self ..)) (by decide)
  · rfl

theorem dropWhile_isSpace_digits {cs : List Char} (h : ∀ c ∈ cs, c.isDigit = true) : cs.dropWhile isSpace = cs := by
  cases cs with
  | nil => rfl
  | cons c cs => simp [isSpace_of_isDigit (h c (List.mem_cons_self ..))]

theorem scanInt_toDigits (n : Nat) : scanInt ((Nat.toDigits 10 n).dropWhile isSpace) = n := by
  have hd : ∀ c ∈ Nat.toDigits 10 n, c.isDigit = true :=
    fun c hc => Nat.isDigit_of_mem_toDigits (by decide) (by decide) hc
  rw [dropWhile_isSpace_digits hd, scanInt_digits hd, scanNat_toDigits]

theorem scanInt_minus_toDigits (n : Nat) : scanInt (('-' :: Nat.toDigits 10 n).dropWhile isSpace) = -n := by
  have hs : isSpace '-' = false := by decide
  rw [List.dropWhile_cons_of_neg (by simp [hs])]
  exact congrArg (fun k : Nat => -(k : Int)) (scanNat_toDigits n)

/-- What was printed of an integer in the range is read back. -/
theorem scan_toString {lo hi n : Int} (hlo : lo ≤ n) (hhi : n ≤ hi) : scan lo hi (toString n).toList = n := by
  have hint : scanInt ((toString n).toList.dropWhile isSpace) = n := by
    rw [Int.toString_eq_repr, Int.repr_eq_if]
    split
    · rw [Nat.toList_repr, scanInt_toDigits]
      omega
    · have hneg : ("-" ++ (-n).toNat.repr).toList = '-' :: Nat.toDigits 10 (-n).toNat := by simp
      rw [hneg, scanInt_minus_toDigits]
      omega
  rw [scan, hint, min_eq_right hhi, max_eq_right hlo]

end Decimal
