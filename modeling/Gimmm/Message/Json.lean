/-
JSON documents as the server reads and builds them: `QJsonDocument` with `value(key)` on its
object and the lenient `toString`, `toInt` and `toObject`, and the two tables of field names.
A number is the value of an IEEE double.
-/
import Mathlib.Algebra.Group.Int.Defs
import Mathlib.Algebra.Group.Nat.Defs
import Mathlib.Data.Rat.Defs

namespace Gimmm

inductive Json where
  | null
  | bool (b : Bool)
  | number (x : Rat)
  | string (s : String)
  | array (xs : List Json)
  | object (fields : List (String × Json))

namespace Json

/-- The members of `doc.object()`: none when the document is not an object. -/
def members : Json → List (String × Json)
  | .object fields => fields
  | _ => []

/-- `doc.object()` as a value. -/
def asObject (doc : Json) : Json := .object doc.members

/-- `doc.object().value(key)`; `none` is the undefined value of an absent key. -/
def value (doc : Json) (key : String) : Option Json := doc.members.lookup key

/-- `QJsonValue::toString()`. -/
def toString : Option Json → String
  | some (.string s) => s
  | _ => ""

/-- `QJsonValue::toInt()`: 0 unless the value is a number that is exactly a 32-bit int. -/
def toInt : Option Json → Int
  | some (.number x) => if x.den = 1 ∧ -2 ^ 31 ≤ x.num ∧ x.num < 2 ^ 31 then x.num else 0
  | _ => 0

/-- `QJsonValue::toObject()`. -/
def toObject : Option Json → Json
  | some (.object fields) => .object fields
  | _ => .object []

/-- The double nearest to a 64-bit integer, ties to even. -/
def nearestDouble (n : Int) : Int :=
  if n.natAbs ≤ 2 ^ 53 then n
  else
    let e := n.natAbs.log2 - 52
    let q := n.natAbs / 2 ^ e
    let r := n.natAbs % 2 ^ e
    let q' := if 2 ^ (e - 1) < r ∨ (r = 2 ^ (e - 1) ∧ q % 2 = 1) then q + 1 else q
    n.sign * (q' * 2 ^ e : Nat)

/-- `QJsonValue(qint64)`. -/
def ofInt64 (n : Int) : Json := .number (nearestDouble n : Int)

theorem nearestDouble_of_le {n : Int} (h : n.natAbs ≤ 2 ^ 53) : nearestDouble n = n := if_pos h

/-- The 53 bits that a double keeps of a large integer make up at least 2 ^ 53. -/
theorem quotient_large {n : Nat} (h : 2 ^ 53 < n) : 2 ^ 53 ≤ n / 2 ^ (n.log2 - 52) * 2 ^ (n.log2 - 52) := by
  have hne : n ≠ 0 := by omega
  have hlog : 53 ≤ n.log2 := (Nat.le_log2 hne).2 (by omega)
  have hquotient : 2 ^ 52 ≤ n / 2 ^ (n.log2 - 52) := by
    rw [Nat.le_div_iff_mul_le (Nat.two_pow_pos _), ← Nat.pow_add]
    exact Nat.le_trans (Nat.pow_le_pow_right (by decide) (by omega)) (Nat.log2_self_le hne)
  calc 2 ^ 53 ≤ 2 ^ 52 * 2 ^ (n.log2 - 52) := by
        rw [← Nat.pow_add]
        exact Nat.pow_le_pow_right (by decide) (by omega)
    _ ≤ n / 2 ^ (n.log2 - 52) * 2 ^ (n.log2 - 52) := Nat.mul_le_mul_right _ hquotient

/-- A large integer stays large as a double. -/
theorem nearestDouble_large {n : Int} (h : 2 ^ 53 < n) : 2 ^ 53 ≤ nearestDouble n := by
  have hlarge := quotient_large (n := n.natAbs) (by omega)
  unfold nearestDouble
  rw [if_neg (by omega), Int.sign_eq_one_of_pos (by omega), Int.one_mul]
  split
  · exact Int.ofNat_le.2 (Nat.le_trans hlarge (Nat.mul_le_mul_right _ (Nat.le_succ _)))
  · exact Int.ofNat_le.2 hlarge

/-- An integer below 2 ^ 53 is the only one with its double. -/
theorem nearestDouble_inj {n n' : Int} (hn : 0 < n) (hn' : 0 < n') (h : nearestDouble n = nearestDouble n')
    (hsmall : nearestDouble n < 2 ^ 53 ∨ n ≤ 2 ^ 53 ∧ n' ≤ 2 ^ 53) : n = n' := by
  have hle : n ≤ 2 ^ 53 ∧ n' ≤ 2 ^ 53 := by
    refine hsmall.elim (fun hlt => ⟨Int.not_lt.1 fun hlarge => ?_, Int.not_lt.1 fun hlarge => ?_⟩) id
    · exact absurd hlt (Int.not_lt.2 (nearestDouble_large hlarge))
    · exact absurd (h ▸ hlt) (Int.not_lt.2 (nearestDouble_large hlarge))
  rwa [nearestDouble_of_le (by omega), nearestDouble_of_le (by omega)] at h

/-- A 32-bit integer survives the trip through a JSON number. -/
theorem toInt_ofInt64 {n : Int} (h0 : -2 ^ 31 ≤ n) (h1 : n < 2 ^ 31) : toInt (some (ofInt64 n)) = n := by
  have hn : n.natAbs ≤ 2 ^ 53 := by omega
  unfold ofInt64 toInt
  rw [nearestDouble_of_le hn]
  exact if_pos ⟨rfl, h0, h1⟩

end Json

namespace fcmfieldnames
def messageType : String := "message_type"
def messageId : String := "message_id"
def error : String := "error"
def category : String := "category"
def controlType : String := "control_type"
def to_ : String := "to"
end fcmfieldnames

namespace gimmmfieldnames
def messageType : String := "message_type"
def sequenceId : String := "sequence_id"
def groupId : String := "group_id"
def sessionId : String := "session_id"
def errorDesc : String := "error_description"
def fcmData : String := "fcm_data"
end gimmmfieldnames

/-- The sequence id in a document, as the number that it is there. -/
def Json.sequenceId (doc : Json) : Option Rat :=
  match doc.value gimmmfieldnames.sequenceId with
  | some (.number x) => some x
  | _ => none

end Gimmm
