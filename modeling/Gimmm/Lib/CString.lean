/-
C strings: a text that is handed on as a pointer to its characters ends at its first NUL. What is left
of it has no NUL, and a text without a NUL is left whole.
-/
import Mathlib.Data.List.TakeWhile

namespace CString

def nul : Char := Char.ofNat 0

def NoNul (s : String) : Prop := nul ∉ s.toList

instance (s : String) : Decidable (NoNul s) := inferInstanceAs (Decidable (nul ∉ s.toList))

theorem noNul_empty : NoNul "" := by decide

/-- What is read of `s.c_str()`. -/
def cString (s : String) : String := String.ofList (s.toList.takeWhile (· ≠ nul))

theorem cString_of_noNul {s : String} (h : NoNul s) : cString s = s := by
  have hall : s.toList.takeWhile (· ≠ nul) = s.toList :=
    List.takeWhile_eq_self_iff.2 fun c hc => by simpa using fun he : c = nul => h (he ▸ hc)
  rw [cString, hall, String.ofList_toList]

theorem noNul_cString (s : String) : NoNul (cString s) := by
  unfold NoNul cString
  rw [String.toList_ofList]
  intro hmem
  simpa using List.mem_takeWhile_imp hmem

end CString
