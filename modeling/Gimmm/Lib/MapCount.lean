/-
Counting the entries of an ordered map whose value satisfies a test, under insertion of a new key,
removal and modification.
-/
import Std.Data.ExtTreeMap
import Mathlib.Data.List.Basic

namespace MapCount

open Std

variable {κ β : Type} {cmp : κ → κ → Ordering} [TransCmp cmp] [LawfulEqCmp cmp]

/-- How many entries of `m` have a value that satisfies `p`. -/
def count (p : β → Bool) (m : ExtTreeMap κ β cmp) : Nat := (m.filter fun _ v => p v).size

variable {p : β → Bool} {m : ExtTreeMap κ β cmp} {k : κ} {v : β}

theorem getElem?_filter_value (k : κ) : (m.filter fun _ v => p v)[k]? = m[k]?.filter p := by
  rw [ExtTreeMap.getElem?_filter']

theorem mem_filter_value : k ∈ m.filter (fun _ v => p v) ↔ ∃ v, m[k]? = some v ∧ p v = true := by
  rw [← ExtTreeMap.isSome_getElem?_iff_mem, getElem?_filter_value]
  cases m[k]? <;> simp [Option.filter]

/-- The filtered map keeps a removal. -/
theorem filter_erase : (m.erase k).filter (fun _ v => p v) = (m.filter fun _ v => p v).erase k := by
  apply ExtTreeMap.ext_getElem?
  intro a
  rw [getElem?_filter_value, ExtTreeMap.getElem?_erase, ExtTreeMap.getElem?_erase, getElem?_filter_value]
  split <;> rfl

theorem count_erase (h : m[k]? = some v) : count p m = count p (m.erase k) + if p v then 1 else 0 := by
  unfold count
  rw [filter_erase, ExtTreeMap.size_erase]
  by_cases hp : p v = true
  · have hm : k ∈ m.filter (fun _ v => p v) := mem_filter_value.2 ⟨v, h, hp⟩
    have hs : (m.filter fun _ v => p v).size ≠ 0 := fun h0 => by
      rw [ExtTreeMap.eq_empty_iff_size_eq_zero.2 h0] at hm; simp at hm
    rw [if_pos (by simpa using hm), if_pos hp]; omega
  · have hm : k ∉ m.filter (fun _ v => p v) := fun hm => by
      obtain ⟨v', h1, h2⟩ := mem_filter_value.1 hm
      rw [h] at h1; cases h1; exact hp h2
    rw [if_neg (by simpa using hm), if_neg hp]; rfl

theorem erase_insertIfNew (h : k ∉ m) : (m.insertIfNew k v).erase k = m := by
  apply ExtTreeMap.ext_getElem?
  intro a
  rw [ExtTreeMap.getElem?_erase, ExtTreeMap.getElem?_insertIfNew]
  by_cases ha : cmp k a = .eq
  · rw [if_pos ha]
    rw [← LawfulEqCmp.eq_of_compare ha, ExtTreeMap.getElem?_eq_none h]
  · rw [if_neg ha, if_neg (fun h' => ha h'.1)]

theorem count_insertIfNew (h : k ∉ m) :
    count p (m.insertIfNew k v) = count p m + if p v then 1 else 0 := by
  have hv : (m.insertIfNew k v)[k]? = some v := by
    rw [ExtTreeMap.getElem?_insertIfNew, if_pos ⟨ReflCmp.compare_self, h⟩]
  rw [count_erase hv, erase_insertIfNew h]

theorem erase_modify (f : β → β) : (m.modify k f).erase k = m.erase k := by
  apply ExtTreeMap.ext_getElem?
  intro a
  rw [ExtTreeMap.getElem?_erase, ExtTreeMap.getElem?_erase, ExtTreeMap.getElem?_modify]
  split <;> rfl

theorem count_modify (f : β → β) (h : m[k]? = some v) :
    count p (m.modify k f) + (if p v then 1 else 0) = count p m + if p (f v) then 1 else 0 := by
  have hv : (m.modify k f)[k]? = some (f v) := by
    rw [ExtTreeMap.getElem?_modify_self, h]; rfl
  rw [count_erase hv, count_erase h, erase_modify]; omega

/-- A modification that does not change the test keeps the count. -/
theorem count_modify_same (f : β → β) (hf : ∀ v, m[k]? = some v → p (f v) = p v) :
    count p (m.modify k f) = count p m := by
  cases h : m[k]? with
  | none =>
    have : m.modify k f = m := by
      apply ExtTreeMap.ext_getElem?
      intro a
      rw [ExtTreeMap.getElem?_modify]
      split
      · rename_i ha; rw [h, ← LawfulEqCmp.eq_of_compare ha, h]; rfl
      · rfl
    rw [this]
  | some v =>
    have := count_modify (p := p) f h
    rw [hf v h] at this; omega

/-- Distinct keys whose values all satisfy `p` are at most as many as the count. -/
theorem length_le_count {l : List κ} (hn : l.Nodup) (h : ∀ k ∈ l, ∃ v, m[k]? = some v ∧ p v = true) :
    l.length ≤ count p m := by
  induction l generalizing m with
  | nil => simp
  | cons k l ih =>
    rw [List.nodup_cons] at hn
    obtain ⟨v, hv, hp⟩ := h k (List.mem_cons_self ..)
    have hl : l.length ≤ count p (m.erase k) := by
      refine ih hn.2 fun a ha => ?_
      obtain ⟨w, hw, hpw⟩ := h a (List.mem_cons_of_mem _ ha)
      refine ⟨w, ?_, hpw⟩
      rw [ExtTreeMap.getElem?_erase, if_neg, hw]
      intro hc; exact hn.1 (LawfulEqCmp.eq_of_compare hc ▸ ha)
    rw [count_erase hv, if_pos hp, List.length_cons]; omega

end MapCount
