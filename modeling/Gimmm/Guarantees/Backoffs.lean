/-
The delays of `ExponentialBackoff`. The step `n` after a start has the base `(2 ^ n - 1) * 1000`, which is an int up to
the step 21 and none later. With a retry limit, the constructor, `reset()` and a wrap-around begin to count at
three different places, so the schedule is not the same after each of them.
-/
import Mathlib.Data.List.Induction
import Mathlib.Logic.Function.Iterate
import Gimmm.Lib.Run
import Gimmm.Message.Backoff

namespace Gimmm

/-- A 32-bit int. -/
abbrev IsInt (x : Int) : Prop := -2 ^ 31 ≤ x ∧ x ≤ 2 ^ 31 - 1

namespace ExponentialBackoff

/-- The next call of `next()` starts over. -/
abbrev Wraps (b : ExponentialBackoff) : Prop := b.maxRetry ≠ noMaxRetry ∧ b.retry + 1 > b.maxRetry

/-- The fields when `next()` computes its delay. -/
def counted (b : ExponentialBackoff) : ExponentialBackoff :=
  if b.Wraps then { b with retry := 0, seedVal := 2 } else { b with retry := b.retry + 1 }

/-- The fields after a call of `next()`: they do not depend on what is drawn. -/
def advance (b : ExponentialBackoff) : ExponentialBackoff := { b.counted with seedVal := b.counted.seedVal + 1 }

theorem next_eq (b : ExponentialBackoff) (d : Draw) : b.next d =
    (if halfPower b.counted.seedVal * 1000 + d.randomDelta ≤ 2 ^ 31 - 1 then halfPower b.counted.seedVal * 1000 + d.randomDelta
      else d.overflow, b.advance) := rfl

/-- The ints that `next()` computes are 32-bit ints. -/
structure Fits (b : ExponentialBackoff) (d : Draw) : Prop where
  retry : IsInt (b.retry + 1)
  power : IsInt (halfPower b.counted.seedVal)
  product : IsInt (halfPower b.counted.seedVal * 1000)
  sum : IsInt (halfPower b.counted.seedVal * 1000 + d.randomDelta)
  seedVal : IsInt (b.counted.seedVal + 1)

/-! ## Powers -/

theorem halfPower_eq (n : Nat) : halfPower (2 + n) = 2 ^ (n + 1) - 1 := by
  have hnat : (2 + (n : Int)).toNat = n + 1 + 1 := by omega
  unfold halfPower
  rw [hnat, Int.pow_succ]
  omega

theorem halfPower_le {n : Nat} (h : n < 21) : 1 ≤ halfPower (2 + n) ∧ halfPower (2 + n) ≤ 2 ^ 21 - 1 := by
  have hlow : (2 : Int) ^ 1 ≤ 2 ^ (n + 1) := by exact_mod_cast Nat.pow_le_pow_right (by decide) (by omega)
  have hhigh : (2 : Int) ^ (n + 1) ≤ 2 ^ 21 := by exact_mod_cast Nat.pow_le_pow_right (by decide) (by omega)
  rw [halfPower_eq]
  omega

theorem halfPower_ge {n : Nat} (h : 21 ≤ n) : 2 ^ 22 - 1 ≤ halfPower (2 + n) := by
  have hlow : (2 : Int) ^ 22 ≤ 2 ^ (n + 1) := by exact_mod_cast Nat.pow_le_pow_right (by decide) (by omega)
  rw [halfPower_eq]
  omega

theorem halfPower_succ (n : Nat) : halfPower (2 + (n + 1 : Nat)) = 2 * halfPower (2 + n) + 1 := by
  rw [halfPower_eq, halfPower_eq, Int.pow_succ]
  omega

theorem randomDelta_bounds (d : Draw) : 100 ≤ d.randomDelta ∧ d.randomDelta ≤ 1000 := by
  have := d.delta.isLt
  unfold Draw.randomDelta
  omega

end ExponentialBackoff

open ExponentialBackoff

/-! ## Histories -/

/-- A call of an `ExponentialBackoff`. -/
inductive BackoffCall where
  | next (d : Draw)
  | reset

def BackoffCall.apply (b : ExponentialBackoff) : BackoffCall → ExponentialBackoff
  | next d => (b.next d).2
  | reset => b.reset

/-- The object after calls since its construction. -/
abbrev played (maxRetry : Int) (calls : List BackoffCall) : ExponentialBackoff :=
  Run.run BackoffCall.apply (.new maxRetry) calls

/-- The number of calls of `next()` since the construction or the last `reset()`. -/
def stretch (calls : List BackoffCall) : Nat :=
  calls.foldl (fun n call => match call with
    | .next _ => n + 1
    | .reset => 0) 0

section
variable {maxRetry : Int} {calls : List BackoffCall} {d : Draw}

@[simp] theorem stretch_next : stretch (calls ++ [.next d]) = stretch calls + 1 := by
  unfold stretch
  rw [List.foldl_append]
  rfl

@[simp] theorem stretch_reset : stretch (calls ++ [.reset]) = 0 := by
  unfold stretch
  rw [List.foldl_append]
  rfl

theorem reset_retry (b : ExponentialBackoff) : b.reset.retry = 1 := rfl

theorem played_next : played maxRetry (calls ++ [.next d]) = (played maxRetry calls).advance := Run.run_append ..

theorem played_reset : played maxRetry (calls ++ [.reset]) = (played maxRetry calls).reset := Run.run_append ..

end

/-! ## Without a retry limit -/

/-- The fields after `n` calls of `next()` without a limit. -/
structure Unlimited (n : Nat) (b : ExponentialBackoff) : Prop where
  maxRetry : b.maxRetry = noMaxRetry
  retry : 0 ≤ b.retry ∧ b.retry ≤ n + 1
  seedVal : b.seedVal = 2 + n

theorem unlimited_new : Unlimited 0 (.new noMaxRetry) := ⟨rfl, ⟨Int.le_refl _, by decide⟩, rfl⟩

section
variable {n : Nat} {b : ExponentialBackoff} {d : Draw}

theorem Unlimited.counted (h : Unlimited n b) : b.counted = { b with retry := b.retry + 1 } := by
  unfold ExponentialBackoff.counted
  exact if_neg fun hwraps => hwraps.1 h.maxRetry

theorem Unlimited.advance (h : Unlimited n b) : Unlimited (n + 1) b.advance := by
  unfold ExponentialBackoff.advance
  rw [h.counted]
  refine ⟨h.maxRetry, ⟨?_, ?_⟩, ?_⟩
  · have := h.retry.1
    show 0 ≤ b.retry + 1
    omega
  · have := h.retry.2
    show b.retry + 1 ≤ (n + 1 : Nat) + 1
    omega
  · have := h.seedVal
    show b.seedVal + 1 = 2 + (n + 1 : Nat)
    omega

theorem played_unlimited (calls : List BackoffCall) : Unlimited (stretch calls) (played noMaxRetry calls) := by
  induction calls using List.reverseRecOn with
  | nil => exact unlimited_new
  | append_singleton calls call ih =>
    cases call with
    | next d =>
      rw [stretch_next, played_next]
      exact ih.advance
    | reset =>
      rw [stretch_reset, played_reset]
      exact ⟨ih.maxRetry, ⟨by rw [reset_retry]; decide, by rw [reset_retry]; decide⟩, rfl⟩

/-- Up to the step 21 nothing overflows. -/
theorem Unlimited.fits (h : Unlimited n b) (hn : n < 21) (d : Draw) : b.Fits d := by
  have hseed : b.counted.seedVal = 2 + n := by
    rw [h.counted]
    exact h.seedVal
  obtain ⟨hlow, hhigh⟩ := halfPower_le hn
  obtain ⟨hdlow, hdhigh⟩ := randomDelta_bounds d
  have hretry := h.retry
  constructor
  · constructor <;> omega
  · rw [hseed]
    constructor <;> omega
  · rw [hseed]
    constructor <;> omega
  · rw [hseed]
    constructor <;> omega
  · rw [hseed]
    constructor <;> omega

/-- From the step 22 on the multiplication overflows, or the conversion before it. -/
theorem Unlimited.overflows (h : Unlimited n b) (hn : 21 ≤ n) (d : Draw) : ¬ b.Fits d := by
  intro hfits
  have hseed : b.counted.seedVal = 2 + n := by
    rw [h.counted]
    exact h.seedVal
  have hlow := halfPower_ge hn
  have hproduct := hfits.product.2
  rw [hseed] at hproduct
  omega

theorem Unlimited.next_delay (h : Unlimited n b) (hn : n < 21) (d : Draw) :
    (b.next d).1 = halfPower (2 + n) * 1000 + d.randomDelta := by
  have hsum := (h.fits hn d).sum.2
  have hseed : b.counted.seedVal = 2 + n := by
    rw [h.counted]
    exact h.seedVal
  rw [hseed] at hsum
  rw [next_eq, hseed]
  exact if_pos hsum

/-- Without a retry limit of its own, a backoff gives -1 only by an overflow. -/
theorem Unlimited.delay_eq_iff (h : Unlimited n b) (d : Draw) :
    (b.next d).1 = -1 ↔ 21 ≤ n ∧ d.overflow = -1 := by
  by_cases hn : n < 21
  · obtain ⟨hlow, -⟩ := halfPower_le hn
    obtain ⟨hdlow, -⟩ := randomDelta_bounds d
    rw [h.next_delay hn]
    constructor
    · intro hneg
      omega
    · rintro ⟨hlate, -⟩
      omega
  · have hlow := halfPower_ge (Nat.le_of_not_lt hn)
    obtain ⟨hdlow, -⟩ := randomDelta_bounds d
    have hseed : b.counted.seedVal = 2 + n := by
      rw [h.counted]
      exact h.seedVal
    have hbig : ¬ halfPower (2 + n) * 1000 + d.randomDelta ≤ 2 ^ 31 - 1 := by omega
    rw [next_eq, hseed]
    dsimp only
    rw [if_neg hbig]
    exact ⟨fun hneg => ⟨by omega, hneg⟩, fun h => h.2⟩

end

/-- The next call of `next()` after a history computes ints only, and its delay is positive and longer than the one before
it, if there is one since the construction or the last `reset()`. -/
structure ValidNext (calls : List BackoffCall) (d : Draw) : Prop where
  fits : (played noMaxRetry calls).Fits d
  positive : 0 < ((played noMaxRetry calls).next d).1
  grows : ∀ before d', calls = before ++ [.next d'] →
    ((played noMaxRetry before).next d').1 < ((played noMaxRetry calls).next d).1

/-- After every history and for every draw, the next delay is valid if and only if there are less than 21 calls since the
construction or the last `reset()`. -/
theorem delays_valid_iff (calls : List BackoffCall) (d : Draw) : ValidNext calls d ↔ stretch calls < 21 := by
  have h := played_unlimited calls
  constructor
  · intro hvalid
    by_contra hlate
    exact h.overflows (by omega) d hvalid.fits
  · intro hn
    have hdelay := h.next_delay hn d
    obtain ⟨hlow, -⟩ := halfPower_le hn
    obtain ⟨hdlow, -⟩ := randomDelta_bounds d
    refine ⟨h.fits hn d, by omega, ?_⟩
    rintro before d' rfl
    rw [stretch_next] at hn hdelay hlow
    rw [(played_unlimited before).next_delay (by omega) d', hdelay]
    rw [halfPower_succ] at hlow ⊢
    obtain ⟨hlow', -⟩ := halfPower_le (n := stretch before) (by omega)
    obtain ⟨-, hdhigh⟩ := randomDelta_bounds d'
    omega

/-- The call 22 overflows, and may return the -1 that the callers read as the end of the retries. -/
theorem delays_invalid : ¬ ValidNext (List.replicate 21 (.next default)) ⟨0, -1⟩ ∧
    ((played noMaxRetry (List.replicate 21 (.next default))).next ⟨0, -1⟩).1 = -1 := by
  refine ⟨fun hvalid => ?_, by decide +kernel⟩
  have hn := (played_unlimited (List.replicate 21 (.next default))).overflows (by decide) ⟨0, -1⟩
  exact hn hvalid.fits

/-! ## With a retry limit -/

namespace ExponentialBackoff

/-- The base of a delay, without the random part; `none` if it is no int. -/
def baseOf (seedVal : Int) : Option Int := if IsInt (halfPower seedVal * 1000) then some (halfPower seedVal * 1000) else none

/-- The base of the delay after `j` more calls. -/
def baseAt (b : ExponentialBackoff) (j : Nat) : Option Int := baseOf (advance^[j] b).counted.seedVal

theorem baseOf_some {n : Nat} (h : n < 21) : baseOf (2 + n) = some (halfPower (2 + n) * 1000) := by
  obtain ⟨hlow, hhigh⟩ := halfPower_le h
  exact if_pos ⟨by omega, by omega⟩

theorem baseOf_none {n : Nat} (h : 21 ≤ n) : baseOf (2 + n) = none := by
  have := halfPower_ge h
  exact if_neg fun hint => by
    have := hint.2
    omega

theorem baseOf_injective {n n' : Nat} {x : Int} (h : baseOf (2 + n) = some x) (h' : baseOf (2 + n') = some x) : n = n' := by
  have hn : n < 21 := by
    by_contra hlate
    rw [baseOf_none (by omega)] at h
    cases h
  have hn' : n' < 21 := by
    by_contra hlate
    rw [baseOf_none (by omega)] at h'
    cases h'
  rw [baseOf_some hn, ← h', baseOf_some hn', Option.some.injEq, halfPower_eq, halfPower_eq] at h
  have hpow : (2 : Int) ^ (n + 1) = 2 ^ (n' + 1) := by omega
  have hnat : 2 ^ (n + 1) = 2 ^ (n' + 1) := by exact_mod_cast hpow
  have := Nat.pow_right_injective (Nat.le_refl 2) hnat
  omega

/-- While the limit is not reached, the seed grows with each call. -/
theorem advance_iterate {b : ExponentialBackoff} : ∀ j : Nat, b.retry + j ≤ b.maxRetry → 0 ≤ b.retry →
    advance^[j] b = ⟨b.retry + j, b.seedVal + j, b.maxRetry⟩
  | 0, _, _ => by simp
  | j + 1, hj, h0 => by
    have hno : ¬ Wraps ⟨b.retry + j, b.seedVal + j, b.maxRetry⟩ := fun hwraps => by
      have : b.retry + j + 1 > b.maxRetry := hwraps.2
      omega
    rw [Function.iterate_succ_apply', advance_iterate j (by omega) h0]
    unfold advance counted
    rw [if_neg hno]
    show (⟨b.retry + j + 1, b.seedVal + j + 1, b.maxRetry⟩ : ExponentialBackoff) = _
    rw [Int.natCast_succ, ← Int.add_assoc, ← Int.add_assoc]

/-- The seeds before the limit is reached. -/
theorem baseAt_growing {b : ExponentialBackoff} {j : Nat} (h : b.retry + j < b.maxRetry) (h0 : 0 ≤ b.retry) :
    b.baseAt j = baseOf (b.seedVal + j) := by
  have hno : ¬ Wraps ⟨b.retry + j, b.seedVal + j, b.maxRetry⟩ := fun hwraps => by
    have : b.retry + j + 1 > b.maxRetry := hwraps.2
    omega
  unfold baseAt
  rw [advance_iterate j (by omega) h0]
  unfold counted
  rw [if_neg hno]

/-- The call that reaches the limit starts over. -/
theorem baseAt_wrapping {b : ExponentialBackoff} {j : Nat} (h : b.retry + j = b.maxRetry) (h0 : 0 ≤ b.retry) :
    b.baseAt j = baseOf (2 + (0 : Nat)) := by
  have hwraps : Wraps ⟨b.retry + j, b.seedVal + j, b.maxRetry⟩ := by
    refine ⟨?_, ?_⟩
    · show b.maxRetry ≠ -1
      omega
    · show b.retry + j + 1 > b.maxRetry
      omega
  unfold baseAt
  rw [advance_iterate j (by omega) h0]
  unfold counted
  rw [if_pos hwraps, Int.natCast_zero, Int.add_zero]

/-- The fields after a call that starts over. -/
theorem advance_wrapping {b : ExponentialBackoff} (h : b.Wraps) : b.advance = ⟨0, 3, b.maxRetry⟩ := by
  unfold advance counted
  rw [if_pos h]
  rfl

/-- The delays from a call that starts over, up to the next one. -/
theorem baseAt_of_wraps {b : ExponentialBackoff} (h : b.Wraps) {j : Nat} (hj : j ≤ b.maxRetry) : b.baseAt j = baseOf (2 + j) := by
  cases j with
  | zero =>
    show baseOf b.counted.seedVal = _
    unfold counted
    rw [if_pos h, Int.natCast_zero, Int.add_zero]
  | succ j =>
    show baseOf (advance^[j] b.advance).counted.seedVal = _
    rw [advance_wrapping h]
    refine (baseAt_growing (b := ⟨0, 3, b.maxRetry⟩) ?_ (Int.le_refl _)).trans ?_
    · show 0 + (j : Int) < b.maxRetry
      omega
    · congr 1
      show 3 + (j : Int) = 2 + (j + 1 : Nat)
      omega

end ExponentialBackoff

/-- With the limit `m`, no more than `m` retries are counted. -/
structure Limited (m : Int) (b : ExponentialBackoff) : Prop where
  maxRetry : b.maxRetry = m
  retry : 0 ≤ b.retry ∧ b.retry ≤ m

theorem played_limited {m : Int} (hm : 1 ≤ m) (calls : List BackoffCall) : Limited m (played m calls) := by
  have hnew : Limited m (.new m) := ⟨rfl, ⟨Int.le_refl _, by show 0 ≤ m; omega⟩⟩
  refine Run.invariant_all (I := Limited m) (fun b call h => ?_) calls hnew
  cases call with
  | next d =>
    show Limited m b.advance
    unfold advance counted
    have hmax := h.maxRetry
    have hretry := h.retry
    split
    · exact ⟨hmax, ⟨Int.le_refl _, by show 0 ≤ m; omega⟩⟩
    · rename_i hno
      have hle : ¬ b.retry + 1 > b.maxRetry := fun hgt => hno ⟨by show b.maxRetry ≠ -1; omega, hgt⟩
      exact ⟨hmax, ⟨by show 0 ≤ b.retry + 1; omega, by show b.retry + 1 ≤ m; omega⟩⟩
  | reset => exact ⟨h.maxRetry, ⟨by show 0 ≤ b.reset.retry; rw [reset_retry]; decide, hm⟩⟩

/-- The first `k` delays from now on have the bases of the first `k` delays of a new object with the limit `m`. -/
def Restarts (m : Int) (b : ExponentialBackoff) (k : Nat) : Prop :=
  ∀ j < k, ∃ x, b.baseAt j = some x ∧ (ExponentialBackoff.new m).baseAt j = some x

section
variable {m : Int} {b : ExponentialBackoff} {k : Nat}

theorem new_baseAt {j : Nat} (hj : j < m) : (ExponentialBackoff.new m).baseAt j = baseOf (2 + j) := by
  refine baseAt_growing (b := .new m) ?_ (Int.le_refl _)
  show 0 + (j : Int) < m
  omega

theorem new_baseAt_limit {j : Nat} (hj : j = m) : (ExponentialBackoff.new m).baseAt j = baseOf (2 + (0 : Nat)) := by
  refine baseAt_wrapping (b := .new m) ?_ (Int.le_refl _)
  show 0 + (j : Int) = m
  omega

/-- A schedule that grows as a new one does restarts as long as its delays are ints. -/
theorem restarts_of_growing (hk : k ≤ 21) (hkm : k ≤ m) (h : ∀ j < k, b.baseAt j = baseOf (2 + j)) : Restarts m b k := by
  intro j hj
  have hsome := baseOf_some (n := j) (by omega)
  exact ⟨_, (h j hj).trans hsome, (new_baseAt (by omega)).trans hsome⟩

/-- A schedule that restarts is one of ints. -/
theorem Restarts.ints (h : Restarts m b k) (hlate : 21 < k → b.baseAt 21 = baseOf (2 + (21 : Nat))) : k ≤ 21 := by
  by_contra hk
  obtain ⟨x, hx, -⟩ := h 21 (by omega)
  rw [hlate (by omega), baseOf_none (Nat.le_refl 21)] at hx
  cases hx

/-- Two schedules that restart at a call have the same seed there. -/
theorem Restarts.seed {j n n' : Nat} (h : Restarts m b k) (hj : j < k) (hb : b.baseAt j = baseOf (2 + n))
    (hnew : (ExponentialBackoff.new m).baseAt j = baseOf (2 + n')) : n = n' := by
  obtain ⟨x, hx, hx'⟩ := h j hj
  exact baseOf_injective (hb.symm.trans hx) (hnew.symm.trans hx')

/-- The schedule from a call that starts over on. -/
theorem restarts_of_wraps_iff (hm : 1 ≤ m) (hmax : b.maxRetry = m) (hwraps : b.Wraps) :
    Restarts m b k ↔ k ≤ m ∧ k ≤ 21 := by
  have hgrow : ∀ j : Nat, j ≤ m → b.baseAt j = baseOf (2 + j) := fun j hj => baseAt_of_wraps hwraps (by omega)
  constructor
  · intro h
    have hkm : k ≤ m := by
      by_contra hlong
      -- at the limit a new object starts over, and this one does so one call later
      obtain ⟨n, rfl⟩ : ∃ n : Nat, m = n := ⟨m.toNat, by omega⟩
      have := h.seed (j := n) (by omega) (hgrow n (Int.le_refl _)) (new_baseAt_limit rfl)
      omega
    exact ⟨hkm, h.ints fun hk => hgrow 21 (by omega)⟩
  · rintro ⟨hkm, hk⟩
    exact restarts_of_growing hk hkm fun j hj => hgrow j (by omega)

/-- The schedule after a `reset()`. -/
theorem restarts_of_reset_iff (hm : 1 ≤ m) : Restarts m ⟨1, 2, m⟩ k ↔ (k < m ∨ k ≤ 1) ∧ k ≤ 21 := by
  have hgrow : ∀ j : Nat, j + 1 < m → (⟨1, 2, m⟩ : ExponentialBackoff).baseAt j = baseOf (2 + j) := by
    intro j hj
    refine baseAt_growing (b := ⟨1, 2, m⟩) ?_ Int.one_nonneg
    show 1 + (j : Int) < m
    omega
  have hover : ∀ j : Nat, j + 1 = m → (⟨1, 2, m⟩ : ExponentialBackoff).baseAt j = baseOf (2 + (0 : Nat)) := by
    intro j hj
    refine baseAt_wrapping (b := ⟨1, 2, m⟩) ?_ Int.one_nonneg
    show 1 + (j : Int) = m
    omega
  constructor
  · intro h
    have hkm : k < m ∨ k ≤ 1 := by
      by_contra hlong
      rw [not_or] at hlong
      by_cases hone : m = 1
      · -- the first call starts over, and a new object does so at the second
        subst hone
        have hwraps : Wraps ⟨1, 2, 1⟩ := by decide
        have := h.seed (j := 1) (by omega) (baseAt_of_wraps hwraps (Int.le_refl _)) (new_baseAt_limit rfl)
        omega
      · -- one call before the limit it starts over, and a new object does not
        obtain ⟨n, rfl⟩ : ∃ n : Nat, m = n + 1 := ⟨(m - 1).toNat, by omega⟩
        have := h.seed (j := n) (by omega) (hover n rfl) (new_baseAt (by omega))
        omega
    refine ⟨hkm, h.ints fun hk => hgrow 21 ?_⟩
    show (21 : Int) + 1 < m
    omega
  · rintro ⟨hkm, hk⟩
    by_cases hlt : k < m
    · exact restarts_of_growing hk (by omega) fun j hj => hgrow j (by omega)
    · refine restarts_of_growing hk (by omega) fun j hj => ?_
      obtain rfl : j = 0 := by omega
      exact hover 0 (by show (0 : Int) + 1 = m; omega)

end

/-- After every history of an object with a retry limit, the schedule is that of a new object for the next `k` calls after
a `reset()` if and only if `k` is less than the limit, or at most 1; and from a call that starts over on, if and only if `k` is at
most the limit. In both cases the delays are ints for 21 calls only. -/
theorem schedule_restarts_iff (m : Int) (hm : 1 ≤ m) (calls : List BackoffCall) (k : Nat) :
    (Restarts m (played m (calls ++ [.reset])) k ↔ (k < m ∨ k ≤ 1) ∧ k ≤ 21) ∧
    ((played m calls).Wraps → (Restarts m (played m calls) k ↔ k ≤ m ∧ k ≤ 21)) := by
  have hmax := (played_limited hm calls).maxRetry
  constructor
  · have hreset : (played m calls).reset = ⟨1, 2, m⟩ := by
      unfold ExponentialBackoff.reset
      rw [hmax]
    rw [played_reset, hreset]
    exact restarts_of_reset_iff hm
  · exact restarts_of_wraps_iff hm hmax

/-- With the limit 3, two calls after a `reset()` and three from a wrap-around on have the bases of a new object. -/
theorem schedule_restarts_three :
    Restarts 3 (played 3 ([.next default] ++ [.reset])) 2 ∧
    Restarts 3 (played 3 [.next default, .next default, .next default]) 3 := by
  constructor
  · exact (schedule_restarts_iff 3 (by decide) [.next default] 2).1.2 (by decide)
  · exact ((schedule_restarts_iff 3 (by decide) [.next default, .next default, .next default] 3).2 (by decide)).2 (by decide)

/-- With the limit 3, the third call after a `reset()` starts over already, and from a wrap-around on only the fifth does. -/
theorem schedule_drifts :
    ¬ Restarts 3 (played 3 [.reset]) 3 ∧ ¬ Restarts 3 (played 3 [.next default, .next default, .next default]) 4 := by
  constructor
  · intro h
    have hlimit := (restarts_of_reset_iff (by decide)).1 h
    exact absurd hlimit (by decide)
  · intro h
    have hlimit := (restarts_of_wraps_iff (by decide) (by decide) (by decide)).1 h
    exact absurd hlimit (by decide)

end Gimmm
