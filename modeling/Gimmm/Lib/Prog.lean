/-
Programs that can stop midway and keep what they did: `Prog η ε γ α` runs on a state `γ` and an
environment `η` that decides the outcomes the program cannot decide itself, and ends with a value
or with a stop `ε`. `Wp E x Q X` is the weakest precondition of `x` over every environment in
`E`, with `Q` after a normal end and `X` after a stop, and the rules below take it apart one
statement at a time. `Keeps E R x` says that every run of `x` takes the state to one that `R` relates
to it; for a preorder `R` it is closed under all statements.
-/
import Mathlib.Order.Defs.Unbundled

/-- A program on a state `γ` whose undetermined outcomes an environment `η` decides. -/
abbrev Prog (η ε γ α : Type) := EStateM ε (γ × η) α

namespace Prog

variable {η ε γ δ α β : Type}

/-! ## Statements -/

/-- The state. -/
def read : Prog η ε γ γ := fun s => .ok s.1 s

/-- Apply `f` to the state. -/
def update (f : γ → γ) : Prog η ε γ Unit := fun s => .ok () (f s.1, s.2)

/-- Take a decision from the environment. -/
def decision (take : η → β × η) : Prog η ε γ β := fun s => .ok (take s.2).1 (s.1, (take s.2).2)

/-- Run `x` on the part of the state that `get` reads and `put` writes back, also when `x` stops. -/
def onPart (get : γ → δ) (put : δ → γ → γ) (x : EStateM ε δ α) : Prog η ε γ α := fun s =>
  match x (get s.1) with
  | .ok a d => .ok a (put d s.1, s.2)
  | .error e d => .error e (put d s.1, s.2)

/-- Run `x`; a stop that `catchable` accepts ends it normally, with everything `x` did kept. -/
def attempt (catchable : ε → Bool) (x : Prog η ε γ Unit) : Prog η ε γ Unit := fun s =>
  match x s with
  | .ok a s' => .ok a s'
  | .error e s' => if catchable e then .ok () s' else .error e s'

/-! ## Runs -/

section
variable {σ : Type} {x : EStateM ε σ α} {f : α → EStateM ε σ β} {s s' : σ}

theorem bind_ok {a : α} (h : x s = .ok a s') : (x >>= f) s = f a s' := by
  show EStateM.bind x f s = _
  unfold EStateM.bind
  rw [h]

theorem bind_error {err : ε} (h : x s = .error err s') : (x >>= f) s = .error err s' := by
  show EStateM.bind x f s = _
  unfold EStateM.bind
  rw [h]

theorem bind_same (h : x s = x s') : (x >>= f) s = (x >>= f) s' := by
  show EStateM.bind x f s = EStateM.bind x f s'
  unfold EStateM.bind
  rw [h]

theorem modify_ok (g : σ → σ) (s : σ) : (modify g : EStateM ε σ PUnit) s = .ok ⟨⟩ (g s) := rfl

end

/-! ## Weakest preconditions -/

/-- A result in `Q`, if it is a normal end, or in `X`, if it is a stop. -/
def Ends {σ : Type} (Q : α → σ → Prop) (X : ε → σ → Prop) : EStateM.Result ε σ α → Prop
  | .ok a s => Q a s
  | .error err s => X err s

/-- From `c`, whatever an environment in `E` decides, `x` ends normally in `Q` or stops in `X`,
and the environment it leaves is in `E`. -/
def Wp (E : η → Prop) (x : Prog η ε γ α) (Q : α → γ → Prop) (X : ε → γ → Prop) (c : γ) : Prop :=
  ∀ e, E e → Ends (fun a s => E s.2 ∧ Q a s.1) (fun err s => E s.2 ∧ X err s.1) (x (c, e))

section
variable {E : η → Prop} {X : ε → γ → Prop} {c : γ}

theorem Ends.mono {σ : Type} {Q Q' : α → σ → Prop} {X X' : ε → σ → Prop} {r : EStateM.Result ε σ α}
    (h : Ends Q X r) (hQ : ∀ a s, Q a s → Q' a s) (hX : ∀ e s, X e s → X' e s) : Ends Q' X' r := by
  cases r with
  | ok a s => exact hQ a s h
  | error err s => exact hX err s h

theorem Wp.mono {x : Prog η ε γ α} {Q Q' : α → γ → Prop} {X' : ε → γ → Prop}
    (h : Wp E x Q X c) (hQ : ∀ a c', Q a c' → Q' a c') (hX : ∀ e c', X e c' → X' e c') :
    Wp E x Q' X' c :=
  fun e he => (h e he).mono (fun _ _ h => ⟨h.1, hQ _ _ h.2⟩) (fun _ _ h => ⟨h.1, hX _ _ h.2⟩)

theorem Wp.and {x : Prog η ε γ α} {Q Q' : α → γ → Prop} {X X' : ε → γ → Prop} (h : Wp E x Q X c)
    (h' : Wp E x Q' X' c) : Wp E x (fun a c' => Q a c' ∧ Q' a c') (fun e c' => X e c' ∧ X' e c') c := by
  intro e he
  have h1 := h e he
  have h2 := h' e he
  cases hx : x (c, e) with
  | ok a s => rw [hx] at h1 h2; exact ⟨h1.1, h1.2, h2.2⟩
  | error err s => rw [hx] at h1 h2; exact ⟨h1.1, h1.2, h2.2⟩

theorem Wp.pure {a : α} {Q : α → γ → Prop} (h : Q a c) :
    Wp E (Pure.pure a : Prog η ε γ α) Q X c :=
  fun _ he => ⟨he, h⟩

theorem Wp.throw {err : ε} {Q : α → γ → Prop} (h : X err c) :
    Wp E (throw err : Prog η ε γ α) Q X c :=
  fun _ he => ⟨he, h⟩

/-- A first statement `x` after which the environment has less left to decide. -/
theorem Wp.bind_to {E' : η → Prop} (hE : ∀ e, E' e → E e) {x : Prog η ε γ α} {f : α → Prog η ε γ β}
    {Q : β → γ → Prop}
    (h : ∀ e, E e → Ends (fun a s => E' s.2 ∧ Wp E' (f a) Q X s.1) (fun err s => E s.2 ∧ X err s.1) (x (c, e))) :
    Wp E (x >>= f) Q X c := by
  intro e he
  have := h e he
  cases hx : x (c, e) with
  | error err s => rw [hx] at this; rw [bind_error hx]; exact this
  | ok a s =>
    rw [hx] at this
    rw [bind_ok hx]
    exact (this.2 s.2 this.1).mono (fun _ _ h => ⟨hE _ h.1, h.2⟩) (fun _ _ h => ⟨hE _ h.1, h.2⟩)

theorem Wp.bind {x : Prog η ε γ α} {f : α → Prog η ε γ β} {Q : β → γ → Prop}
    (h : Wp E x (fun a c' => Wp E (f a) Q X c') X c) : Wp E (x >>= f) Q X c :=
  Wp.bind_to (fun _ h => h) h

theorem Wp.read {Q : γ → γ → Prop} (h : Q c c) : Wp E (Prog.read : Prog η ε γ γ) Q X c :=
  fun _ he => ⟨he, h⟩

theorem Wp.update {f : γ → γ} {Q : Unit → γ → Prop} (h : Q () (f c)) :
    Wp E (Prog.update f : Prog η ε γ Unit) Q X c :=
  fun _ he => ⟨he, h⟩

/-- A decision leaves the state alone and may be anything an environment in `E` holds. -/
theorem Wp.decision {take : η → β × η} {Q : β → γ → Prop} (hE : ∀ e, E e → E (take e).2)
    (h : ∀ e, E e → Q (take e).1 c) : Wp E (Prog.decision take : Prog η ε γ β) Q X c :=
  fun e he => ⟨hE e he, h e he⟩

theorem Wp.onPart {get : γ → δ} {put : δ → γ → γ} {x : EStateM ε δ α} {Q : α → γ → Prop}
    (h : Ends (fun a d => Q a (put d c)) (fun e d => X e (put d c)) (x (get c))) :
    Wp E (Prog.onPart get put x : Prog η ε γ α) Q X c := by
  intro e he
  unfold Prog.onPart
  cases hx : x (get c) with
  | ok a d => rw [hx] at h; exact ⟨he, h⟩
  | error err d => rw [hx] at h; exact ⟨he, h⟩

theorem Wp.attempt {catchable : ε → Bool} {x : Prog η ε γ Unit} {Q : Unit → γ → Prop}
    (h : Wp E x Q (fun e c' => if catchable e then Q () c' else X e c') c) :
    Wp E (Prog.attempt catchable x) Q X c := by
  intro e he
  have := h e he
  unfold Prog.attempt
  cases hx : x (c, e) with
  | ok a s => rw [hx] at this; exact this
  | error err s =>
    rw [hx] at this
    obtain ⟨h1, h2⟩ := this
    by_cases hc : catchable err = true
    · rw [if_pos hc] at h2; simp only [if_pos hc]; exact ⟨h1, h2⟩
    · rw [if_neg hc] at h2; simp only [if_neg hc]; exact ⟨h1, h2⟩

/-- The invariant rule of a loop over a list; the invariant sees what is left of the list. -/
theorem Wp.forM {I : List α → γ → Prop} {body : α → Prog η ε γ PUnit}
    (hb : ∀ a l c, I (a :: l) c → Wp E (body a) (fun _ => I l) X c) :
    ∀ (l : List α) {c : γ}, I l c → Wp E (l.forM body) (fun _ => I []) X c
  | [], _, hc => Wp.pure hc
  | a :: l, c, hc => by
    apply Wp.bind (x := body a) (f := fun _ => l.forM body)
    exact (hb a l c hc).mono (fun _ c' hc' => Wp.forM hb l hc') (fun _ _ h => h)

end

/-! ## Programs without an environment -/

/-- From `s`, `x` ends normally in `Q` or stops in `X`. -/
def Does {σ : Type} (x : EStateM ε σ α) (Q : α → σ → Prop) (X : ε → σ → Prop) (s : σ) : Prop := Ends Q X (x s)

section
variable {σ : Type} {X : ε → σ → Prop} {s : σ}

theorem Does.mono {x : EStateM ε σ α} {Q Q' : α → σ → Prop} {X' : ε → σ → Prop} (h : Does x Q X s)
    (hQ : ∀ a s', Q a s' → Q' a s') (hX : ∀ e s', X e s' → X' e s') : Does x Q' X' s := Ends.mono h hQ hX

theorem Does.pure {a : α} {Q : α → σ → Prop} (h : Q a s) : Does (Pure.pure a : EStateM ε σ α) Q X s := h

theorem Does.throw {err : ε} {Q : α → σ → Prop} (h : X err s) : Does (throw err : EStateM ε σ α) Q X s := h

theorem Does.get {Q : σ → σ → Prop} (h : Q s s) : Does (MonadState.get : EStateM ε σ σ) Q X s := h

theorem Does.bind {x : EStateM ε σ α} {f : α → EStateM ε σ β} {Q : β → σ → Prop}
    (h : Does x (fun a s' => Does (f a) Q X s') X s) : Does (x >>= f) Q X s := by
  unfold Does at h ⊢
  cases hx : x s with
  | ok a s' => rw [hx] at h; rw [bind_ok hx]; exact h
  | error err s' => rw [hx] at h; rw [bind_error hx]; exact h

/-- The invariant rule of a loop over a list; an iteration that stops, stops the loop. -/
theorem Does.forM {I : List α → σ → Prop} {body : α → EStateM ε σ PUnit}
    (hb : ∀ a l s, I (a :: l) s → Does (body a) (fun _ => I l) X s) :
    ∀ (l : List α) {s : σ}, I l s → Does (l.forM body) (fun _ => I []) X s
  | [], _, hs => Does.pure hs
  | a :: l, s, hs => by
    apply Does.bind (x := body a) (f := fun _ => l.forM body)
    exact (hb a l s hs).mono (fun _ s' hs' => Does.forM hb l hs') (fun _ _ h => h)

end

section
variable {X : ε → γ × η → Prop} {s : γ × η}

theorem Does.read {Q : γ → γ × η → Prop} (h : Q s.1 s) : Does (Prog.read : Prog η ε γ γ) Q X s := h

theorem Does.update {f : γ → γ} {Q : Unit → γ × η → Prop} (h : Q () (f s.1, s.2)) :
    Does (Prog.update f : Prog η ε γ Unit) Q X s := h

end

/-- However `x` ends, the state it leaves is related by `R` to the state it found. -/
def Moves {σ : Type} (R : σ → σ → Prop) (x : EStateM ε σ α) : Prop := ∀ s, Does x (fun _ => R s) (fun _ => R s) s

section
variable {σ : Type} {R : σ → σ → Prop}

theorem Moves.does {x : EStateM ε σ α} (h : Moves R x) {s : σ} {Q : α → σ → Prop} {X : ε → σ → Prop}
    (hQ : ∀ a s', R s s' → Q a s') (hX : ∀ e s', R s s' → X e s') : Does x Q X s :=
  (h s).mono (fun a s' => hQ a s') (fun e s' => hX e s')

theorem Moves.get {f : σ → EStateM ε σ α} (h : ∀ s, Does (f s) (fun _ => R s) (fun _ => R s) s) :
    Moves R (MonadState.get >>= f) := fun s => Does.bind (Does.get (h s))

variable [IsPreorder σ R]

theorem Moves.pure (a : α) : Moves R (Pure.pure a : EStateM ε σ α) := fun s => Does.pure (refl s)

theorem Moves.throw (err : ε) : Moves R (throw err : EStateM ε σ α) := fun s => Does.throw (refl s)

theorem Moves.bind {x : EStateM ε σ α} {f : α → EStateM ε σ β} (hx : Moves R x) (hf : ∀ a, Moves R (f a)) :
    Moves R (x >>= f) := by
  intro s
  refine Does.bind ((hx s).mono (fun a s' h => ?_) fun _ _ h => h)
  exact (hf a).does (fun _ _ h' => IsTrans.trans _ _ _ h h') (fun _ _ h' => IsTrans.trans _ _ _ h h')

end

/-- From `s`, `x` ends in `I`, and if it stops, then in `C`. -/
abbrev Lands {σ : Type} (I : σ → Prop) (C : ε → Prop) (x : EStateM ε σ α) (s : σ) : Prop :=
  Does x (fun _ => I) (fun err s' => C err ∧ I s') s

/-- From every state in `I`, `x` ends in `I`, and if it stops, then in `C`. -/
def Safe {σ : Type} (I : σ → Prop) (C : ε → Prop) (x : EStateM ε σ α) : Prop := ∀ s, I s → Lands I C x s

section
variable {σ : Type} {I : σ → Prop} {C : ε → Prop}

theorem Safe.pure (a : α) : Safe I C (Pure.pure a : EStateM ε σ α) := fun _ hs => hs

theorem Safe.throw {err : ε} (h : C err) : Safe I C (throw err : EStateM ε σ α) := fun _ hs => ⟨h, hs⟩

theorem Safe.after {x : EStateM ε σ α} {f : α → EStateM ε σ β} {s : σ} (hx : Lands I C x s) (hf : ∀ a, Safe I C (f a)) :
    Lands I C (x >>= f) s := Does.bind (hx.mono (fun a s' h => hf a s' h) fun _ _ h => h)

theorem Safe.bind {x : EStateM ε σ α} {f : α → EStateM ε σ β} (hx : Safe I C x) (hf : ∀ a, Safe I C (f a)) :
    Safe I C (x >>= f) := fun s hs => Safe.after (hx s hs) hf

theorem Safe.modify {f : σ → σ} (h : ∀ s, I s → I (f s)) : Safe I C (modifyThe σ f : EStateM ε σ PUnit) :=
  fun s hs => h s hs

section
variable {I : γ × η → Prop}

/-- After a read the rest need only land from the state that was read. -/
theorem Safe.read {f : γ → Prog η ε γ α} (h : ∀ c e, I (c, e) → Lands I C (f c) (c, e)) : Safe I C (Prog.read >>= f) :=
  fun s hs => Does.bind (Does.read (h s.1 s.2 hs))

theorem Safe.update {f : γ → γ} (h : ∀ c e, I (c, e) → I (f c, e)) : Safe I C (Prog.update f : Prog η ε γ Unit) :=
  fun s hs => Does.update (h s.1 s.2 hs)

/-- A decision whose value is known to be in `P`. -/
theorem Safe.decision {take : η → β × η} {P : β → Prop} {f : β → Prog η ε γ α}
    (h : ∀ c e, I (c, e) → P (take e).1 ∧ I (c, (take e).2)) (hf : ∀ b, P b → Safe I C (f b)) :
    Safe I C (Prog.decision take >>= f) := fun s hs =>
  Does.bind (x := Prog.decision take) (hf _ (h s.1 s.2 hs).1 _ (h s.1 s.2 hs).2)

theorem Safe.onPart {J : δ → Prop} {get : γ → δ} {put : δ → γ → γ} {x : EStateM ε δ α}
    (hget : ∀ c e, I (c, e) → J (get c)) (hput : ∀ d c e, I (c, e) → J d → I (put d c, e)) (hx : Safe J C x) :
    Safe I C (Prog.onPart get put x : Prog η ε γ α) := by
  intro s hs
  have hends := hx (get s.1) (hget s.1 s.2 hs)
  unfold Lands Does at hends ⊢
  unfold Prog.onPart
  cases hrun : x (get s.1) with
  | ok a d =>
    rw [hrun] at hends
    exact hput d s.1 s.2 hs hends
  | error err d =>
    rw [hrun] at hends
    exact ⟨hends.1, hput d s.1 s.2 hs hends.2⟩

/-- What stops only where it is caught does not stop. -/
theorem Lands.caught {catchable : ε → Bool} {x : Prog η ε γ Unit} {s : γ × η}
    (h : Lands I (fun err => catchable err = true) x s) : Lands I (fun _ => False) (Prog.attempt catchable x) s := by
  unfold Lands Does at h ⊢
  unfold Prog.attempt
  cases hrun : x s with
  | ok a s' =>
    rw [hrun] at h
    exact h
  | error err s' =>
    rw [hrun] at h
    simp only [if_pos h.1]
    exact h.2

end

theorem Lands.weaken {I' : σ → Prop} {x : EStateM ε σ α} {s : σ} (h : Lands I (fun _ => False) x s)
    (hI : ∀ s', I s' → I' s') : Lands I' C x s := h.mono (fun _ s' => hI s') fun _ _ h => h.1.elim

theorem Safe.weaken {x : EStateM ε σ α} (h : Safe I (fun _ => False) x) : Safe I C x :=
  fun s hs => (h s hs).weaken fun _ h => h

end

/-! ## Two runs -/

/-- Two runs end in the same way, in states related by `R`. -/
inductive Agree {σ : Type} (R : σ → σ → Prop) : EStateM.Result ε σ α → EStateM.Result ε σ α → Prop where
  | ok (a : α) {s t : σ} (h : R s t) : Agree R (.ok a s) (.ok a t)
  | error (e : ε) {s t : σ} (h : R s t) : Agree R (.error e s) (.error e t)

/-- From states related by `R`, two runs of `x` end in the same way, in states that are again related. -/
def Uniform {σ : Type} (R : σ → σ → Prop) (x : EStateM ε σ α) : Prop := ∀ s t, R s t → Agree R (x s) (x t)

section
variable {σ : Type} {R : σ → σ → Prop}

theorem Uniform.pure (a : α) : Uniform R (Pure.pure a : EStateM ε σ α) := fun _ _ h => .ok a h

theorem Uniform.throw (err : ε) : Uniform R (throw err : EStateM ε σ α) := fun _ _ h => .error err h

theorem Uniform.modify {f : σ → σ} (h : ∀ s t, R s t → R (f s) (f t)) :
    Uniform R (modifyThe σ f : EStateM ε σ PUnit) := by
  intro s t hst
  show Agree R (.ok PUnit.unit (f s)) (.ok PUnit.unit (f t))
  exact .ok _ (h s t hst)

/-- The two runs may read what is the same in related states. -/
theorem Uniform.get {f : σ → EStateM ε σ α} (hsame : ∀ s t, R s t → f s = f t) (hf : ∀ s, Uniform R (f s)) :
    Uniform R (MonadState.get >>= f) := by
  intro s t h
  show Agree R (f s s) (f t t)
  rw [hsame s t h]
  exact hf t s t h

theorem Agree.bind {x : EStateM ε σ α} {f : α → EStateM ε σ β} {s t : σ} (hx : Agree R (x s) (x t))
    (hf : ∀ a, Uniform R (f a)) : Agree R ((x >>= f) s) ((x >>= f) t) := by
  cases hs : x s with
  | ok a s' =>
    cases ht : x t with
    | ok b t' =>
      rw [hs, ht] at hx
      cases hx with
      | ok _ h =>
        rw [bind_ok hs, bind_ok ht]
        exact hf a s' t' h
    | error => rw [hs, ht] at hx; cases hx
  | error err s' =>
    cases ht : x t with
    | ok => rw [hs, ht] at hx; cases hx
    | error err' t' =>
      rw [hs, ht] at hx
      cases hx with
      | error _ h =>
        rw [bind_error hs, bind_error ht]
        exact .error err h

theorem Uniform.bind {x : EStateM ε σ α} {f : α → EStateM ε σ β} (hx : Uniform R x) (hf : ∀ a, Uniform R (f a)) :
    Uniform R (x >>= f) := fun s t h => (hx s t h).bind hf

end

/-! ## Frames -/

/-- Whatever an environment in `E` decides and however `x` ends, the state it leaves is related by `R` to
the state it found. -/
def Keeps (E : η → Prop) (R : γ → γ → Prop) (x : Prog η ε γ α) : Prop :=
  ∀ c, Wp E x (fun _ => R c) (fun _ => R c) c

section
variable {E : η → Prop} {R : γ → γ → Prop} {c : γ}

/-- A program that keeps `R` may stand where only `R` matters afterwards. -/
theorem Keeps.wp {x : Prog η ε γ α} {Q : α → γ → Prop} {X : ε → γ → Prop} (h : Keeps E R x)
    (hQ : ∀ a c', R c c' → Q a c') (hX : ∀ e c', R c c' → X e c') : Wp E x Q X c :=
  (h c).mono (fun a c' => hQ a c') (fun e c' => hX e c')

theorem Keeps.update {f : γ → γ} (h : ∀ c, R c (f c)) : Keeps E R (Prog.update f : Prog η ε γ Unit) :=
  fun c => Wp.update (h c)

theorem Keeps.onPart {get : γ → δ} {put : δ → γ → γ} {x : EStateM ε δ α} (h : ∀ d c, R c (put d c)) :
    Keeps E R (Prog.onPart get put x : Prog η ε γ α) := by
  intro c
  refine Wp.onPart ?_
  cases x (get c) with
  | ok a d => exact h d c
  | error e d => exact h d c

theorem Keeps.attempt {catchable : ε → Bool} {x : Prog η ε γ Unit} (h : Keeps E R x) :
    Keeps E R (Prog.attempt catchable x) := by
  intro c
  refine Wp.attempt ((h c).mono (fun _ _ h => h) fun e c' hc => ?_)
  split <;> exact hc

/-- After a read the rest need only keep `R` from the state that was read. -/
theorem Keeps.read {f : γ → Prog η ε γ α} (h : ∀ c, Wp E (f c) (fun _ => R c) (fun _ => R c) c) :
    Keeps E R (Prog.read >>= f) := fun c => Wp.bind (Wp.read (h c))

variable [IsPreorder γ R]

theorem Keeps.pure (a : α) : Keeps E R (Pure.pure a : Prog η ε γ α) := fun c => Wp.pure (refl c)

theorem Keeps.throw (err : ε) : Keeps E R (throw err : Prog η ε γ α) := fun c => Wp.throw (refl c)

theorem Keeps.decision {take : η → β × η} (hE : ∀ e, E e → E (take e).2) :
    Keeps E R (Prog.decision take : Prog η ε γ β) := fun c => Wp.decision hE fun _ _ => refl c

theorem Keeps.bind {x : Prog η ε γ α} {f : α → Prog η ε γ β} (hx : Keeps E R x) (hf : ∀ a, Keeps E R (f a)) :
    Keeps E R (x >>= f) := by
  intro c
  refine Wp.bind ((hx c).mono (fun a c' h => ?_) fun _ _ h => h)
  exact (hf a).wp (fun _ _ h' => IsTrans.trans _ _ _ h h') (fun _ _ h' => IsTrans.trans _ _ _ h h')

theorem Keeps.forM {body : α → Prog η ε γ PUnit} (hb : ∀ a, Keeps E R (body a)) :
    ∀ l : List α, Keeps E R (l.forM body)
  | [] => Keeps.pure _
  | a :: l => Keeps.bind (x := body a) (f := fun _ => l.forM body) (hb a) fun _ => Keeps.forM hb l

end

end Prog
