/-
Nothing is announced without the start tag of a `gcm` element being read: whatever tokens come and wherever
in them the reader is, no more is announced than the tokens that are taken have `gcm` start tags.
-/
import Gimmm.Fcm.Cuts

namespace Gimmm

open Xml Prog

def isGcmStart : Token → Bool
  | .startElement n u _ => n = "gcm" ∧ u = gcmNspaceUri
  | _ => false

/-- The number of `gcm` start tags. -/
def gcms (q : List Token) : Nat := q.countP isGcmStart

theorem gcms_append (q q' : List Token) : gcms (q ++ q') = gcms q + gcms q' := List.countP_append

theorem gcms_suffix {q q' : List Token} (h : q <:+ q') : gcms q ≤ gcms q' := h.sublist.countP_le

namespace FcmStream

variable {Λ : Type} {fromJson : FromJson} {c c' c'' : FcmStream Λ}

/-- What is announced and what can still be. -/
def weight (c : FcmStream Λ) : Nat := c.announced.length + gcms c.reader.queue

/-- Tokens are read, and no more is announced than `gcm` start tags among them, but for `k`. -/
structure Spends (k : Nat) (c c' : FcmStream Λ) : Prop where
  weight : c'.weight ≤ c.weight + k
  queue : c'.reader.queue <:+ c.reader.queue
  lexer : c'.reader.lexer = c.reader.lexer
  readyReads : c'.readyReads = c.readyReads

theorem Spends.trans {k l : Nat} (h : Spends k c c') (h' : Spends l c' c'') : Spends (k + l) c c'' := by
  have h1 := h.weight
  have h2 := h'.weight
  exact ⟨by omega, h'.queue.trans h.queue, h'.lexer.trans h.lexer, h'.readyReads.trans h.readyReads⟩

instance : IsPreorder (FcmStream Λ) (Spends 0) where
  refl _ := ⟨Nat.le_refl _, List.suffix_rfl, rfl, rfl⟩
  trans _ _ _ h h' := h.trans h'

abbrev Frugal {α : Type} (x : Handler Λ α) : Prop := Moves (Spends 0) x

/-! ## Statements -/

theorem does_emit_quiet {s : FcmSignal} (hs : s.announces = false) {Q : Unit → FcmStream Λ → Prop}
    {X : String → FcmStream Λ → Prop} (h : ∀ c', Spends 0 c c' → Q () c') : Does (emit s) Q X c := by
  refine does_emit fun c' h1 h2 h3 => h c' ⟨?_, h1 ▸ List.suffix_rfl, by rw [h1], h2⟩
  unfold weight
  rw [h1, h3, hs]
  simp

theorem frugal_emit {s : FcmSignal} (hs : s.announces = false) : Frugal (emit s : Handler Λ Unit) :=
  fun _ => does_emit_quiet hs fun _ h => h

/-- What is no signal is no announcement. -/
theorem frugal_perform {o : FcmOutput} (ho : ∀ s, o ≠ .emit s) : Frugal (perform o : Handler Λ Unit) := by
  intro c
  refine ⟨?_, List.suffix_rfl, rfl, rfl⟩
  show (List.filterMap _ (c.out ++ [o])).length + _ ≤ _
  rw [List.filterMap_append, List.length_append]
  cases o with
  | emit s => exact absurd rfl (ho s)
  | singleShot => exact Nat.le_refl _
  | endStream => exact Nat.le_refl _

theorem frugal_later (msec : Int) (call : FcmCall) : Frugal (perform (.singleShot msec call) : Handler Λ Unit) :=
  fun c => frugal_perform (fun _ h => by cases h) c

theorem frugal_onConn (f : FcmConnection → FcmConnection) : Frugal (onConn f : Handler Λ Unit) :=
  fun _ => ⟨Nat.le_refl _, List.suffix_rfl, rfl, rfl⟩

theorem frugal_onReader {α : Type} {f : Reader Λ → α × Reader Λ}
    (hf : ∀ r, (f r).2.queue <:+ r.queue ∧ (f r).2.lexer = r.lexer) : Frugal (onReader f) :=
  fun c => ⟨Nat.add_le_add_left (gcms_suffix (hf c.reader).1) _, (hf c.reader).1, (hf c.reader).2, rfl⟩

theorem frugal_readElementText : Frugal (readElementText : Handler Λ String) :=
  frugal_onReader fun _ => Reader.readElementText_suffix

theorem frugal_skipCurrentElement : Frugal (skipCurrentElement : Handler Λ Unit) :=
  frugal_onReader fun _ => Reader.skipCurrentElement_suffix

theorem frugal_readNextStartElement : Frugal (readNextStartElement : Handler Λ Bool) :=
  frugal_onReader fun _ => Reader.readNextStartElement_suffix

/-- One may be spent on the current token, if it starts a `gcm` element. -/
def slack (c : FcmStream Λ) : Nat := if c.isElement "gcm" gcmNspaceUri then 1 else 0

/-- A start tag that is read. -/
theorem does_readNextStartElement : Does (readNextStartElement : Handler Λ Bool)
    (fun b c' => Spends 0 c c' ∧ (b = true → c'.weight + c'.slack ≤ c.weight)) (fun _ _ => False) c := by
  refine does_onReader ⟨?_, fun hb => ?_⟩
  · exact frugal_readNextStartElement c
  · obtain ⟨pre, t, hq, hc⟩ := Reader.readNextStartElement_true hb
    have hcount : gcms c.reader.queue = gcms pre + (if isGcmStart t then 1 else 0) +
        gcms c.reader.readNextStartElement.2.queue := by
      rw [hq, gcms_append]
      unfold gcms
      rw [List.countP_cons]
      omega
    have hslack : slack { c with reader := c.reader.readNextStartElement.2 } = if isGcmStart t then 1 else 0 := by
      unfold slack isElement
      rw [hc]
      cases t <;> rfl
    show c.announced.length + gcms c.reader.readNextStartElement.2.queue + _ ≤ _
    rw [hslack]
    unfold weight
    omega

theorem frugal_forEachElement {body : Handler Λ Unit}
    (hb : ∀ c, Does body (fun _ => Spends c.slack c) (fun _ => Spends c.slack c) c) : Frugal (forEachElement body) := by
  have hloop : ∀ fuel, Frugal (whileStartElement body fuel) := by
    intro fuel
    induction fuel with
    | zero => exact Moves.pure _
    | succ fuel ih =>
      intro c
      refine Does.bind (does_readNextStartElement.mono (fun b c₁ h₁ => ?_) fun _ _ h => h.elim)
      obtain ⟨h₁, hpay⟩ := h₁
      cases b with
      | false => exact Does.pure h₁
      | true =>
        have hpay := hpay rfl
        have hjoin : ∀ c₂, Spends c₁.slack c₁ c₂ → Spends 0 c c₂ := fun c₂ h₂ =>
          ⟨Nat.le_trans h₂.weight hpay, h₂.queue.trans h₁.queue, h₂.lexer.trans h₁.lexer, h₂.readyReads.trans h₁.readyReads⟩
        refine Does.bind ((hb c₁).mono (fun _ c₂ h₂ => ?_) fun _ c₂ h₂ => hjoin c₂ h₂)
        exact ih.does (fun _ _ h₃ => (hjoin c₂ h₂).trans h₃) fun _ _ h₃ => (hjoin c₂ h₂).trans h₃
  exact Moves.get fun c => hloop _ c

theorem Frugal.spends {α : Type} {x : Handler Λ α} (h : Frugal x) (c : FcmStream Λ) :
    Does x (fun _ => Spends c.slack c) (fun _ => Spends c.slack c) c :=
  h.does (fun _ _ h => ⟨Nat.le_trans h.weight (Nat.le_add_right _ _), h.queue, h.lexer, h.readyReads⟩)
    fun _ _ h => ⟨Nat.le_trans h.weight (Nat.le_add_right _ _), h.queue, h.lexer, h.readyReads⟩

/-- A loop whose body is frugal. -/
theorem frugal_loop {body : Handler Λ Unit} (h : Frugal body) : Frugal (forEachElement body) :=
  frugal_forEachElement h.spends

/-! ## The handshake -/

theorem frugal_readMechanisms : Frugal (readMechanisms : Handler Λ Unit) := by
  refine Moves.bind (frugal_loop (Moves.get fun c => ?_)) fun _ c => frugal_later _ _ c
  split
  · have hadd : ∀ method : String, Frugal
        (modify fun c => { c with authMethods := c.authMethods ++ [method] } : Handler Λ Unit) :=
      fun _ _ => ⟨Nat.le_refl _, List.suffix_rfl, rfl, rfl⟩
    exact Moves.bind frugal_readElementText hadd c
  · exact frugal_skipCurrentElement c

theorem frugal_discardText : Frugal (discard readElementText : Handler Λ Unit) := by
  intro c
  exact frugal_readElementText c

theorem frugal_handleFeatures : Frugal (handleFeatures : Handler Λ Unit) := by
  refine frugal_loop (Moves.get fun c => ?_)
  split
  · exact frugal_readMechanisms c
  · refine Moves.get (fun c => ?_) c
    split
    · exact Moves.bind frugal_discardText (fun _ c => frugal_later _ _ c) c
    · refine Moves.get (fun c => ?_) c
      split
      · exact frugal_discardText c
      · exact frugal_skipCurrentElement c

theorem frugal_handleIq : Frugal (handleIq : Handler Λ Unit) := by
  refine frugal_loop (Moves.get fun c => ?_)
  split
  · refine frugal_loop (Moves.get fun c => ?_) c
    split
    · exact Moves.bind (frugal_onConn _) (fun _ c => frugal_emit rfl c) c
    · exact frugal_skipCurrentElement c
  · exact frugal_skipCurrentElement c

/-! ## Messages -/

theorem spends_emit {s : FcmSignal} {c : FcmStream Λ} {X : String → FcmStream Λ → Prop} :
    Does (emit s) (fun _ => Spends 1 c) X c := by
  refine does_emit fun c' h1 h2 h3 => ⟨?_, h1 ▸ List.suffix_rfl, by rw [h1], h2⟩
  have hone : (if s.announces then [s] else []).length ≤ 1 := by split <;> simp
  unfold weight
  rw [h1, h3, List.length_append]
  omega

/-- A text is announced once at most. -/
theorem spends_handleFcmMessage {json : String} :
    Does (handleFcmMessage fromJson json) (fun _ => Spends 1 c) (fun _ => Spends 1 c) c := by
  have hzero : Spends 1 c c := ⟨Nat.le_succ _, List.suffix_rfl, rfl, rfl⟩
  unfold handleFcmMessage
  split
  · exact spends_emit
  · dsimp only
    split
    · split
      · exact spends_emit
      · split
        · exact spends_emit
        · split
          · unfold handleControlMessage
            split
            · refine Does.bind (does_onConn (spends_emit.mono (fun _ c' h => ?_) fun _ _ h => h))
              exact ⟨h.weight, h.queue, h.lexer, h.readyReads⟩
            · exact spends_emit
          · split
            · exact spends_emit
            · exact Does.throw hzero
    · exact spends_emit

theorem frugal_handleMessage : Frugal (handleMessage fromJson : Handler Λ Unit) := by
  refine frugal_forEachElement fun c => Does.bind (Does.get ?_)
  split
  · rename_i hg
    have hslack : c.slack = 1 := if_pos hg
    refine Does.bind (frugal_readElementText.does (fun json c₁ h₁ => ?_) fun _ c₁ h₁ => ?_)
    · have hjoin : ∀ c₂, Spends 1 c₁ c₂ → Spends c.slack c c₂ := fun c₂ h₂ => by rw [hslack]; exact h₁.trans h₂
      exact spends_handleFcmMessage.mono (fun _ c₂ h => hjoin c₂ h) fun _ c₂ h => hjoin c₂ h
    · exact ⟨Nat.le_trans h₁.weight (Nat.le_add_right _ _), h₁.queue, h₁.lexer, h₁.readyReads⟩
  · exact Frugal.spends frugal_skipCurrentElement c

/-! ## The stream -/

theorem frugal_handleStartElement : Frugal (handleStartElement fromJson : Handler Λ Unit) := by
  refine Moves.get fun c => ?_
  split
  · exact Moves.pure _ c
  · split
    · exact frugal_handleFeatures c
    · split
      · exact frugal_handleIq c
      · split
        · exact Moves.bind frugal_discardText (fun _ => Moves.bind (frugal_emit rfl) fun _ c => frugal_later _ _ c) c
        · split
          · refine Moves.bind frugal_readNextStartElement (fun _ => Moves.get fun c => ?_) c
            exact frugal_emit rfl c
          · split
            · exact frugal_handleMessage c
            · exact Moves.throw _ c

theorem frugal_handleEndOfStream : Frugal (handleEndOfStream : Handler Λ Unit) :=
  Moves.bind (fun c => frugal_perform (fun _ h => by cases h) c) fun _ c => frugal_emit rfl c

theorem frugal_drain : ∀ fuel, Frugal (drain fuel : Handler Λ Unit)
  | 0 => Moves.pure _
  | fuel + 1 => by
    refine Moves.get fun c => ?_
    split
    · exact Moves.pure _ c
    · refine Moves.bind (frugal_onReader fun _ => Reader.readNext_suffix) (fun _ => Moves.get fun c => ?_) c
      split
      · exact Moves.bind frugal_handleEndOfStream (fun _ => frugal_drain fuel) c
      · exact frugal_drain fuel c

theorem frugal_parseXml : Frugal (parseXml fromJson : Handler Λ Unit) := by
  refine Moves.bind (frugal_loop frugal_handleStartElement) fun _ => ?_
  refine Moves.bind (Moves.get fun c => frugal_drain _ c) fun _ => Moves.get fun c => ?_
  split
  · exact Moves.pure _ c
  · split
    · exact frugal_emit rfl c
    · exact Moves.pure _ c

end FcmStream

end Gimmm
