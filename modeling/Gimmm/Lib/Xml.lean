/-
A pull reader of XML whose data arrives in pieces. A tokenizer makes tokens of the data as it is added. The
reader reports them one by one; when it has none left it reports the premature end of the document and goes on
once data is added, but after any other error it reports nothing more.
-/
import Mathlib.Data.List.Basic

namespace Xml

inductive Token where
  | startDocument
  | startElement (name namespaceUri : String) (attributes : List (String × String))
  | endElement (name : String)
  | characters (text : String)
  | comment
  | dtd
  | endDocument
  /-- The data is not well-formed from here on. -/
  | malformed (what : String)
deriving DecidableEq, Repr

def Token.isStart : Token → Bool
  | .startElement .. => true
  | _ => false

/-! ## Tokenizers -/

/-- An incremental tokenizer: what it makes of the next `β` depends on what it has seen. -/
structure Lexer (β Λ : Type) where
  init : Λ
  feed : Λ → β → Λ × List Token

namespace Lexer

variable {β Λ : Type} (L : Lexer β Λ)

/-- What the tokenizer is left with after `bs`, and their tokens. -/
def read : Λ → List β → Λ × List Token
  | l, [] => (l, [])
  | l, b :: bs => ((read (L.feed l b).1 bs).1, (L.feed l b).2 ++ (read (L.feed l b).1 bs).2)

/-- However the data is cut, its tokens are the same. -/
theorem read_append (l : Λ) (bs cs : List β) :
    L.read l (bs ++ cs) = ((L.read (L.read l bs).1 cs).1, (L.read l bs).2 ++ (L.read (L.read l bs).1 cs).2) := by
  induction bs generalizing l with
  | nil => rfl
  | cons b bs ih =>
    simp only [List.cons_append, read]
    rw [ih]
    simp

/-- The tokens that each piece of the data completes. -/
def segments : Λ → List (List β) → List (List Token)
  | _, [] => []
  | l, bs :: pieces => (L.read l bs).2 :: segments (L.read l bs).1 pieces

theorem segments_flatten (l : Λ) (pieces : List (List β)) :
    (L.segments l pieces).flatten = (L.read l pieces.flatten).2 := by
  induction pieces generalizing l with
  | nil => rfl
  | cons bs pieces ih => rw [List.flatten_cons, read_append, segments, List.flatten_cons, ih]

end Lexer

/-! ## Readers -/

inductive Error where
  | prematureEndOfDocument
  | notWellFormed (what : String)
  | unexpectedElement
deriving DecidableEq, Repr

/-- `queue` are the tokens of the data that is added and not read yet; `current` is the token reported last,
`none` if it is invalid. -/
structure Reader (Λ : Type) where
  lexer : Λ
  queue : List Token
  current : Option Token
  error : Option Error

namespace Reader

variable {β Λ : Type}

/-- A reader without data. -/
def new (L : Lexer β Λ) : Reader Λ := ⟨L.init, [], none, none⟩

def addData (L : Lexer β Λ) (bytes : List β) (r : Reader Λ) : Reader Λ :=
  { r with lexer := (L.read r.lexer bytes).1, queue := r.queue ++ (L.read r.lexer bytes).2 }

/-- More data does not help. -/
def stuck (r : Reader Λ) : Bool := r.error.any (· ≠ .prematureEndOfDocument)

/-- The token `t` is reported, and `q` is left. -/
def report (r : Reader Λ) (t : Token) (q : List Token) : Reader Λ :=
  { r with queue := q, current := some t, error := none }

def fail (r : Reader Λ) (e : Error) (q : List Token) : Reader Λ :=
  { r with queue := q, current := none, error := some e }

/-- Nothing is reported, as after an error. -/
def stay (r : Reader Λ) : Reader Λ := { r with current := none }

def readNext (r : Reader Λ) : Reader Λ :=
  if r.stuck then r.stay
  else
    match r.queue with
    | [] => r.fail .prematureEndOfDocument []
    | .malformed what :: q => r.fail (.notWellFormed what) q
    | t :: q => r.report t q

def atEnd (r : Reader Λ) : Bool :=
  match r.current with
  | none => r.error.isSome
  | some t => t = .endDocument

/-- Read until a start element, which is true, or an end element or an error. -/
def readNextStartElement (r : Reader Λ) : Bool × Reader Λ :=
  if r.stuck then (false, r.stay) else go r.queue
where
  go : List Token → Bool × Reader Λ
    | [] => (false, r.fail .prematureEndOfDocument [])
    | .malformed what :: q => (false, r.fail (.notWellFormed what) q)
    | .startElement n u a :: q => (true, r.report (.startElement n u a) q)
    | .endElement n :: q => (false, r.report (.endElement n) q)
    | _ :: q => go q

/-- The text up to the end of the current element, in which another element is an error. -/
def readElementText (r : Reader Λ) : String × Reader Λ :=
  match r.current with
  | some (.startElement ..) => if r.stuck then ("", r.stay) else go "" r.queue
  | _ => ("", r)
where
  go (text : String) : List Token → String × Reader Λ
    | [] => (text, r.fail .prematureEndOfDocument [])
    | .malformed what :: q => (text, r.fail (.notWellFormed what) q)
    | .characters t :: q => go (text ++ t) q
    | .comment :: q => go text q
    | .endElement n :: q => (text, r.report (.endElement n) q)
    | _ :: q => (text, r.fail .unexpectedElement q)

/-- Read to the end of the current element, over the elements in it. -/
def skipCurrentElement (r : Reader Λ) : Reader Λ :=
  if r.stuck then r.stay else go r.current 1 r.queue
where
  go (current : Option Token) : Nat → List Token → Reader Λ
    | 0, q => { r with queue := q, current := current, error := none }
    | _ + 1, [] => r.fail .prematureEndOfDocument []
    | _ + 1, .malformed what :: q => r.fail (.notWellFormed what) q
    | depth + 1, .startElement n u a :: q => go (some (.startElement n u a)) (depth + 2) q
    | depth + 1, .endElement n :: q => go (some (.endElement n)) depth q
    | depth + 1, t :: q => go (some t) (depth + 1) q

end Reader

/-! ## Documents -/

/-- Complete elements, with text and comments between them. -/
inductive Forest where
  | nil
  | text (t : String) (rest : Forest)
  | comment (rest : Forest)
  | element (name namespaceUri : String) (attributes : List (String × String)) (children rest : Forest)

structure Element where
  name : String
  namespaceUri : String
  attributes : List (String × String)
  children : Forest

namespace Forest

def tokens : Forest → List Token
  | nil => []
  | text t rest => .characters t :: rest.tokens
  | comment rest => .comment :: rest.tokens
  | element n u a children rest => .startElement n u a :: (children.tokens ++ .endElement n :: rest.tokens)

/-- The outermost elements. -/
def elements : Forest → List Element
  | nil => []
  | text _ rest => rest.elements
  | comment rest => rest.elements
  | element n u a children rest => ⟨n, u, a, children⟩ :: rest.elements

/-- The text, if there is no element in it. -/
def text? : Forest → Option String
  | nil => some ""
  | text t rest => rest.text?.map (t ++ ·)
  | comment rest => rest.text?
  | element .. => none

end Forest

namespace Reader

variable {Λ : Type} {r : Reader Λ} {q : List Token}

/-! ## Reading takes tokens -/

theorem next_go_cases (q : List Token) : (readNextStartElement.go r q).2.queue <:+ q ∧
    (readNextStartElement.go r q).2.lexer = r.lexer ∧ ((readNextStartElement.go r q).1 = true →
      ∃ pre t, q = pre ++ t :: (readNextStartElement.go r q).2.queue ∧
        (readNextStartElement.go r q).2.current = some t) := by
  induction q with
  | nil => exact ⟨List.suffix_rfl, rfl, fun h => by cases h⟩
  | cons t q ih =>
    have hskip : ∀ t : Token, readNextStartElement.go r (t :: q) = readNextStartElement.go r q →
        (readNextStartElement.go r (t :: q)).2.queue <:+ t :: q ∧
          (readNextStartElement.go r (t :: q)).2.lexer = r.lexer ∧ ((readNextStartElement.go r (t :: q)).1 = true →
          ∃ pre t', t :: q = pre ++ t' :: (readNextStartElement.go r (t :: q)).2.queue ∧
            (readNextStartElement.go r (t :: q)).2.current = some t') := by
      intro t he
      rw [he]
      refine ⟨ih.1.trans (List.suffix_cons ..), ih.2.1, fun h => ?_⟩
      obtain ⟨pre, t', h1, h2⟩ := ih.2.2 h
      exact ⟨t :: pre, t', by rw [List.cons_append, ← h1], h2⟩
    cases t with
    | malformed => exact ⟨List.suffix_cons .., rfl, fun h => by cases h⟩
    | endElement => exact ⟨List.suffix_cons .., rfl, fun h => by cases h⟩
    | startElement n u a => exact ⟨List.suffix_cons .., rfl, fun _ => ⟨[], _, rfl, rfl⟩⟩
    | _ => exact hskip _ rfl

theorem readNextStartElement_suffix : r.readNextStartElement.2.queue <:+ r.queue ∧
    r.readNextStartElement.2.lexer = r.lexer := by
  unfold readNextStartElement
  split
  · exact ⟨List.suffix_rfl, rfl⟩
  · exact ⟨(next_go_cases r.queue).1, (next_go_cases r.queue).2.1⟩

theorem readNextStartElement_true (h : r.readNextStartElement.1 = true) :
    ∃ pre t, r.queue = pre ++ t :: r.readNextStartElement.2.queue ∧ r.readNextStartElement.2.current = some t := by
  unfold readNextStartElement at h ⊢
  split at h
  · cases h
  · rename_i hs
    rw [if_neg hs]
    exact (next_go_cases r.queue).2.2 h

theorem readNext_suffix : r.readNext.queue <:+ r.queue ∧ r.readNext.lexer = r.lexer := by
  unfold readNext
  split
  · exact ⟨List.suffix_rfl, rfl⟩
  · split
    · rename_i h; rw [h]; exact ⟨List.suffix_rfl, rfl⟩
    · rename_i h; rw [h]; exact ⟨List.suffix_cons .., rfl⟩
    · rename_i h; rw [h]; exact ⟨List.suffix_cons .., rfl⟩

theorem text_go_suffix (acc : String) (q : List Token) : (readElementText.go r acc q).2.queue <:+ q ∧
    (readElementText.go r acc q).2.lexer = r.lexer := by
  induction q generalizing acc with
  | nil => exact ⟨List.suffix_rfl, rfl⟩
  | cons t q ih =>
    cases t with
    | characters t => exact ⟨(ih _).1.trans (List.suffix_cons ..), (ih _).2⟩
    | comment => exact ⟨(ih _).1.trans (List.suffix_cons ..), (ih _).2⟩
    | _ => exact ⟨List.suffix_cons .., rfl⟩

theorem readElementText_suffix : r.readElementText.2.queue <:+ r.queue ∧ r.readElementText.2.lexer = r.lexer := by
  unfold readElementText
  split
  · split
    · exact ⟨List.suffix_rfl, rfl⟩
    · exact text_go_suffix ..
  · exact ⟨List.suffix_rfl, rfl⟩

theorem skip_go_suffix (current : Option Token) (depth : Nat) (q : List Token) :
    (skipCurrentElement.go r current depth q).queue <:+ q ∧
      (skipCurrentElement.go r current depth q).lexer = r.lexer := by
  induction q generalizing current depth with
  | nil => cases depth <;> exact ⟨List.suffix_rfl, rfl⟩
  | cons t q ih =>
    cases depth with
    | zero => exact ⟨List.suffix_rfl, rfl⟩
    | succ depth =>
      cases t with
      | malformed => exact ⟨List.suffix_cons .., rfl⟩
      | _ => exact ⟨(ih _ _).1.trans (List.suffix_cons ..), (ih _ _).2⟩

theorem skipCurrentElement_suffix : r.skipCurrentElement.queue <:+ r.queue ∧ r.skipCurrentElement.lexer = r.lexer := by
  unfold skipCurrentElement
  split
  · exact ⟨List.suffix_rfl, rfl⟩
  · exact skip_go_suffix ..

/-! ## Reading over documents -/

/-- Reading over the elements in the current one. -/
theorem skip_go_tokens (f : Forest) (current : Option Token) (depth : Nat) (q : List Token) :
    ∃ current', skipCurrentElement.go r current (depth + 1) (f.tokens ++ q) =
      skipCurrentElement.go r current' (depth + 1) q := by
  induction f generalizing current depth q with
  | nil => exact ⟨current, rfl⟩
  | text t rest ih => exact ih (some (.characters t)) depth q
  | comment rest ih => exact ih (some .comment) depth q
  | element n u a children rest ihc ihr =>
    obtain ⟨c₁, h₁⟩ := ihc (some (.startElement n u a)) (depth + 1) (.endElement n :: (rest.tokens ++ q))
    obtain ⟨c₂, h₂⟩ := ihr (some (.endElement n)) depth q
    refine ⟨c₂, ?_⟩
    rw [← h₂]
    show skipCurrentElement.go r _ (depth + 2) ((children.tokens ++ .endElement n :: rest.tokens) ++ q) = _
    rw [List.append_assoc]
    exact h₁

theorem skipCurrentElement_tokens {f : Forest} {n : String} (hs : r.stuck = false)
    (hq : r.queue = f.tokens ++ .endElement n :: q) : r.skipCurrentElement = r.report (.endElement n) q := by
  unfold skipCurrentElement
  rw [hs, hq]
  obtain ⟨c, h⟩ := skip_go_tokens (r := r) f r.current 0 (.endElement n :: q)
  rw [if_neg (by decide), h]
  cases q <;> rfl

theorem text_go_tokens {f : Forest} {t : String} (ht : f.text? = some t) (acc : String) (q : List Token) :
    readElementText.go r acc (f.tokens ++ q) = readElementText.go r (acc ++ t) q := by
  induction f generalizing acc t with
  | nil => cases ht; simp [Forest.tokens]
  | text s rest ih =>
    obtain ⟨t', ht', rfl⟩ := Option.map_eq_some_iff.1 ht
    show readElementText.go r (acc ++ s) (rest.tokens ++ q) = _
    rw [ih ht', String.append_assoc]
  | comment rest ih => exact ih ht acc
  | element => cases ht

theorem readElementText_tokens {f : Forest} {m n u t : String} {a : List (String × String)} (hs : r.stuck = false)
    (hc : r.current = some (.startElement m u a)) (ht : f.text? = some t)
    (hq : r.queue = f.tokens ++ .endElement n :: q) : r.readElementText = (t, r.report (.endElement n) q) := by
  unfold readElementText
  rw [hc, hs, hq]
  show readElementText.go r "" _ = _
  rw [text_go_tokens ht, String.empty_append]
  rfl

end Reader

end Xml
