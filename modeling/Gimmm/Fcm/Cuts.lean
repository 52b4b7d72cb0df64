/-
Message stanzas of FCM that arrive cut. A stanza is announced as soon as its JSON text is read; what is left
of it is closing tags, and with these the reader throws away everything that came with them.
-/
import Gimmm.Fcm.Stanzas

namespace Xml

/-- Text or a comment. -/
def Token.blank : Token → Bool
  | .characters _ => true
  | .comment => true
  | _ => false

/-- Neither a start tag nor the end of the document. -/
def Token.inert : Token → Bool
  | .characters _ => true
  | .comment => true
  | .endElement _ => true
  | _ => false

/-- A token inside a document. -/
def Token.ordinary : Token → Bool
  | .startElement .. => true
  | t => t.inert

theorem Token.inert_of_blank {t : Token} (h : t.blank = true) : t.inert = true := by
  cases t <;> first | rfl | cases h

theorem Token.ordinary_of_inert {t : Token} (h : t.inert = true) : t.ordinary = true := by
  cases t <;> first | rfl | cases h

/-- The forest after some text and comments. -/
def Forest.gap : List Token → Forest → Forest
  | [], f => f
  | .characters t :: g, f => .text t (gap g f)
  | _ :: g, f => .comment (gap g f)

theorem Forest.gap_tokens {g : List Token} (hg : ∀ t ∈ g, t.blank = true) (f : Forest) :
    (gap g f).tokens = g ++ f.tokens := by
  induction g with
  | nil => rfl
  | cons t g ih =>
    have ih := ih fun s hs => hg s (List.mem_cons_of_mem _ hs)
    have ht := hg t (List.mem_cons_self ..)
    cases t with
    | characters t => exact congrArg (Token.characters t :: ·) ih
    | comment => exact congrArg (Token.comment :: ·) ih
    | _ => cases ht

theorem Forest.gap_elements (g : List Token) (f : Forest) : (gap g f).elements = f.elements := by
  induction g with
  | nil => rfl
  | cons t g ih => cases t <;> exact ih

end Xml

namespace Gimmm

open Xml Prog

/-! ## Stanzas -/

/-- A message stanza as FCM sends it: one `gcm` element with a JSON text. -/
structure Stanza where
  attributes : List (String × String)
  before : List Token
  gcmAttributes : List (String × String)
  json : String
  after : List Token
  before_blank : ∀ t ∈ before, t.blank = true
  after_blank : ∀ t ∈ after, t.blank = true

def gcmStart (attributes : List (String × String)) : Token := .startElement "gcm" gcmNspaceUri attributes

def messageStart (attributes : List (String × String)) : Token := .startElement "message" defaultNspaceUri attributes

namespace Stanza

/-- The tokens up to the JSON text. -/
def opening (s : Stanza) : List Token :=
  messageStart s.attributes :: (s.before ++ [gcmStart s.gcmAttributes, .characters s.json])

/-- The tokens after the JSON text. -/
def closing (s : Stanza) : List Token := .endElement "gcm" :: (s.after ++ [.endElement "message"])

def tokens (s : Stanza) : List Token := s.opening ++ s.closing

def element (s : Stanza) : Element :=
  ⟨"message", defaultNspaceUri, s.attributes,
    .gap s.before (.element "gcm" gcmNspaceUri s.gcmAttributes (.text s.json .nil) (.gap s.after .nil))⟩

/-- The announcement of the stanza. -/
def announces (fromJson : FromJson) (s : Stanza) : List FcmSignal := (announcement fromJson s.json).toList

end Stanza

/-- The tokens `ts` are those of complete stanzas, with text and comments between them. -/
inductive Layout : List Stanza → List Token → Prop where
  | nil {gap : List Token} (hgap : ∀ t ∈ gap, t.blank = true) : Layout [] gap
  | cons {gap : List Token} (hgap : ∀ t ∈ gap, t.blank = true) (s : Stanza) {xs : List Stanza} {ts : List Token}
      (h : Layout xs ts) : Layout (s :: xs) (gap ++ (s.tokens ++ ts))

/-- The tokens that one chunk completes: closing tags and what is between tags, or whole stanzas, the last of
which may lack what comes after its JSON text. -/
inductive Served : List Token → Prop where
  | closes {ts : List Token} (h : ∀ t ∈ ts, t.inert = true) : Served ts
  | whole {xs : List Stanza} {ts : List Token} (h : Layout xs ts) : Served ts
  | cut {xs : List Stanza} {ts tail : List Token} (h : Layout xs ts) (s : Stanza) (htail : tail <+: s.closing) :
      Served (ts ++ (s.opening ++ tail))

theorem Stanza.element_tokens (s : Stanza) (f : Forest) :
    (Forest.element s.element.name s.element.namespaceUri s.element.attributes s.element.children f).tokens =
      s.tokens ++ f.tokens := by
  show messageStart s.attributes :: ((Forest.gap s.before _).tokens ++ .endElement "message" :: f.tokens) = _
  rw [Forest.gap_tokens s.before_blank]
  show messageStart s.attributes :: ((s.before ++ gcmStart s.gcmAttributes :: (.characters s.json ::
    (.endElement "gcm" :: (Forest.gap s.after .nil).tokens))) ++ _) = _
  rw [Forest.gap_tokens s.after_blank]
  simp [Stanza.tokens, Stanza.opening, Stanza.closing, Forest.tokens]

theorem Stanza.isMessage {fromJson : FromJson} {s : Stanza} (known : unknownType fromJson s.json = false) :
    FcmStream.IsMessage fromJson s.element := by
  refine ⟨rfl, rfl, fun child hchild _ => ⟨s.json, ?_, known⟩⟩
  simp only [Stanza.element, Forest.gap_elements, Forest.elements, List.mem_singleton] at hchild
  subst hchild
  simp [Forest.text?]

theorem Stanza.announcements (fromJson : FromJson) (s : Stanza) :
    FcmStream.announcements fromJson s.element = s.announces fromJson := by
  simp [FcmStream.announcements, Stanza.element, Forest.gap_elements, Forest.elements, FcmStream.isGcm,
    Stanza.announces, Forest.text?]

theorem Layout.forest {xs : List Stanza} {ts : List Token} (h : Layout xs ts) :
    ∃ f : Forest, f.tokens = ts ∧ f.elements = xs.map Stanza.element := by
  induction h with
  | nil hgap => exact ⟨.gap _ .nil, by rw [Forest.gap_tokens hgap]; exact List.append_nil _, Forest.gap_elements ..⟩
  | @cons gap hgap s xs ts h ih =>
    obtain ⟨f, hf, he⟩ := ih
    refine ⟨.gap gap (.element s.element.name s.element.namespaceUri s.element.attributes s.element.children f), ?_, ?_⟩
    · rw [Forest.gap_tokens hgap, s.element_tokens, hf]
    · rw [Forest.gap_elements]
      exact congrArg (s.element :: ·) he

namespace FcmStream

variable {Λ : Type} {fromJson : FromJson} {c c' c'' : FcmStream Λ} {body : Handler Λ Unit} {fuel : Nat} {q : List Token}
  {Q : Unit → FcmStream Λ → Prop} {X : String → FcmStream Λ → Prop}

/-! ## Closing tags -/

/-- Reading over text and comments. -/
theorem does_while_gap {g : List Token} (hg : ∀ t ∈ g, t.blank = true) (hfuel : c.reader.queue.length < fuel)
    (hr : Reads (g ++ q) c)
    (h : ∀ c' fuel', Sends [] q c c' → c'.reader.queue.length < fuel' → Does (whileStartElement body fuel') Q X c') :
    Does (whileStartElement body fuel) Q X c := by
  have hread : Reads ((Forest.gap g .nil).tokens ++ q) c := by
    rw [Forest.gap_tokens hg]
    simpa [Forest.tokens] using hr
  refine does_whileStartElement (o := fun _ => []) (Forest.gap g .nil) hfuel hread ?_ fun c' k hs => ?_
  · intro e he
    rw [Forest.gap_elements] at he
    cases he
  · rw [Forest.gap_elements] at hs
    exact h c' k hs

/-- The rest of a stanza after the end of its `gcm` element. -/
theorem does_while_tail {g : List Token} {n : String} (hg : ∀ t ∈ g, t.blank = true) (hq : q <+: g ++ [.endElement n])
    (hfuel : c.reader.queue.length < fuel) (hr : Reads q c) (h : ∀ c', Sends [] [] c c' → Q () c') :
    Does (whileStartElement body fuel) Q X c := by
  rcases List.prefix_concat_iff.1 hq with rfl | hq
  · exact does_while_gap hg hfuel hr fun c₁ k h₁ hk =>
      does_while_end hk h₁.reads fun c₂ h₂ _ => h c₂ (h₁.quiet h₂)
  · refine does_while_gap (g := q) (q := []) (fun t ht => hg t (hq.subset ht)) hfuel (by rwa [List.append_nil])
      fun c₁ k h₁ hk => does_while_nil hk h₁.reads fun c₂ h₂ _ _ => h c₂ (h₁.quiet h₂)

/-- What is left is read to its end; only the reader goes on. -/
theorem does_drain {q : List Token} (hq : ∀ t ∈ q, t.ordinary = true) {fuel : Nat} {c : FcmStream Λ} (hr : Reads q c)
    (hatEnd : c.reader.atEnd = false) (hfuel : q.length + 2 ≤ fuel)
    (h : ∀ r, Reads [] { c with reader := r } → r.lexer = c.reader.lexer → r.error = some .prematureEndOfDocument →
      Q () { c with reader := r }) :
    Does (drain fuel) Q X c := by
  induction q generalizing c fuel with
  | nil =>
    obtain ⟨fuel, rfl⟩ : ∃ k, fuel = k + 2 := ⟨fuel - 2, by omega⟩
    have hstep : c.reader.readNext = c.reader.fail .prematureEndOfDocument [] := by
      unfold Reader.readNext
      rw [hr.alive, hr.queue]; rfl
    refine Does.bind (Does.get ?_)
    rw [hatEnd]
    refine Does.bind (does_onReader ?_)
    rw [hstep]
    refine Does.bind (Does.get ?_)
    exact Does.bind (Does.get (Does.pure (h _ ⟨rfl, rfl⟩ rfl rfl)))
  | cons t q ih =>
    obtain ⟨fuel, rfl⟩ : ∃ k, fuel = k + 1 := ⟨fuel - 1, by simp at hfuel; omega⟩
    have ht := hq t (List.mem_cons_self ..)
    have hstep : c.reader.readNext = c.reader.report t q := by
      unfold Reader.readNext
      rw [hr.alive, hr.queue]
      cases t with
      | malformed => cases ht
      | _ => rfl
    have hlast : (c.reader.report t q).current ≠ some .endDocument := by
      rintro he
      cases he
      cases ht
    have hmore : (c.reader.report t q).atEnd = false := by
      cases t with
      | endDocument => cases ht
      | _ => rfl
    refine Does.bind (Does.get ?_)
    rw [hatEnd]
    refine Does.bind (does_onReader ?_)
    rw [hstep]
    refine Does.bind (Does.get ?_)
    rw [if_neg hlast]
    exact ih (fun s hs => hq s (List.mem_cons_of_mem _ hs)) ⟨rfl, rfl⟩ hmore (by simp at hfuel; omega) h

theorem does_handleOtherElement (hq : ∀ t ∈ q, t.ordinary = true) (hr : Reads q c) (hatEnd : c.reader.atEnd = false)
    (h : ∀ c', Sends [] [] c c' → c'.reader.error = some .prematureEndOfDocument → Q () c') :
    Does handleOtherElement Q X c :=
  Does.bind (Does.get (does_drain hq hr hatEnd (by rw [hr.queue]) fun _ hr' hl => h _ (.of_reads hr' hl)))

/-- Once a closing tag is read, everything after it goes. -/
theorem does_parseXml_closes {g : List Token} {n : String} (hg : ∀ t ∈ g, t.blank = true)
    (hq : ∀ t ∈ q, t.ordinary = true) (hr : Reads (g ++ .endElement n :: q) c) :
    Does (parseXml fromJson) (fun _ => Sends [] [] c) X c := by
  refine Does.bind (Does.bind (Does.get (does_while_gap hg (Nat.lt_succ_self _) hr fun c₁ k h₁ hk =>
    does_while_end hk h₁.reads fun c₂ h₂ hc₂ => ?_)))
  refine Does.bind (does_handleOtherElement hq h₂.reads (by unfold Reader.atEnd; rw [hc₂]; rfl) fun c₃ h₃ herr => ?_)
  refine Does.bind (Does.get ?_)
  rw [herr]
  exact Does.pure ((h₁.quiet h₂).quiet h₃)

theorem does_parseXml_blank (hq : ∀ t ∈ q, t.blank = true) (hr : Reads q c) :
    Does (parseXml fromJson) (fun _ => Sends [] [] c) X c := by
  refine Does.bind (Does.bind (Does.get (does_while_gap hq (Nat.lt_succ_self _) (q := []) (by rwa [List.append_nil])
    fun c₁ k h₁ hk => does_while_nil hk h₁.reads fun c₂ h₂ hatEnd herr => does_parseEnd hatEnd herr (h₁.quiet h₂))))

/-- Tokens are all text and comments, or there is a first one that is not. -/
theorem blank_or (q : List Token) : (∀ t ∈ q, t.blank = true) ∨
    ∃ g t q', q = g ++ t :: q' ∧ (∀ t ∈ g, t.blank = true) ∧ t.blank = false := by
  induction q with
  | nil => exact Or.inl fun _ h => by cases h
  | cons t q ih =>
    by_cases ht : t.blank = true
    · rcases ih with h | ⟨g, s, q', rfl, hg, hs⟩
      · exact Or.inl (by simpa [ht] using h)
      · exact Or.inr ⟨t :: g, s, q', rfl, by simpa [ht] using hg, hs⟩
    · exact Or.inr ⟨[], t, q, rfl, (fun _ h => by cases h), by simpa using ht⟩

theorem does_parseXml_inert (hq : ∀ t ∈ q, t.inert = true) (hr : Reads q c) :
    Does (parseXml fromJson) (fun _ => Sends [] [] c) X c := by
  rcases blank_or q with h | ⟨g, t, q', rfl, hg, ht⟩
  · exact does_parseXml_blank h hr
  · have hin := hq t (by simp)
    cases t with
    | endElement n =>
      exact does_parseXml_closes hg (fun t ht => t.ordinary_of_inert (hq t (by simp [ht]))) hr
    | characters => cases ht
    | comment => cases ht
    | _ => cases hin

/-! ## Opened stanzas -/

/-- A stanza whose JSON text has come is announced, whatever of its closing tags has come. -/
theorem does_handleMessage_cut {s : Stanza} {tail : List Token} (htail : tail <+: s.closing)
    (known : unknownType fromJson s.json = false)
    (hr : Reads (s.before ++ gcmStart s.gcmAttributes :: .characters s.json :: tail) c) :
    Does (handleMessage fromJson) (fun _ => Sends (s.announces fromJson) [] c) (fun _ _ => False) c := by
  refine Does.bind (Does.get (does_while_gap s.before_blank (Nat.lt_succ_self _) hr fun c₁ fuel h₁ hfuel => ?_))
  obtain ⟨fuel, rfl⟩ : ∃ k, fuel = k + 1 := ⟨fuel - 1, by omega⟩
  have hstep : c₁.reader.readNextStartElement =
      (true, c₁.reader.report (gcmStart s.gcmAttributes) (.characters s.json :: tail)) := by
    unfold Reader.readNextStartElement
    rw [h₁.reads.alive, h₁.reads.queue]; rfl
  refine Does.bind (does_onReader ?_)
  rw [hstep]
  refine Does.bind (Does.bind (Does.get ?_))
  rw [isElement_of_current (n := "gcm") (u := gcmNspaceUri) rfl]
  refine Does.bind (does_onReader ?_)
  -- the text ends with the data or with the end of the element
  have htext : ∃ q r, q <+: s.after ++ [.endElement "message"] ∧ q.length ≤ tail.length ∧
      Reader.readElementText (c₁.reader.report (gcmStart s.gcmAttributes) (.characters s.json :: tail)) = (s.json, r) ∧
      r.queue = q ∧ r.stuck = false ∧ r.lexer = c₁.reader.lexer := by
    cases tail with
    | nil =>
      exact ⟨[], (c₁.reader.report (gcmStart s.gcmAttributes) [.characters s.json]).fail .prematureEndOfDocument [],
        List.nil_prefix, Nat.zero_le _, Prod.ext String.empty_append rfl, rfl, rfl, rfl⟩
    | cons t q =>
      obtain ⟨rfl, hq⟩ := List.cons_prefix_cons.1 htail
      exact ⟨q, (c₁.reader.report (gcmStart s.gcmAttributes) (.characters s.json :: .endElement "gcm" :: q)).report
        (.endElement "gcm") q, hq, Nat.le_succ _, Prod.ext String.empty_append rfl, rfl, rfl, rfl⟩
  obtain ⟨q, r, hq, hlen, htext, hrq, hrs, hrl⟩ := htext
  rw [htext]
  refine (does_handleFcmMessage known).mono (fun _ c₂ h₂ => ?_) fun _ _ h => h
  obtain ⟨hreader, hreads, hann⟩ := h₂
  have hs₂ : Sends (s.announces fromJson) q c₁ c₂ :=
    ⟨hann, ⟨by rw [hreader]; exact hrq, by rw [hreader]; exact hrs⟩, by rw [hreader]; exact hrl, hreads⟩
  refine does_while_tail s.after_blank hq ?_ hs₂.reads fun c₃ h₃ => ?_
  · rw [h₁.reads.queue, List.length_cons, List.length_cons] at hfuel
    rw [hs₂.reads.queue]
    omega
  · exact (h₁.trans hs₂).quiet h₃

/-- The head of the list of announcements of several stanzas. -/
def announcesAll (fromJson : FromJson) (xs : List Stanza) : List FcmSignal := xs.flatMap (Stanza.announces fromJson)

/-- Whole stanzas, and the start tag of one more, of which `q` has come. -/
theorem does_parseXml_last {xs : List Stanza} {ts : List Token} {a : List (String × String)} {o : List FcmSignal}
    (hts : Layout xs ts) (known : ∀ s ∈ xs, unknownType fromJson s.json = false)
    (hr : Reads (ts ++ messageStart a :: q) c)
    (hlast : ∀ c' : FcmStream Λ, Reads q c' → Does (handleMessage fromJson) (fun _ => Sends o [] c') (fun _ _ => False) c') :
    Does (parseXml fromJson) (fun _ => Sends (announcesAll fromJson xs ++ o) [] c) (fun _ _ => False) c := by
  obtain ⟨f, rfl, he⟩ := hts.forest
  refine Does.bind (does_forEachElement (o := announcements fromJson) f hr (fun e hmem q' c' hr' hc' => ?_)
    fun c₁ fuel h₁ hfuel => ?_)
  · rw [he] at hmem
    obtain ⟨s, hs, rfl⟩ := List.mem_map.1 hmem
    exact does_handleStartElement hc' (does_handleMessage (Stanza.isMessage (known s hs)) hr')
  · obtain ⟨fuel, rfl⟩ : ∃ k, fuel = k + 1 := ⟨fuel - 1, by omega⟩
    have hstep : c₁.reader.readNextStartElement = (true, c₁.reader.report (messageStart a) q) := by
      unfold Reader.readNextStartElement
      rw [h₁.reads.alive, h₁.reads.queue]; rfl
    refine Does.bind (does_onReader ?_)
    rw [hstep]
    refine Does.bind (does_handleStartElement (a := a) rfl ?_)
    refine (hlast { c₁ with reader := c₁.reader.report (messageStart a) q } ⟨rfl, rfl⟩).mono (fun _ c₂ h₂ => ?_) fun _ _ h => h
    have h₁₂ : Sends o [] c₁ c₂ := ⟨h₂.announced, h₂.reads, h₂.lexer, h₂.readyReads⟩
    have hall := h₁.trans h₁₂
    rw [he, List.flatMap_map] at hall
    simp only [Stanza.announcements] at hall
    refine does_while_nil ?_ h₁₂.reads fun c₃ h₃ hatEnd herr => does_parseEnd hatEnd herr (hall.quiet h₃)
    rw [h₁₂.reads.queue]
    rw [h₁.reads.queue, List.length_cons] at hfuel
    exact Nat.zero_lt_of_lt (Nat.lt_of_succ_lt_succ hfuel)

end FcmStream

end Gimmm
