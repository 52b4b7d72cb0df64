/-
Stanzas that the server does not understand. The exception that reports one leaves the reader in the stanza: each
call of the slot after it goes one element deeper and stops there again, until one meets a closing tag and throws
away all that came meanwhile.
-/
import Gimmm.Fcm.Chunks

namespace Xml.Forest

/-- How deep the elements go that are each the first in the one before. -/
def depth : Forest → Nat
  | nil => 0
  | text _ rest => rest.depth
  | comment rest => rest.depth
  | element _ _ _ children _ => children.depth + 1

/-- `p` holds of all these elements. -/
def firsts (p : Element → Bool) : Forest → Bool
  | nil => true
  | text _ rest => rest.firsts p
  | comment rest => rest.firsts p
  | element n u a children _ => p ⟨n, u, a, children⟩ && children.firsts p

theorem tokens_blank {f : Forest} (h : f.elements = []) : ∀ t ∈ f.tokens, t.blank = true := by
  induction f with
  | nil => exact fun _ ht => by cases ht
  | text s f ih => exact List.forall_mem_cons.2 ⟨rfl, ih h⟩
  | comment f ih => exact List.forall_mem_cons.2 ⟨rfl, ih h⟩
  | element => cases h

theorem tokens_ordinary (f : Forest) : ∀ t ∈ f.tokens, t.ordinary = true := by
  induction f with
  | nil => exact fun _ ht => by cases ht
  | text s f ih => exact List.forall_mem_cons.2 ⟨rfl, ih⟩
  | comment f ih => exact List.forall_mem_cons.2 ⟨rfl, ih⟩
  | element n u a children f ihc ihf =>
    refine List.forall_mem_cons.2 ⟨rfl, fun t ht => ?_⟩
    rcases List.mem_append.1 ht with ht | ht
    · exact ihc t ht
    · rcases List.mem_cons.1 ht with rfl | ht
      · rfl
      · exact ihf t ht

theorem depth_bare {f : Forest} (h : f.elements = []) : f.depth = 0 := by
  induction f with
  | nil => rfl
  | text s f ih => exact ih h
  | comment f ih => exact ih h
  | element => cases h

theorem firsts_bare {p : Element → Bool} {f : Forest} (h : f.elements = []) : f.firsts p = true := by
  induction f with
  | nil => rfl
  | text s f ih => exact ih h
  | comment f ih => exact ih h
  | element => cases h

theorem depth_first {p : Element → Bool} {f : Forest} {e : Element} {later : List Element} (h : f.elements = e :: later) :
    f.depth = e.children.depth + 1 ∧ f.firsts p = (p e && e.children.firsts p) := by
  induction f with
  | nil => cases h
  | text s f ih => exact ih h
  | comment f ih => exact ih h
  | element =>
    cases h
    exact ⟨rfl, rfl⟩

/-- A forest parted at one of its elements. -/
theorem tokens_split {f : Forest} {before later : List Element} {e : Element} (h : f.elements = before ++ e :: later) :
    ∃ f₁ f₂ : Forest, f₁.elements = before ∧ f₂.elements = later ∧ f.tokens = f₁.tokens ++
      .startElement e.name e.namespaceUri e.attributes :: (e.children.tokens ++ .endElement e.name :: f₂.tokens) := by
  induction f generalizing before with
  | nil => simp [Forest.elements] at h
  | text s f ih =>
    obtain ⟨f₁, f₂, h₁, h₂, ht⟩ := ih h
    exact ⟨.text s f₁, f₂, h₁, h₂, congrArg (Token.characters s :: ·) ht⟩
  | comment f ih =>
    obtain ⟨f₁, f₂, h₁, h₂, ht⟩ := ih h
    exact ⟨.comment f₁, f₂, h₁, h₂, congrArg (Token.comment :: ·) ht⟩
  | element n u a children f _ ih =>
    cases before with
    | nil =>
      cases h
      exact ⟨.nil, f, rfl, rfl, rfl⟩
    | cons e' before =>
      obtain ⟨rfl, hrest⟩ := List.cons.inj h
      obtain ⟨f₁, f₂, h₁, h₂, ht⟩ := ih hrest
      refine ⟨.element n u a children f₁, f₂, congrArg (_ :: ·) h₁, h₂, ?_⟩
      simp [Forest.tokens, ht]

end Xml.Forest

namespace Gimmm

open Xml Prog

/-! ## What is understood -/

/-- `handleStartElement` has a case for the element. -/
def understood (e : Element) : Bool :=
  e.name = "stream" ∧ e.namespaceUri = streamNspaceUri ∨ e.name = "features" ∧ e.namespaceUri = streamNspaceUri ∨
  e.name = "iq" ∧ e.namespaceUri = defaultNspaceUri ∧ (e.attributes.lookup "type").getD "" = "result" ∨
  e.name = "success" ∧ e.namespaceUri = saslNspaceUri ∨ e.name = "failure" ∧ e.namespaceUri = saslNspaceUri ∨
  e.name = "message" ∧ e.namespaceUri = defaultNspaceUri

/-- The server stops in the stanza: it has no case for it, or none for the message type of a JSON text in it. -/
def stops (fromJson : FromJson) (e : Element) : Bool :=
  !understood e || e.children.elements.any fun child =>
    FcmStream.isGcm child && child.children.text?.any (unknownType fromJson)

/-- What the reader still has to read of a stanza in which the server stops, but for text and comments. -/
def leftover (e : Element) : Forest := if understood e then .nil else e.children

/-- A stanza as FCM may send it: a message of a known or of an unknown message type, or one of an unknown name. -/
inductive Sent (fromJson : FromJson) (e : Element) : Prop where
  | known (h : FcmStream.IsMessage fromJson e)
  | type (s : Stanza) (he : e = s.element) (h : unknownType fromJson s.json = true)
  | name (h : understood e = false)

/-- What the server should announce of the stanza. -/
def dispatched (fromJson : FromJson) (e : Element) : List FcmSignal :=
  if stops fromJson e then [] else FcmStream.announcements fromJson e

/-- The server understands none of the elements that are each the first in the one before. -/
def plain (f : Forest) : Bool := f.firsts fun e => !understood e

section
variable {fromJson : FromJson}

theorem stops_known {e : Element} (h : FcmStream.IsMessage fromJson e) : stops fromJson e = false := by
  have hname : understood e = true := by
    unfold understood
    simp only [h.name, h.namespaceUri, decide_eq_true_eq]
    tauto
  unfold stops
  rw [hname, Bool.not_true, Bool.false_or, List.any_eq_false]
  intro child hchild hbad
  rw [Bool.and_eq_true] at hbad
  obtain ⟨json, hjson, hknown⟩ := h.texts child hchild hbad.1
  rw [hjson, Option.any_some, hknown] at hbad
  cases hbad.2

theorem stops_type {s : Stanza} (h : unknownType fromJson s.json = true) : stops fromJson s.element = true := by
  have hany : s.element.children.elements.any (fun child =>
      FcmStream.isGcm child && child.children.text?.any (unknownType fromJson)) = true := by
    simp [Stanza.element, Forest.gap_elements, Forest.elements, FcmStream.isGcm, Forest.text?, h]
  unfold stops
  rw [hany, Bool.or_true]

theorem stops_name {e : Element} (h : understood e = false) : stops fromJson e = true := by
  unfold stops
  rw [h]
  rfl

theorem leftover_message (s : Stanza) : leftover s.element = .nil := by
  have hname : understood s.element = true := by simp [understood, Stanza.element]
  unfold leftover
  rw [if_pos hname]

theorem leftover_name {e : Element} (h : understood e = false) : leftover e = e.children := by
  unfold leftover
  rw [h]
  rfl

theorem dispatched_known {e : Element} (h : stops fromJson e = false) :
    dispatched fromJson e = FcmStream.announcements fromJson e := by
  unfold dispatched
  rw [h]
  rfl

theorem dispatched_stops {e : Element} (h : stops fromJson e = true) : dispatched fromJson e = [] := by
  unfold dispatched
  rw [if_pos h]

end

namespace FcmStream

variable {Λ : Type} {L : Lexer UInt8 Λ} {fromJson : FromJson} {c c' : FcmStream Λ} {q : List Token}

/-! ## Stopping -/

/-- The reader stands in an element, before `f` and its closing tag; later tokens are in the queue too. -/
def Inside (f : Forest) (c : FcmStream Λ) : Prop :=
  ∃ (n : String) (q : List Token), Reads (f.tokens ++ .endElement n :: q) c ∧ ∀ t ∈ q, t.ordinary = true

/-- The reader stops in an element with `f` left in it, after it announced `o`. -/
structure Stopped (o : List FcmSignal) (f : Forest) (c c' : FcmStream Λ) : Prop where
  announced : c'.announced = c.announced ++ o
  inside : ∃ g, g.depth = f.depth ∧ plain g = plain f ∧ Inside g c'
  lexer : c'.reader.lexer = c.reader.lexer
  readyReads : c'.readyReads = c.readyReads

theorem Stopped.after {o o' : List FcmSignal} {f : Forest} {c'' : FcmStream Λ} (h : Sends o q c c')
    (h' : Stopped o' f c' c'') : Stopped (o ++ o') f c c'' :=
  ⟨by rw [h'.announced, h.announced, List.append_assoc], h'.inside, h'.lexer.trans h.lexer, h'.readyReads.trans h.readyReads⟩

theorem does_handleStartElement_unknown {e : Element} (h : understood e = false)
    (hc : c.reader.current = some (.startElement e.name e.namespaceUri e.attributes)) :
    Does (handleStartElement fromJson) (fun _ _ => False) (fun _ c' => c' = c) c := by
  unfold understood at h
  simp only [decide_eq_false_iff_not, not_or] at h
  obtain ⟨h1, h2, h3, h4, h5, h6⟩ := h
  refine Does.bind (Does.get ?_)
  have hattr : c.attributeValue "type" = (e.attributes.lookup "type").getD "" := by
    unfold attributeValue
    rw [hc]
  simp only [isElement_of_current hc, hattr]
  rw [if_neg (by simpa using h1), if_neg (by simpa using h2), if_neg (by simpa [and_assoc] using h3),
    if_neg (by simpa using h4), if_neg (by simpa using h5), if_neg (by simpa using h6)]
  exact Does.throw rfl

/-- A text of an unknown type is not announced. -/
theorem does_handleFcmMessage_unknown {json : String} (h : unknownType fromJson json = true) :
    Does (handleFcmMessage fromJson json) (fun _ _ => False) (fun _ c' => c' = c) c := by
  unfold handleFcmMessage
  unfold unknownType at h
  cases hj : fromJson json with
  | error e =>
    rw [hj] at h
    cases h
  | ok doc =>
    rw [hj] at h
    simp only [Bool.and_eq_true, decide_eq_true_eq, List.mem_cons, List.not_mem_nil, or_false, not_or] at h
    obtain ⟨hsome, h1, h2, h3, h4⟩ := h
    dsimp only
    rw [if_pos (show (doc.value "message_type").isSome = true from hsome), if_neg h1, if_neg h2, if_neg h3, if_neg h4]
    exact Does.throw rfl

/-- A message of an unknown type. -/
theorem does_handleMessage_unknown {s : Stanza} (h : unknownType fromJson s.json = true)
    (hq : ∀ t ∈ q, t.ordinary = true) (hr : Reads (s.element.children.tokens ++ .endElement "message" :: q) c) :
    Does (handleMessage fromJson) (fun _ _ => False) (fun _ => Stopped [] .nil c) c := by
  have htokens : s.element.children.tokens ++ .endElement "message" :: q =
      s.before ++ (gcmStart s.gcmAttributes :: .characters s.json :: .endElement "gcm" ::
        ((Forest.gap s.after .nil).tokens ++ .endElement "message" :: q)) := by
    show (Forest.gap s.before _).tokens ++ _ = _
    rw [Forest.gap_tokens s.before_blank, List.append_assoc]
    rfl
  rw [htokens] at hr
  refine Does.bind (Does.get (does_while_gap s.before_blank (Nat.lt_succ_self _) hr fun c₁ fuel h₁ hfuel => ?_))
  obtain ⟨fuel, rfl⟩ : ∃ k, fuel = k + 1 := ⟨fuel - 1, by omega⟩
  have hstep : c₁.reader.readNextStartElement = (true, c₁.reader.report (gcmStart s.gcmAttributes)
      (.characters s.json :: .endElement "gcm" :: ((Forest.gap s.after .nil).tokens ++ .endElement "message" :: q))) := by
    unfold Reader.readNextStartElement
    rw [h₁.reads.alive, h₁.reads.queue]
    rfl
  refine Does.bind (does_onReader ?_)
  rw [hstep]
  refine Does.bind (Does.bind (Does.get ?_))
  rw [isElement_of_current (n := "gcm") (u := gcmNspaceUri) rfl]
  have htext : Reader.readElementText (c₁.reader.report (gcmStart s.gcmAttributes)
      (.characters s.json :: .endElement "gcm" :: ((Forest.gap s.after .nil).tokens ++ .endElement "message" :: q))) =
      (s.json, (c₁.reader.report (gcmStart s.gcmAttributes) (.characters s.json :: .endElement "gcm" ::
        ((Forest.gap s.after .nil).tokens ++ .endElement "message" :: q))).report (.endElement "gcm")
        ((Forest.gap s.after .nil).tokens ++ .endElement "message" :: q)) := Prod.ext String.empty_append rfl
  refine Does.bind (does_onReader ?_)
  rw [htext]
  refine (does_handleFcmMessage_unknown h).mono (fun _ _ h => h.elim) fun _ c₂ h₂ => ?_
  subst h₂
  refine ⟨h₁.announced, ⟨.gap s.after .nil, ?_, ?_, "message", q, ⟨rfl, rfl⟩, hq⟩, h₁.lexer, h₁.readyReads⟩
  · exact Forest.depth_bare (Forest.gap_elements ..)
  · exact Forest.firsts_bare (Forest.gap_elements ..)

/-- A stanza in which the server stops. -/
theorem does_stop {e : Element} (he : Sent fromJson e) (hstops : stops fromJson e = true) (hq : ∀ t ∈ q, t.ordinary = true)
    (hr : Reads (e.children.tokens ++ .endElement e.name :: q) c)
    (hc : c.reader.current = some (.startElement e.name e.namespaceUri e.attributes)) :
    Does (handleStartElement fromJson) (fun _ _ => False) (fun _ => Stopped [] (leftover e) c) c := by
  cases he with
  | known h =>
    rw [stops_known h] at hstops
    cases hstops
  | type s he h =>
    subst he
    rw [leftover_message]
    exact does_handleStartElement hc (does_handleMessage_unknown h hq hr)
  | name h =>
    refine (does_handleStartElement_unknown h hc).mono (fun _ _ h => h) fun _ c' hsame => ?_
    subst hsame
    rw [leftover_name h]
    exact ⟨(List.append_nil _).symm, ⟨e.children, rfl, rfl, e.name, q, hr, hq⟩, rfl, rfl⟩

/-- The stanzas of a chunk, the first of which in which the server stops is `e`. -/
theorem does_parseXml_stops {f : Forest} {before later : List Element} {e : Element} (hf : f.elements = before ++ e :: later)
    (hbefore : ∀ e' ∈ before, IsMessage fromJson e') (he : Sent fromJson e) (hstops : stops fromJson e = true)
    (hr : Reads f.tokens c) : Does (parseXml fromJson) (fun _ _ => False)
      (fun _ => Stopped (before.flatMap (announcements fromJson)) (leftover e) c) c := by
  obtain ⟨f₁, f₂, rfl, -, htokens⟩ := Forest.tokens_split hf
  rw [htokens] at hr
  refine Does.bind (does_forEachElement (o := announcements fromJson) f₁ hr (fun e' he' q c' hr' hc' => ?_) fun c₁ fuel h₁ hfuel => ?_)
  · refine (does_handleStartElement (by rw [hc', (hbefore e' he').name, (hbefore e' he').namespaceUri])
      (does_handleMessage (hbefore e' he') hr')).mono (fun _ _ h => h) fun _ _ h => h.elim
  · obtain ⟨fuel, rfl⟩ : ∃ k, fuel = k + 1 := ⟨fuel - 1, by omega⟩
    have hstep : c₁.reader.readNextStartElement = (true, c₁.reader.report (.startElement e.name e.namespaceUri e.attributes)
        (e.children.tokens ++ .endElement e.name :: f₂.tokens)) := by
      unfold Reader.readNextStartElement
      rw [h₁.reads.alive, h₁.reads.queue]
      rfl
    refine Does.bind (does_onReader ?_)
    rw [hstep]
    refine Does.bind ((does_stop he hstops f₂.tokens_ordinary (c := { c₁ with reader := c₁.reader.report _ _ }) ⟨rfl, rfl⟩
      rfl).mono (fun _ _ h => h.elim) fun _ c₂ h₂ => ?_)
    have hstopped : Stopped [] (leftover e) c₁ c₂ := ⟨h₂.announced, h₂.inside, h₂.lexer, h₂.readyReads⟩
    have hall := hstopped.after h₁
    rwa [List.append_nil] at hall

/-- The reader goes on in an element: it stops in the first element of `f`, or throws everything away. -/
theorem does_parseXml_inside {f : Forest} (hplain : plain f = true) (hin : Inside f c) :
    Does (parseXml fromJson) (fun _ c' => f.depth = 0 ∧ Sends [] [] c c')
      (fun _ c' => ∃ g, f.depth = g.depth + 1 ∧ plain g = true ∧ Stopped [] g c c') c := by
  obtain ⟨n, q, hr, hq⟩ := hin
  cases hf : f.elements with
  | nil =>
    exact (does_parseXml_closes (Forest.tokens_blank hf) hq hr).mono (fun _ _ h => ⟨Forest.depth_bare hf, h⟩) fun _ _ h => h
  | cons e later =>
    obtain ⟨hdepth, hunderstood⟩ := Forest.depth_first (p := fun e => !understood e) hf
    rw [show f.firsts (fun e => !understood e) = true from hplain, eq_comm, Bool.and_eq_true, Bool.not_eq_true'] at hunderstood
    have hfirst : f.elements = [] ++ e :: later := hf
    obtain ⟨f₁, f₂, h₁, -, htokens⟩ := Forest.tokens_split hfirst
    rw [htokens, List.append_assoc] at hr
    refine Does.bind (Does.bind (Does.get (does_while_gap (Forest.tokens_blank h₁) (Nat.lt_succ_self _) hr
      fun c₁ fuel hc₁ hfuel => ?_)))
    obtain ⟨fuel, rfl⟩ : ∃ k, fuel = k + 1 := ⟨fuel - 1, by omega⟩
    have hstep : c₁.reader.readNextStartElement = (true, c₁.reader.report (.startElement e.name e.namespaceUri e.attributes)
        (e.children.tokens ++ .endElement e.name :: (f₂.tokens ++ .endElement n :: q))) := by
      unfold Reader.readNextStartElement
      rw [hc₁.reads.alive, hc₁.reads.queue]
      simp [Reader.readNextStartElement.go]
    refine Does.bind (does_onReader ?_)
    rw [hstep]
    refine Does.bind ((does_handleStartElement_unknown hunderstood.1 rfl).mono (fun _ _ h => h.elim) fun _ c₂ h₂ => ?_)
    subst h₂
    have hrest : ∀ t ∈ f₂.tokens ++ .endElement n :: q, t.ordinary = true := by
      intro t ht
      rcases List.mem_append.1 ht with ht | ht
      · exact f₂.tokens_ordinary t ht
      · rcases List.mem_cons.1 ht with rfl | ht
        · rfl
        · exact hq t ht
    exact ⟨e.children, hdepth, hunderstood.2, hc₁.announced, ⟨e.children, rfl, rfl, e.name, _, ⟨rfl, rfl⟩, hrest⟩, hc₁.lexer,
      hc₁.readyReads⟩

end FcmStream

end Gimmm
