/-
What the connection makes of complete stanzas: its loops read the elements one by one, and the message
stanzas among them are announced in their order.
-/
import Gimmm.Fcm.Connection

namespace Gimmm

open Xml Prog

/-! ## Announcements -/

/-- The signals that hand over what FCM says in its message stanzas. -/
def FcmSignal.announces : FcmSignal → Bool
  | .newMessage _ => true
  | .newAckMessage _ => true
  | .newNackMessage _ => true
  | .newReceiptMessage _ => true
  | .connectionDrainingStarted => true
  | _ => false

/-- The signal that announces the JSON text of a message stanza. -/
def announcement (fromJson : FromJson) (json : String) : Option FcmSignal :=
  match fromJson json with
  | .error _ => none
  | .ok doc =>
    if (doc.value fcmfieldnames.messageType).isNone then some (.newMessage doc)
    else
      let type := Json.toString (doc.value fcmfieldnames.messageType)
      if type = "ack" then some (.newAckMessage doc)
      else if type = "nack" then some (.newNackMessage doc)
      else if type = "receipt" then some (.newReceiptMessage doc)
      else if type = "control" ∧ Json.toString (doc.value fcmfieldnames.controlType) = "CONNECTION_DRAINING" then
        some .connectionDrainingStarted
      else none

/-- The JSON text has a message type, and it is none of those that FCM uses. -/
def unknownType (fromJson : FromJson) (json : String) : Bool :=
  match fromJson json with
  | .error _ => false
  | .ok doc => (doc.value fcmfieldnames.messageType).isSome &&
      Json.toString (doc.value fcmfieldnames.messageType) ∉ ["ack", "nack", "control", "receipt"]

namespace FcmStream

variable {Λ : Type} {fromJson : FromJson} {c c' c'' : FcmStream Λ}

/-- The announcements so far, oldest first. -/
def announced (c : FcmStream Λ) : List FcmSignal :=
  c.out.filterMap fun
    | .emit s => if s.announces then some s else none
    | _ => none

/-- The reader works, with the tokens `q` to read. -/
structure Reads (q : List Token) (c : FcmStream Λ) : Prop where
  queue : c.reader.queue = q
  alive : c.reader.stuck = false

/-- `o` is announced, and the tokens `q` are left. -/
structure Sends (o : List FcmSignal) (q : List Token) (c c' : FcmStream Λ) : Prop where
  announced : c'.announced = c.announced ++ o
  reads : Reads q c'
  lexer : c'.reader.lexer = c.reader.lexer
  readyReads : c'.readyReads = c.readyReads

theorem Sends.trans {o o' : List FcmSignal} {q q' : List Token} (h : Sends o q c c') (h' : Sends o' q' c' c'') :
    Sends (o ++ o') q' c c'' :=
  ⟨by rw [h'.announced, h.announced, List.append_assoc], h'.reads, h'.lexer.trans h.lexer,
    h'.readyReads.trans h.readyReads⟩

theorem Sends.quiet {o : List FcmSignal} {q q' : List Token} (h : Sends o q c c') (h' : Sends [] q' c' c'') :
    Sends o q' c c'' := by
  have := h.trans h'
  rwa [List.append_nil] at this

/-- What only reads announces nothing. -/
theorem Sends.of_reads {q : List Token} {r : Reader Λ} (h : Reads q { c with reader := r })
    (hl : r.lexer = c.reader.lexer) : Sends [] q c { c with reader := r } :=
  ⟨(List.append_nil _).symm, h, hl, rfl⟩

theorem does_emit {s : FcmSignal} {Q : Unit → FcmStream Λ → Prop} {X : String → FcmStream Λ → Prop}
    (h : ∀ c', c'.reader = c.reader → c'.readyReads = c.readyReads →
      c'.announced = c.announced ++ (if s.announces then [s] else []) → Q () c') : Does (emit s) Q X c := by
  refine h _ rfl rfl ?_
  show List.filterMap _ (c.out ++ [.emit s]) = _
  rw [List.filterMap_append]
  congr 1
  cases s <;> rfl

theorem does_onConn {f : FcmConnection → FcmConnection} {Q : Unit → FcmStream Λ → Prop}
    {X : String → FcmStream Λ → Prop} (h : Q () { c with conn := f c.conn }) : Does (onConn f) Q X c := h

theorem does_onReader {α : Type} {f : Reader Λ → α × Reader Λ} {Q : α → FcmStream Λ → Prop}
    {X : String → FcmStream Λ → Prop} (h : Q (f c.reader).1 { c with reader := (f c.reader).2 }) :
    Does (onReader f) Q X c := h

/-- A text of a known type is announced. -/
theorem does_handleFcmMessage {json : String} (known : unknownType fromJson json = false) :
    Does (handleFcmMessage fromJson json) (fun _ c' => c'.reader = c.reader ∧ c'.readyReads = c.readyReads ∧
      c'.announced = c.announced ++ (announcement fromJson json).toList) (fun _ _ => False) c := by
  unfold handleFcmMessage announcement
  unfold unknownType at known
  cases hj : fromJson json with
  | error e => exact does_emit fun c' h1 h2 h3 => ⟨h1, h2, h3⟩
  | ok doc =>
    rw [hj] at known
    simp only
    cases ht : doc.value fcmfieldnames.messageType with
    | none =>
      rw [show doc.value "message_type" = none from ht]
      exact does_emit fun c' h1 h2 h3 => ⟨h1, h2, h3⟩
    | some t =>
      rw [show doc.value "message_type" = some t from ht]
      simp only [ht, Option.isSome_some, Bool.true_and, decide_eq_false_iff_not, not_not, List.mem_cons,
        List.not_mem_nil, or_false] at known
      simp only [Option.isSome_some, Option.isNone_some, Bool.false_eq_true, if_true, if_false]
      rcases known with h | h | h | h <;> simp only [h, String.reduceEq, if_true, if_false, true_and, false_and]
      · exact does_emit fun c' h1 h2 h3 => ⟨h1, h2, h3⟩
      · exact does_emit fun c' h1 h2 h3 => ⟨h1, h2, h3⟩
      · unfold handleControlMessage
        split
        · exact Does.bind (does_onConn (does_emit fun c' h1 h2 h3 => ⟨h1, h2, h3⟩))
        · exact does_emit fun c' h1 h2 h3 => ⟨h1, h2, h3⟩
      · exact does_emit fun c' h1 h2 h3 => ⟨h1, h2, h3⟩

/-! ## Loops -/

theorem go_queue {r : Reader Λ} {q' : List Token} : ∀ q : List Token, Reader.readNextStartElement.go r q =
    Reader.readNextStartElement.go { r with queue := q' } q
  | [] => rfl
  | t :: q => by
    cases t with
    | startElement => rfl
    | endElement => rfl
    | malformed => rfl
    | _ => exact go_queue q

/-- Text and comments between the elements make no difference to the loop. -/
theorem while_skip {body : Handler Λ Unit} {t : Token} {q : List Token} (fuel : Nat)
    (ht : ∀ r : Reader Λ, Reader.readNextStartElement.go r (t :: q) = Reader.readNextStartElement.go r q)
    (hr : Reads (t :: q) c) :
    whileStartElement body (fuel + 1) c =
      whileStartElement body (fuel + 1) { c with reader := { c.reader with queue := q } } := by
  have hstep : c.reader.readNextStartElement = Reader.readNextStartElement { c.reader with queue := q } := by
    unfold Reader.readNextStartElement
    rw [hr.alive, hr.queue, show Reader.stuck { c.reader with queue := q } = false from hr.alive]
    show Reader.readNextStartElement.go c.reader (t :: q) = Reader.readNextStartElement.go _ q
    rw [ht]
    exact go_queue q
  refine bind_same ?_
  show EStateM.Result.ok c.reader.readNextStartElement.1 { c with reader := c.reader.readNextStartElement.2 } = _
  rw [hstep]
  rfl

theorem does_while_skip {body : Handler Λ Unit} {q : List Token} {fuel : Nat} {Q : Unit → FcmStream Λ → Prop}
    {X : String → FcmStream Λ → Prop} (t : Token)
    (ht : ∀ r : Reader Λ, Reader.readNextStartElement.go r (t :: q) = Reader.readNextStartElement.go r q)
    (hfuel : c.reader.queue.length < fuel) (hr : Reads (t :: q) c)
    (h : ∀ c', Sends [] q c c' → c'.reader.queue.length < fuel → Does (whileStartElement body fuel) Q X c') :
    Does (whileStartElement body fuel) Q X c := by
  obtain ⟨fuel, rfl⟩ : ∃ k, fuel = k + 1 := ⟨fuel - 1, by omega⟩
  unfold Does
  rw [while_skip fuel ht hr]
  rw [hr.queue, List.length_cons] at hfuel
  refine h _ (.of_reads ⟨rfl, hr.alive⟩ rfl) ?_
  show q.length < _
  omega

/-- A loop goes over the elements of a forest, if `body` reads each of them to its end and announces `o` of it. -/
theorem does_whileStartElement {body : Handler Λ Unit} {o : Element → List FcmSignal} {rest : List Token}
    {Q : Unit → FcmStream Λ → Prop} {X : String → FcmStream Λ → Prop} (f : Forest) {fuel : Nat} {c : FcmStream Λ}
    (hfuel : c.reader.queue.length < fuel) (hr : Reads (f.tokens ++ rest) c)
    (hbody : ∀ e ∈ f.elements, ∀ q (c : FcmStream Λ), Reads (e.children.tokens ++ .endElement e.name :: q) c →
      c.reader.current = some (.startElement e.name e.namespaceUri e.attributes) →
      Does body (fun _ => Sends (o e) q c) X c)
    (h : ∀ c' fuel', Sends (f.elements.flatMap o) rest c c' → c'.reader.queue.length < fuel' →
      Does (whileStartElement body fuel') Q X c') : Does (whileStartElement body fuel) Q X c := by
  induction f generalizing fuel c with
  | nil => exact h c fuel ⟨(List.append_nil _).symm, hr, rfl, rfl⟩ hfuel
  | text t f ih =>
    refine does_while_skip (.characters t) (fun _ => rfl) hfuel hr fun c' hs hfuel' => ?_
    exact ih hfuel' hs.reads hbody fun c'' k hc'' hk => h c'' k (hs.trans hc'') hk
  | comment f ih =>
    refine does_while_skip .comment (fun _ => rfl) hfuel hr fun c' hs hfuel' => ?_
    exact ih hfuel' hs.reads hbody fun c'' k hc'' hk => h c'' k (hs.trans hc'') hk
  | element n u a ch f _ ih =>
    obtain ⟨fuel, rfl⟩ : ∃ k, fuel = k + 1 := ⟨fuel - 1, by omega⟩
    have hq : c.reader.queue = .startElement n u a :: (ch.tokens ++ .endElement n :: (f.tokens ++ rest)) := by
      rw [hr.queue]; simp [Forest.tokens]
    have hstep : c.reader.readNextStartElement =
        (true, c.reader.report (.startElement n u a) (ch.tokens ++ .endElement n :: (f.tokens ++ rest))) := by
      unfold Reader.readNextStartElement
      rw [hr.alive, hq]; rfl
    refine Does.bind (does_onReader ?_)
    rw [hstep]
    refine Does.bind ((hbody ⟨n, u, a, ch⟩ (List.mem_cons_self ..) (f.tokens ++ rest) _ ⟨rfl, rfl⟩ rfl).mono
      (fun _ c₁ h₁ => ?_) fun _ _ h => h)
    have hlen : c₁.reader.queue.length < fuel := by
      rw [h₁.reads.queue]
      rw [hq] at hfuel
      simp only [List.length_cons, List.length_append] at hfuel ⊢
      omega
    have hfirst : Sends (o ⟨n, u, a, ch⟩) (f.tokens ++ rest) c c₁ := ⟨h₁.announced, h₁.reads, h₁.lexer, h₁.readyReads⟩
    exact ih hlen h₁.reads (fun e he => hbody e (List.mem_cons_of_mem _ he)) fun c₂ k h₂ hk => h c₂ k (hfirst.trans h₂) hk

theorem does_forEachElement {body : Handler Λ Unit} {o : Element → List FcmSignal} {rest : List Token}
    {Q : Unit → FcmStream Λ → Prop} {X : String → FcmStream Λ → Prop} (f : Forest) (hr : Reads (f.tokens ++ rest) c)
    (hbody : ∀ e ∈ f.elements, ∀ q (c : FcmStream Λ), Reads (e.children.tokens ++ .endElement e.name :: q) c →
      c.reader.current = some (.startElement e.name e.namespaceUri e.attributes) →
      Does body (fun _ => Sends (o e) q c) X c)
    (h : ∀ c' fuel, Sends (f.elements.flatMap o) rest c c' → c'.reader.queue.length < fuel →
      Does (whileStartElement body fuel) Q X c') : Does (forEachElement body) Q X c :=
  Does.bind (Does.get (does_whileStartElement f (Nat.lt_succ_self _) hr hbody h))

/-- A loop ends when the data runs out. -/
theorem does_while_nil {body : Handler Λ Unit} {fuel : Nat} {Q : Unit → FcmStream Λ → Prop}
    {X : String → FcmStream Λ → Prop} (hfuel : c.reader.queue.length < fuel) (hr : Reads [] c)
    (h : ∀ c', Sends [] [] c c' → c'.reader.atEnd = true → c'.reader.error = some .prematureEndOfDocument → Q () c') :
    Does (whileStartElement body fuel) Q X c := by
  obtain ⟨fuel, rfl⟩ : ∃ k, fuel = k + 1 := ⟨fuel - 1, by omega⟩
  have hstep : c.reader.readNextStartElement = (false, c.reader.fail .prematureEndOfDocument []) := by
    unfold Reader.readNextStartElement
    rw [hr.alive, hr.queue]; rfl
  refine Does.bind (does_onReader ?_)
  rw [hstep]
  exact Does.pure (h _ (.of_reads ⟨rfl, rfl⟩ rfl) rfl rfl)

/-- A loop ends with its element. -/
theorem does_while_end {body : Handler Λ Unit} {fuel : Nat} {n : String} {q : List Token}
    {Q : Unit → FcmStream Λ → Prop} {X : String → FcmStream Λ → Prop} (hfuel : c.reader.queue.length < fuel)
    (hr : Reads (.endElement n :: q) c)
    (h : ∀ c', Sends [] q c c' → c'.reader.current = some (.endElement n) → Q () c') :
    Does (whileStartElement body fuel) Q X c := by
  obtain ⟨fuel, rfl⟩ : ∃ k, fuel = k + 1 := ⟨fuel - 1, by omega⟩
  have hstep : c.reader.readNextStartElement = (false, c.reader.report (.endElement n) q) := by
    unfold Reader.readNextStartElement
    rw [hr.alive, hr.queue]; rfl
  refine Does.bind (does_onReader ?_)
  rw [hstep]
  exact Does.pure (h _ (.of_reads ⟨rfl, rfl⟩ rfl) rfl)

/-! ## Message stanzas -/

def isGcm (e : Element) : Bool := e.name = "gcm" ∧ e.namespaceUri = gcmNspaceUri

/-- A complete message stanza, whose JSON texts have no unknown message type. -/
structure IsMessage (fromJson : FromJson) (e : Element) : Prop where
  name : e.name = "message"
  namespaceUri : e.namespaceUri = defaultNspaceUri
  texts : ∀ child ∈ e.children.elements, isGcm child = true →
    ∃ json, child.children.text? = some json ∧ unknownType fromJson json = false

/-- What a message stanza announces: each of its JSON texts. -/
def announcements (fromJson : FromJson) (e : Element) : List FcmSignal :=
  e.children.elements.flatMap fun child =>
    if isGcm child then (child.children.text?.bind (announcement fromJson)).toList else []

theorem isElement_of_current {name uri n u : String} {a : List (String × String)}
    (h : c.reader.current = some (.startElement n u a)) : c.isElement name uri = decide (n = name ∧ u = uri) := by
  unfold isElement
  rw [h]

theorem does_handleMessage {e : Element} {q : List Token} (he : IsMessage fromJson e)
    (hr : Reads (e.children.tokens ++ .endElement e.name :: q) c) :
    Does (handleMessage fromJson) (fun _ => Sends (announcements fromJson e) q c) (fun _ _ => False) c := by
  refine does_forEachElement e.children hr (fun child hchild q' c' hr' hc' => ?_) fun c₁ fuel h₁ hfuel =>
    does_while_end hfuel h₁.reads fun c₂ h₂ _ => h₁.quiet h₂
  refine Does.bind (Does.get ?_)
  rw [isElement_of_current hc']
  by_cases hg : child.name = "gcm" ∧ child.namespaceUri = gcmNspaceUri
  · have hgcm : isGcm child = true := decide_eq_true hg
    obtain ⟨json, hjson, known⟩ := he.texts child hchild hgcm
    rw [if_pos (decide_eq_true hg), if_pos hgcm, hjson]
    have htext := Reader.readElementText_tokens hr'.alive hc' hjson hr'.queue
    refine Does.bind (does_onReader ?_)
    rw [htext]
    refine (does_handleFcmMessage known).mono (fun _ c'' h => ?_) fun _ _ h => h
    obtain ⟨h1, h2, h3⟩ := h
    exact ⟨h3, ⟨by rw [h1]; rfl, by rw [h1]; rfl⟩, by rw [h1]; rfl, h2⟩
  · rw [if_neg (by simpa using hg), if_neg (by simpa [isGcm] using hg)]
    have hskip := Reader.skipCurrentElement_tokens hr'.alive hr'.queue
    refine does_onReader ?_
    rw [hskip]
    exact .of_reads ⟨rfl, rfl⟩ rfl

/-- The start tag of a message stanza. -/
theorem does_handleStartElement {a : List (String × String)} {Q : Unit → FcmStream Λ → Prop}
    {X : String → FcmStream Λ → Prop} (hc : c.reader.current = some (.startElement "message" defaultNspaceUri a))
    (h : Does (handleMessage fromJson) Q X c) : Does (handleStartElement fromJson) Q X c := by
  refine Does.bind (Does.get ?_)
  simp only [isElement_of_current hc]
  exact h

/-- When the data has run out there is nothing left to read, and no other error. -/
theorem does_parseEnd {Q : Unit → FcmStream Λ → Prop} {X : String → FcmStream Λ → Prop}
    (hatEnd : c.reader.atEnd = true) (herr : c.reader.error = some .prematureEndOfDocument) (h : Q () c) :
    Does (do
      handleOtherElement
      match (← get).reader.error with
      | none => return
      | some e => if e ≠ .prematureEndOfDocument then emit (.connectionError (errorString e))) Q X c := by
  refine Does.bind (Does.bind (Does.get ?_))
  refine Does.bind (Does.get ?_)
  rw [hatEnd]
  refine Does.pure (Does.bind (Does.get ?_))
  rw [herr]
  exact Does.pure h

/-- What is all complete message stanzas is announced, and nothing of it is left. -/
theorem does_parseXml {f : Forest} (hf : ∀ e ∈ f.elements, IsMessage fromJson e) (hr : Reads f.tokens c) :
    Does (parseXml fromJson) (fun _ => Sends (f.elements.flatMap (announcements fromJson)) [] c) (fun _ _ => False) c := by
  refine Does.bind (does_forEachElement f (by rw [List.append_nil]; exact hr)
    (fun e he q c' hr' hc' => does_handleStartElement (by rw [hc', (hf e he).name, (hf e he).namespaceUri])
      (does_handleMessage (hf e he) hr')) fun c₁ fuel h₁ hfuel =>
    does_while_nil hfuel h₁.reads fun c₂ h₂ hatEnd herr => does_parseEnd hatEnd herr (h₁.quiet h₂))

end FcmStream

end Gimmm
