/-
The XMPP handshake. FCM answers in four reads: its stream header with the mechanisms, the success of the
authentication, a second header with the features, and the result of the binding. Each answer makes the
connection do its next step, and after the last one it is authenticated. The `jid` in the last answer is not
read, so the loops end one level too early and whatever came with that answer is thrown away.
-/
import Gimmm.Fcm.Cuts

namespace Xml

/-- A token that the loop over the elements reads over. -/
def Token.passed : Token → Bool
  | .startElement .. => false
  | .endElement _ => false
  | .malformed _ => false
  | _ => true

theorem Reader.go_passed {Λ : Type} {r : Reader Λ} {g : List Token} (hg : ∀ t ∈ g, t.passed = true) (q : List Token) :
    Reader.readNextStartElement.go r (g ++ q) = Reader.readNextStartElement.go r q := by
  induction g with
  | nil => rfl
  | cons t g ih =>
    have ih := ih fun s hs => hg s (List.mem_cons_of_mem _ hs)
    have ht := hg t (List.mem_cons_self ..)
    cases t with
    | startElement => cases ht
    | endElement => cases ht
    | malformed => cases ht
    | _ => exact ih

end Xml

namespace Gimmm

open Xml Prog

/-! ## Effects -/

/-- What is done for an element, apart from reading it. -/
structure FcmEffect where
  out : List FcmOutput
  authMethods : List String
  authenticated : Bool

namespace FcmEffect

def none : FcmEffect := ⟨[], [], false⟩

/-- One effect after another. -/
def andThen (x y : FcmEffect) : FcmEffect :=
  ⟨x.out ++ y.out, x.authMethods ++ y.authMethods, x.authenticated || y.authenticated⟩

/-- What is done once the socket is encrypted. -/
def encrypted : FcmEffect := ⟨[.emit .connectionEstablished, .emit .xmppHandshakeStarted], [], false⟩

/-- What the result of the binding makes the connection do. -/
def bound : FcmEffect := ⟨[.emit .sessionEstablished], [], true⟩

/-- What a refusal makes the connection do. -/
def refused (reason : String) : FcmEffect :=
  ⟨[.emit (.connectionError ("Recieved xmpp-sasl FAILURE from FCM server. Reason:" ++ reason ++ "\n"))], [], false⟩

/-- The effects of elements, in their order. -/
def all (effect : Element → FcmEffect) : List Element → FcmEffect
  | [] => none
  | e :: es => (effect e).andThen (all effect es)

@[simp] theorem andThen_none (x : FcmEffect) : x.andThen none = x := by simp [andThen, none]

@[simp] theorem none_andThen (x : FcmEffect) : none.andThen x = x := by simp [andThen, none]

theorem andThen_assoc (x y z : FcmEffect) : (x.andThen y).andThen z = x.andThen (y.andThen z) := by
  simp [andThen, Bool.or_assoc]

theorem all_append (effect : Element → FcmEffect) (es es' : List Element) :
    all effect (es ++ es') = (all effect es).andThen (all effect es') := by
  induction es with
  | nil => simp [all]
  | cons e es ih => simp [all, ih, andThen_assoc]

theorem all_unauthenticated {effect : Element → FcmEffect} (h : ∀ e, (effect e).authenticated = false)
    (es : List Element) :
    (all effect es).authenticated = false := by
  induction es with
  | nil => rfl
  | cons e es ih => simp [all, andThen, h, ih]

end FcmEffect

/-- `readJid` on the connection. -/
def FcmConnection.authenticate (conn : FcmConnection) : FcmConnection :=
  { conn with state := .authenticated, expBoff := conn.expBoff.reset }

namespace FcmStream

variable {Λ : Type} {fromJson : FromJson} {c c' c'' : FcmStream Λ} {body : Handler Λ Unit} {fuel : Nat}
  {g q : List Token} {n u : String} {a : List (String × String)} {Q : Unit → FcmStream Λ → Prop}
  {X : String → FcmStream Λ → Prop}

/-- The effect takes place, and the tokens `q` are left. -/
structure Performs (x : FcmEffect) (q : List Token) (c c' : FcmStream Λ) : Prop where
  out : c'.out = c.out ++ x.out
  authMethods : c'.authMethods = c.authMethods ++ x.authMethods
  conn : c'.conn = if x.authenticated then c.conn.authenticate else c.conn
  reads : Reads q c'
  lexer : c'.reader.lexer = c.reader.lexer
  readyReads : c'.readyReads = c.readyReads

theorem Performs.trans {x y : FcmEffect} {q' : List Token} (h : Performs x q c c') (h' : Performs y q' c' c'') :
    Performs (x.andThen y) q' c c'' where
  out := by simp [h'.out, h.out, FcmEffect.andThen]
  authMethods := by simp [h'.authMethods, h.authMethods, FcmEffect.andThen]
  conn := by
    rw [h'.conn, h.conn, FcmEffect.andThen]
    cases x.authenticated <;> cases y.authenticated <;> rfl
  reads := h'.reads
  lexer := h'.lexer.trans h.lexer
  readyReads := h'.readyReads.trans h.readyReads

theorem Performs.quiet {x : FcmEffect} {q' : List Token} (h : Performs x q c c') (h' : Performs .none q' c' c'') :
    Performs x q' c c'' := by
  simpa using h.trans h'

theorem Performs.after {x : FcmEffect} {q' : List Token} (h : Performs .none q c c') (h' : Performs x q' c' c'') :
    Performs x q' c c'' := by
  simpa using h.trans h'

theorem Performs.of_reader {r : Reader Λ} (h : Reads q { c with reader := r }) (hl : r.lexer = c.reader.lexer) :
    Performs .none q c { c with reader := r } :=
  ⟨by simp [FcmEffect.none], by simp [FcmEffect.none], rfl, h, hl, rfl⟩

/-! ## Loops -/

/-- The loop comes to a start tag. -/
theorem does_while_start (hg : ∀ t ∈ g, t.passed = true) (hfuel : c.reader.queue.length < fuel)
    (hr : Reads (g ++ .startElement n u a :: q) c)
    (h : ∀ c' k, Performs .none q c c' → c'.reader.current = some (.startElement n u a) → c'.reader.queue.length < k →
      Does (do body; whileStartElement body k) Q X c') : Does (whileStartElement body fuel) Q X c := by
  obtain ⟨fuel, rfl⟩ : ∃ k, fuel = k + 1 := ⟨fuel - 1, by omega⟩
  have hstep : c.reader.readNextStartElement = (true, c.reader.report (.startElement n u a) q) := by
    unfold Reader.readNextStartElement
    rw [hr.alive, hr.queue]
    exact Reader.go_passed hg _
  refine Does.bind (does_onReader ?_)
  rw [hstep]
  refine h _ fuel (.of_reader ⟨rfl, rfl⟩ rfl) rfl ?_
  rw [hr.queue] at hfuel
  simp only [List.length_append, List.length_cons] at hfuel
  show q.length < fuel
  omega

/-- The loop comes to an end tag. -/
theorem does_while_close (hg : ∀ t ∈ g, t.passed = true) (hfuel : c.reader.queue.length < fuel)
    (hr : Reads (g ++ .endElement n :: q) c)
    (h : ∀ c', Performs .none q c c' → c'.reader.current = some (.endElement n) → Q () c') :
    Does (whileStartElement body fuel) Q X c := by
  obtain ⟨fuel, rfl⟩ : ∃ k, fuel = k + 1 := ⟨fuel - 1, by omega⟩
  have hstep : c.reader.readNextStartElement = (false, c.reader.report (.endElement n) q) := by
    unfold Reader.readNextStartElement
    rw [hr.alive, hr.queue]
    exact Reader.go_passed hg _
  refine Does.bind (does_onReader ?_)
  rw [hstep]
  exact Does.pure (h _ (.of_reader ⟨rfl, rfl⟩ rfl) rfl)

/-- The data of the loop runs out. -/
theorem does_while_out (hg : ∀ t ∈ g, t.passed = true) (hfuel : c.reader.queue.length < fuel) (hr : Reads g c)
    (h : Q () { c with reader := c.reader.fail .prematureEndOfDocument [] }) :
    Does (whileStartElement body fuel) Q X c := by
  obtain ⟨fuel, rfl⟩ : ∃ k, fuel = k + 1 := ⟨fuel - 1, by omega⟩
  have hstep : c.reader.readNextStartElement = (false, c.reader.fail .prematureEndOfDocument []) := by
    unfold Reader.readNextStartElement
    rw [hr.alive, hr.queue, if_neg (by decide)]
    have hgo := Reader.go_passed (r := c.reader) hg []
    rwa [List.append_nil] at hgo
  refine Does.bind (does_onReader ?_)
  rw [hstep]
  exact Does.pure h

/-- The loop over the elements of a forest, if `body` reads each to its end with the effect `x`. -/
theorem does_while_forest {x : Element → FcmEffect} {rest : List Token} (f : Forest) {fuel : Nat} {c : FcmStream Λ}
    (hfuel : c.reader.queue.length < fuel) (hr : Reads (f.tokens ++ rest) c)
    (hbody : ∀ e ∈ f.elements, ∀ q (c : FcmStream Λ), Reads (e.children.tokens ++ .endElement e.name :: q) c →
      c.reader.current = some (.startElement e.name e.namespaceUri e.attributes) →
      Does body (fun _ => Performs (x e) q c) X c)
    (h : ∀ c' fuel', Performs (.all x f.elements) rest c c' → c'.reader.queue.length < fuel' →
      Does (whileStartElement body fuel') Q X c') : Does (whileStartElement body fuel) Q X c := by
  have skip : ∀ (t : Token) (f : Forest) {c : FcmStream Λ}, t.passed = true → Reads (t :: (f.tokens ++ rest)) c →
      ∀ {fuel : Nat}, c.reader.queue.length < fuel →
      (∀ {c₁ : FcmStream Λ} {k : Nat}, Performs .none (f.tokens ++ rest) c c₁ → c₁.reader.queue.length < k →
        Does (whileStartElement body k) Q X c₁) → Does (whileStartElement body fuel) Q X c := by
    intro t f c ht hr fuel hfuel hnext
    obtain ⟨fuel, rfl⟩ : ∃ k, fuel = k + 1 := ⟨fuel - 1, by omega⟩
    unfold Does
    rw [while_skip fuel (fun r => Reader.go_passed (g := [t]) (by simpa using ht) _) hr]
    rw [hr.queue, List.length_cons] at hfuel
    refine hnext (.of_reader ⟨rfl, hr.alive⟩ rfl) ?_
    show (f.tokens ++ rest).length < _
    omega
  induction f generalizing fuel c with
  | nil => exact h c fuel (.of_reader (r := c.reader) hr rfl) hfuel
  | text t f ih =>
    exact skip (.characters t) f rfl hr hfuel fun h₁ hk => ih hk h₁.reads hbody fun c₂ k₂ h₂ hk₂ =>
      h c₂ k₂ (h₁.after h₂) hk₂
  | comment f ih =>
    exact skip .comment f rfl hr hfuel fun h₁ hk => ih hk h₁.reads hbody fun c₂ k₂ h₂ hk₂ => h c₂ k₂ (h₁.after h₂) hk₂
  | element n u a ch f _ ih =>
    have hq : Reads ([] ++ .startElement n u a :: (ch.tokens ++ .endElement n :: (f.tokens ++ rest))) c := by
      simpa [Forest.tokens] using hr
    refine does_while_start (fun t ht => by cases ht) hfuel hq fun c₀ k h₀ hc₀ hk => ?_
    refine Does.bind ((hbody ⟨n, u, a, ch⟩ (List.mem_cons_self ..) (f.tokens ++ rest) c₀ h₀.reads hc₀).mono
      (fun _ c₁ h₁ => ?_) fun _ _ h => h)
    have hlen : c₁.reader.queue.length < k := by
      rw [h₁.reads.queue]
      rw [h₀.reads.queue] at hk
      simp only [List.length_append, List.length_cons] at hk ⊢
      omega
    exact ih hlen h₁.reads (fun e he => hbody e (List.mem_cons_of_mem _ he)) fun c₂ k₂ h₂ hk₂ =>
      h c₂ k₂ ((h₀.after h₁).trans h₂) hk₂

/-- The loop over all the elements of an element. -/
theorem does_forEach_closed (x : Element → FcmEffect) {f : Forest} (hr : Reads (f.tokens ++ .endElement n :: q) c)
    (hbody : ∀ e ∈ f.elements, ∀ q (c : FcmStream Λ), Reads (e.children.tokens ++ .endElement e.name :: q) c →
      c.reader.current = some (.startElement e.name e.namespaceUri e.attributes) →
      Does body (fun _ => Performs (x e) q c) X c)
    (h : ∀ c', Performs (.all x f.elements) q c c' → Q () c') : Does (forEachElement body) Q X c := by
  refine Does.bind (Does.get (does_while_forest f (Nat.lt_succ_self _) hr hbody fun c₁ k h₁ hk => ?_))
  exact does_while_close (g := []) (fun t ht => by cases ht) hk h₁.reads fun c₂ h₂ _ => h c₂ (h₁.quiet h₂)

/-! ## The end of the loop -/

/-- What `parseXml` does after its loop. -/
def parseRest : Handler Λ Unit := do
  handleOtherElement
  match (← get).reader.error with
  | none => return
  | some e => if e ≠ .prematureEndOfDocument then emit (.connectionError (errorString e))

/-- After an end tag the rest is read over. -/
theorem does_parseRest_closed (hq : ∀ t ∈ q, t.ordinary = true) (hr : Reads q c)
    (hc : c.reader.current = some (.endElement n)) (h : ∀ c', Performs .none [] c c' → Q () c') :
    Does parseRest Q X c := by
  have hatEnd : c.reader.atEnd = false := by unfold Reader.atEnd; rw [hc]; rfl
  refine Does.bind (Does.bind (Does.get ?_))
  refine does_drain hq hr hatEnd (by rw [hr.queue]) fun r hr' hl herr => ?_
  refine Does.bind (Does.get ?_)
  rw [show ({ c with reader := r } : FcmStream Λ).reader.error = some .prematureEndOfDocument from herr]
  exact Does.pure (h _ (.of_reader hr' hl))

/-! ## Features -/

theorem currentName_of_current (h : c.reader.current = some (.startElement n u a)) : c.currentName = n := by
  unfold currentName
  rw [h]

theorem does_ifElement {name uri : String} {x y : Handler Λ Unit} (hc : c.reader.current = some (.startElement n u a))
    (hx : n = name ∧ u = uri → Does x Q X c) (hy : ¬(n = name ∧ u = uri) → Does y Q X c) :
    Does (do if (← get).isElement name uri then x else y) Q X c := by
  refine Does.bind (Does.get ?_)
  rw [isElement_of_current hc]
  by_cases h : n = name ∧ u = uri
  · rw [if_pos (decide_eq_true h)]
    exact hx h
  · rw [if_neg (by simpa using h)]
    exact hy h

theorem does_skip {f : Forest} (hr : Reads (f.tokens ++ .endElement n :: q) c) :
    Does skipCurrentElement (fun _ => Performs .none q c) X c := by
  refine does_onReader ?_
  rw [Reader.skipCurrentElement_tokens hr.alive hr.queue]
  exact .of_reader ⟨rfl, rfl⟩ rfl

theorem does_readText {f : Forest} {t m : String} {Q : String → FcmStream Λ → Prop} (ht : f.text? = some t)
    (hc : c.reader.current = some (.startElement m u a)) (hr : Reads (f.tokens ++ .endElement n :: q) c)
    (h : ∀ c', Performs .none q c c' → Q t c') : Does readElementText Q X c := by
  refine does_onReader ?_
  rw [Reader.readElementText_tokens hr.alive hc ht hr.queue]
  exact h _ (.of_reader ⟨rfl, rfl⟩ rfl)

theorem does_discardText {f : Forest} (ht : f.text?.isSome = true) (hc : c.reader.current = some (.startElement n u a))
    (hr : Reads (f.tokens ++ .endElement n :: q) c) (h : ∀ c', Performs .none q c c' → Q () c') :
    Does (discard readElementText) Q X c := by
  obtain ⟨t, ht⟩ := Option.isSome_iff_exists.1 ht
  have htext : Does readElementText (fun _ c' => Q () c') X c := does_readText ht hc hr h
  exact htext

theorem does_perform {o : FcmOutput} (hr : Reads q c) : Does (perform o) (fun _ => Performs ⟨[o], [], false⟩ q c) X c :=
  ⟨rfl, (List.append_nil _).symm, rfl, ⟨hr.queue, hr.alive⟩, rfl, rfl⟩

/-- One effect is what comes after another. -/
theorem Does.performs {x y : FcmEffect} {q' : List Token} {body : Handler Λ Unit} (h : Performs x q c c')
    (hbody : Does body (fun _ => Performs y q' c') X c') : Does body (fun _ => Performs (x.andThen y) q' c) X c' :=
  hbody.mono (fun _ _ h' => h.trans h') fun _ _ h => h

/-- What an element of the list of mechanisms adds. -/
def mechanismEffect (e : Element) : FcmEffect :=
  if e.name = "mechanism" then ⟨[], [e.children.text?.getD ""], false⟩ else .none

theorem does_readMechanism {e : Element} (he : e.children.text?.isSome = true)
    (hc : c.reader.current = some (.startElement e.name e.namespaceUri e.attributes))
    (hr : Reads (e.children.tokens ++ .endElement e.name :: q) c) :
    Does readMechanism (fun _ => Performs ⟨[], [e.children.text?.getD ""], false⟩ q c) X c := by
  obtain ⟨t, ht⟩ := Option.isSome_iff_exists.1 he
  refine Does.bind (does_readText ht hc hr fun c₁ h₁ => ?_)
  rw [ht]
  refine Performs.after (x := ⟨[], [t], false⟩) h₁ ?_
  exact ⟨(List.append_nil _).symm, rfl, rfl, ⟨h₁.reads.queue, h₁.reads.alive⟩, rfl, rfl⟩

theorem does_readMechanisms {e : Element}
    (he : ∀ m ∈ e.children.elements, m.name = "mechanism" → m.children.text?.isSome = true)
    (hr : Reads (e.children.tokens ++ .endElement e.name :: q) c) :
    Does readMechanisms (fun _ => Performs ((FcmEffect.all mechanismEffect e.children.elements).andThen
      ⟨[.singleShot 10 .sendAuthenticationInfo], [], false⟩) q c) X c := by
  refine Does.bind (does_forEach_closed mechanismEffect hr (fun m hm q' c' hr' hc' => ?_) fun c₁ h₁ =>
    Does.performs h₁ (does_perform h₁.reads))
  refine Does.bind (Does.get ?_)
  rw [currentName_of_current hc', mechanismEffect]
  split
  · exact does_readMechanism (he m hm ‹_›) hc' hr'
  · exact does_skip hr'

/-- An element that `handleFeatures` reads to its end. -/
structure Feature (e : Element) : Prop where
  mechanisms : e.name = "mechanisms" → ∀ m ∈ e.children.elements, m.name = "mechanism" → m.children.text?.isSome = true
  text : e.name = "bind" ∨ e.name = "session" → e.children.text?.isSome = true

/-- What a feature adds. -/
def featureEffect (e : Element) : FcmEffect :=
  if e.name = "mechanisms" ∧ e.namespaceUri = saslNspaceUri then
    (FcmEffect.all mechanismEffect e.children.elements).andThen ⟨[.singleShot 10 .sendAuthenticationInfo], [], false⟩
  else if e.name = "bind" ∧ e.namespaceUri = bindNspaceUri then ⟨[.singleShot 10 .sendIQBind], [], false⟩
  else .none

theorem does_handleFeatures {e : Element} (he : ∀ f ∈ e.children.elements, Feature f)
    (hr : Reads (e.children.tokens ++ .endElement e.name :: q) c) :
    Does handleFeatures (fun _ => Performs (.all featureEffect e.children.elements) q c) X c := by
  refine does_forEach_closed featureEffect hr (fun f hf q' c' hr' hc' => ?_) fun c₁ h₁ => h₁
  unfold featureEffect
  refine does_ifElement hc' (fun hm => ?_) fun hm => does_ifElement hc' (fun hb => ?_) fun hb =>
    does_ifElement hc' (fun hs => ?_) fun _ => ?_
  · rw [if_pos hm]
    exact does_readMechanisms ((he f hf).mechanisms hm.1) hr'
  · rw [if_neg hm, if_pos hb]
    refine Does.bind (does_discardText ((he f hf).text (.inl hb.1)) hc' hr' fun c₁ h₁ => ?_)
    exact (does_perform h₁.reads).mono (fun _ _ h₂ => h₁.after h₂) fun _ _ h => h
  · rw [if_neg hm, if_neg hb]
    exact does_discardText ((he f hf).text (.inr hs.1)) hc' hr' fun c₁ h₁ => h₁
  · rw [if_neg hm, if_neg hb]
    exact does_skip hr'

/-! ## Stanzas -/

/-- A stanza of the handshake that is read to its end. -/
inductive HandshakeStanza (e : Element) : Prop where
  | features (name : e.name = "features") (uri : e.namespaceUri = streamNspaceUri)
      (read : ∀ f ∈ e.children.elements, Feature f)
  | success (name : e.name = "success") (uri : e.namespaceUri = saslNspaceUri) (text : e.children.text?.isSome = true)

/-- What a stanza makes the connection do. -/
def stanzaEffect (e : Element) : FcmEffect :=
  if e.name = "features" then .all featureEffect e.children.elements
  else ⟨[.emit .saslSucess, .singleShot 10 .startNewStream], [], false⟩

theorem does_stanza {e : Element} (he : HandshakeStanza e)
    (hc : c.reader.current = some (.startElement e.name e.namespaceUri e.attributes))
    (hr : Reads (e.children.tokens ++ .endElement e.name :: q) c) :
    Does (handleStartElement fromJson) (fun _ => Performs (stanzaEffect e) q c) X c := by
  refine Does.bind (Does.get ?_)
  simp only [isElement_of_current hc]
  cases he with
  | features name uri read =>
    have hchain : Does handleFeatures (fun _ => Performs (stanzaEffect e) q c) X c := by
      unfold stanzaEffect
      rw [if_pos name]
      exact does_handleFeatures read hr
    rw [name, uri]
    exact hchain
  | success name uri text =>
    have hchain : Does handleSaslSuccess (fun _ => Performs (stanzaEffect e) q c) X c := by
      unfold stanzaEffect
      rw [if_neg (by rw [name]; decide)]
      refine Does.bind (does_discardText text hc hr fun c₁ h₁ => ?_)
      refine Does.bind ((does_perform h₁.reads).mono (fun _ c₂ h₂ => ?_) fun _ _ h => h)
      exact (does_perform h₂.reads).mono (fun _ _ h₃ => h₁.after (h₂.trans h₃)) fun _ _ h => h
    rw [name, uri]
    exact hchain

/-- No stanza but the result of the binding authenticates. -/
theorem stanzas_unauthenticated (es : List Element) : (FcmEffect.all stanzaEffect es).authenticated = false := by
  refine FcmEffect.all_unauthenticated (fun e => ?_) es
  unfold stanzaEffect
  split
  · refine FcmEffect.all_unauthenticated (fun f => ?_) _
    unfold featureEffect
    split
    · refine (Bool.or_false _).trans (FcmEffect.all_unauthenticated (fun m => ?_) _)
      unfold mechanismEffect
      split <;> rfl
    · split <;> rfl
  · rfl

/-- The tokens of whole stanzas, after the header of a stream or without one. -/
inductive Answer : List Token → List Element → Prop where
  | stanzas (f : Forest) : Answer f.tokens f.elements
  | header {g : List Token} (a : List (String × String)) (f : Forest) (hg : ∀ t ∈ g, t.passed = true) :
      Answer (g ++ .startElement "stream" streamNspaceUri a :: f.tokens) f.elements

/-- The stanzas of an answer are all read to their ends. -/
theorem does_parseXml_answer {ts : List Token} {es : List Element} (h : Answer ts es)
    (hes : ∀ e ∈ es, HandshakeStanza e) (hr : Reads ts c) :
    Does (parseXml fromJson) (fun _ => Performs (.all stanzaEffect es) [] c) X c := by
  -- the loop over the stanzas, from wherever it has come
  have hloop : ∀ (f : Forest) {c₁ : FcmStream Λ} {k : Nat}, (∀ e ∈ f.elements, HandshakeStanza e) → Reads f.tokens c₁ →
      c₁.reader.queue.length < k → Performs .none f.tokens c c₁ →
      Does (whileStartElement (handleStartElement fromJson) k) (fun _ c₂ =>
        Does parseRest (fun _ => Performs (.all stanzaEffect f.elements) [] c) X c₂) X c₁ := by
    intro f c₁ k hf hr₁ hk h₁
    have hread : Reads (f.tokens ++ []) c₁ := by rwa [List.append_nil]
    refine does_while_forest f hk hread (fun e he q c' hr' hc' =>
      does_stanza (hf e he) hc' hr') fun c₂ k₂ h₂ hk₂ => ?_
    refine does_while_out (g := []) (fun t ht => by cases ht) hk₂ h₂.reads ?_
    refine does_parseEnd rfl rfl ?_
    exact (h₁.after h₂).quiet (.of_reader ⟨rfl, rfl⟩ rfl)
  cases h with
  | stanzas f =>
    refine Does.bind (Does.bind (Does.get (hloop f hes hr (Nat.lt_succ_self _) ?_)))
    exact .of_reader (r := c.reader) hr rfl
  | header a f hg =>
    refine Does.bind (Does.bind (Does.get (does_while_start hg (Nat.lt_succ_self _) hr fun c₁ k h₁ hc₁ hk => ?_)))
    refine Does.bind (Does.bind (Does.get ?_))
    simp only [isElement_of_current hc₁]
    exact hloop f hes h₁.reads hk h₁

/-! ## The result of the binding -/

/-- The result of the binding; `gaps` are what stands between its tags. -/
structure BindResult where
  attributes : List (String × String)
  bindAttributes : List (String × String)
  jidNspaceUri : String
  jidAttributes : List (String × String)
  beforeIq : List Token
  beforeBind : List Token
  beforeJid : List Token
  jid : List Token
  afterJid : List Token
  afterBind : List Token
  isResult : attributes.lookup "type" = some "result"
  passed : ∀ t ∈ beforeIq ++ beforeBind ++ beforeJid ++ jid ++ afterJid ++ afterBind, t.passed = true

namespace BindResult

def closing (b : BindResult) : List Token :=
  b.jid ++ .endElement "jid" :: (b.afterJid ++ .endElement "bind" :: (b.afterBind ++ [.endElement "iq"]))

def tokens (b : BindResult) : List Token :=
  b.beforeIq ++ .startElement "iq" defaultNspaceUri b.attributes ::
    (b.beforeBind ++ .startElement "bind" bindNspaceUri b.bindAttributes ::
      (b.beforeJid ++ .startElement "jid" b.jidNspaceUri b.jidAttributes :: b.closing))

end BindResult

theorem does_iq (hc : c.reader.current = some (.startElement "iq" defaultNspaceUri a))
    (ha : a.lookup "type" = some "result") (h : Does handleIq Q X c) :
    Does (handleStartElement fromJson) Q X c := by
  have hvalue : c.attributeValue "type" = "result" := by
    unfold attributeValue
    rw [hc]
    show (a.lookup "type").getD "" = _
    rw [ha]; rfl
  refine Does.bind (Does.get ?_)
  simp only [isElement_of_current hc, hvalue]
  exact h

theorem does_readJid (hr : Reads q c) :
    Does readJid (fun _ => Performs .bound q c) X c :=
  ⟨rfl, (List.append_nil _).symm, rfl, ⟨hr.queue, hr.alive⟩, rfl, rfl⟩

/-- The result of the binding ends the handshake; `rest` is read over. -/
theorem does_parseXml_bound {b : BindResult} {rest : List Token} (hrest : ∀ t ∈ rest, t.ordinary = true)
    (hr : Reads (b.tokens ++ rest) c) :
    Does (parseXml fromJson) (fun _ => Performs .bound [] c) X c := by
  have hpassed := b.passed
  simp only [List.mem_append, or_imp, forall_and] at hpassed
  obtain ⟨⟨⟨⟨⟨hiq, hbind⟩, hbefore⟩, hjid⟩, hafter⟩, hlast⟩ := hpassed
  unfold BindResult.tokens BindResult.closing at hr
  simp only [List.append_assoc, List.cons_append, List.nil_append] at hr
  -- each loop comes to its start tag
  refine Does.bind (Does.bind (Does.get (does_while_start hiq (Nat.lt_succ_self _) hr fun c₁ k₁ h₁ hc₁ hk₁ => ?_)))
  refine Does.bind (does_iq hc₁ b.isResult (Does.bind (Does.get ?_)))
  refine does_while_start hbind (Nat.lt_succ_self _) h₁.reads fun c₂ k₂ h₂ hc₂ hk₂ => ?_
  refine Does.bind (does_ifElement hc₂ (fun _ => Does.bind (Does.get ?_)) fun hne => absurd ⟨rfl, rfl⟩ hne)
  refine does_while_start hbefore (Nat.lt_succ_self _) h₂.reads fun c₃ k₃ h₃ hc₃ hk₃ => ?_
  refine Does.bind (Does.bind (Does.get ?_))
  rw [currentName_of_current hc₃, if_pos rfl]
  refine (does_readJid h₃.reads).mono (fun _ c₄ h₄ => ?_) fun _ _ h => h
  rw [h₁.reads.queue] at hk₁
  rw [h₂.reads.queue] at hk₂
  rw [h₃.reads.queue, ← h₄.reads.queue] at hk₃
  simp only [List.length_append, List.length_cons] at hk₁ hk₂
  -- and ends with the end tag of the next one
  refine does_while_close hjid hk₃ h₄.reads fun c₅ h₅ _ => ?_
  refine does_while_close hafter (by rw [h₅.reads.queue]; simp; omega) h₅.reads fun c₆ h₆ _ => ?_
  refine does_while_close hlast (by rw [h₆.reads.queue]; simp; omega) h₆.reads fun c₇ h₇ hc₇ => ?_
  have hjid : Performs .bound _ c c₄ := ((h₁.quiet h₂).quiet h₃).after h₄
  exact does_parseRest_closed hrest h₇.reads hc₇ fun c₈ h₈ => (((hjid.quiet h₅).quiet h₆).quiet h₇).quiet h₈

/-! ## Refusals -/

/-- The refusal of the authentication, up to the end of the element with the reason. -/
structure Refusal where
  attributes : List (String × String)
  reason : String
  reasonNspaceUri : String
  reasonAttributes : List (String × String)
  beforeFailure : List Token
  beforeReason : List Token
  text : List Token
  passed : ∀ t ∈ beforeFailure ++ beforeReason ++ text, t.passed = true

def Refusal.tokens (f : Refusal) : List Token :=
  f.beforeFailure ++ .startElement "failure" saslNspaceUri f.attributes ::
    (f.beforeReason ++ .startElement f.reason f.reasonNspaceUri f.reasonAttributes ::
      (f.text ++ [.endElement f.reason]))

theorem does_handleSaslFailure (hg : ∀ t ∈ g, t.passed = true) (hr : Reads (g ++ .startElement n u a :: q) c) :
    Does handleSaslFailure (fun _ => Performs (.refused n) q c) X c := by
  have hstep : c.reader.readNextStartElement = (true, c.reader.report (.startElement n u a) q) := by
    unfold Reader.readNextStartElement
    rw [hr.alive, hr.queue]
    exact Reader.go_passed hg _
  have hnext : Does readNextStartElement (fun _ c' => Does (do
      let failureReason := (← get).currentName
      emit (.connectionError ("Recieved xmpp-sasl FAILURE from FCM server. Reason:" ++ failureReason ++ "\n")))
      (fun _ => Performs (.refused n) q c) X c') X c := by
    refine does_onReader ?_
    rw [hstep]
    exact ⟨rfl, (List.append_nil _).symm, rfl, ⟨rfl, rfl⟩, rfl, rfl⟩
  exact Does.bind hnext

/-- The refusal is reported, and `rest` is read over: the loop takes the end of the reason for that of the stanza. -/
theorem does_parseXml_refused {f : Refusal} {rest : List Token} (hrest : ∀ t ∈ rest, t.ordinary = true)
    (hr : Reads (f.tokens ++ rest) c) :
    Does (parseXml fromJson) (fun _ => Performs (.refused f.reason) [] c) X c := by
  have hpassed := f.passed
  simp only [List.mem_append, or_imp, forall_and] at hpassed
  obtain ⟨⟨hfailure, hreason⟩, htext⟩ := hpassed
  unfold Refusal.tokens at hr
  simp only [List.append_assoc, List.cons_append, List.nil_append] at hr
  refine Does.bind (Does.bind (Does.get (does_while_start hfailure (Nat.lt_succ_self _) hr fun c₁ k₁ h₁ hc₁ hk₁ => ?_)))
  refine Does.bind (Does.bind (Does.get ?_))
  simp only [isElement_of_current hc₁]
  have hreported : Does handleSaslFailure (fun _ c₂ => Does (whileStartElement (handleStartElement fromJson) k₁)
      (fun _ => Does parseRest (fun _ => Performs (.refused f.reason) [] c) X) X c₂) X c₁ := by
    refine (does_handleSaslFailure hreason h₁.reads).mono (fun _ c₂ h₂ => ?_) fun _ _ h => h
    refine does_while_close htext ?_ h₂.reads fun c₃ h₃ hc₃ => ?_
    · rw [h₁.reads.queue] at hk₁
      rw [h₂.reads.queue]
      simp only [List.length_append, List.length_cons] at hk₁ ⊢
      omega
    exact does_parseRest_closed hrest h₃.reads hc₃ fun c₄ h₄ => ((h₁.after h₂).quiet h₃).quiet h₄
  exact hreported

end FcmStream

end Gimmm
