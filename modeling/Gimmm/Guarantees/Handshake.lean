/-
The handshake from the first byte to the session. Once the socket is encrypted, and FCM's answers come each
in reads of its own, every stanza of them makes the connection take its step, in their order; the answer with
the `jid` ends the handshake, and no other stanza that comes in the same read is looked at.
-/
import Gimmm.Guarantees.Chunks
import Gimmm.Fcm.Handshake

namespace Gimmm

open Xml Prog

namespace FcmStream

variable {Λ : Type} {L : Lexer UInt8 Λ} {fromJson : FromJson} {c c' c'' : FcmStream Λ} {x y : FcmEffect}

/-- All that came is read, and the effect has taken place. -/
structure Answered (x : FcmEffect) (c c' : FcmStream Λ) : Prop where
  out : c'.out = c.out ++ x.out
  authMethods : c'.authMethods = c.authMethods ++ x.authMethods
  conn : c'.conn = if x.authenticated then c.conn.authenticate else c.conn
  atTop : c'.AtTop

theorem Answered.trans (h : Answered x c c') (h' : Answered y c' c'') : Answered (x.andThen y) c c'' where
  out := by simp [h'.out, h.out, FcmEffect.andThen]
  authMethods := by simp [h'.authMethods, h.authMethods, FcmEffect.andThen]
  conn := by
    rw [h'.conn, h.conn, FcmEffect.andThen]
    cases x.authenticated <;> cases y.authenticated <;> rfl
  atTop := h'.atTop

theorem Answered.refl (hc : c.AtTop) : Answered .none c c :=
  ⟨by simp [FcmEffect.none], by simp [FcmEffect.none], rfl, hc⟩

/-- The slots that find no data do nothing. -/
theorem does_readyRead_quiet {X : String → FcmStream Λ → Prop} (n : Nat) {c : FcmStream Λ} (hc : Reads [] c) :
    Does (readyRead L fromJson [] n) (fun _ => Performs .none [] c) X c := by
  induction n generalizing c with
  | zero => exact Does.pure (.of_reader (r := c.reader) hc rfl)
  | succ n ih =>
    have hdata : Reads (Forest.nil.tokens) { c with reader := c.reader.addData L [] } := ⟨by
      show c.reader.queue ++ _ = _
      rw [hc.queue]; rfl, hc.alive⟩
    refine Does.bind (Does.bind (does_onReader (does_reported ?_)))
    refine Does.mono (does_parseXml_answer (.stanzas .nil) (fun e he => by cases he) hdata) (fun _ c₁ h₁ => ?_)
      fun _ _ h => h
    refine (ih h₁.reads).mono (fun _ c₂ h₂ => ?_) fun _ _ h => h
    exact (Performs.of_reader (r := c.reader.addData L []) ⟨hdata.queue, hdata.alive⟩ rfl).after (h₁.quiet h₂)

variable (fromJson) in
/-- A chunk that is read to its end. -/
theorem feed_answered {bytes : List UInt8} (hc : c.AtTop) (hk : keepalive bytes = false)
    (h : ∀ c' : FcmStream Λ, Reads (L.read c.reader.lexer bytes).2 c' →
      Does (parseXml fromJson) (fun _ => Performs x [] c') (fun _ _ => False) c') :
    Answered x c (feed L fromJson c bytes) ∧
      (feed L fromJson c bytes).reader.lexer = (L.read c.reader.lexer bytes).1 := by
  refine step_of_does (Q := fun c' => Answered x c c' ∧ c'.reader.lexer = (L.read c.reader.lexer bytes).1)
    (Does.bind (Does.get ?_))
  obtain ⟨n, hn⟩ := Nat.exists_eq_succ_of_ne_zero hc.connected
  rw [hn]
  have hdata : Reads (L.read c.reader.lexer bytes).2 { c with reader := c.reader.addData L bytes } := ⟨by
    show c.reader.queue ++ _ = _
    rw [hc.reads.queue]; rfl, hc.reads.alive⟩
  unfold readyRead handleReadyRead
  rw [if_neg (by simp [hk])]
  refine Does.bind (Does.bind (does_onReader (does_reported ?_)))
  refine (h _ hdata).mono (fun _ c₁ h₁ => ?_) fun _ _ h => h.elim
  refine (does_readyRead_quiet n h₁.reads).mono (fun _ c₂ h₂ => ?_) fun _ _ h => h
  have h₁₂ := h₁.quiet h₂
  exact ⟨⟨h₁₂.out, h₁₂.authMethods, h₁₂.conn, h₁₂.reads, by rw [h₁₂.readyReads]; exact hc.connected⟩, h₁₂.lexer⟩

variable (fromJson) in
/-- Answers, each in a chunk of its own. -/
theorem feedAll_answered {answers : List (List UInt8)} {ess : List (List Element)} (hc : c.AtTop)
    (hk : ∀ bytes ∈ answers, keepalive bytes = false)
    (hread : List.Forall₂ Answer (L.segments c.reader.lexer answers) ess)
    (hes : ∀ es ∈ ess, ∀ e ∈ es, HandshakeStanza e) :
    Answered (.all stanzaEffect ess.flatten) c (feedAll L fromJson c answers) ∧
      (feedAll L fromJson c answers).reader.lexer = (L.read c.reader.lexer answers.flatten).1 := by
  induction answers generalizing c ess with
  | nil =>
    cases hread
    exact ⟨.refl hc, rfl⟩
  | cons bytes answers ih =>
    obtain ⟨es, ess, hanswer, hrest, rfl⟩ := List.forall₂_cons_left_iff.1 hread
    have hfirst := feed_answered fromJson hc (hk _ (List.mem_cons_self ..)) fun c' hr =>
      does_parseXml_answer hanswer (hes _ (List.mem_cons_self ..)) hr
    obtain ⟨h₁, hl₁⟩ := hfirst
    rw [← hl₁] at hrest
    obtain ⟨h₂, hl₂⟩ := ih h₁.atTop (fun b hb => hk b (List.mem_cons_of_mem _ hb)) hrest fun es he =>
      hes es (List.mem_cons_of_mem _ he)
    rw [List.flatten_cons, List.flatten_cons, FcmEffect.all_append, L.read_append]
    refine ⟨h₁.trans h₂, ?_⟩
    rw [← hl₁]
    exact hl₂

variable (fromJson) in
/-- Once the socket is encrypted, answers each in a chunk of its own, and then a chunk with the effect `x`. -/
theorem encrypted_answered {answers : List (List UInt8)} {last : List UInt8} {ess : List (List Element)}
    (hc : Reads [] c) (hk : ∀ bytes ∈ answers ++ [last], keepalive bytes = false)
    (hread : List.Forall₂ Answer (L.segments c.reader.lexer answers) ess)
    (hes : ∀ es ∈ ess, ∀ e ∈ es, HandshakeStanza e)
    (h : ∀ c' : FcmStream Λ, Reads (L.read (L.read c.reader.lexer answers.flatten).1 last).2 c' →
      Does (parseXml fromJson) (fun _ => Performs x [] c') (fun _ _ => False) c') :
    Answered ((FcmEffect.encrypted.andThen (.all stanzaEffect ess.flatten)).andThen x) c
      (feedAll L fromJson (step L fromJson c .encrypted) (answers ++ [last])) := by
  have hopen : Answered .encrypted c (step L fromJson c .encrypted) :=
    ⟨List.append_assoc c.out [_] [_], (List.append_nil _).symm, rfl, ⟨hc.queue, hc.alive⟩, Nat.succ_ne_zero _⟩
  obtain ⟨h₁, hl₁⟩ := feedAll_answered (L := L) fromJson hopen.atTop
    (fun b hb => hk b (List.mem_append_left _ hb)) hread hes
  unfold feedAll at h₁ hl₁ ⊢
  rw [List.foldl_append]
  refine (hopen.trans h₁).trans (feed_answered fromJson h₁.atTop (hk _ (by simp)) fun c' hr => h c' ?_).1
  rw [hl₁] at hr
  exact hr

/-- Once the socket is encrypted, answers of any number of stanzas, each in a read of its own, and then the
result of the binding: the connection takes the step of each stanza, in their order, and is authenticated. It
has read all that came, but has done nothing for `rest`, which came with the result. -/
theorem handshake_completes {answers : List (List UInt8)} {last : List UInt8} {ess : List (List Element)}
    {b : BindResult} {rest : List Token} (hc : Reads [] c) (hk : ∀ bytes ∈ answers ++ [last], keepalive bytes = false)
    (hread : List.Forall₂ Answer (L.segments c.reader.lexer answers) ess)
    (hes : ∀ es ∈ ess, ∀ e ∈ es, HandshakeStanza e)
    (hlast : (L.read (L.read c.reader.lexer answers.flatten).1 last).2 = b.tokens ++ rest)
    (hrest : ∀ t ∈ rest, t.ordinary = true) :
    Answered ((FcmEffect.encrypted.andThen (.all stanzaEffect ess.flatten)).andThen .bound) c
      (feedAll L fromJson (step L fromJson c .encrypted) (answers ++ [last])) :=
  encrypted_answered fromJson hc hk hread hes fun _ hr => does_parseXml_bound hrest (by rw [← hlast]; exact hr)

/-! ## A handshake -/

/-- The first answer of FCM: a header and the mechanisms. -/
def mechanismsAnswer : List UInt8 :=
  streamHeader ++ bytesOf ["<stream:features>", "<mechanisms xmlns=", "\"urn:ietf:params:xml", ":ns:xmpp-sasl\">",
    "<mechanism>PLAIN</mechanism>", "</mechanisms></stream:features>"]

def successAnswer : List UInt8 :=
  bytesOf ["<success xmlns=", "\"urn:ietf:params:xml", ":ns:xmpp-sasl\"></success>"]

/-- The answer to the second header. -/
def featuresAnswer : List UInt8 :=
  streamHeader ++ bytesOf ["<stream:features>", "<bind xmlns=", "\"urn:ietf:params:xml", ":ns:xmpp-bind\"></bind>",
    "<session xmlns=", "\"urn:ietf:params:xml", ":ns:xmpp-session\"></session>", "</stream:features>"]

def bindAnswer : List UInt8 :=
  bytesOf ["<iq type=\"result\">", "<bind xmlns=", "\"urn:ietf:params:xml", ":ns:xmpp-bind\"><jid>me</jid></bind></iq>"]

def mechanismsForest : Forest :=
  .element "features" streamNspaceUri [] (.element "mechanisms" saslNspaceUri []
    (.element "mechanism" saslNspaceUri [] (.text "PLAIN" .nil) .nil) .nil) .nil

theorem mechanismsForest_stanzas : ∀ e ∈ mechanismsForest.elements, HandshakeStanza e := by
  simp only [mechanismsForest, Forest.elements, List.forall_mem_cons]
  refine ⟨.features rfl rfl ?_, fun _ h => by cases h⟩
  simp only [Forest.elements, List.forall_mem_cons]
  exact ⟨⟨fun _ => by simp [Forest.elements, Forest.text?], by simp⟩, fun _ h => by cases h⟩

def successForest : Forest := .element "success" saslNspaceUri [] .nil .nil

def featuresForest : Forest :=
  .element "features" streamNspaceUri []
    (.element "bind" bindNspaceUri [] .nil (.element "session" sessionNspaceUri [] .nil .nil)) .nil

def bindResult : BindResult where
  attributes := [("type", "result")]
  bindAttributes := []
  jidNspaceUri := bindNspaceUri
  jidAttributes := []
  beforeIq := []
  beforeBind := []
  beforeJid := []
  jid := [.characters "me"]
  afterJid := []
  afterBind := []
  isResult := rfl
  passed := by simp [Token.passed]

theorem handshake_completes_first :
    Answered ⟨[.emit .connectionEstablished, .emit .xmppHandshakeStarted, .singleShot 10 .sendAuthenticationInfo,
        .emit .saslSucess, .singleShot 10 .startNewStream, .singleShot 10 .sendIQBind, .emit .sessionEstablished],
      ["PLAIN"], true⟩ (FcmStream.new scanner)
      (feedAll scanner emptyObject (step scanner emptyObject (FcmStream.new scanner) .encrypted)
        ([mechanismsAnswer, successAnswer, featuresAnswer] ++ [bindAnswer ++ emptyMessage])) := by
  have hseg : scanner.segments (FcmStream.new scanner).reader.lexer [mechanismsAnswer, successAnswer, featuresAnswer] =
      [[.startDocument] ++ .startElement "stream" streamNspaceUri [("version", "1.0")] :: mechanismsForest.tokens,
        successForest.tokens,
        [] ++ .startElement "stream" streamNspaceUri [("version", "1.0")] :: featuresForest.tokens] := by decide +kernel
  have hlast : (scanner.read (scanner.read (FcmStream.new scanner).reader.lexer
      [mechanismsAnswer, successAnswer, featuresAnswer].flatten).1 (bindAnswer ++ emptyMessage)).2 =
      bindResult.tokens ++ emptyStanza.tokens := by decide +kernel
  have hread : List.Forall₂ Answer (scanner.segments (FcmStream.new scanner).reader.lexer
      [mechanismsAnswer, successAnswer, featuresAnswer])
      [mechanismsForest.elements, successForest.elements, featuresForest.elements] := by
    rw [hseg]
    exact .cons (.header _ _ (by simp [Token.passed])) (.cons (.stanzas _) (.cons (.header _ _ (by simp)) .nil))
  refine handshake_completes ⟨rfl, rfl⟩ (by decide +kernel) hread ?_ hlast (by decide)
  simp only [List.forall_mem_cons]
  refine ⟨mechanismsForest_stanzas, ?_, ?_, fun _ h => by cases h⟩
  · simp only [successForest, Forest.elements, List.forall_mem_cons]
    exact ⟨.success rfl rfl rfl, fun _ h => by cases h⟩
  · simp only [featuresForest, Forest.elements, List.forall_mem_cons]
    refine ⟨.features rfl rfl ?_, fun _ h => by cases h⟩
    simp only [Forest.elements, List.forall_mem_cons]
    exact ⟨⟨by simp, fun _ => rfl⟩, ⟨by simp, fun _ => rfl⟩, fun _ h => by cases h⟩

/-! ## A refusal -/

/-- If the last answer is the refusal of the authentication, its reason is reported once; no further step is
asked for, whatever comes with it, and the state of the connection is as it was. -/
theorem handshake_refused {answers : List (List UInt8)} {last : List UInt8} {ess : List (List Element)} {f : Refusal}
    {rest : List Token} (hc : Reads [] c) (hk : ∀ bytes ∈ answers ++ [last], keepalive bytes = false)
    (hread : List.Forall₂ Answer (L.segments c.reader.lexer answers) ess)
    (hes : ∀ es ∈ ess, ∀ e ∈ es, HandshakeStanza e)
    (hlast : (L.read (L.read c.reader.lexer answers.flatten).1 last).2 = f.tokens ++ rest)
    (hrest : ∀ t ∈ rest, t.ordinary = true) :
    Answered ((FcmEffect.encrypted.andThen (.all stanzaEffect ess.flatten)).andThen (.refused f.reason)) c
        (feedAll L fromJson (step L fromJson c .encrypted) (answers ++ [last])) ∧
      (feedAll L fromJson (step L fromJson c .encrypted) (answers ++ [last])).conn = c.conn := by
  have h := encrypted_answered fromJson hc hk hread hes fun _ hr =>
    does_parseXml_refused hrest (by rw [← hlast]; exact hr)
  refine ⟨h, ?_⟩
  rw [h.conn, if_neg]
  simp [FcmEffect.andThen, FcmEffect.encrypted, FcmEffect.refused, stanzas_unauthenticated]

/-- A refusal with its reason, before the end of its element. -/
def failureAnswer : List UInt8 :=
  bytesOf ["<failure xmlns=", "\"urn:ietf:params:xml", ":ns:xmpp-sasl\">",
    "<not-authorized></not-authorized></failure>"]

def refusal : Refusal where
  attributes := []
  reason := "not-authorized"
  reasonNspaceUri := saslNspaceUri
  reasonAttributes := []
  beforeFailure := []
  beforeReason := []
  text := []
  passed := fun _ h => by cases h

theorem handshake_refused_first :
    Answered ⟨[.emit .connectionEstablished, .emit .xmppHandshakeStarted, .singleShot 10 .sendAuthenticationInfo,
          .emit (.connectionError "Recieved xmpp-sasl FAILURE from FCM server. Reason:not-authorized\n")],
        ["PLAIN"], false⟩ (FcmStream.new scanner)
        (feedAll scanner emptyObject (step scanner emptyObject (FcmStream.new scanner) .encrypted)
          ([mechanismsAnswer] ++ [failureAnswer])) ∧
      (feedAll scanner emptyObject (step scanner emptyObject (FcmStream.new scanner) .encrypted)
        ([mechanismsAnswer] ++ [failureAnswer])).conn = (FcmStream.new scanner).conn := by
  have hseg : scanner.segments (FcmStream.new scanner).reader.lexer [mechanismsAnswer] =
      [[.startDocument] ++ .startElement "stream" streamNspaceUri [("version", "1.0")] :: mechanismsForest.tokens] := by
    decide +kernel
  have hlast : (scanner.read (scanner.read (FcmStream.new scanner).reader.lexer [mechanismsAnswer].flatten).1
      failureAnswer).2 = refusal.tokens ++ [.endElement "failure"] := by decide +kernel
  have hread : List.Forall₂ Answer (scanner.segments (FcmStream.new scanner).reader.lexer [mechanismsAnswer])
      [mechanismsForest.elements] := by
    rw [hseg]
    exact .cons (.header _ _ (by simp [Token.passed])) .nil
  exact handshake_refused ⟨rfl, rfl⟩ (by decide +kernel) hread (by simpa using mechanismsForest_stanzas) hlast
    (by decide)

end FcmStream

end Gimmm
