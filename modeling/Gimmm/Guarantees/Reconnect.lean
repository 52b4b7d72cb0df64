/-
Reconnecting. The connection keeps one `QXmlStreamReader` for all its sockets and never clears it, and each
socket that is encrypted connects `readyRead()` once more. The new stream is read as by a new connection if
the old one left nothing in the reader; after a parse error no session is established again.
-/
import Gimmm.Fcm.Twins
import Gimmm.Guarantees.Chunks

namespace Gimmm

open Xml Prog FcmStream

variable {Λ : Type} {L : Lexer UInt8 Λ} {fromJson : FromJson}

namespace FcmStream

variable {c c' c'' : FcmStream Λ}

/-- The connection after the events `es` of its sockets. -/
def run (L : Lexer UInt8 Λ) (fromJson : FromJson) (es : List Event) : FcmStream Λ :=
  es.foldl (FcmStream.step L fromJson) (.new L)

/-- The socket is lost, and the next one is encrypted. -/
def reconnect (L : Lexer UInt8 Λ) (fromJson : FromJson) (c : FcmStream Λ) (d : Draw) : FcmStream Λ :=
  FcmStream.step L fromJson (FcmStream.step L fromJson c (.disconnected d)) .encrypted

/-- What the old socket left makes no difference to the chunks `news` of the next one. -/
def Afresh (L : Lexer UInt8 Λ) (fromJson : FromJson) (c : FcmStream Λ) (news : List (List UInt8)) : Prop :=
  c.readyReads = 0 ∨
    Reads [] c ∧ List.Forall₂ SameTokens (L.segments c.reader.lexer (retained news)) (L.segments L.init (retained news)) ∧
      ReadOut L fromJson (FcmStream.step L fromJson (.new L) .encrypted) news

variable (fromJson) in
/-- A disconnection leaves the reader and the slots alone. -/
theorem step_disconnected (d : Draw) :
    (FcmStream.step L fromJson c (.disconnected d)).readyReads = c.readyReads ∧
      (FcmStream.step L fromJson c (.disconnected d)).reader = c.reader := by
  refine step_of_does (Q := fun c' => c'.readyReads = c.readyReads ∧ c'.reader = c.reader) ?_
  refine Does.bind (Does.get (Does.bind (does_onConn ?_)))
  split
  · exact ⟨rfl, rfl⟩
  · exact ⟨rfl, rfl⟩

/-- Before the first socket is encrypted nothing is read. -/
theorem run_unread (es : List Event) (h : (run L fromJson es).readyReads = 0) :
    (run L fromJson es).reader = Reader.new L := by
  have hstep : ∀ c : FcmStream Λ, (c.readyReads = 0 → c.reader = Reader.new L) → ∀ e,
      (FcmStream.step L fromJson c e).readyReads = 0 → (FcmStream.step L fromJson c e).reader = Reader.new L := by
    intro c hc e hn
    cases e with
    | encrypted => cases hn
    | disconnected d =>
      rw [(step_disconnected fromJson d).1] at hn
      rw [(step_disconnected fromJson d).2]
      exact hc hn
    | readyRead bytes =>
      by_cases h0 : c.readyReads = 0
      · have hsame : FcmStream.step L fromJson c (.readyRead bytes) = c := by
          show left (readyRead L fromJson bytes c.readyReads c) = c
          rw [h0]
          rfl
        rw [hsame]
        exact hc h0
      · exact absurd ((feed_frame fromJson h0 bytes).1.symm.trans hn) h0
  have hall : ∀ (es : List Event) (c : FcmStream Λ), (c.readyReads = 0 → c.reader = Reader.new L) →
      (es.foldl (FcmStream.step L fromJson) c).readyReads = 0 →
        (es.foldl (FcmStream.step L fromJson) c).reader = Reader.new L := by
    intro es
    induction es with
    | nil => exact fun c hc hn => hc hn
    | cons e es ih => exact fun c hc hn => ih _ (hstep c hc e) hn
  exact hall es _ (fun _ => rfl) h

variable (fromJson) in
/-- The next socket, and what the disconnection left. -/
theorem reconnect_spec (d : Draw) :
    (reconnect L fromJson c d).reader = c.reader ∧ (reconnect L fromJson c d).readyReads = c.readyReads + 1 ∧
      (reconnect L fromJson c d).out = (FcmStream.step L fromJson c (.disconnected d)).out ++
        (FcmStream.step L fromJson (.new L) .encrypted).out := by
  obtain ⟨hn, hr⟩ := step_disconnected (L := L) fromJson (c := c) d
  refine ⟨hr, ?_, ?_⟩
  · rw [← hn]
    rfl
  · show ((FcmStream.step L fromJson c (.disconnected d)).out ++ [_]) ++ [_] = _
    rw [List.append_assoc]
    rfl

/-! ## Parse errors -/

/-- The parse error stays, and no session is established. -/
structure Deaf (c c' : FcmStream Λ) : Prop where
  stuck : c'.reader.stuck = true
  out : ∃ o, c'.out = c.out ++ o ∧ .emit .sessionEstablished ∉ o

theorem Deaf.trans (h : Deaf c c') (h' : Deaf c' c'') : Deaf c c'' := by
  obtain ⟨o, ho, hno⟩ := h.out
  obtain ⟨o', ho', hno'⟩ := h'.out
  refine ⟨h'.stuck, o ++ o', by rw [ho', ho, List.append_assoc], fun hmem => ?_⟩
  rcases List.mem_append.1 hmem with hmem | hmem
  · exact hno hmem
  · exact hno' hmem

theorem Deaf.refl (h : c.reader.stuck = true) : Deaf c c := ⟨h, [], (List.append_nil _).symm, fun h => by cases h⟩

theorem Deaf.emit {s : FcmSignal} (h : c.reader.stuck = true) (hs : FcmOutput.emit s ≠ .emit .sessionEstablished) :
    Deaf c { c with out := c.out ++ [.emit s] } := by
  refine ⟨h, [.emit s], rfl, fun hmem => ?_⟩
  exact hs (List.mem_singleton.1 hmem).symm

theorem does_parseXml_stuck {X : String → FcmStream Λ → Prop} (h : c.reader.stuck = true) :
    Does (parseXml fromJson) (fun _ => Deaf c) X c := by
  obtain ⟨e, he, hne⟩ := (Option.any_eq_true _ _).1 h
  have hstep : c.reader.readNextStartElement = (false, c.reader.stay) := by
    unfold Reader.readNextStartElement
    rw [h]
    rfl
  refine Does.bind (Does.bind (Does.get (Does.bind (does_onReader ?_))))
  rw [hstep]
  refine Does.pure (Does.bind (Does.bind (Does.get ?_)))
  have hend : c.reader.stay.atEnd = true := by
    show c.reader.error.isSome = true
    rw [he]
    rfl
  refine Does.bind (Does.get ?_)
  rw [hend]
  refine Does.pure (Does.bind (Does.get ?_))
  have herror : ({ c with reader := c.reader.stay } : FcmStream Λ).reader.error = some e := he
  rw [herror]
  dsimp only
  rw [if_pos (by simpa using hne)]
  have hdeaf := Deaf.emit (c := { c with reader := c.reader.stay }) (s := .connectionError (errorString e)) h (by simp)
  exact ⟨hdeaf.stuck, hdeaf.out⟩

theorem does_readyRead_stuck {X : String → FcmStream Λ → Prop} (n : Nat) {bytes : List UInt8} {c : FcmStream Λ}
    (h : c.reader.stuck = true) : Does (readyRead L fromJson bytes n) (fun _ => Deaf c) X c := by
  induction n generalizing c bytes with
  | zero => exact Does.pure (Deaf.refl h)
  | succ n ih =>
    refine Does.bind ?_
    unfold handleReadyRead
    split
    · have hbeat : Deaf c { c with out := c.out ++ [.emit .heartbeatRecieved] } := Deaf.emit h (by simp)
      exact (ih hbeat.stuck).mono (fun _ _ h' => hbeat.trans h') fun _ _ h => h
    · refine Does.bind (does_onReader (does_reported ?_))
      have hdata : ({ c with reader := c.reader.addData L bytes } : FcmStream Λ).reader.stuck = true := h
      refine (does_parseXml_stuck hdata).mono (fun _ c₁ h₁ => ?_) fun _ _ h => h
      have hdeaf : Deaf c c₁ := ⟨h₁.stuck, h₁.out⟩
      exact (ih h₁.stuck).mono (fun _ _ h' => hdeaf.trans h') fun _ _ h => h

variable (fromJson) in
theorem feedAll_stuck (chunks : List (List UInt8)) (h : c.reader.stuck = true) :
    Deaf c (feedAll L fromJson c chunks) := by
  induction chunks generalizing c with
  | nil => exact Deaf.refl h
  | cons bytes chunks ih =>
    have hfeed : Deaf c (feed L fromJson c bytes) := step_of_does (Does.bind (Does.get (does_readyRead_stuck _ h)))
    exact hfeed.trans (ih hfeed.stuck)

end FcmStream

/-- If the old socket left nothing that makes a difference, everything that is done after a reconnection is
what a new connection does with the same bytes. If it left a parse error, no session is established again. -/
theorem reconnected_afresh (es : List FcmStream.Event) (d : Draw) (news : List (List UInt8)) :
    (Afresh L fromJson (FcmStream.run L fromJson es) news →
      (feedAll L fromJson (reconnect L fromJson (FcmStream.run L fromJson es) d) news).out =
        (FcmStream.step L fromJson (FcmStream.run L fromJson es) (.disconnected d)).out ++
          (feedAll L fromJson (FcmStream.step L fromJson (FcmStream.new L) .encrypted) news).out) ∧
    ((FcmStream.run L fromJson es).reader.stuck = true →
      ∃ o, (feedAll L fromJson (reconnect L fromJson (FcmStream.run L fromJson es) d) news).out =
        (FcmStream.step L fromJson (FcmStream.run L fromJson es) (.disconnected d)).out ++ o ∧
          .emit .sessionEstablished ∉ o) := by
  obtain ⟨hreader, hslots, hout⟩ :=
    reconnect_spec (L := L) fromJson (c := FcmStream.run L fromJson es) d
  constructor
  · intro h
    -- the old queue of tokens is empty, so the old connection differs only in the lexer and in the slots
    have hlevel : ∀ (hq : Reads [] (FcmStream.run L fromJson es)),
        Level (FcmStream.step L fromJson (FcmStream.run L fromJson es) (.disconnected d)).out
          (reconnect L fromJson (FcmStream.run L fromJson es) d)
          (FcmStream.step L fromJson (FcmStream.new L) .encrypted) := by
      intro hq
      refine ⟨by rw [hreader]; exact hq.queue, by rw [hreader]; exact hq.alive, fun hs => ?_, hout⟩
      rw [hreader, hq.alive] at hs
      cases hs
    have hsame : (FcmStream.run L fromJson es).readyReads = 0 →
        L.segments (reconnect L fromJson (FcmStream.run L fromJson es) d).reader.lexer (retained news) =
          L.segments L.init (retained news) := by
      intro h0
      rw [hreader, run_unread es h0]
      rfl
    have hone : (reconnect L fromJson (FcmStream.run L fromJson es) d).readyReads ≠ 0 := by
      rw [hslots]
      exact Nat.succ_ne_zero _
    rcases h with h0 | ⟨hq, hseg, hread⟩
    · have hnew := run_unread es h0
      have hq : Reads [] (FcmStream.run L fromJson es) := ⟨by rw [hnew]; rfl, by rw [hnew]; rfl⟩
      refine (hlevel hq).feedAll rfl hone ?_ (fun _ => hsame h0) (Or.inl (by rw [hslots, h0]))
      rw [hsame h0]
      exact List.forall₂_same.2 fun _ _ => Or.inl rfl
    · refine (hlevel hq).feedAll rfl hone (by rw [hreader]; exact hseg) (fun h1 => ?_) (Or.inr hread)
      rw [hslots] at h1
      exact hsame (Nat.succ.inj h1)
  · intro hs
    obtain ⟨o, ho, hno⟩ := (feedAll_stuck (L := L) fromJson news
      (c := reconnect L fromJson (FcmStream.run L fromJson es) d) (by rw [hreader]; exact hs)).out
    refine ⟨(FcmStream.step L fromJson (FcmStream.new L) .encrypted).out ++ o, by rw [ho, hout, List.append_assoc], fun hmem => ?_⟩
    rcases List.mem_append.1 hmem with hmem | hmem
    · rcases List.mem_cons.1 hmem with hmem | hmem
      · cases hmem
      · cases List.mem_singleton.1 hmem
    · exact hno hmem

/-! ## A new stream -/

/-- The result of the binding, with which the session is established. -/
def bindResult : List UInt8 :=
  bytesOf ["<iq type=\"result\">", "<bind xmlns=\"urn:ietf", ":params:xml:ns:", "xmpp-bind\">", "<jid>x</jid>",
    "</bind></iq>"]

def bindTokens : List Token :=
  [.startElement "iq" defaultNspaceUri [("type", "result")], .startElement "bind" bindNspaceUri [],
    .startElement "jid" bindNspaceUri [], .characters "x", .endElement "jid", .endElement "bind", .endElement "iq"]

/-- The stream is lost between two stanzas. -/
def lostBetween : List FcmStream.Event := [.encrypted, .readyRead streamHeader, .readyRead emptyMessage]

/-- The stream is lost in a tag. -/
def lostInTag : List FcmStream.Event := [.encrypted, .readyRead streamHeader, .readyRead (emptyMessage.take 20)]

set_option maxRecDepth 100000 in
theorem reconnected_afresh_between :
    (feedAll scanner emptyObject (reconnect scanner emptyObject (FcmStream.run scanner emptyObject lostBetween) default)
      [streamHeader, bindResult]).out =
    (FcmStream.step scanner emptyObject (FcmStream.run scanner emptyObject lostBetween) (.disconnected default)).out ++
      (feedAll scanner emptyObject (FcmStream.step scanner emptyObject (FcmStream.new scanner) .encrypted)
        [streamHeader, bindResult]).out := by
  refine (reconnected_afresh lostBetween default [streamHeader, bindResult]).1 (Or.inr ⟨?_, ?_, ?_⟩)
  · exact ⟨by decide +kernel, by decide +kernel⟩
  · have hnew : scanner.segments scanner.init (retained [streamHeader, bindResult]) =
        [[.startDocument, .startElement "stream" streamNspaceUri [("version", "1.0")]], bindTokens] := by decide +kernel
    have hold : scanner.segments (FcmStream.run scanner emptyObject lostBetween).reader.lexer
        (retained [streamHeader, bindResult]) =
        [[.startElement "stream" streamNspaceUri [("version", "1.0")]], bindTokens] := by decide +kernel
    rw [hnew, hold]
    exact .cons (Or.inr rfl) (.cons (Or.inl rfl) .nil)
  · intro n
    rcases n with _ | _ | n
    · exact ⟨rfl, rfl⟩
    · exact ⟨by decide +kernel, by decide +kernel⟩
    · rw [List.take_of_length_le (Nat.le_add_left 2 n)]
      exact ⟨by decide +kernel, by decide +kernel⟩

/-- Is a session announced? -/
def FcmOutput.isEstablished : FcmOutput → Bool
  | .emit .sessionEstablished => true
  | _ => false

set_option maxRecDepth 100000 in
theorem reconnected_stale :
    ¬ (feedAll scanner emptyObject (reconnect scanner emptyObject (FcmStream.run scanner emptyObject lostInTag) default)
        [streamHeader, bindResult]).out =
      (FcmStream.step scanner emptyObject (FcmStream.run scanner emptyObject lostInTag) (.disconnected default)).out ++
        (feedAll scanner emptyObject (FcmStream.step scanner emptyObject (FcmStream.new scanner) .encrypted)
          [streamHeader, bindResult]).out := by
  intro h
  have hany := congrArg (List.any · FcmOutput.isEstablished) h
  have h1 : ((feedAll scanner emptyObject (reconnect scanner emptyObject (FcmStream.run scanner emptyObject lostInTag) default)
    [streamHeader, bindResult]).out.any FcmOutput.isEstablished) = false := by decide +kernel
  have h2 : ((feedAll scanner emptyObject (FcmStream.step scanner emptyObject (FcmStream.new scanner) .encrypted)
    [streamHeader, bindResult]).out.any FcmOutput.isEstablished) = true := by decide +kernel
  simp only [List.any_append, h1, h2, Bool.or_true] at hany
  cases hany

end Gimmm
