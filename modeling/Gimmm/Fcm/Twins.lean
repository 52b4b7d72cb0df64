/-
What the connection does depends on the tokens it reads and on nothing else: two connections whose readers
have the same tokens do the same, whatever their tokenizers and the states of their sessions are.
-/
import Gimmm.Fcm.Chunks

namespace Gimmm

open Xml Prog

namespace FcmStream

variable {Λ : Type} {L : Lexer UInt8 Λ} {fromJson : FromJson} {c c' a b : FcmStream Λ} {pre : List FcmOutput}

/-- The readers are the same but for the tokenizer, and `a` has done what `b` has, after `pre`. -/
structure Twins (pre : List FcmOutput) (a b : FcmStream Λ) : Prop where
  reader : a.reader = { b.reader with lexer := a.reader.lexer }
  out : a.out = pre ++ b.out

/-- A function of the reader that does not look at the tokenizer. -/
structure Blind {α : Type} (f : Reader Λ → α × Reader Λ) : Prop where
  value : ∀ (r : Reader Λ) l, (f { r with lexer := l }).1 = (f r).1
  rest : ∀ (r : Reader Λ) l, (f { r with lexer := l }).2 = { (f r).2 with lexer := l }

theorem Twins.queue (h : Twins pre a b) : a.reader.queue = b.reader.queue := by rw [h.reader]

theorem Twins.current (h : Twins pre a b) : a.reader.current = b.reader.current := by rw [h.reader]

theorem Twins.error (h : Twins pre a b) : a.reader.error = b.reader.error := by rw [h.reader]

theorem Twins.isElement (h : Twins pre a b) (name uri : String) : a.isElement name uri = b.isElement name uri := by
  unfold FcmStream.isElement
  rw [h.current]

theorem Twins.currentName (h : Twins pre a b) : a.currentName = b.currentName := by
  unfold FcmStream.currentName
  rw [h.current]

theorem Twins.attributeValue (h : Twins pre a b) (key : String) : a.attributeValue key = b.attributeValue key := by
  unfold FcmStream.attributeValue
  rw [h.current]

theorem Twins.atEnd (h : Twins pre a b) : a.reader.atEnd = b.reader.atEnd := by
  unfold Reader.atEnd
  rw [h.current, h.error]

/-! ## Statements -/

theorem uniform_perform (o : FcmOutput) : Uniform (Twins pre) (perform o : Handler Λ Unit) :=
  Uniform.modify fun s t h => ⟨h.reader, by
    show s.out ++ [o] = pre ++ (t.out ++ [o])
    rw [h.out, List.append_assoc]⟩

theorem uniform_onConn (f : FcmConnection → FcmConnection) : Uniform (Twins pre) (onConn f : Handler Λ Unit) :=
  Uniform.modify fun _ _ h => ⟨h.reader, h.out⟩

theorem uniform_onReader {α : Type} {f : Reader Λ → α × Reader Λ} (hf : Blind f) :
    Uniform (Twins pre) (onReader f) := by
  intro s t h
  have hv := hf.value t.reader s.reader.lexer
  have hr := hf.rest t.reader s.reader.lexer
  rw [← h.reader] at hv hr
  show Agree _ (.ok (f s.reader).1 { s with reader := (f s.reader).2 }) (.ok (f t.reader).1 { t with reader := (f t.reader).2 })
  rw [hv]
  exact .ok _ ⟨by show (f s.reader).2 = { (f t.reader).2 with lexer := (f s.reader).2.lexer }; rw [hr], h.out⟩

/-! ## The reader -/

theorem next_go_same (r r' : Reader Λ) : ∀ q, Reader.readNextStartElement.go r q =
    ((Reader.readNextStartElement.go r' q).1, { (Reader.readNextStartElement.go r' q).2 with lexer := r.lexer })
  | [] => rfl
  | t :: q => by
    cases t with
    | startElement => rfl
    | endElement => rfl
    | malformed => rfl
    | _ => exact next_go_same r r' q

theorem text_go_lexer (r : Reader Λ) (l : Λ) : ∀ q (acc : String), Reader.readElementText.go { r with lexer := l } acc q =
    ((Reader.readElementText.go r acc q).1, { (Reader.readElementText.go r acc q).2 with lexer := l })
  | [], _ => rfl
  | t :: q, acc => by
    cases t with
    | characters t => exact text_go_lexer r l q _
    | comment => exact text_go_lexer r l q _
    | _ => rfl

theorem skip_go_lexer (r : Reader Λ) (l : Λ) : ∀ q current depth,
    Reader.skipCurrentElement.go { r with lexer := l } current depth q =
      { Reader.skipCurrentElement.go r current depth q with lexer := l }
  | [], _, 0 => rfl
  | [], _, _ + 1 => rfl
  | _ :: _, _, 0 => rfl
  | t :: q, current, depth + 1 => by
    cases t with
    | malformed => rfl
    | startElement => exact skip_go_lexer r l q _ _
    | endElement => exact skip_go_lexer r l q _ _
    | _ => exact skip_go_lexer r l q _ _

theorem readNextStartElement_lexer (r : Reader Λ) (l : Λ) : Reader.readNextStartElement { r with lexer := l } =
    (r.readNextStartElement.1, { r.readNextStartElement.2 with lexer := l }) := by
  unfold Reader.readNextStartElement
  show (if r.stuck then _ else _) = _
  split
  · rfl
  · exact next_go_same _ r r.queue

theorem readElementText_lexer (r : Reader Λ) (l : Λ) : Reader.readElementText { r with lexer := l } =
    (r.readElementText.1, { r.readElementText.2 with lexer := l }) := by
  unfold Reader.readElementText
  dsimp only
  split
  · show (if r.stuck then _ else _) = _
    split
    · rfl
    · exact text_go_lexer r l r.queue _
  · rfl

theorem blind_readNextStartElement : @Blind Λ _ (·.readNextStartElement) :=
  ⟨fun r l => by rw [readNextStartElement_lexer], fun r l => by rw [readNextStartElement_lexer]⟩

theorem blind_readElementText : @Blind Λ _ (·.readElementText) :=
  ⟨fun r l => by rw [readElementText_lexer], fun r l => by rw [readElementText_lexer]⟩

theorem uniform_readNextStartElement : Uniform (Twins pre) (readNextStartElement : Handler Λ Bool) :=
  uniform_onReader blind_readNextStartElement

theorem uniform_readElementText : Uniform (Twins pre) (readElementText : Handler Λ String) :=
  uniform_onReader blind_readElementText

theorem uniform_discard {α : Type} {f : Reader Λ → α × Reader Λ} (hf : Blind f) :
    Uniform (Twins pre) (discard (onReader f) : Handler Λ Unit) := by
  show Uniform _ (onReader fun r => ((), (f r).2))
  exact uniform_onReader ⟨fun _ _ => rfl, hf.rest⟩

theorem uniform_skipCurrentElement : Uniform (Twins pre) (skipCurrentElement : Handler Λ Unit) := by
  refine uniform_onReader ⟨fun r l => rfl, fun r l => ?_⟩
  show Reader.skipCurrentElement { r with lexer := l } = { r.skipCurrentElement with lexer := l }
  unfold Reader.skipCurrentElement
  show (if r.stuck then _ else _) = _
  split
  · rfl
  · exact skip_go_lexer r l r.queue _ _

theorem uniform_readNext : Uniform (Twins pre) (onReader fun r => ((), r.readNext) : Handler Λ Unit) := by
  refine uniform_onReader ⟨fun r l => rfl, fun r l => ?_⟩
  show Reader.readNext { r with lexer := l } = { r.readNext with lexer := l }
  unfold Reader.readNext
  show (if r.stuck then _ else _) = _
  split
  · rfl
  · dsimp only
    cases r.queue with
    | nil => rfl
    | cons t q => cases t <;> rfl

/-! ## Loops -/

theorem uniform_whileStartElement {body : Handler Λ Unit} (hb : Uniform (Twins pre) body) :
    ∀ fuel, Uniform (Twins pre) (whileStartElement body fuel)
  | 0 => Uniform.pure _
  | fuel + 1 => by
    refine Uniform.bind uniform_readNextStartElement fun more => ?_
    cases more with
    | true => exact Uniform.bind hb fun _ => uniform_whileStartElement hb fuel
    | false => exact Uniform.pure _

theorem uniform_forEachElement {body : Handler Λ Unit} (hb : Uniform (Twins pre) body) :
    Uniform (Twins pre) (forEachElement body) :=
  Uniform.get (fun s t h => by rw [h.queue]) fun _ => uniform_whileStartElement hb _

theorem uniform_discardText : Uniform (Twins pre) (discard readElementText : Handler Λ Unit) :=
  uniform_discard blind_readElementText

/-! ## The handshake -/

theorem uniform_readMechanisms : Uniform (Twins pre) (readMechanisms : Handler Λ Unit) := by
  have hadd : ∀ method : String, Uniform (Twins pre)
      (modify fun c => { c with authMethods := c.authMethods ++ [method] } : Handler Λ Unit) := fun _ =>
    Uniform.modify fun _ _ h => ⟨h.reader, h.out⟩
  refine Uniform.bind (uniform_forEachElement (Uniform.get (fun s t h => by rw [h.currentName]) fun c => ?_)) fun _ =>
    uniform_perform _
  split
  · exact Uniform.bind uniform_readElementText hadd
  · exact uniform_skipCurrentElement

theorem uniform_handleFeatures : Uniform (Twins pre) (handleFeatures : Handler Λ Unit) := by
  refine uniform_forEachElement (Uniform.get (fun s t h => by rw [h.isElement]) fun c => ?_)
  split
  · exact uniform_readMechanisms
  · refine Uniform.get (fun s t h => by rw [h.isElement]) fun c => ?_
    split
    · exact Uniform.bind uniform_discardText fun _ => uniform_perform _
    · refine Uniform.get (fun s t h => by rw [h.isElement]) fun c => ?_
      split
      · exact uniform_discardText
      · exact uniform_skipCurrentElement

theorem uniform_handleIq : Uniform (Twins pre) (handleIq : Handler Λ Unit) := by
  refine uniform_forEachElement (Uniform.get (fun s t h => by rw [h.isElement]) fun c => ?_)
  split
  · refine uniform_forEachElement (Uniform.get (fun s t h => by rw [h.currentName]) fun c => ?_)
    split
    · exact Uniform.bind (uniform_onConn _) fun _ => uniform_perform _
    · exact uniform_skipCurrentElement
  · exact uniform_skipCurrentElement

/-! ## Messages -/

theorem uniform_handleFcmMessage (json : String) : Uniform (Twins pre) (handleFcmMessage fromJson json : Handler Λ Unit) := by
  unfold handleFcmMessage
  split
  · exact uniform_perform _
  · dsimp only
    split
    · split
      · exact uniform_perform _
      · split
        · exact uniform_perform _
        · split
          · unfold handleControlMessage
            split
            · exact Uniform.bind (uniform_onConn _) fun _ => uniform_perform _
            · exact uniform_perform _
          · split
            · exact uniform_perform _
            · exact Uniform.throw _
    · exact uniform_perform _

theorem uniform_handleMessage : Uniform (Twins pre) (handleMessage fromJson : Handler Λ Unit) := by
  refine uniform_forEachElement (Uniform.get (fun s t h => by rw [h.isElement]) fun c => ?_)
  split
  · exact Uniform.bind uniform_readElementText uniform_handleFcmMessage
  · exact uniform_skipCurrentElement

/-! ## The stream -/

theorem uniform_handleStartElement : Uniform (Twins pre) (handleStartElement fromJson : Handler Λ Unit) := by
  refine Uniform.get (fun s t h => by simp only [h.isElement, h.attributeValue, h.currentName]) fun c => ?_
  split
  · exact Uniform.pure _
  · split
    · exact uniform_handleFeatures
    · split
      · exact uniform_handleIq
      · split
        · exact Uniform.bind uniform_discardText fun _ => Uniform.bind (uniform_perform _) fun _ => uniform_perform _
        · split
          · refine Uniform.bind (uniform_discard blind_readNextStartElement) fun _ =>
              Uniform.get (fun s t h => by rw [h.currentName]) fun c => ?_
            exact uniform_perform _
          · split
            · exact uniform_handleMessage
            · exact Uniform.throw _

theorem uniform_drain : ∀ fuel, Uniform (Twins pre) (drain fuel : Handler Λ Unit)
  | 0 => Uniform.pure _
  | fuel + 1 => by
    refine Uniform.get (fun s t h => by rw [h.atEnd]) fun c => ?_
    split
    · exact Uniform.pure _
    · refine Uniform.bind uniform_readNext fun _ => Uniform.get (fun s t h => by rw [h.current]) fun c => ?_
      split
      · exact Uniform.bind (Uniform.bind (uniform_perform _) fun _ => uniform_perform _) fun _ => uniform_drain fuel
      · exact uniform_drain fuel

/-- What follows the loop over the stanzas. -/
theorem uniform_parseEnd : Uniform (Twins pre) (do
    handleOtherElement
    match (← get).reader.error with
    | none => return
    | some e => if e ≠ .prematureEndOfDocument then emit (.connectionError (errorString e)) : Handler Λ Unit) := by
  refine Uniform.bind (Uniform.get (fun s t h => by rw [h.queue]) fun c => uniform_drain _) fun _ =>
    Uniform.get (fun s t h => by rw [h.error]) fun c => ?_
  split
  · exact Uniform.pure _
  · split
    · exact uniform_perform _
    · exact Uniform.pure _

/-! ## Chunks -/

/-- Between two chunks: the readers have the same left, and are both as good as new or in the same error. -/
structure Level (pre : List FcmOutput) (a b : FcmStream Λ) : Prop where
  queue : a.reader.queue = b.reader.queue
  stuck : a.reader.stuck = b.reader.stuck
  error : a.reader.stuck = true → a.reader.error = b.reader.error
  out : a.out = pre ++ b.out

theorem Twins.level (h : Twins pre a b) : Level pre a b :=
  ⟨h.queue, by unfold Reader.stuck; rw [h.error], fun _ => h.error, h.out⟩

/-- The first token that is looked at makes the readers the same. -/
theorem Level.readNextStartElement (h : Level pre a b) :
    Agree (Twins pre) ((FcmStream.readNextStartElement : Handler Λ Bool) a)
      ((FcmStream.readNextStartElement : Handler Λ Bool) b) := by
  show Agree _ (.ok a.reader.readNextStartElement.1 { a with reader := a.reader.readNextStartElement.2 })
    (.ok b.reader.readNextStartElement.1 { b with reader := b.reader.readNextStartElement.2 })
  unfold Reader.readNextStartElement
  rw [← h.stuck]
  cases hs : a.reader.stuck with
  | true =>
    refine .ok false ⟨?_, h.out⟩
    show Reader.mk _ a.reader.queue none a.reader.error = Reader.mk _ b.reader.queue none b.reader.error
    rw [h.queue, h.error hs]
    rfl
  | false =>
    simp only [Bool.false_eq_true, if_false]
    rw [h.queue, next_go_same a.reader b.reader]
    exact .ok _ ⟨rfl, h.out⟩

variable (fromJson) in
theorem Level.parseXml (h : Level pre a b) :
    Agree (Twins pre) ((FcmStream.parseXml fromJson : Handler Λ Unit) a) ((FcmStream.parseXml fromJson : Handler Λ Unit) b) := by
  refine Agree.bind (x := forEachElement (handleStartElement fromJson)) ?_ fun _ => uniform_parseEnd
  show Agree _ (whileStartElement (handleStartElement fromJson) (a.reader.queue.length + 1) a)
    (whileStartElement (handleStartElement fromJson) (b.reader.queue.length + 1) b)
  rw [h.queue]
  refine Agree.bind h.readNextStartElement fun more => ?_
  cases more with
  | true => exact Uniform.bind uniform_handleStartElement fun _ => uniform_whileStartElement uniform_handleStartElement _
  | false => exact Uniform.pure _

/-- More rounds than there are tokens make no difference. -/
theorem while_fuel {body : Handler Λ Unit} (hb : Frugal body) (n m : Nat) (c : FcmStream Λ)
    (hn : c.reader.queue.length < n) (hm : c.reader.queue.length < m) :
    whileStartElement body n c = whileStartElement body m c := by
  induction n generalizing m c with
  | zero => exact absurd hn (Nat.not_lt_zero _)
  | succ n ih =>
    obtain ⟨m, rfl⟩ : ∃ k, m = k + 1 := ⟨m - 1, by omega⟩
    have hread : (readNextStartElement : Handler Λ Bool) c =
      .ok c.reader.readNextStartElement.1 { c with reader := c.reader.readNextStartElement.2 } := rfl
    unfold whileStartElement
    rw [bind_ok hread, bind_ok hread]
    cases hmore : c.reader.readNextStartElement.1 with
    | false => rfl
    | true =>
      obtain ⟨before, t, hq, -⟩ := Reader.readNextStartElement_true hmore
      have hlt : c.reader.readNextStartElement.2.queue.length < c.reader.queue.length := by
        rw [hq]
        simp only [List.length_append, List.length_cons]
        omega
      have hbody := hb { c with reader := c.reader.readNextStartElement.2 }
      simp only [if_true]
      unfold Does at hbody
      cases hx : body { c with reader := c.reader.readNextStartElement.2 } with
      | ok u c₂ =>
        rw [hx] at hbody
        rw [bind_ok hx, bind_ok hx]
        have hle : c₂.reader.queue.length ≤ c.reader.readNextStartElement.2.queue.length := hbody.queue.length_le
        exact ih m c₂ (by omega) (by omega)
      | error e c₂ => rw [bind_error hx, bind_error hx]

variable (fromJson) in
/-- The reader goes over the start of the document. -/
theorem parseXml_startDocument {q : List Token} (hc : Reads (.startDocument :: q) c) :
    (parseXml fromJson : Handler Λ Unit) c = parseXml fromJson { c with reader := { c.reader with queue := q } } := by
  have hloop : (forEachElement (handleStartElement fromJson) : Handler Λ Unit) c =
      forEachElement (handleStartElement fromJson) { c with reader := { c.reader with queue := q } } := by
    show whileStartElement (handleStartElement fromJson) (c.reader.queue.length + 1) c =
      whileStartElement (handleStartElement fromJson) (q.length + 1) { c with reader := { c.reader with queue := q } }
    rw [while_skip _ (fun _ => rfl) hc, hc.queue]
    exact while_fuel frugal_handleStartElement _ _ _ (Nat.lt_succ_of_lt (Nat.lt_succ_self _)) (Nat.lt_succ_self _)
  exact bind_same hloop

/-- The same tokens, except that `s` may begin a document with them. -/
def SameTokens (t s : List Token) : Prop := t = s ∨ s = .startDocument :: t

theorem agree_reported {x : Handler Λ Unit} (h : Agree (Twins pre) (x a) (x b)) :
    ∃ a' b', reported x a = .ok () a' ∧ reported x b = .ok () b' ∧ Twins pre a' b' := by
  unfold reported
  cases ha : x a with
  | ok _ a' =>
    cases hb : x b with
    | ok _ b' =>
      rw [ha, hb] at h
      cases h with
      | ok _ h => exact ⟨a', b', rfl, rfl, h⟩
    | error => rw [ha, hb] at h; cases h
  | error e a' =>
    cases hb : x b with
    | ok => rw [ha, hb] at h; cases h
    | error e' b' =>
      rw [ha, hb] at h
      cases h with
      | error _ h =>
        refine ⟨_, _, rfl, rfl, h.reader, ?_⟩
        show a'.out ++ [_] = pre ++ (b'.out ++ [_])
        rw [h.out, List.append_assoc]

variable (fromJson) in
/-- Two connections at the same point do the same with a chunk. -/
theorem Level.handleReadyRead {bytes : List UInt8} (h : Level pre a b) (hk : keepalive bytes = false)
    (hts : (L.read a.reader.lexer bytes).2 = (L.read b.reader.lexer bytes).2 ∨
      (L.read b.reader.lexer bytes).2 = .startDocument :: (L.read a.reader.lexer bytes).2 ∧ Reads [] b) :
    ∃ a' b', FcmStream.handleReadyRead L fromJson bytes a = .ok () a' ∧
      FcmStream.handleReadyRead L fromJson bytes b = .ok () b' ∧ Twins pre a' b' := by
  have hhandle : ∀ c : FcmStream Λ, FcmStream.handleReadyRead L fromJson bytes c =
      reported (FcmStream.parseXml fromJson) { c with reader := c.reader.addData L bytes } := by
    intro c
    unfold FcmStream.handleReadyRead
    rw [if_neg (by simp [hk])]
    rfl
  rw [hhandle a, hhandle b]
  rcases hts with hts | ⟨hts, hb⟩
  · have hlevel : Level pre { a with reader := a.reader.addData L bytes } { b with reader := b.reader.addData L bytes } := by
      refine ⟨?_, h.stuck, h.error, h.out⟩
      show a.reader.queue ++ _ = b.reader.queue ++ _
      rw [h.queue, hts]
    exact agree_reported (hlevel.parseXml fromJson)
  · have hdata : Reads (.startDocument :: (L.read a.reader.lexer bytes).2) { b with reader := b.reader.addData L bytes } :=
      ⟨by show b.reader.queue ++ _ = _; rw [hb.queue, hts]; rfl, hb.alive⟩
    have hlevel : Level pre { a with reader := a.reader.addData L bytes }
        { b with reader := { b.reader.addData L bytes with queue := (L.read a.reader.lexer bytes).2 } } := by
      refine ⟨?_, h.stuck, h.error, h.out⟩
      show a.reader.queue ++ _ = _
      rw [h.queue, hb.queue]
      rfl
    have hskip := parseXml_startDocument fromJson hdata
    have hagree := hlevel.parseXml fromJson
    rw [← hskip] at hagree
    exact agree_reported hagree

/-- The stream that a slot leaves, also when it ends with an exception. -/
def left : EStateM.Result String (FcmStream Λ) Unit → FcmStream Λ
  | .ok _ c => c
  | .error _ c => c

/-- After its first run the slot has nothing to do. -/
theorem feed_first {bytes : List UInt8} {n : Nat} (hn : c.readyReads = n + 1)
    (h : handleReadyRead L fromJson bytes c = .ok () c') :
    (n = 0 → feed L fromJson c bytes = c') ∧ (Reads [] c' → Idles c' (feed L fromJson c bytes)) := by
  have hfeed : feed L fromJson c bytes = left (readyRead L fromJson [] n c') := by
    show left (readyRead L fromJson bytes c.readyReads c) = _
    rw [hn]
    unfold readyRead
    rw [bind_ok h]
    cases n <;> rfl
  refine ⟨?_, fun hc => ?_⟩
  · rintro rfl
    exact hfeed
  · have hnil := does_readyRead_nil (L := L) fromJson (X := fun _ => Idles c') n hc
    unfold Does at hnil
    rw [hfeed]
    cases hx : readyRead L fromJson [] n c' with
    | ok _ c₁ => rw [hx] at hnil; exact hnil
    | error _ c₁ => rw [hx] at hnil; exact hnil

theorem Level.idles (h : Level pre a b) (hb : Reads [] b) (hi : Idles a c) : Level pre c b :=
  ⟨hi.reads.queue.trans hb.queue.symm, hi.reads.alive.trans hb.alive.symm, fun hs => (by rw [hi.reads.alive] at hs; cases hs),
    hi.out.trans h.out⟩

theorem Level.reads (h : Level pre a b) {q : List Token} (hb : Reads q b) : Reads q a :=
  ⟨h.queue.trans hb.queue, h.stuck.trans hb.alive⟩

/-- The slot may run more often in `a`, if `b` reads each chunk to its end. -/
theorem Level.feed {bytes : List UInt8} {n : Nat} (h : Level pre a b) (hb : b.readyReads = 1) (ha : a.readyReads = n + 1)
    (hts : keepalive bytes = false → (L.read a.reader.lexer bytes).2 = (L.read b.reader.lexer bytes).2 ∨
      (L.read b.reader.lexer bytes).2 = .startDocument :: (L.read a.reader.lexer bytes).2 ∧ Reads [] b)
    (hread : n = 0 ∨ Reads [] (FcmStream.feed L fromJson b bytes)) :
    Level pre (FcmStream.feed L fromJson a bytes) (FcmStream.feed L fromJson b bytes) := by
  have hfirst : ∃ a' b', FcmStream.handleReadyRead L fromJson bytes a = .ok () a' ∧
      FcmStream.handleReadyRead L fromJson bytes b = .ok () b' ∧ Level pre a' b' := by
    cases hk : keepalive bytes with
    | false =>
      obtain ⟨a', b', ha', hb', htwins⟩ := h.handleReadyRead fromJson hk (hts hk)
      exact ⟨a', b', ha', hb', htwins.level⟩
    | true =>
      have hbeat : ∀ c : FcmStream Λ, FcmStream.handleReadyRead L fromJson bytes c =
          .ok () { c with out := c.out ++ [.emit .heartbeatRecieved] } := by
        intro c
        unfold FcmStream.handleReadyRead
        rw [if_pos hk]
        rfl
      refine ⟨_, _, hbeat a, hbeat b, h.queue, h.stuck, h.error, ?_⟩
      show a.out ++ [_] = pre ++ (b.out ++ [_])
      rw [h.out, List.append_assoc]
  obtain ⟨a', b', ha', hb', hlevel⟩ := hfirst
  have hbfeed := (feed_first hb hb').1 rfl
  rw [hbfeed] at hread ⊢
  rcases hread with rfl | hread
  · rw [(feed_first ha ha').1 rfl]
    exact hlevel
  · exact hlevel.idles hread ((feed_first ha ha').2 (hlevel.reads hread))

variable (fromJson) in
/-- A chunk leaves the connections of the slot as they are, and the tokenizer where it has read the chunk. -/
theorem feed_frame (hc : c.readyReads ≠ 0) (bytes : List UInt8) :
    (feed L fromJson c bytes).readyReads = c.readyReads ∧ (feed L fromJson c bytes).reader.lexer =
      if keepalive bytes then c.reader.lexer else (L.read c.reader.lexer bytes).1 := by
  cases hk : keepalive bytes with
  | true =>
    have h := feed_keepalive_spends (L := L) fromJson (c := c) hk
    exact ⟨h.readyReads, h.lexer⟩
  | false => exact (feed_frugal fromJson hc hk).2

/-- Each of the chunks is read to its end, without a parse error. -/
def ReadOut (L : Lexer UInt8 Λ) (fromJson : FromJson) (c : FcmStream Λ) (chunks : List (List UInt8)) : Prop :=
  ∀ n, Reads [] (feedAll L fromJson c (chunks.take n))

/-- Two connections at the same point do the same with the same tokens. -/
theorem Level.feedAll {chunks : List (List UInt8)} (h : Level pre a b) (hb : b.readyReads = 1) (ha : a.readyReads ≠ 0)
    (hseg : List.Forall₂ SameTokens (L.segments a.reader.lexer (retained chunks)) (L.segments b.reader.lexer (retained chunks)))
    (hone : a.readyReads = 1 →
      L.segments a.reader.lexer (retained chunks) = L.segments b.reader.lexer (retained chunks))
    (hread : a.readyReads = 1 ∨ ReadOut L fromJson b chunks) :
    (FcmStream.feedAll L fromJson a chunks).out = pre ++ (FcmStream.feedAll L fromJson b chunks).out := by
  induction chunks generalizing a b with
  | nil => exact h.out
  | cons bytes chunks ih =>
    obtain ⟨n, hn⟩ := Nat.exists_eq_succ_of_ne_zero ha
    obtain ⟨han, hal⟩ := feed_frame (L := L) fromJson ha bytes
    obtain ⟨hbn, hbl⟩ := feed_frame (L := L) fromJson (c := b) (by rw [hb]; decide) bytes
    have hzero : a.readyReads = 1 → n = 0 := fun h => by omega
    have hread₁ : n = 0 ∨ Reads [] (FcmStream.feed L fromJson b bytes) := hread.imp hzero fun hr => hr 1
    have hnext : (FcmStream.feed L fromJson a bytes).readyReads = 1 ∨
        ReadOut L fromJson (FcmStream.feed L fromJson b bytes) chunks := by
      rw [han]
      exact hread.imp id fun hr m => hr (m + 1)
    cases hk : keepalive bytes with
    | true =>
      rw [hk, if_pos rfl] at hal hbl
      rw [retained_keepalive hk] at hseg hone
      have hlevel := h.feed hb hn (fun hk' => by rw [hk] at hk'; cases hk') hread₁
      exact ih hlevel (hbn.trans hb) (by rw [han]; exact ha) (by rw [hal, hbl]; exact hseg)
        (by rw [han, hal, hbl]; exact hone) hnext
    | false =>
      rw [hk, if_neg (by decide)] at hal hbl
      rw [retained_cons hk] at hseg hone
      obtain ⟨hhead, htail⟩ := List.forall₂_cons.1 hseg
      -- the first chunk may bring the document start to the new connection only
      have hts : (L.read a.reader.lexer bytes).2 = (L.read b.reader.lexer bytes).2 ∨
          (L.read b.reader.lexer bytes).2 = .startDocument :: (L.read a.reader.lexer bytes).2 ∧ Reads [] b := by
        rcases hread with h1 | hr
        · exact Or.inl (List.cons.inj (hone h1)).1
        · exact hhead.imp id fun hs => ⟨hs, hr 0⟩
      have hlevel := h.feed hb hn (fun _ => hts) hread₁
      exact ih hlevel (hbn.trans hb) (by rw [han]; exact ha) (by rw [hal, hbl]; exact htail)
        (by rw [han, hal, hbl]; exact fun h1 => (List.cons.inj (hone h1)).2) hnext

end FcmStream

end Gimmm
