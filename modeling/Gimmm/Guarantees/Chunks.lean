/-
FCM input and how TCP cuts it. The reader keeps its tokens over a chunk boundary, but the place in the
recursive handlers is lost: a stanza is announced if its start tags and its JSON text come with one chunk,
and after the rest of a cut stanza a chunk must bring no start tag.
-/
import Gimmm.Fcm.Chunks

namespace Gimmm

open Xml FcmStream

variable {Λ : Type} {L : Lexer UInt8 Λ} {fromJson : FromJson}

/-- The chunks are announced as their bytes are in one chunk. -/
def CutAlike (L : Lexer UInt8 Λ) (fromJson : FromJson) (c : FcmStream Λ) (chunks : List (List UInt8)) : Prop :=
  (feedAll L fromJson c chunks).announced = (feed L fromJson c chunks.flatten).announced

/-- The whole stream in one chunk. -/
theorem feed_forest {c : FcmStream Λ} (hc : c.AtTop) {bytes : List UInt8} {f : Forest} (hk : keepalive bytes = false)
    (hread : (L.read c.reader.lexer bytes).2 = f.tokens) (hf : ∀ e ∈ f.elements, IsMessage fromJson e) :
    (feed L fromJson c bytes).announced = c.announced ++ f.elements.flatMap (announcements fromJson) :=
  (feed_sends fromJson hc hk fun _ hr => does_parseXml hf (hread ▸ hr)).1

theorem feed_layout {c : FcmStream Λ} (hc : c.AtTop) {bytes : List UInt8} {xs : List Stanza}
    (hk : keepalive bytes = false) (hread : Layout xs (L.read c.reader.lexer bytes).2)
    (known : ∀ s ∈ xs, unknownType fromJson s.json = false) :
    (feed L fromJson c bytes).announced = c.announced ++ announcesAll fromJson xs :=
  (feed_sends fromJson hc hk (brings_layout hread known)).1

theorem announcesAll_signals {xs : List Stanza} (h : ∀ s ∈ xs, (announcement fromJson s.json).isSome = true) :
    (announcesAll fromJson xs).length = xs.length := by
  unfold announcesAll
  induction xs with
  | nil => rfl
  | cons s xs ih =>
    obtain ⟨o, ho⟩ := Option.isSome_iff_exists.1 (h s (List.mem_cons_self ..))
    rw [List.flatMap_cons, List.length_append, ih fun s hs => h s (List.mem_cons_of_mem _ hs), Stanza.announces, ho,
      List.length_cons, Nat.add_comm]
    rfl

/-- Nothing comes of a lone keepalive, in one chunk or in several. -/
theorem tokens_of_keepalive {l : Λ} {chunks : List (List UInt8)} (h : keepalive chunks.flatten = true) :
    streamTokens L l chunks = [] := by
  unfold streamTokens
  rw [retained_of_keepalive h]
  rfl

/-- How a stream of complete message stanzas is cut makes no difference if each chunk that is no keepalive
brings whole stanzas, or if each of them is served; and for stanzas that are announced only then. -/
theorem chunks_alike (hempty : ∃ e, fromJson "" = .error e) {c : FcmStream Λ} (hc : c.AtTop)
    (chunks : List (List UInt8)) :
    (∀ (f : Forest) (fs : List Forest), (L.read c.reader.lexer chunks.flatten).2 = f.tokens →
      L.segments c.reader.lexer (retained chunks) = fs.map Forest.tokens →
      fs.flatMap Forest.elements = f.elements → (∀ e ∈ f.elements, IsMessage fromJson e) →
      CutAlike L fromJson c chunks) ∧
    (∀ xs ys : List Stanza, Layout xs (L.read c.reader.lexer chunks.flatten).2 →
      Layout ys (streamTokens L c.reader.lexer chunks) → (∀ s ∈ xs ++ ys, unknownType fromJson s.json = false) →
      (announcesAll fromJson ys = announcesAll fromJson xs →
        (∀ t ∈ L.segments c.reader.lexer (retained chunks), Served t) → CutAlike L fromJson c chunks) ∧
      (ys.length = xs.length → (∀ s ∈ xs ++ ys, (announcement fromJson s.json).isSome = true) →
        CutAlike L fromJson c chunks → announcesAll fromJson ys = announcesAll fromJson xs ∧
          ∀ t ∈ L.segments c.reader.lexer (retained chunks), Served t)) := by
  refine ⟨fun f fs hread hseg hfs hf => ?_, fun xs ys hxs hys known => ?_⟩
  · have hall := feedAll_forests hc hseg (hfs ▸ hf)
    unfold CutAlike
    rw [hall, hfs]
    cases hk : keepalive chunks.flatten with
    | false => exact (feed_forest hc hk hread hf).symm
    | true =>
      have hnil : (fs.map Forest.tokens).flatten = [] := by
        rw [← hseg, L.segments_flatten]
        exact tokens_of_keepalive hk
      have hnone : f.elements = [] := by
        rw [← hfs]
        refine List.flatMap_eq_nil_iff.2 fun g hg => ?_
        have := List.flatten_eq_nil_iff.1 hnil _ (List.mem_map.2 ⟨g, hg, rfl⟩)
        cases g with
        | nil => rfl
        | _ => cases this
      rw [hnone]
      exact (feed_keepalive fromJson hc hk).announced.symm
  · -- the whole stream in one chunk; a keepalive is thrown away, so then it has no stanza
    have hwhole : (ys = [] → announcesAll fromJson xs = []) →
        (feed L fromJson c chunks.flatten).announced = c.announced ++ announcesAll fromJson xs := by
      intro hnone
      cases hk : keepalive chunks.flatten with
      | false => exact feed_layout hc hk hxs fun s hs => known s (by simp [hs])
      | true =>
        have hcounts := hys.counts.1
        rw [tokens_of_keepalive hk] at hcounts
        rw [hnone (List.length_eq_zero_iff.1 hcounts.symm)]
        exact (feed_keepalive fromJson hc hk).announced
    have hchunks := feedAll_stanzas hempty (fun s hs => known s (by simp [hs])) hc (.layout hys)
    unfold CutAlike
    constructor
    · intro hsame hserved
      rcases hchunks with ⟨-, hann⟩ | ⟨⟨t, ht, hbad⟩, -⟩
      · rw [hann, hwhole fun hnone => by rw [← hsame, hnone]; rfl, hsame]
      · exact absurd (hserved t ht) hbad
    · intro hlen signals halike
      have hnone : ys = [] → announcesAll fromJson xs = [] := by
        rintro rfl
        rw [List.length_eq_zero_iff.1 hlen.symm]
        rfl
      rw [hwhole hnone] at halike
      rcases hchunks with ⟨hserved, hann⟩ | ⟨-, hlt⟩
      · exact ⟨List.append_cancel_left (hann.symm.trans halike), hserved⟩
      · -- every stanza is a signal, so one that is lost is missing at the end
        have hxlen := announcesAll_signals fun s hs => signals s (List.mem_append_left ys hs)
        rw [halike, List.length_append, hxlen, hlen] at hlt
        exact absurd hlt (Nat.lt_irrefl _)

/-! ## A stream of two stanzas -/

/-- A small tokenizer: the namespaces that each open element declares, and the data of the tag or the text
that has not ended. -/
structure Scan where
  scopes : List (List (String × String))
  data : List Char
  inTag : Bool

namespace Scan

/-- `key="value"`. -/
def binding (word : List Char) : String × String :=
  (String.ofList (word.takeWhile (· ≠ '=')), String.ofList ((word.dropWhile (· ≠ '=')).drop 2).dropLast)

/-- The declaration of a namespace, under the part of the key after the colon. -/
def declaration (word : List Char) : Option (String × String) :=
  if word.take 5 = ['x', 'm', 'l', 'n', 's'] then some (binding ((word.drop 5).dropWhile (· = ':'))) else none

def startTag (s : Scan) (name : List Char) (words : List (List Char)) : Scan × List Token :=
  let scopes := words.filterMap declaration :: s.scopes
  let parts := name.splitOn ':'
  let uri := scopes.flatten.lookup (String.ofList (parts.dropLast.headD []))
  (⟨scopes, [], false⟩, (if s.scopes = [] then [.startDocument] else []) ++
    [.startElement (String.ofList (parts.getLastD [])) (uri.getD "")
      ((words.filter fun word => (declaration word).isNone).map binding)])

def endTag (s : Scan) (name : List Char) : Scan × List Token :=
  (⟨s.scopes.tail, [], false⟩, [.endElement (String.ofList ((name.splitOn ':').getLastD []))])

def tag (s : Scan) : Scan × List Token :=
  match s.data with
  | '/' :: name => s.endTag name
  | data =>
    match data.splitOn ' ' with
    | [] => (s, [])
    | name :: words => s.startTag name words

end Scan

def scanner : Lexer UInt8 Scan where
  init := ⟨[], [], false⟩
  feed s b :=
    let c := Char.ofNat b.toNat
    if s.inTag then
      if c = '>' then s.tag
      else if c = '<' then (s, [.malformed "'<' in a tag"])
      else ({ s with data := s.data ++ [c] }, [])
    else if c = '<' then (⟨s.scopes, [], true⟩, if s.data = [] then [] else [.characters (String.ofList s.data)])
    else ({ s with data := s.data ++ [c] }, [])

def bytesOf (parts : List String) : List UInt8 := parts.flatMap fun s => s.toList.map fun c => UInt8.ofNat c.toNat

/-- The empty object is the only document. -/
def emptyObject : FromJson := fun json => if json = "\x7b\x7d" then .ok (.object []) else .error "illegal value"

def streamHeader : List UInt8 :=
  bytesOf ["<stream:stream", " version=\"1.0\"", " xmlns:stream=", "\"http://etherx.jabber", ".org/streams\"",
    " xmlns=\"jabber:client\">"]

/-- A connection whose stream has begun. -/
def streaming : FcmStream Scan :=
  feed scanner emptyObject (FcmStream.step scanner emptyObject (FcmStream.new scanner) .encrypted) streamHeader

/-- A message with an empty object. -/
def emptyMessage : List UInt8 :=
  bytesOf ["<message id=\"\">", "<gcm xmlns=", "\"google:mobile:data\">", "\x7b\x7d", "</gcm></message>"]

def emptyStanza : Stanza where
  attributes := [("id", "")]
  before := []
  gcmAttributes := []
  json := "\x7b\x7d"
  after := []
  before_blank := fun _ h => by cases h
  after_blank := fun _ h => by cases h

set_option maxRecDepth 100000 in
theorem streaming_atTop : streaming.AtTop := ⟨⟨by decide +kernel, by decide +kernel⟩, by decide +kernel⟩

theorem emptyObject_empty : ∃ e, emptyObject "" = .error e := ⟨"illegal value", if_neg (by decide)⟩

theorem emptyStanza_layout (gap : List Token) (hgap : ∀ t ∈ gap, t.blank = true) :
    Layout [emptyStanza, emptyStanza] (emptyStanza.tokens ++ (gap ++ emptyStanza.tokens)) := by
  have h := Layout.cons hgap emptyStanza .bare
  have h := Layout.snug emptyStanza h
  simpa using h

theorem emptyStanza_known : ∀ s ∈ [emptyStanza, emptyStanza] ++ [emptyStanza, emptyStanza],
    unknownType emptyObject s.json = false := by
  intro s hs
  have : s = emptyStanza := by simpa using hs
  subst this
  decide

/-- The first stanza is cut in its closing tags, and a keepalive comes between the two. -/
def cutInClosing : List (List UInt8) := [emptyMessage.take 52, emptyMessage.drop 52, bytesOf ["\n"], emptyMessage]

set_option maxRecDepth 100000 in
theorem chunks_alike_closing : CutAlike scanner emptyObject streaming cutInClosing := by
  have hwhole : (scanner.read streaming.reader.lexer cutInClosing.flatten).2 =
      emptyStanza.tokens ++ ([.characters "\n"] ++ emptyStanza.tokens) := by decide +kernel
  have hseg : scanner.segments streaming.reader.lexer (retained cutInClosing) =
      [emptyStanza.opening, emptyStanza.closing, emptyStanza.tokens] := by decide +kernel
  have htokens : streamTokens scanner streaming.reader.lexer cutInClosing = emptyStanza.tokens ++ ([] ++ emptyStanza.tokens) := by
    unfold streamTokens
    rw [← scanner.segments_flatten, hseg]
    rfl
  have hserved : ∀ t ∈ [emptyStanza.opening, emptyStanza.closing, emptyStanza.tokens], Served t := by
    intro t ht
    simp only [List.mem_cons, List.not_mem_nil, or_false] at ht
    rcases ht with rfl | rfl | rfl
    · exact .cut .bare emptyStanza List.nil_prefix
    · exact .closes emptyStanza.closing_inert
    · have h := Layout.snug emptyStanza .bare
      exact .whole (by simpa using h)
  refine ((chunks_alike emptyObject_empty streaming_atTop cutInClosing).2 [emptyStanza, emptyStanza] [emptyStanza, emptyStanza]
    ?_ ?_ emptyStanza_known).1 rfl ?_
  · rw [hwhole]
    exact emptyStanza_layout _ (by decide)
  · rw [htokens]
    exact emptyStanza_layout _ (by decide)
  · rw [hseg]
    exact hserved

/-- The first stanza is cut in the start tag of its `gcm` element. -/
def cutInOpening : List (List UInt8) := [emptyMessage.take 20, emptyMessage.drop 20 ++ emptyMessage]

set_option maxRecDepth 100000 in
theorem chunks_apart : streaming.AtTop ∧
    Layout [emptyStanza, emptyStanza] (scanner.read streaming.reader.lexer cutInOpening.flatten).2 ∧
    ¬ CutAlike scanner emptyObject streaming cutInOpening := by
  have hwhole : (scanner.read streaming.reader.lexer cutInOpening.flatten).2 =
      emptyStanza.tokens ++ ([] ++ emptyStanza.tokens) := by decide +kernel
  refine ⟨streaming_atTop, ?_, fun h => ?_⟩
  · rw [hwhole]
    exact emptyStanza_layout _ (by decide)
  · have hlen := congrArg List.length h
    have h1 : (feedAll scanner emptyObject streaming cutInOpening).announced.length = 0 := by decide +kernel
    have h2 : (feed scanner emptyObject streaming cutInOpening.flatten).announced.length = 2 := by decide +kernel
    rw [h1, h2] at hlen
    cases hlen

end Gimmm
