/-
Stanzas that the server does not understand cost others too: what comes with one after it, and what comes in the
chunks until the reader has left it. No message is lost if and only if none comes there.
-/
import Mathlib.Data.List.TakeWhile
import Gimmm.Fcm.Unknown
import Gimmm.Guarantees.Chunks

namespace Gimmm

open Xml Prog FcmStream

/-! ## What is lost -/

section
variable (fromJson : FromJson)

/-- The stanzas of a chunk that the server takes, if the reader is behind by `k` chunks. -/
def served : Nat → Forest → List Element
  | 0, f => f.elements.takeWhile fun e => !stops fromJson e
  | _ + 1, _ => []

/-- The stanzas of the chunk that it does not take: from the first on in which it stops, or all. -/
def missed : Nat → Forest → List Element
  | 0, f => f.elements.dropWhile fun e => !stops fromJson e
  | _ + 1, f => f.elements

/-- By how many chunks the reader is behind after the chunk: as many as it takes to leave the stanza. -/
def behind : Nat → Forest → Nat
  | 0, f =>
    match missed fromJson 0 f with
    | [] => 0
    | e :: _ => (leftover e).depth + 1
  | k + 1, _ => k

/-- Nothing in the stanza in which the server stops is taken for a stanza. -/
def Clear (k : Nat) (f : Forest) : Prop :=
  k = 0 → ∀ e later, missed fromJson 0 f = e :: later → plain (leftover e) = true

/-- There is nothing to announce in these stanzas. -/
def Silent (es : List Element) : Prop := ∀ e ∈ es, dispatched fromJson e = []

/-- There is nothing to announce in the stanzas that are missed. -/
def Spared : Nat → List Forest → Prop
  | _, [] => True
  | k, f :: fs => Silent fromJson (missed fromJson k f) ∧ (fs = [] ∨ Clear fromJson k f) ∧
      Spared (behind fromJson k f) fs

/-- What there is to announce in the chunks. -/
def dispatchedAll (fs : List Forest) : List FcmSignal := (fs.flatMap Forest.elements).flatMap (dispatched fromJson)

end

namespace FcmStream

variable {Λ : Type} {L : Lexer UInt8 Λ} {fromJson : FromJson} {c : FcmStream Λ}

theorem served_append_missed (k : Nat) (f : Forest) : served fromJson k f ++ missed fromJson k f = f.elements := by
  cases k with
  | zero => exact List.takeWhile_append_dropWhile
  | succ k => rfl

theorem behind_nil {f : Forest} (h : missed fromJson 0 f = []) : behind fromJson 0 f = 0 := by
  show (match missed fromJson 0 f with | [] => 0 | e :: _ => (leftover e).depth + 1) = 0
  rw [h]

theorem behind_cons {f : Forest} {e : Element} {later : List Element} (h : missed fromJson 0 f = e :: later) :
    behind fromJson 0 f = (leftover e).depth + 1 := by
  show (match missed fromJson 0 f with | [] => 0 | e :: _ => (leftover e).depth + 1) = _
  rw [h]

theorem stops_of_missed {f : Forest} {e : Element} {later : List Element} (h : missed fromJson 0 f = e :: later) :
    stops fromJson e = true := by
  have hdrop : f.elements.dropWhile (fun e => !stops fromJson e) = e :: later := h
  have hhead := List.head_dropWhile_not (fun e => !stops fromJson e) (l := f.elements)
    (by rw [hdrop]; exact List.cons_ne_nil _ _)
  simp only [hdrop, List.head_cons, Bool.not_eq_false'] at hhead
  exact hhead

theorem served_known {k : Nat} {f : Forest} (hsent : ∀ e ∈ f.elements, Sent fromJson e) :
    ∀ e ∈ served fromJson k f, IsMessage fromJson e ∧ dispatched fromJson e = announcements fromJson e := by
  intro e he
  cases k with
  | succ k => cases he
  | zero =>
    have hgoes : stops fromJson e = false := by simpa using List.mem_takeWhile_imp he
    refine ⟨?_, dispatched_known hgoes⟩
    cases hsent e (List.takeWhile_subset _ he) with
    | known h => exact h
    | type s hs h =>
      rw [hs, stops_type h] at hgoes
      cases hgoes
    | name h =>
      rw [stops_name h] at hgoes
      cases hgoes

/-! ## Runs of the slot -/

/-- One run of the slot of `readyRead()`. -/
def slot (L : Lexer UInt8 Λ) (fromJson : FromJson) (c : FcmStream Λ) (bytes : List UInt8) : FcmStream Λ :=
  match handleReadyRead L fromJson bytes c with
  | .ok _ c' => c'
  | .error _ c' => c'

/-- What each run of the slot reads, when it is connected `n` times. -/
def slotReads (n : Nat) (chunks : List (List UInt8)) : List (List UInt8) :=
  chunks.flatMap fun bytes => bytes :: List.replicate (n - 1) []

theorem slot_of_does {bytes : List UInt8} {Q : FcmStream Λ → Prop}
    (h : Does (handleReadyRead L fromJson bytes) (fun _ => Q) (fun _ => Q) c) : Q (slot L fromJson c bytes) := by
  unfold Does at h
  unfold slot
  cases hx : handleReadyRead L fromJson bytes c with
  | ok a c' => rw [hx] at h; exact h
  | error what c' => rw [hx] at h; exact h

theorem handleReadyRead_ok (bytes : List UInt8) (c : FcmStream Λ) :
    handleReadyRead L fromJson bytes c = .ok () (slot L fromJson c bytes) := by
  have hend : Does (handleReadyRead L fromJson bytes) (fun _ _ => True) (fun _ _ => False) c := by
    unfold handleReadyRead
    split
    · exact does_emit fun _ _ _ _ => trivial
    · refine Does.bind (does_onReader (Q := fun _ _ => Does _ _ _ _) (does_reported ?_))
      unfold Does
      cases parseXml fromJson { c with reader := c.reader.addData L bytes } with
      | ok a c' => exact trivial
      | error what c' => exact trivial
  unfold Does at hend
  unfold slot
  cases hx : handleReadyRead L fromJson bytes c with
  | ok a c' => rfl
  | error what c' => rw [hx] at hend; exact hend.elim

theorem slot_readyReads (bytes : List UInt8) (c : FcmStream Λ) : (slot L fromJson c bytes).readyReads = c.readyReads := by
  refine slot_of_does (Q := fun c' => c'.readyReads = c.readyReads) ?_
  unfold handleReadyRead
  split
  · exact does_emit fun _ _ h _ => h
  · refine Does.bind (does_onReader ?_)
    exact ((frugal_reported frugal_parseXml : Frugal (reported (parseXml fromJson))).does
      (fun _ _ h => h.readyReads) fun _ _ h => h.readyReads)

theorem readyRead_ok (n : Nat) (bytes : List UInt8) (c : FcmStream Λ) : readyRead L fromJson bytes (n + 1) c =
    .ok () ((bytes :: List.replicate n []).foldl (slot L fromJson) c) := by
  induction n generalizing bytes c with
  | zero => exact bind_ok (handleReadyRead_ok bytes c)
  | succ n ih => exact (bind_ok (handleReadyRead_ok bytes c)).trans (ih [] _)

theorem feed_slots (hc : c.readyReads ≠ 0) (bytes : List UInt8) : feed L fromJson c bytes =
    (bytes :: List.replicate (c.readyReads - 1) []).foldl (slot L fromJson) c := by
  obtain ⟨n, hn⟩ := Nat.exists_eq_succ_of_ne_zero hc
  have hslots : handle L fromJson (.readyRead bytes) c = .ok () ((bytes :: List.replicate n []).foldl (slot L fromJson) c) := by
    rw [← readyRead_ok]
    show readyRead L fromJson bytes c.readyReads c = _
    rw [hn]
  unfold feed step
  rw [hslots, hn]
  rfl

theorem foldl_slot_readyReads (reads : List (List UInt8)) (c : FcmStream Λ) :
    (reads.foldl (slot L fromJson) c).readyReads = c.readyReads := by
  induction reads generalizing c with
  | nil => rfl
  | cons bytes reads ih => exact (ih _).trans (slot_readyReads bytes c)

theorem feedAll_slots (hc : c.readyReads ≠ 0) (chunks : List (List UInt8)) :
    feedAll L fromJson c chunks = (slotReads c.readyReads chunks).foldl (slot L fromJson) c := by
  induction chunks generalizing c with
  | nil => rfl
  | cons bytes chunks ih =>
    have hsame : (feed L fromJson c bytes).readyReads = c.readyReads := by
      rw [feed_slots hc]
      exact foldl_slot_readyReads _ c
    show feedAll L fromJson (feed L fromJson c bytes) chunks = _
    rw [ih (by rw [hsame]; exact hc), hsame, feed_slots hc]
    exact (List.foldl_append ..).symm

/-! ## One run -/

/-- The reader is behind by `k` chunks. -/
def Lags : Nat → FcmStream Λ → Prop
  | 0, c => Reads [] c
  | k + 1, c => ∃ f : Forest, f.depth = k ∧ plain f = true ∧ Inside f c

variable (L fromJson c) in
theorem slot_keepalive {bytes : List UInt8} (h : keepalive bytes = true) :
    (slot L fromJson c bytes).announced = c.announced ∧ (slot L fromJson c bytes).reader = c.reader := by
  refine slot_of_does (Q := fun c' => c'.announced = c.announced ∧ c'.reader = c.reader) ?_
  unfold handleReadyRead
  rw [if_pos h]
  exact does_emit fun c' hr _ ha => ⟨by rw [ha]; exact List.append_nil _, hr⟩

/-- A run of the slot that reads stanzas. -/
theorem slot_data {bytes : List UInt8} {Q : FcmStream Λ → Prop} (hk : keepalive bytes = false)
    (h : Does (parseXml fromJson) (fun _ => Q)
      (fun _ c₁ => ∀ c₂ : FcmStream Λ, c₂.announced = c₁.announced → c₂.reader = c₁.reader → Q c₂)
      { c with reader := c.reader.addData L bytes }) : Q (slot L fromJson c bytes) := by
  refine slot_of_does ?_
  unfold handleReadyRead
  rw [if_neg (by rw [hk]; decide)]
  refine Does.bind (does_onReader (does_reported (h.mono (fun _ _ h => h) fun what c₁ h₁ => ?_)))
  exact does_emit fun c₂ hr _ ha => h₁ c₂ (by rw [ha]; exact List.append_nil _) hr

/-- What a run of the slot takes, and by how much the reader is behind after it. -/
theorem slot_spec {bytes : List UInt8} {k : Nat} {f : Forest} (hk : keepalive bytes = false) (hlag : Lags k c)
    (hread : (L.read c.reader.lexer bytes).2 = f.tokens) (hsent : ∀ e ∈ f.elements, Sent fromJson e) :
    (slot L fromJson c bytes).announced = c.announced ++ (served fromJson k f).flatMap (dispatched fromJson) ∧
    (slot L fromJson c bytes).reader.lexer = (L.read c.reader.lexer bytes).1 ∧
    (Clear fromJson k f → Lags (behind fromJson k f) (slot L fromJson c bytes)) := by
  have hserved := served_known (k := k) hsent
  have hann : (served fromJson k f).flatMap (dispatched fromJson) =
      (served fromJson k f).flatMap (announcements fromJson) := List.flatMap_congr fun e he => (hserved e he).2
  rw [hann]
  cases k with
  -- the reader is at the top: it takes elements until one leaves a start tag behind
  | zero =>
    have htop : Reads [] c := hlag
    have hdata : Reads f.tokens { c with reader := c.reader.addData L bytes } := ⟨by
      show c.reader.queue ++ _ = _
      rw [htop.queue, hread]
      rfl, htop.alive⟩
    cases hm : missed fromJson 0 f with
    | nil =>
      have hall : served fromJson 0 f = f.elements := by
        rw [← served_append_missed 0 f, hm, List.append_nil]
      rw [hall] at hserved ⊢
      refine slot_data (Q := fun c' => c'.announced = _ ∧ c'.reader.lexer = _ ∧ (_ → Lags _ c')) hk
        ((does_parseXml (fun e he => (hserved e he).1) hdata).mono (fun _ c₁ h₁ => ?_) fun _ _ h => h.elim)
      refine ⟨h₁.announced, h₁.lexer, fun _ => ?_⟩
      rw [behind_nil hm]
      exact h₁.reads
    | cons e later =>
      have hsplit : f.elements = served fromJson 0 f ++ e :: later := by rw [← hm, served_append_missed]
      have hstops := stops_of_missed hm
      refine slot_data (Q := fun c' => c'.announced = _ ∧ c'.reader.lexer = _ ∧ (_ → Lags _ c')) hk
        ((does_parseXml_stops hsplit (fun e' he' => (hserved e' he').1) (hsent e (by rw [hsplit]; simp)) hstops hdata).mono
          (fun _ _ h => h.elim) fun _ c₁ h₁ c₂ ha hr => ?_)
      refine ⟨ha.trans h₁.announced, by rw [hr]; exact h₁.lexer, fun hclear => ?_⟩
      obtain ⟨g, hdepth, hplain, n, q, hg, hq⟩ := h₁.inside
      rw [behind_cons hm]
      exact ⟨g, hdepth, hplain.trans (hclear rfl e later hm), n, q, ⟨by rw [hr]; exact hg.queue, by rw [hr]; exact hg.alive⟩, hq⟩
  -- the reader is inside `k + 1` elements, so all it takes is read over or closes one
  | succ k =>
    obtain ⟨g, hdepth, hplain, n, q, hg, hq⟩ := hlag
    have hdata : Inside g { c with reader := c.reader.addData L bytes } := by
      refine ⟨n, q ++ f.tokens, ⟨?_, hg.alive⟩, fun t ht => ?_⟩
      · show c.reader.queue ++ (L.read c.reader.lexer bytes).2 = _
        rw [hg.queue, hread]
        simp
      · rcases List.mem_append.1 ht with ht | ht
        · exact hq t ht
        · exact f.tokens_ordinary t ht
    refine slot_data (Q := fun c' => c'.announced = _ ∧ c'.reader.lexer = _ ∧ (_ → Lags _ c')) hk
      ((does_parseXml_inside hplain hdata).mono (fun _ c₁ h₁ => ?_) fun _ c₁ h₁ c₂ ha hr => ?_)
    · obtain ⟨hzero, h₁⟩ := h₁
      obtain rfl : k = 0 := by rw [← hdepth, hzero]
      exact ⟨h₁.announced, h₁.lexer, fun _ => h₁.reads⟩
    · obtain ⟨g', hdepth', hplain', h₁⟩ := h₁
      obtain ⟨g'', hsame, hsame', n', q', hg', hq'⟩ := h₁.inside
      obtain rfl : k = g'.depth + 1 := by rw [← hdepth, hdepth']
      refine ⟨ha.trans h₁.announced, by rw [hr]; exact h₁.lexer, fun _ => ?_⟩
      exact ⟨g'', hsame, hsame'.trans hplain', n', q', ⟨by rw [hr]; exact hg'.queue, by rw [hr]; exact hg'.alive⟩, hq'⟩

/-! ## All runs -/

theorem dispatchedAll_cons (k : Nat) (f : Forest) (fs : List Forest) : dispatchedAll fromJson (f :: fs) =
    (served fromJson k f).flatMap (dispatched fromJson) ++ ((missed fromJson k f).flatMap (dispatched fromJson) ++
      dispatchedAll fromJson fs) := by
  unfold dispatchedAll
  rw [List.flatMap_cons, List.flatMap_append, ← served_append_missed k f, List.flatMap_append, List.append_assoc]

/-- Runs of the slot announce all there is to announce if nothing is lost, and less if something is. -/
theorem foldl_slot_spec {reads : List (List UInt8)} {k : Nat} {fs : List Forest} (hlag : fs = [] ∨ Lags k c)
    (hread : L.segments c.reader.lexer (retained reads) = fs.map Forest.tokens)
    (hsent : ∀ e ∈ fs.flatMap Forest.elements, Sent fromJson e) :
    (Spared fromJson k fs →
      (reads.foldl (slot L fromJson) c).announced = c.announced ++ dispatchedAll fromJson fs) ∧
    ((∀ e ∈ fs.flatMap Forest.elements, stops fromJson e = true → plain (leftover e) = true) →
      (reads.foldl (slot L fromJson) c).announced.length ≤ c.announced.length + (dispatchedAll fromJson fs).length ∧
      (c.announced.length + (dispatchedAll fromJson fs).length ≤ (reads.foldl (slot L fromJson) c).announced.length →
        Spared fromJson k fs)) := by
  induction reads generalizing c k fs with
  | nil =>
    obtain rfl : fs = [] := List.map_eq_nil_iff.1 hread.symm
    exact ⟨fun _ => (List.append_nil _).symm, fun _ => ⟨Nat.le_refl _, fun _ => by cases k <;> trivial⟩⟩
  | cons bytes reads ih =>
    rw [List.foldl_cons]
    cases hk : keepalive bytes with
    -- a keepalive is not read
    | true =>
      obtain ⟨hann, hreader⟩ := slot_keepalive L fromJson c hk
      have hlag' : fs = [] ∨ Lags k (slot L fromJson c bytes) := by
        refine hlag.imp_right fun h => ?_
        cases k with
        | zero =>
          have h : Reads [] c := h
          exact ⟨by rw [hreader]; exact h.queue, by rw [hreader]; exact h.alive⟩
        | succ k =>
          obtain ⟨g, hdepth, hplain, n, q, hg, hq⟩ := h
          exact ⟨g, hdepth, hplain, n, q, ⟨by rw [hreader]; exact hg.queue, by rw [hreader]; exact hg.alive⟩, hq⟩
      rw [retained_keepalive hk, ← hreader] at hread
      have h := ih hlag' hread hsent
      rw [hann] at h
      exact h
    | false =>
      rw [retained_cons hk] at hread
      cases fs with
      | nil => cases hread
      | cons f fs =>
        obtain ⟨htokens, hread⟩ := List.cons.inj hread
        have hlag : Lags k c := hlag.resolve_left (List.cons_ne_nil _ _)
        have hsentf : ∀ e ∈ f.elements, Sent fromJson e := fun e he => hsent e (by simp [he])
        obtain ⟨hann, hlexer, hnext⟩ := slot_spec hk hlag htokens hsentf
        rw [← hlexer] at hread
        have hrest : ∀ e ∈ fs.flatMap Forest.elements, Sent fromJson e := fun e he => hsent e (by
          rw [List.flatMap_cons]
          exact List.mem_append_right _ he)
        rw [dispatchedAll_cons k]
        constructor
        · rintro ⟨hsilent, hclear, hspared⟩
          obtain ⟨hall, -⟩ := ih (hclear.imp_right hnext) hread hrest
          rw [hall hspared, hann, List.flatMap_eq_nil_iff.2 hsilent, List.nil_append, List.append_assoc]
        · intro hplain
          have hclear : Clear fromJson k f := fun _ e later hm => hplain e (by
            rw [List.flatMap_cons, ← served_append_missed 0 f, hm]
            simp) (stops_of_missed hm)
          obtain ⟨-, hless⟩ := ih (Or.inr (hnext hclear)) hread hrest
          obtain ⟨hle, honly⟩ := hless fun e he => hplain e (by
            rw [List.flatMap_cons]
            exact List.mem_append_right _ he)
          rw [hann, List.length_append] at hle honly
          rw [List.length_append, List.length_append]
          -- no announcement may be missing, so none of the missed elements has one
          refine ⟨by omega, fun hmany => ⟨?_, Or.inr hclear, honly (by omega)⟩⟩
          have hnone : ((missed fromJson k f).flatMap (dispatched fromJson)).length = 0 := by omega
          exact List.flatMap_eq_nil_iff.1 (List.length_eq_zero_iff.1 hnone)

end FcmStream

/-- Whatever stanzas come in however many chunks that end between stanzas: everything is announced once and in order if
nothing there is to announce is in the stanzas that are missed; and only then, if the server understands none of the
elements at which it stops in a stanza. -/
theorem unknown_spares {Λ : Type} {L : Lexer UInt8 Λ} {fromJson : FromJson} {c : FcmStream Λ} (hc : c.AtTop)
    (chunks : List (List UInt8)) (fs : List Forest)
    (hread : L.segments c.reader.lexer (retained (slotReads c.readyReads chunks)) = fs.map Forest.tokens)
    (hsent : ∀ e ∈ fs.flatMap Forest.elements, Sent fromJson e) :
    (Spared fromJson 0 fs → (feedAll L fromJson c chunks).announced = c.announced ++ dispatchedAll fromJson fs) ∧
    ((∀ e ∈ fs.flatMap Forest.elements, stops fromJson e = true → plain (leftover e) = true) →
      (feedAll L fromJson c chunks).announced = c.announced ++ dispatchedAll fromJson fs → Spared fromJson 0 fs) := by
  rw [feedAll_slots hc.connected]
  obtain ⟨hall, hless⟩ := foldl_slot_spec (k := 0) (Or.inr hc.reads) hread hsent
  refine ⟨hall, fun hplain hsame => (hless hplain).2 ?_⟩
  rw [hsame, List.length_append]

/-! ## A stanza of an unknown name -/

/-- `<presence/>`, which is not one of the stanzas that the server understands. -/
def presence : List UInt8 := bytesOf ["<presence>", "</presence>"]

/-- The stanza, before others. -/
def presenceForest (rest : Forest) : Forest := .element "presence" defaultNspaceUri [] .nil rest

/-- A message with an empty object, before others. -/
def messageForest (rest : Forest) : Forest :=
  .element "message" defaultNspaceUri emptyStanza.attributes emptyStanza.element.children rest

theorem emptyStanza_sent : Sent emptyObject emptyStanza.element := .known (Stanza.isMessage (by decide))

/-- A message, then the unknown stanza twice, then a message. -/
def sparedChunks : List (List UInt8) := [emptyMessage ++ presence, presence, emptyMessage]

def sparedForests : List Forest := [messageForest (presenceForest .nil), presenceForest .nil, messageForest .nil]

set_option maxRecDepth 100000 in
theorem unknown_spares_between : (feedAll scanner emptyObject streaming sparedChunks).announced =
    streaming.announced ++ dispatchedAll emptyObject sparedForests := by
  have hread : scanner.segments streaming.reader.lexer (retained (slotReads streaming.readyReads sparedChunks)) =
      sparedForests.map Forest.tokens := by decide +kernel
  have hsent : ∀ e ∈ sparedForests.flatMap Forest.elements, Sent emptyObject e := by
    intro e he
    have he : e ∈ [emptyStanza.element, ⟨"presence", defaultNspaceUri, [], .nil⟩, ⟨"presence", defaultNspaceUri, [], .nil⟩,
      emptyStanza.element] := he
    simp only [List.mem_cons, List.not_mem_nil, or_false] at he
    rcases he with rfl | rfl | rfl | rfl
    · exact emptyStanza_sent
    · exact .name (by decide)
    · exact .name (by decide)
    · exact emptyStanza_sent
  have hsilent : ∀ e ∈ [(⟨"presence", defaultNspaceUri, [], .nil⟩ : Element)], dispatched emptyObject e = [] :=
    List.forall_mem_singleton.2 (dispatched_stops (stops_name (by decide)))
  have hmissed : missed emptyObject 0 (messageForest (presenceForest .nil)) = [⟨"presence", defaultNspaceUri, [], .nil⟩] := rfl
  have hnone : missed emptyObject 0 (messageForest .nil) = [] := rfl
  refine (unknown_spares streaming_atTop sparedChunks sparedForests hread hsent).1 ⟨?_, Or.inr fun _ e later h => ?_, ?_⟩
  · rw [hmissed]
    exact hsilent
  · rw [hmissed] at h
    cases h
    rfl
  · refine ⟨hsilent, Or.inr (fun h => by cases h), ?_⟩
    refine ⟨?_, Or.inl rfl, trivial⟩
    show Silent emptyObject (missed emptyObject 0 (messageForest .nil))
    rw [hnone]
    exact fun _ h => by cases h

/-- The unknown stanza in one chunk, then a message in the next. -/
def lostChunks : List (List UInt8) := [presence, emptyMessage]

def lostForests : List Forest := [presenceForest .nil, messageForest .nil]

set_option maxRecDepth 100000 in
theorem unknown_costs_next : streaming.AtTop ∧
    scanner.segments streaming.reader.lexer (retained (slotReads streaming.readyReads lostChunks)) =
      lostForests.map Forest.tokens ∧
    (∀ e ∈ lostForests.flatMap Forest.elements, Sent emptyObject e) ∧
    (feedAll scanner emptyObject streaming lostChunks).announced ≠
      streaming.announced ++ dispatchedAll emptyObject lostForests := by
  refine ⟨streaming_atTop, by decide +kernel, fun e he => ?_, fun h => ?_⟩
  · have he : e ∈ [⟨"presence", defaultNspaceUri, [], .nil⟩, emptyStanza.element] := he
    simp only [List.mem_cons, List.not_mem_nil, or_false] at he
    rcases he with rfl | rfl
    · exact .name (by decide)
    · exact emptyStanza_sent
  · have hlen := congrArg List.length h
    have h1 : (feedAll scanner emptyObject streaming lostChunks).announced.length = 0 := by decide +kernel
    have h2 : (streaming.announced ++ dispatchedAll emptyObject lostForests).length = 1 := by decide +kernel
    rw [h1, h2] at hlen
    cases hlen

end Gimmm
