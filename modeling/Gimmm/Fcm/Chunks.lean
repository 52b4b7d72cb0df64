/-
Chunks of the stream. A chunk that ends between two stanzas, or in one whose JSON text has come, loses
nothing. After any other the stanza in which it ends is never announced; nor are those whose start tag comes
with the closing tags of a stanza cut before.
-/
import Gimmm.Fcm.Layout

namespace Gimmm

open Xml Prog

namespace FcmStream

variable {Λ : Type} {L : Lexer UInt8 Λ} {fromJson : FromJson} {c c' c'' : FcmStream Λ}

/-! ## Chunks -/

/-- The chunks that are not taken for keepalives. -/
def retained (chunks : List (List UInt8)) : List (List UInt8) := chunks.filter fun bytes => !keepalive bytes

/-- The connection after a chunk. -/
def feed (L : Lexer UInt8 Λ) (fromJson : FromJson) (c : FcmStream Λ) (bytes : List UInt8) : FcmStream Λ :=
  step L fromJson c (.readyRead bytes)

/-- All that came is read, and the slot of `readyRead()` is connected. -/
structure AtTop (c : FcmStream Λ) : Prop where
  reads : Reads [] c
  connected : c.readyReads ≠ 0

theorem step_of_does {e : Event} {Q : FcmStream Λ → Prop} (h : Does (handle L fromJson e) (fun _ => Q) (fun _ => Q) c) :
    Q (step L fromJson c e) := by
  unfold Does at h
  unfold step
  cases hx : handle L fromJson e c with
  | ok a c' => rw [hx] at h; exact h
  | error what c' => rw [hx] at h; exact h

theorem does_reported {x : Handler Λ Unit} {Q : Unit → FcmStream Λ → Prop} {X : String → FcmStream Λ → Prop}
    (h : Does x Q (fun what c' => Does (emit (.connectionError what)) Q X c') c) : Does (reported x) Q X c := by
  unfold Does reported at *
  cases hx : x c with
  | ok a c' => rw [hx] at h; exact h
  | error what c' => rw [hx] at h; exact h

/-- All that came is read, and nothing is done. -/
structure Idles (c c' : FcmStream Λ) : Prop where
  out : c'.out = c.out
  reads : Reads [] c'
  lexer : c'.reader.lexer = c.reader.lexer
  readyReads : c'.readyReads = c.readyReads

theorem Idles.sends (h : Idles c c') : Sends [] [] c c' :=
  ⟨by unfold announced; rw [h.out, List.append_nil], h.reads, h.lexer, h.readyReads⟩

theorem does_parseXml_nil {X : String → FcmStream Λ → Prop} (hc : Reads [] c) :
    Does (parseXml fromJson) (fun _ => Idles c) X c := by
  have hstep : c.reader.readNextStartElement = (false, c.reader.fail .prematureEndOfDocument []) := by
    unfold Reader.readNextStartElement
    rw [hc.alive, hc.queue]; rfl
  refine Does.bind (Does.bind (Does.get (Does.bind (does_onReader ?_))))
  rw [hstep]
  exact Does.pure (does_parseEnd rfl rfl ⟨rfl, ⟨rfl, rfl⟩, rfl, rfl⟩)

variable (fromJson) in
/-- With no data there is nothing to read. -/
theorem does_readyRead_nil {X : String → FcmStream Λ → Prop} (n : Nat) {c : FcmStream Λ} (hc : Reads [] c) :
    Does (readyRead L fromJson [] n) (fun _ => Idles c) X c := by
  induction n generalizing c with
  | zero => exact Does.pure ⟨rfl, hc, rfl, rfl⟩
  | succ n ih =>
    have hdata : Reads [] { c with reader := c.reader.addData L [] } := ⟨by
      show c.reader.queue ++ _ = _
      rw [hc.queue]; rfl, hc.alive⟩
    refine Does.bind (Does.bind (does_onReader (does_reported ?_)))
    refine (does_parseXml_nil hdata).mono (fun _ c₁ h₁ => ?_) fun _ _ h => h
    refine (ih h₁.reads).mono (fun _ c₂ h₂ => ?_) fun _ _ h => h
    exact ⟨h₂.out.trans h₁.out, h₂.reads, h₂.lexer.trans h₁.lexer, h₂.readyReads.trans h₁.readyReads⟩

variable (fromJson) in
/-- A keepalive is not read. -/
theorem feed_keepalive {bytes : List UInt8} (hc : c.AtTop) (h : keepalive bytes = true) :
    Sends [] [] c (feed L fromJson c bytes) := by
  refine step_of_does (Does.bind (Does.get ?_))
  obtain ⟨n, hn⟩ := Nat.exists_eq_succ_of_ne_zero hc.connected
  rw [hn]
  refine Does.bind ?_
  unfold handleReadyRead
  rw [if_pos h]
  refine does_emit fun c₁ hr hn h₁ => ?_
  have hs : Sends [] [] c c₁ := ⟨h₁, ⟨by rw [hr]; exact hc.reads.queue, by rw [hr]; exact hc.reads.alive⟩, by rw [hr], hn⟩
  exact (does_readyRead_nil fromJson n hs.reads).mono (fun _ c₂ h₂ => hs.trans h₂.sends) fun _ _ h => h

variable (fromJson) in
/-- A chunk that is read to its end. -/
theorem feed_sends {bytes : List UInt8} {o : List FcmSignal} (hc : c.AtTop) (hk : keepalive bytes = false)
    (h : ∀ c' : FcmStream Λ, Reads (L.read c.reader.lexer bytes).2 c' →
      Does (parseXml fromJson) (fun _ => Sends o [] c') (fun _ _ => False) c') :
    (feed L fromJson c bytes).announced = c.announced ++ o ∧ (feed L fromJson c bytes).AtTop ∧
      (feed L fromJson c bytes).reader.lexer = (L.read c.reader.lexer bytes).1 := by
  refine step_of_does (Q := fun c' => c'.announced = c.announced ++ o ∧ c'.AtTop ∧
    c'.reader.lexer = (L.read c.reader.lexer bytes).1) (Does.bind (Does.get ?_))
  obtain ⟨n, hn⟩ := Nat.exists_eq_succ_of_ne_zero hc.connected
  rw [hn]
  have hdata : Reads (L.read c.reader.lexer bytes).2 { c with reader := c.reader.addData L bytes } := ⟨by
    show c.reader.queue ++ _ = _
    rw [hc.reads.queue]; rfl, hc.reads.alive⟩
  unfold readyRead handleReadyRead
  rw [if_neg (by simp [hk])]
  refine Does.bind (Does.bind (does_onReader (does_reported ?_)))
  refine (h _ hdata).mono (fun _ c₁ h₁ => ?_) fun _ _ h => h.elim
  refine (does_readyRead_nil fromJson n h₁.reads).mono (fun _ c₂ h₂ => ?_) fun _ _ h => h
  have h₁₂ := h₁.quiet h₂.sends
  exact ⟨h₁₂.announced, ⟨h₁₂.reads, by rw [h₁₂.readyReads]; exact hc.connected⟩, h₁₂.lexer⟩

/-! ## Losses -/

theorem frugal_reported {x : Handler Λ Unit} (h : Frugal x) : Frugal (reported x) := fun _ =>
  does_reported (h.does (fun _ _ h => h) fun _ _ h => does_emit_quiet rfl fun _ h' => h.trans h')

theorem frugal_readyRead_nil : ∀ n, Frugal (readyRead L fromJson [] n : Handler Λ Unit)
  | 0 => Moves.pure _
  | n + 1 => by
    refine Moves.bind ?_ fun _ => frugal_readyRead_nil n
    refine Moves.bind (frugal_onReader fun r => ⟨?_, rfl⟩) fun _ => frugal_reported frugal_parseXml
    show r.queue ++ [] <:+ r.queue
    exact (List.append_nil r.queue).symm ▸ List.suffix_rfl

/-- `k` more `gcm` start tags are read than texts announced. -/
structure Loses (k : Nat) (c c' : FcmStream Λ) : Prop where
  weight : c'.weight + k ≤ c.weight
  lexer : c'.reader.lexer = c.reader.lexer
  readyReads : c'.readyReads = c.readyReads

theorem Loses.spends {k : Nat} (h : Loses k c c') (h' : Spends 0 c' c'') : Loses k c c'' := by
  have h1 := h.weight
  have h2 := h'.weight
  exact ⟨by omega, h'.lexer.trans h.lexer, h'.readyReads.trans h.readyReads⟩

variable (fromJson) in
/-- What a chunk loses when the reader meets its tokens. -/
theorem feed_loses {bytes : List UInt8} {k : Nat} (hc : c.readyReads ≠ 0) (hk : keepalive bytes = false)
    (h : ∀ c' : FcmStream Λ, c'.reader.queue = c.reader.queue ++ (L.read c.reader.lexer bytes).2 →
      c'.reader.stuck = c.reader.stuck →
      Does (parseXml fromJson) (fun _ => Loses k c') (fun _ => Loses k c') c') :
    (feed L fromJson c bytes).weight + k ≤ c.weight + gcms (L.read c.reader.lexer bytes).2 ∧
      (feed L fromJson c bytes).readyReads = c.readyReads ∧
      (feed L fromJson c bytes).reader.lexer = (L.read c.reader.lexer bytes).1 := by
  obtain ⟨n, hn⟩ := Nat.exists_eq_succ_of_ne_zero hc
  have hall : ∀ c₁ c₂, Loses k { c with reader := c.reader.addData L bytes } c₁ → Spends 0 c₁ c₂ →
      c₂.weight + k ≤ c.weight + gcms (L.read c.reader.lexer bytes).2 ∧ c₂.readyReads = c.readyReads ∧
        c₂.reader.lexer = (L.read c.reader.lexer bytes).1 := by
    intro c₁ c₂ h₁ h₂
    have h₁₂ := h₁.spends h₂
    refine ⟨Nat.le_trans h₁₂.weight ?_, h₁₂.readyReads, h₁₂.lexer⟩
    show _ + gcms (c.reader.queue ++ _) ≤ _
    rw [gcms_append, ← Nat.add_assoc]
    exact Nat.le_refl _
  refine step_of_does (Q := fun c' => c'.weight + k ≤ c.weight + gcms (L.read c.reader.lexer bytes).2 ∧
    c'.readyReads = c.readyReads ∧ c'.reader.lexer = (L.read c.reader.lexer bytes).1) (Does.bind (Does.get ?_))
  have hslots : (readyRead L fromJson bytes c.readyReads : Handler Λ Unit) = readyRead L fromJson bytes n.succ := by rw [hn]
  rw [hslots]
  unfold readyRead handleReadyRead
  rw [if_neg (by simp [hk])]
  refine Does.bind (Does.bind (does_onReader (does_reported ?_)))
  refine (h { c with reader := c.reader.addData L bytes } rfl rfl).mono (fun _ c₁ h₁ => ?_) fun what c₁ h₁ => ?_
  · exact (frugal_readyRead_nil n).does (fun _ c₂ h₂ => hall c₁ c₂ h₁ h₂) fun _ c₂ h₂ => hall c₁ c₂ h₁ h₂
  · refine does_emit_quiet rfl fun c₂ h₂ => ?_
    exact (frugal_readyRead_nil n).does (fun _ c₃ h₃ => hall c₁ c₃ h₁ (h₂.trans h₃)) fun _ c₃ h₃ =>
      hall c₁ c₃ h₁ (h₂.trans h₃)

variable (fromJson) in
/-- No chunk loses less than nothing. -/
theorem feed_frugal {bytes : List UInt8} (hc : c.readyReads ≠ 0) (hk : keepalive bytes = false) :
    (feed L fromJson c bytes).weight ≤ c.weight + gcms (L.read c.reader.lexer bytes).2 ∧
      (feed L fromJson c bytes).readyReads = c.readyReads ∧
      (feed L fromJson c bytes).reader.lexer = (L.read c.reader.lexer bytes).1 := by
  have hloses : ∀ c₁ c₂ : FcmStream Λ, Spends 0 c₁ c₂ → Loses 0 c₁ c₂ := fun c₁ c₂ h => ⟨h.weight, h.lexer, h.readyReads⟩
  exact feed_loses fromJson (k := 0) hc hk fun c' _ _ => (frugal_parseXml : Frugal (parseXml fromJson)).does
    (fun _ c₂ h => hloses c' c₂ h) fun _ c₂ h => hloses c' c₂ h

/-! ## Where a stream is cut -/

/-- The reader makes of the tokens `ts` the announcements `o`. -/
def Brings (fromJson : FromJson) (ts : List Token) (o : List FcmSignal) : Prop :=
  ∀ {Λ : Type} (c : FcmStream Λ), Reads ts c →
    Does (parseXml fromJson) (fun _ => Sends o [] c) (fun _ _ => False) c

/-- The tokens to come are those of the stanzas `xs`, after the rest of one whose JSON text has come. -/
inductive Awaits (xs : List Stanza) : List Token → Prop where
  | layout {ts : List Token} (h : Layout xs ts) : Awaits xs ts
  | closing (s : Stanza) {q ts : List Token} (hq : q <:+ s.closing) (hne : q ≠ []) (h : Layout xs ts) : Awaits xs (q ++ ts)

/-- The tokens to come are those of the stanzas `xs`, after the rest of one whose start tag is lost. -/
inductive Lost (xs : List Stanza) : List Token → Prop where
  | layout {ts : List Token} (h : Layout xs ts) : Lost xs ts
  | rest (s : Stanza) {part q ts : List Token} (hs : part ++ q = s.tokens) (hne : part ≠ []) (h : Layout xs ts) :
      Lost xs (q ++ ts)

theorem brings_layout {xs : List Stanza} {ts : List Token} (h : Layout xs ts)
    (known : ∀ s ∈ xs, unknownType fromJson s.json = false) : Brings fromJson ts (announcesAll fromJson xs) := by
  intro Λ c hr
  obtain ⟨f, rfl, he⟩ := h.forest
  have hf : ∀ e ∈ f.elements, IsMessage fromJson e := fun e hmem => by
    rw [he] at hmem
    obtain ⟨s, hs, rfl⟩ := List.mem_map.1 hmem
    exact Stanza.isMessage (known s hs)
  have hall := does_parseXml hf hr
  rw [he, List.flatMap_map] at hall
  simp only [Stanza.announcements] at hall
  exact hall

/-- A stanza whose JSON text has not come announces nothing. -/
theorem does_handleMessage_opened (hempty : ∃ e, fromJson "" = .error e) {s : Stanza} {p : List Token}
    (hp : p <+: s.before ∨ p = s.before ++ [gcmStart s.gcmAttributes]) (hr : Reads p c) :
    Does (handleMessage fromJson) (fun _ => Sends [] [] c) (fun _ _ => False) c := by
  rcases hp with hp | rfl
  · refine Does.bind (Does.get (does_while_gap (g := p) (q := []) (fun t ht => s.before_blank t (hp.subset ht))
      (Nat.lt_succ_self _) (by rwa [List.append_nil]) fun c₁ k h₁ hk => ?_))
    exact does_while_nil hk h₁.reads fun c₂ h₂ _ _ => h₁.trans h₂
  · refine Does.bind (Does.get (does_while_gap s.before_blank (Nat.lt_succ_self _) hr fun c₁ fuel h₁ hfuel => ?_))
    obtain ⟨fuel, rfl⟩ : ∃ k, fuel = k + 1 := ⟨fuel - 1, by omega⟩
    have hstep : c₁.reader.readNextStartElement = (true, c₁.reader.report (gcmStart s.gcmAttributes) []) := by
      unfold Reader.readNextStartElement
      rw [h₁.reads.alive, h₁.reads.queue]; rfl
    refine Does.bind (does_onReader ?_)
    rw [hstep]
    refine Does.bind (Does.bind (Does.get ?_))
    rw [isElement_of_current (n := "gcm") (u := gcmNspaceUri) rfl]
    -- the element is taken to be empty
    refine Does.bind (does_onReader ?_)
    obtain ⟨e, he⟩ := hempty
    show Does (handleFcmMessage fromJson "") _ _ _
    unfold handleFcmMessage
    rw [he]
    refine does_emit fun c₂ hreader hreads h₂ => ?_
    have hs₂ : Sends [] [] c₁ c₂ := ⟨h₂, ⟨by rw [hreader]; rfl, by rw [hreader]; rfl⟩, by rw [hreader]; rfl, hreads⟩
    refine does_while_nil ?_ hs₂.reads fun c₃ h₃ _ _ => (h₁.trans hs₂).trans h₃
    rw [h₁.reads.queue, List.length_singleton] at hfuel
    rw [hs₂.reads.queue]
    exact Nat.lt_of_succ_lt_succ hfuel

theorem start_mem_part {s : Stanza} {part q : List Token} (h : part ++ q = s.tokens) (hne : part ≠ []) :
    messageStart s.attributes ∈ part := by
  cases part with
  | nil => exact absurd rfl hne
  | cons t p =>
    have := (List.cons.inj h).1
    exact List.mem_cons.2 (Or.inl this.symm)

/-- What one chunk does to a stream. -/
theorem Awaits.step (hempty : ∃ e, fromJson "" = .error e) {xs : List Stanza} {t rest : List Token}
    (known : ∀ s ∈ xs, unknownType fromJson s.json = false) (h : Awaits xs (t ++ rest)) :
    (Served t ∧ ∃ xs₁ xs₂, xs = xs₁ ++ xs₂ ∧ Awaits xs₂ rest ∧ Brings fromJson t (announcesAll fromJson xs₁)) ∨
    (¬ Served t ∧ ∃ xs₁ xs₂, xs₁.length + xs₂.length < xs.length ∧ Lost xs₂ rest ∧
      Brings fromJson t (announcesAll fromJson xs₁)) := by
  generalize he : t ++ rest = all at h
  cases h with
  | layout h =>
    subst he
    rcases h.split with ⟨xs₁, xs₂, rfl, h1, h2⟩ | ⟨xs₁, s, xs₂, ts, part, q, ts', rfl, rfl, h1, hpart, hne, hqne, rfl, h2⟩
    · have known₁ : ∀ s ∈ xs₁, unknownType fromJson s.json = false := fun s hs => known s (by simp [hs])
      exact Or.inl ⟨.whole h1, xs₁, xs₂, rfl, .layout h2, brings_layout h1 known₁⟩
    · have known₁ : ∀ s ∈ xs₁, unknownType fromJson s.json = false := fun s hs => known s (by simp [hs])
      -- the JSON text has come
      have hcut : ∀ tail, s.closing = tail ++ q → part = s.opening ++ tail →
          Served (ts ++ part) ∧ ∃ ys₁ ys₂, xs₁ ++ s :: xs₂ = ys₁ ++ ys₂ ∧ Awaits ys₂ (q ++ ts') ∧
            Brings fromJson (ts ++ part) (announcesAll fromJson ys₁) := by
        rintro tail htail rfl
        refine ⟨.cut h1 s ⟨q, htail.symm⟩, xs₁ ++ [s], xs₂, by simp, .closing s ⟨tail, htail.symm⟩ hqne h2, ?_⟩
        intro Λ c hr
        have ho : announcesAll fromJson (xs₁ ++ [s]) = announcesAll fromJson xs₁ ++ s.announces fromJson := by
          simp [announcesAll]
        rw [ho]
        refine does_parseXml_last (a := s.attributes)
          (q := s.before ++ gcmStart s.gcmAttributes :: .characters s.json :: tail) h1 known₁ ?_ fun c' hr' => ?_
        · simpa [Stanza.opening] using hr
        · exact does_handleMessage_cut ⟨q, htail.symm⟩ (known s (by simp)) hr'
      rcases List.append_eq_append_iff.1 hpart with ⟨o, ho, hq⟩ | ⟨tail, htail, hq⟩
      · by_cases hon : o = []
        · subst hon
          exact Or.inl (hcut [] (by simpa using hq.symm) (by simpa using ho.symm))
        · have hpre : part <+: s.opening := ⟨o, ho.symm⟩
          have hnot : part ≠ s.opening := fun h => hon (by rw [h] at ho; simpa using ho)
          refine Or.inr ⟨not_served_opened h1 s hpre hne hnot, xs₁, xs₂, by simp, .rest s hpart hne h2, ?_⟩
          intro Λ c hr
          have hopened : ∀ p, part = messageStart s.attributes :: p →
              (p <+: s.before ∨ p = s.before ++ [gcmStart s.gcmAttributes]) →
              Does (parseXml fromJson) (fun _ => Sends (announcesAll fromJson xs₁) [] c) (fun _ _ => False) c := by
            rintro p rfl hp
            have := does_parseXml_last (o := []) h1 known₁ hr fun c' hr' => does_handleMessage_opened hempty hp hr'
            rwa [List.append_nil] at this
          rcases s.opened_cases hpre hne hnot with ⟨g, hg, hgb⟩ | hg
          · exact hopened g hg (Or.inl hgb)
          · exact hopened _ hg (Or.inr rfl)
      · exact Or.inl (hcut tail hq htail)
  | @closing s q ts hq hne h =>
    rcases List.append_eq_append_iff.1 he with ⟨q₂, rfl, rfl⟩ | ⟨t', rfl, rfl⟩
    · -- nothing but closing tags
      have hin : ∀ x ∈ t, x.inert = true := fun x hx => s.closing_inert x (hq.subset (by simp [hx]))
      refine Or.inl ⟨.closes hin, [], xs, rfl, ?_, fun c hr => does_parseXml_inert hin hr⟩
      by_cases hq₂ : q₂ = []
      · subst hq₂
        exact .layout h
      · exact .closing s ((List.suffix_append t q₂).trans hq) hq₂ h
    · -- the closing tags, and what the reader throws away with them
      have hord : ∀ x ∈ t', x.ordinary = true := fun x hx => h.ordinary x (by simp [hx])
      have hqin : ∀ x ∈ q, x.inert = true := fun x hx => s.closing_inert x (hq.subset hx)
      obtain ⟨g, n, q', rfl, hg, hq'⟩ := s.suffix_closing hq hne
      by_cases hin : ∀ x ∈ t', x.inert = true
      · have hin' : ∀ x ∈ (g ++ .endElement n :: q') ++ t', x.inert = true := fun x hx =>
          (List.mem_append.1 hx).elim (hqin x) (hin x)
        refine Or.inl ⟨.closes hin', [], xs, rfl, ?_, fun c hr => does_parseXml_inert hin' hr⟩
        rcases h.split with ⟨xs₁, xs₂, rfl, h1, h2⟩ | ⟨xs₁, s', xs₂, ts₁, part, q₂, ts₂, rfl, rfl, h1, hpart, hpne, -, rfl, h2⟩
        · have hnone : messages t' = 0 := count_blank isMessageStart_isStart hin
          rw [h1.counts.2, List.length_eq_zero_iff] at hnone
          subst hnone
          exact .layout h2
        · have := hin _ (List.mem_append.2 (Or.inr (start_mem_part hpart hpne)))
          cases this
      · have hnot : ¬ Served ((g ++ .endElement n :: q') ++ t') := fun hs => by
          rw [List.append_assoc] at hs
          exact hin fun x hx => hs.inert_of_end hg x (by simp [hx])
        have hbrings : Brings fromJson ((g ++ .endElement n :: q') ++ t') (announcesAll fromJson []) := by
          intro Λ c hr
          rw [List.append_assoc] at hr
          refine does_parseXml_closes hg (fun x hx => ?_) hr
          rcases List.mem_append.1 hx with hx | hx
          · exact x.ordinary_of_inert (hq' x hx)
          · exact hord x hx
        rcases h.split with ⟨xs₁, xs₂, rfl, h1, h2⟩ | ⟨xs₁, s', xs₂, ts₁, part, q₂, ts₂, rfl, rfl, h1, hpart, hpne, -, rfl, h2⟩
        · refine Or.inr ⟨hnot, [], xs₂, ?_, .layout h2, hbrings⟩
          have hsome : xs₁ ≠ [] := by
            rintro rfl
            cases h1 with
            | nil hgap => exact hin fun x hx => x.inert_of_blank (hgap x hx)
          have := List.length_pos_of_ne_nil hsome
          rw [List.length_append, List.length_nil]
          omega
        · refine Or.inr ⟨hnot, [], xs₂, ?_, .rest s' hpart hpne h2, hbrings⟩
          rw [List.length_append, List.length_cons, List.length_nil]
          omega

/-! ## Whole streams -/

/-- The connection after several chunks. -/
def feedAll (L : Lexer UInt8 Λ) (fromJson : FromJson) (c : FcmStream Λ) (chunks : List (List UInt8)) : FcmStream Λ :=
  chunks.foldl (feed L fromJson) c

/-- The tokens that are left in the chunks. -/
def streamTokens (L : Lexer UInt8 Λ) (l : Λ) (chunks : List (List UInt8)) : List Token :=
  (L.read l (retained chunks).flatten).2

theorem retained_cons {bytes : List UInt8} {chunks : List (List UInt8)} (h : keepalive bytes = false) :
    retained (bytes :: chunks) = bytes :: retained chunks := List.filter_cons_of_pos (by simp [h])

theorem retained_keepalive {bytes : List UInt8} {chunks : List (List UInt8)} (h : keepalive bytes = true) :
    retained (bytes :: chunks) = retained chunks := List.filter_cons_of_neg (by simp [h])

theorem streamTokens_cons {l : Λ} {bytes : List UInt8} {chunks : List (List UInt8)} (h : keepalive bytes = false) :
    streamTokens L l (bytes :: chunks) = (L.read l bytes).2 ++ streamTokens L (L.read l bytes).1 chunks := by
  unfold streamTokens
  rw [retained_cons h, List.flatten_cons, L.read_append]

theorem streamTokens_keepalive {l : Λ} {bytes : List UInt8} {chunks : List (List UInt8)} (h : keepalive bytes = true) :
    streamTokens L l (bytes :: chunks) = streamTokens L l chunks := by
  unfold streamTokens
  rw [retained_keepalive h]

variable (fromJson) in
theorem feed_keepalive_spends {bytes : List UInt8} (h : keepalive bytes = true) :
    Spends 0 c (feed L fromJson c bytes) := by
  refine step_of_does (Does.bind (Does.get ?_))
  cases c.readyReads with
  | zero => exact Does.pure (refl c)
  | succ n =>
    refine Does.bind ?_
    unfold handleReadyRead
    rw [if_pos h]
    refine does_emit_quiet rfl fun c₁ h₁ => ?_
    exact (frugal_readyRead_nil n).does (fun _ c₂ h₂ => h₁.trans h₂) fun _ c₂ h₂ => h₁.trans h₂

variable (fromJson) in
/-- No more is announced than there are `gcm` start tags to come. -/
theorem feedAll_weight (chunks : List (List UInt8)) (hc : c.readyReads ≠ 0) :
    (feedAll L fromJson c chunks).announced.length ≤ c.weight + gcms (streamTokens L c.reader.lexer chunks) := by
  induction chunks generalizing c with
  | nil => exact Nat.le_trans (Nat.le_add_right _ _) (Nat.le_add_right _ _)
  | cons bytes chunks ih =>
    cases hk : keepalive bytes with
    | true =>
      have h := feed_keepalive_spends (L := L) fromJson (c := c) hk
      refine Nat.le_trans (ih (by rw [h.readyReads]; exact hc)) ?_
      rw [streamTokens_keepalive hk, h.lexer]
      exact Nat.add_le_add_right h.weight _
    | false =>
      obtain ⟨hw, hn, hl⟩ := feed_frugal (L := L) fromJson hc hk
      refine Nat.le_trans (ih (by rw [hn]; exact hc)) ?_
      rw [streamTokens_cons hk, hl, gcms_append]
      omega

/-- A `gcm` element outside a message is no stanza. -/
theorem does_parseXml_gcm {g q : List Token} {a : List (String × String)} (hg : ∀ t ∈ g, t.blank = true)
    (hr : Reads (g ++ gcmStart a :: q) c) : Does (parseXml fromJson) (fun _ => Loses 1 c) (fun _ => Loses 1 c) c := by
  refine Does.bind (Does.bind (Does.get (does_while_gap hg (Nat.lt_succ_self _) hr fun c₁ fuel h₁ hfuel => ?_)))
  obtain ⟨fuel, rfl⟩ : ∃ k, fuel = k + 1 := ⟨fuel - 1, by omega⟩
  have hstep : c₁.reader.readNextStartElement = (true, c₁.reader.report (gcmStart a) q) := by
    unfold Reader.readNextStartElement
    rw [h₁.reads.alive, h₁.reads.queue]; rfl
  refine Does.bind (does_onReader ?_)
  rw [hstep]
  refine Does.bind (Does.bind (Does.get (Does.throw ⟨?_, h₁.lexer, h₁.readyReads⟩)))
  show c₁.announced.length + gcms q + 1 ≤ c.announced.length + gcms c.reader.queue
  rw [h₁.announced, List.append_nil, hr.queue, gcms_append]
  unfold gcms
  rw [List.countP_cons, if_pos (by simp [isGcmStart, gcmStart])]
  omega

variable (fromJson) in
/-- A stanza whose start tag is lost is not announced. -/
theorem feedAll_gcm {chunks : List (List UInt8)} {g r : List Token} {a : List (String × String)} (hc : c.AtTop)
    (hg : ∀ t ∈ g, t.blank = true) (hts : streamTokens L c.reader.lexer chunks = g ++ gcmStart a :: r) :
    (feedAll L fromJson c chunks).announced.length ≤ c.announced.length + gcms r := by
  induction chunks generalizing c g with
  | nil =>
    have hnil : streamTokens L c.reader.lexer [] = [] := rfl
    rw [hnil] at hts
    cases g <;> cases hts
  | cons bytes chunks ih =>
    cases hk : keepalive bytes with
    | true =>
      have h := feed_keepalive (L := L) fromJson hc hk
      rw [streamTokens_keepalive hk, ← h.lexer] at hts
      have hle := ih ⟨h.reads, by rw [h.readyReads]; exact hc.connected⟩ hg hts
      rw [h.announced, List.append_nil] at hle
      exact hle
    | false =>
      rw [streamTokens_cons hk] at hts
      -- the chunk ends in the gap before the start tag
      have hgap : ∀ g₂, g = (L.read c.reader.lexer bytes).2 ++ g₂ →
          streamTokens L (L.read c.reader.lexer bytes).1 chunks = g₂ ++ gcmStart a :: r →
          (feedAll L fromJson c (bytes :: chunks)).announced.length ≤ c.announced.length + gcms r := by
        rintro g₂ rfl hts
        obtain ⟨ha, htop, hl⟩ := feed_sends (L := L) fromJson hc hk fun c' hr =>
          does_parseXml_blank (fun t ht => hg t (by simp [ht])) hr
        have hle := ih htop (g := g₂) (fun t ht => hg t (by simp [ht])) (by rw [hl]; exact hts)
        rw [ha, List.append_nil] at hle
        exact hle
      rcases List.append_eq_append_iff.1 hts with ⟨g₂, hg₂, hrest⟩ | ⟨t', ht', hrest⟩
      · exact hgap g₂ hg₂ hrest
      · cases t' with
        | nil => exact hgap [] (by simpa using ht'.symm) (by simpa using hrest.symm)
        -- the chunk has the start tag: it is read over, and what follows announces at most its own tags
        | cons t t' =>
          have ht : t = gcmStart a := (List.cons.inj hrest).1.symm
          have hr : r = t' ++ streamTokens L (L.read c.reader.lexer bytes).1 chunks := (List.cons.inj hrest).2
          rw [ht] at ht'
          obtain ⟨hw, hn, hl⟩ := feed_loses (L := L) fromJson (k := 1) hc.connected hk fun c' hq hs =>
            does_parseXml_gcm (a := a) (q := t') hg ⟨by rw [hq, hc.reads.queue, ht', List.nil_append],
              hs.trans hc.reads.alive⟩
          have hle := feedAll_weight (L := L) fromJson chunks
            (c := feed L fromJson c bytes) (by rw [hn]; exact hc.connected)
          have hcw : c.weight = c.announced.length := by
            unfold weight
            rw [hc.reads.queue]
            rfl
          rw [ht', gcms_append] at hw
          rw [hl] at hle
          have hstart : gcms (gcmStart a :: t') = gcms t' + 1 := by
            unfold gcms
            rw [List.countP_cons, if_pos (by simp [isGcmStart, gcmStart])]
          have hzero : gcms g = 0 := count_blank isGcmStart_isStart fun t ht => t.inert_of_blank (hg t ht)
          rw [hr, gcms_append]
          show (feedAll L fromJson (feed L fromJson c bytes) chunks).announced.length ≤ _
          omega

variable (fromJson) in
/-- After a loss no more is announced than there are whole stanzas to come. -/
theorem feedAll_lost {chunks : List (List UInt8)} {xs : List Stanza} (hc : c.AtTop)
    (h : Lost xs (streamTokens L c.reader.lexer chunks)) :
    (feedAll L fromJson c chunks).announced.length ≤ c.announced.length + xs.length := by
  -- each start tag of a `gcm` element to come can be announced once
  have hcw : c.weight = c.announced.length := by
    unfold weight
    rw [hc.reads.queue]
    rfl
  have hle := feedAll_weight (L := L) fromJson chunks hc.connected
  rw [hcw] at hle
  generalize hts : streamTokens L c.reader.lexer chunks = ts at h hle
  cases h with
  | layout h =>
    rw [h.counts.1] at hle
    exact hle
  | @rest s part q ts hs hne h =>
    cases part with
    | nil => exact absurd rfl hne
    | cons t p =>
      have hp : p ++ q = s.before ++ gcmStart s.gcmAttributes :: (.characters s.json :: s.closing)  :=
        (List.cons.inj hs).2.trans (List.append_assoc ..)
      have hin : gcms (Token.characters s.json :: s.closing) = 0 := by
        refine count_blank isGcmStart_isStart fun t ht => ?_
        rcases List.mem_cons.1 ht with rfl | ht
        · rfl
        · exact s.closing_inert t ht
      rcases List.append_eq_append_iff.1 hp with ⟨g₂, hg, rfl⟩ | ⟨p₂, rfl, hq⟩
      · -- the start tag of the `gcm` element comes alone
        have hlost := feedAll_gcm (L := L) fromJson (g := g₂) (a := s.gcmAttributes)
          (r := (.characters s.json :: s.closing) ++ ts) hc (fun t ht => s.before_blank t (by rw [hg]; simp [ht]))
          (by rw [hts]; simp)
        rw [gcms_append, hin, h.counts.1] at hlost
        omega
      · cases p₂ with
        | nil =>
          have hlost := feedAll_gcm (L := L) fromJson (r := (.characters s.json :: s.closing) ++ ts) (g := [])
            hc (fun _ h => by cases h) (by rw [hts]; simpa using congrArg (· ++ ts) hq.symm)
          rw [gcms_append, hin, h.counts.1] at hlost
          omega
        | cons t' p₂ =>
          have hq : Token.characters s.json :: s.closing = p₂ ++ q := (List.cons.inj hq).2
          rw [hq, gcms_append] at hin
          rw [gcms_append, h.counts.1] at hle
          omega

variable (fromJson) in
theorem announcesAll_length (xs : List Stanza) : (announcesAll fromJson xs).length ≤ xs.length := by
  unfold announcesAll
  induction xs with
  | nil => exact Nat.le_refl _
  | cons s xs ih =>
    have : (s.announces fromJson).length ≤ 1 := by
      unfold Stanza.announces
      cases announcement fromJson s.json <;> simp
    rw [List.flatMap_cons, List.length_append, List.length_cons]
    omega

/-- A stream of stanzas is announced if all its chunks lose nothing, and otherwise some stanza is not. -/
theorem feedAll_stanzas (hempty : ∃ e, fromJson "" = .error e) {chunks : List (List UInt8)} {xs : List Stanza}
    (known : ∀ s ∈ xs, unknownType fromJson s.json = false) (hc : c.AtTop)
    (h : Awaits xs (streamTokens L c.reader.lexer chunks)) :
    ((∀ t ∈ L.segments c.reader.lexer (retained chunks), Served t) ∧
      (feedAll L fromJson c chunks).announced = c.announced ++ announcesAll fromJson xs) ∨
    ((∃ t ∈ L.segments c.reader.lexer (retained chunks), ¬ Served t) ∧
      (feedAll L fromJson c chunks).announced.length < c.announced.length + xs.length) := by
  induction chunks generalizing c xs with
  | nil =>
    have hxs : xs = [] := by
      have hnil : streamTokens L c.reader.lexer [] = [] := rfl
      rw [hnil] at h
      generalize ht : ([] : List Token) = ts at h
      cases h with
      | layout h => subst ht; exact List.length_eq_zero_iff.1 h.counts.1.symm
      | closing s hq hne h => exact absurd (List.append_eq_nil_iff.1 ht.symm).1 hne
    subst hxs
    exact Or.inl ⟨fun _ h => (by cases h), (List.append_nil _).symm⟩
  | cons bytes chunks ih =>
    cases hk : keepalive bytes with
    | true =>
      have hs := feed_keepalive (L := L) fromJson hc hk
      rw [streamTokens_keepalive hk, ← hs.lexer] at h
      have := ih known ⟨hs.reads, by rw [hs.readyReads]; exact hc.connected⟩ h
      rw [hs.announced, List.append_nil, hs.lexer, ← retained_keepalive hk] at this
      exact this
    | false =>
      rw [streamTokens_cons hk] at h
      rw [retained_cons hk]
      -- the chunk holds whole stanzas, or cuts one where the connection loses it
      rcases h.step hempty known with ⟨hserved, xs₁, xs₂, rfl, hrest, hbrings⟩ | ⟨hnot, xs₁, xs₂, hlen, hlost, hbrings⟩
      · obtain ⟨ha, htop, hl⟩ := feed_sends (L := L) fromJson hc hk hbrings
        rw [← hl] at hrest
        rcases ih (fun s hs => known s (by simp [hs])) htop hrest with ⟨hall, hann⟩ | ⟨⟨t, ht, hbad⟩, hlt⟩
        · refine Or.inl ⟨fun t ht => ?_, ?_⟩
          · rcases List.mem_cons.1 ht with rfl | ht
            · exact hserved
            · exact hall t (by rw [hl]; exact ht)
          · show (feedAll L fromJson (feed L fromJson c bytes) chunks).announced = _
            rw [hann, ha]
            simp [announcesAll]
        · refine Or.inr ⟨⟨t, List.mem_cons.2 (Or.inr (by rw [← hl]; exact ht)), hbad⟩, ?_⟩
          have hle := announcesAll_length fromJson xs₁
          rw [ha, List.length_append] at hlt
          rw [List.length_append]
          show (feedAll L fromJson (feed L fromJson c bytes) chunks).announced.length < _
          omega
      · obtain ⟨ha, htop, hl⟩ := feed_sends (L := L) fromJson hc hk hbrings
        rw [← hl] at hlost
        refine Or.inr ⟨⟨_, List.mem_cons_self .., hnot⟩, ?_⟩
        have hfinal := feedAll_lost fromJson htop hlost
        have hle := announcesAll_length fromJson xs₁
        rw [ha, List.length_append] at hfinal
        show (feedAll L fromJson (feed L fromJson c bytes) chunks).announced.length < _
        omega

/-- A stream whose chunks are all whole stanzas. -/
theorem feedAll_forests {chunks : List (List UInt8)} {fs : List Forest} (hc : c.AtTop)
    (hseg : L.segments c.reader.lexer (retained chunks) = fs.map Forest.tokens)
    (hf : ∀ e ∈ fs.flatMap Forest.elements, IsMessage fromJson e) :
    (feedAll L fromJson c chunks).announced =
      c.announced ++ (fs.flatMap Forest.elements).flatMap (announcements fromJson) := by
  induction chunks generalizing c fs with
  | nil =>
    have hfs : fs = [] := List.map_eq_nil_iff.1 hseg.symm
    subst hfs
    exact (List.append_nil _).symm
  | cons bytes chunks ih =>
    cases hk : keepalive bytes with
    | true =>
      have hs := feed_keepalive (L := L) fromJson hc hk
      rw [retained_keepalive hk, ← hs.lexer] at hseg
      have := ih ⟨hs.reads, by rw [hs.readyReads]; exact hc.connected⟩ hseg hf
      rw [hs.announced, List.append_nil] at this
      exact this
    | false =>
      rw [retained_cons hk] at hseg
      cases fs with
      | nil => cases hseg
      | cons f fs =>
        obtain ⟨htokens, hseg⟩ := List.cons.inj hseg
        obtain ⟨ha, htop, hl⟩ := feed_sends (L := L) fromJson hc hk fun c' hr =>
          does_parseXml (f := f) (fun e he => hf e (by simp [he])) (by rw [← htokens]; exact hr)
        have := ih htop (by rw [hl]; exact hseg) fun e he => hf e (by rw [List.flatMap_cons]; simp [he])
        show (feedAll L fromJson (feed L fromJson c bytes) chunks).announced = _
        rw [this, ha, List.flatMap_cons, List.flatMap_append, List.append_assoc]

/-- Of a stream that is one keepalive nothing is retained. -/
theorem retained_of_keepalive {chunks : List (List UInt8)} (h : keepalive chunks.flatten = true) :
    (retained chunks).flatten = [] := by
  refine List.flatten_eq_nil_iff.2 fun bytes hb => ?_
  obtain ⟨hmem, hk⟩ := List.mem_filter.1 hb
  cases hbytes : bytes with
  | nil => rfl
  | cons b bs =>
    obtain ⟨x, hx⟩ : ∃ x, chunks.flatten = [x] := by
      unfold keepalive at h
      split at h
      · exact ⟨_, by assumption⟩
      · cases h
    have hsub : List.Sublist bytes [x] := hx ▸ List.sublist_flatten_of_mem hmem
    rw [hbytes] at hsub
    have hone : b :: bs = [x] := hsub.eq_of_length_le (by simp)
    rw [hbytes, hone, ← hx, h] at hk
    cases hk

end FcmStream

end Gimmm
