/-
Layouts of message stanzas: how many tags they have, where they can be cut in two, and what the tokens of a
chunk look like that loses nothing.
-/
import Gimmm.Fcm.Bounds

namespace Gimmm

open Xml

/-! ## Layouts -/

def isMessageStart : Token → Bool
  | .startElement n u _ => n = "message" ∧ u = defaultNspaceUri
  | _ => false

/-- The number of `message` start tags. -/
def messages (q : List Token) : Nat := q.countP isMessageStart

theorem messages_append (q q' : List Token) : messages (q ++ q') = messages q + messages q' := List.countP_append

/-- There are no tags in text and comments. -/
theorem count_blank {p : Token → Bool} (hp : ∀ t, p t = true → t.isStart = true) {g : List Token}
    (hg : ∀ t ∈ g, t.inert = true) : g.countP p = 0 := by
  refine List.countP_eq_zero.2 fun t ht h => ?_
  have h1 := hp t h
  have h2 := hg t ht
  cases t with
  | startElement => cases h2
  | _ => cases h1

theorem isGcmStart_isStart (t : Token) (h : isGcmStart t = true) : t.isStart = true := by
  cases t <;> first | rfl | cases h

theorem isMessageStart_isStart (t : Token) (h : isMessageStart t = true) : t.isStart = true := by
  cases t <;> first | rfl | cases h

namespace Stanza

variable (s : Stanza)

theorem closing_inert : ∀ t ∈ s.closing, t.inert = true := by
  intro t ht
  rcases List.mem_cons.1 ht with rfl | ht
  · rfl
  · rcases List.mem_append.1 ht with ht | ht
    · exact t.inert_of_blank (s.after_blank t ht)
    · rw [List.mem_singleton.1 ht]; rfl

theorem before_inert : ∀ t ∈ s.before, t.inert = true := fun t ht => t.inert_of_blank (s.before_blank t ht)

theorem tokens_ordinary : ∀ t ∈ s.tokens, t.ordinary = true := by
  intro t ht
  rcases List.mem_append.1 ht with ht | ht
  · rcases List.mem_cons.1 ht with rfl | ht
    · rfl
    · rcases List.mem_append.1 ht with ht | ht
      · exact t.ordinary_of_inert (s.before_inert t ht)
      · rcases List.mem_cons.1 ht with rfl | ht
        · rfl
        · rw [List.mem_singleton.1 ht]; rfl
  · exact t.ordinary_of_inert (s.closing_inert t ht)

theorem gcms_opening : gcms s.opening = 1 := by
  unfold gcms opening
  rw [List.countP_cons, List.countP_append, count_blank isGcmStart_isStart s.before_inert]
  rfl

theorem messages_opening : messages s.opening = 1 := by
  unfold messages opening
  rw [List.countP_cons, List.countP_append, count_blank isMessageStart_isStart s.before_inert]
  rfl

theorem gcms_tokens : gcms s.tokens = 1 := by
  unfold tokens
  rw [gcms_append, gcms_opening]
  exact congrArg (1 + ·) (count_blank isGcmStart_isStart s.closing_inert)

theorem messages_tokens : messages s.tokens = 1 := by
  unfold tokens
  rw [messages_append, messages_opening]
  exact congrArg (1 + ·) (count_blank isMessageStart_isStart s.closing_inert)

/-- A part of the closing tags that has the last one. -/
theorem suffix_closing {q : List Token} (h : q <:+ s.closing) (hne : q ≠ []) :
    ∃ g n q', q = g ++ .endElement n :: q' ∧ (∀ t ∈ g, t.blank = true) ∧ ∀ t ∈ q', t.inert = true := by
  have hinert : ∀ t ∈ q, t.inert = true := fun t ht => s.closing_inert t (h.subset ht)
  have h : q <:+ (.endElement "gcm" :: s.after) ++ [.endElement "message"] := h
  obtain ⟨q, rfl, -⟩ := (List.suffix_concat_iff.1 h).resolve_left hne
  rcases FcmStream.blank_or q with hb | ⟨g, t, q', rfl, hg, ht⟩
  · exact ⟨q, "message", [], rfl, hb, fun _ h => by cases h⟩
  · have hin := hinert t (by simp)
    refine ⟨g, ?_⟩
    cases t with
    | endElement n => exact ⟨n, q' ++ [.endElement "message"], by simp, hg, fun t ht => hinert t (by simp_all)⟩
    | characters => cases ht
    | comment => cases ht
    | _ => cases hin

end Stanza

namespace Layout

variable {xs : List Stanza} {ts : List Token}

theorem bare : Layout [] [] := .nil fun _ h => by cases h

/-- With nothing before the stanza. -/
theorem snug (s : Stanza) (h : Layout xs ts) : Layout (s :: xs) (s.tokens ++ ts) := by
  have hgap : ∀ t ∈ ([] : List Token), t.blank = true := fun _ h => by cases h
  exact .cons hgap s h

theorem gap {g : List Token} (hg : ∀ t ∈ g, t.blank = true) (h : Layout xs ts) : Layout xs (g ++ ts) := by
  have happ : ∀ gap : List Token, (∀ t ∈ gap, t.blank = true) → ∀ t ∈ g ++ gap, t.blank = true := fun gap hgap t ht =>
    (List.mem_append.1 ht).elim (hg t) (hgap t)
  cases h with
  | nil hgap => exact .nil (happ _ hgap)
  | @cons gap hgap s xs ts h =>
    rw [← List.append_assoc]
    exact .cons (happ _ hgap) s h

theorem counts (h : Layout xs ts) : gcms ts = xs.length ∧ messages ts = xs.length := by
  induction h with
  | nil hgap =>
    have hin := fun t ht => Token.inert_of_blank (hgap t ht)
    exact ⟨count_blank isGcmStart_isStart hin, count_blank isMessageStart_isStart hin⟩
  | cons hgap s h ih =>
    have hin := fun t ht => Token.inert_of_blank (hgap t ht)
    have h1 : gcms _ = 0 := count_blank isGcmStart_isStart hin
    have h2 : messages _ = 0 := count_blank isMessageStart_isStart hin
    rw [gcms_append, gcms_append, messages_append, messages_append, h1, h2, s.gcms_tokens, s.messages_tokens, ih.1, ih.2,
      List.length_cons]
    omega

/-- Two parts of a layout meet between two stanzas, or in one. -/
theorem split {a b : List Token} (h : Layout xs (a ++ b)) :
    (∃ xs₁ xs₂, xs = xs₁ ++ xs₂ ∧ Layout xs₁ a ∧ Layout xs₂ b) ∨
    ∃ xs₁ s xs₂ ts part q ts', xs = xs₁ ++ s :: xs₂ ∧ a = ts ++ part ∧ Layout xs₁ ts ∧ part ++ q = s.tokens ∧
      part ≠ [] ∧ q ≠ [] ∧ b = q ++ ts' ∧ Layout xs₂ ts' := by
  generalize he : a ++ b = ts at h
  induction h generalizing a with
  | nil hgap =>
    subst he
    exact Or.inl ⟨[], [], rfl, .nil fun t ht => hgap t (by simp [ht]), .nil fun t ht => hgap t (by simp [ht])⟩
  | @cons gap hgap s xs ts h ih =>
    rcases List.append_eq_append_iff.1 he with ⟨g, rfl, rfl⟩ | ⟨a', rfl, ha'⟩
    · exact Or.inl ⟨[], s :: xs, rfl, .nil fun t ht => hgap t (by simp [ht]),
        .cons (fun t ht => hgap t (by simp [ht])) s h⟩
    · rcases List.append_eq_append_iff.1 ha' with ⟨a₂, rfl, rfl⟩ | ⟨q, hq, rfl⟩
      · rcases ih rfl with ⟨xs₁, xs₂, rfl, h1, h2⟩ | ⟨xs₁, s', xs₂, ts, part, q, ts', rfl, rfl, h1, hpart, hne, hne', rfl, h2⟩
        · exact Or.inl ⟨s :: xs₁, xs₂, rfl, .cons hgap s h1, h2⟩
        · exact Or.inr ⟨s :: xs₁, s', xs₂, gap ++ (s.tokens ++ ts), part, q, ts', rfl, by simp, .cons hgap s h1, hpart, hne,
            hne', rfl, h2⟩
      · by_cases ha : a' = []
        · subst ha
          exact Or.inl ⟨[], s :: xs, rfl, by simpa using Layout.nil hgap, by
            rw [show q = s.tokens from hq.symm]
            exact .snug s h⟩
        · by_cases hqn : q = []
          · subst hqn
            refine Or.inl ⟨[s], xs, rfl, ?_, h⟩
            have := Layout.cons hgap s Layout.bare
            rw [List.append_nil] at this hq
            rwa [← hq]
          · exact Or.inr ⟨[], s, xs, gap, a', q, ts, rfl, rfl, .nil hgap, hq.symm, ha, hqn, rfl, h⟩

theorem ordinary (h : Layout xs ts) : ∀ t ∈ ts, t.ordinary = true := by
  induction h with
  | nil hgap => exact fun t ht => t.ordinary_of_inert (t.inert_of_blank (hgap t ht))
  | cons hgap s h ih =>
    intro t ht
    rcases List.mem_append.1 ht with ht | ht
    · exact t.ordinary_of_inert (t.inert_of_blank (hgap t ht))
    · rcases List.mem_append.1 ht with ht | ht
      · exact s.tokens_ordinary t ht
      · exact ih t ht

/-- The first tag starts a stanza. -/
theorem first (h : Layout xs ts) : (∀ t ∈ ts, t.blank = true) ∨
    ∃ a, ts.find? (fun t => !t.blank) = some (messageStart a) := by
  cases h with
  | nil hgap => exact Or.inl hgap
  | @cons gap hgap s xs ts h =>
    refine Or.inr ⟨s.attributes, ?_⟩
    rw [List.find?_append, List.find?_eq_none.2 fun t ht => by simp [hgap t ht]]
    rfl

/-- The last token is no start tag. -/
theorem last (h : Layout xs ts) : ∀ t ∈ ts.getLast?, t.inert = true := by
  induction h with
  | nil hgap => exact fun t ht => t.inert_of_blank (hgap t (List.mem_of_getLast? ht))
  | @cons gap hgap s xs ts h ih =>
    intro t ht
    have hend : s.tokens.getLast? = some (.endElement "message") := by
      simp [Stanza.tokens, Stanza.closing, List.getLast?_append, List.getLast?_cons]
    rw [List.getLast?_append, List.getLast?_append, hend] at ht
    cases hl : ts.getLast? with
    | none => rw [hl] at ht; cases ht; rfl
    | some t' => rw [hl] at ht; cases ht; exact ih t hl

end Layout

/-! ## Served chunks -/

theorem Stanza.opening_last (s : Stanza) : s.opening.getLast? = some (.characters s.json) := by
  simp [Stanza.opening, List.getLast?_cons, List.getLast?_append]

namespace Served

variable {ts : List Token}

theorem counts (h : Served ts) : gcms ts = messages ts := by
  cases h with
  | closes h => exact (count_blank isGcmStart_isStart h).trans (count_blank isMessageStart_isStart h).symm
  | whole h => exact h.counts.1.trans h.counts.2.symm
  | cut h s htail =>
    have hin := fun t ht => s.closing_inert t (htail.subset ht)
    have h1 : gcms _ = 0 := count_blank isGcmStart_isStart hin
    have h2 : messages _ = 0 := count_blank isMessageStart_isStart hin
    rw [gcms_append, gcms_append, messages_append, messages_append, h.counts.1, h.counts.2, s.gcms_opening,
      s.messages_opening, h1, h2]

theorem last (h : Served ts) : ∀ t ∈ ts.getLast?, t.inert = true := by
  cases h with
  | closes h => exact fun t ht => h t (List.mem_of_getLast? ht)
  | whole h => exact h.last
  | @cut xs ts tail h s htail =>
    intro t ht
    rw [List.getLast?_append, List.getLast?_append, s.opening_last] at ht
    cases hl : tail.getLast? with
    | none => rw [hl] at ht; cases ht; rfl
    | some t' =>
      rw [hl] at ht
      cases ht
      exact s.closing_inert t (htail.subset (List.mem_of_getLast? hl))

/-- Nothing but closing tags, or the first tag starts a stanza. -/
theorem first (h : Served ts) : (∀ t ∈ ts, t.inert = true) ∨
    ∃ a, ts.find? (fun t => !t.blank) = some (messageStart a) := by
  cases h with
  | closes h => exact Or.inl h
  | whole h => exact h.first.imp_left fun h t ht => t.inert_of_blank (h t ht)
  | cut h s htail =>
    refine Or.inr ?_
    rcases h.first with hb | ⟨a, ha⟩
    · refine ⟨s.attributes, ?_⟩
      rw [List.find?_append, List.find?_eq_none.2 fun t ht => by simp [hb t ht]]
      rfl
    · exact ⟨a, by rw [List.find?_append, ha]; rfl⟩

/-- After a closing tag there is no start tag. -/
theorem inert_of_end {g q : List Token} {n : String} (hg : ∀ t ∈ g, t.blank = true)
    (h : Served (g ++ .endElement n :: q)) : ∀ t ∈ q, t.inert = true := by
  rcases h.first with h | ⟨a, ha⟩
  · exact fun t ht => h t (by simp [ht])
  · rw [List.find?_append, List.find?_eq_none.2 fun t ht => by simp [hg t ht]] at ha
    cases ha

end Served

/-- A part of a stanza that does not have its JSON text. -/
theorem Stanza.opened_cases (s : Stanza) {part : List Token} (h : part <+: s.opening) (hne : part ≠ [])
    (hnot : part ≠ s.opening) : (∃ g, part = messageStart s.attributes :: g ∧ g <+: s.before) ∨
      part = messageStart s.attributes :: (s.before ++ [gcmStart s.gcmAttributes]) := by
  cases part with
  | nil => exact absurd rfl hne
  | cons t p =>
    obtain ⟨rfl, hp⟩ := List.cons_prefix_cons.1 h
    rw [show s.before ++ [gcmStart s.gcmAttributes, .characters s.json] =
      (s.before ++ [gcmStart s.gcmAttributes]) ++ [.characters s.json] by simp] at hp
    rcases List.prefix_concat_iff.1 hp with rfl | hp
    · exact absurd (by simp [opening]) hnot
    · rcases List.prefix_concat_iff.1 hp with rfl | hp
      · exact Or.inr rfl
      · exact Or.inl ⟨p, rfl, hp⟩

theorem not_served_opened {xs : List Stanza} {ts part : List Token} (hts : Layout xs ts) (s : Stanza)
    (h : part <+: s.opening) (hne : part ≠ []) (hnot : part ≠ s.opening) : ¬ Served (ts ++ part) := by
  intro hs
  rcases s.opened_cases h hne hnot with ⟨g, rfl, hg⟩ | rfl
  · have hin := fun t ht => s.before_inert t (hg.subset ht)
    have h1 : g.countP isGcmStart = 0 := count_blank isGcmStart_isStart hin
    have h2 : g.countP isMessageStart = 0 := count_blank isMessageStart_isStart hin
    have hcounts := hs.counts
    rw [gcms_append, messages_append, hts.counts.1, hts.counts.2] at hcounts
    unfold gcms messages at hcounts
    rw [List.countP_cons, List.countP_cons, h1, h2] at hcounts
    simp [isGcmStart, isMessageStart, messageStart] at hcounts
  · have hlast := hs.last (gcmStart s.gcmAttributes) (by simp [List.getLast?_append, List.getLast?_cons])
    cases hlast

end Gimmm
