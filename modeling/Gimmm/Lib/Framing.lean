/-
Frames in a stream. A `Framing` writes each value as a frame and reads the first frame back; the loop
`drain` handles the frames at the front of a buffer and returns what is left. The loop on
a buffer that grows is the loop on the whole of it, so it does not matter in which pieces the stream arrives.
-/
import Mathlib.Data.List.Basic
import Mathlib.Data.List.Induction

/-- `read` finds the first frame of a stream, and only what `write` wrote is one. -/
structure Framing (α β : Type) where
  write : β → List α
  read : List α → Option (β × List α)
  write_ne_nil : ∀ b, write b ≠ []
  read_write : ∀ b rest, read (write b ++ rest) = some (b, rest)
  write_of_read : ∀ {s b rest}, read s = some (b, rest) → s = write b ++ rest

namespace Framing

variable {α β : Type} (F : Framing α β)

/-- The frames of values, one after the other. -/
def stream (bs : List β) : List α := bs.flatMap F.write

/-- No frame has arrived as a whole. -/
def Incomplete (tail : List α) : Prop := ∀ b, ¬ F.write b <+: tail

section
variable {F} {s tail rest : List α} {b : β} {bs : List β}

@[simp] theorem stream_nil : F.stream [] = [] := rfl

@[simp] theorem stream_cons : F.stream (b :: bs) = F.write b ++ F.stream bs := rfl

theorem read_length (h : F.read s = some (b, rest)) : rest.length < s.length := by
  have hpos := List.length_pos_iff.2 (F.write_ne_nil b)
  rw [F.write_of_read h, List.length_append]
  omega

/-- What arrives later does not change the first frame. -/
theorem read_append (h : F.read s = some (b, rest)) (t : List α) : F.read (s ++ t) = some (b, rest ++ t) := by
  rw [F.write_of_read h, List.append_assoc]
  exact F.read_write b (rest ++ t)

theorem incomplete_iff : F.Incomplete tail ↔ F.read tail = none := by
  constructor
  · intro h
    cases hread : F.read tail with
    | none => rfl
    | some p => exact absurd ⟨p.2, (F.write_of_read hread).symm⟩ (h p.1)
  · rintro h b ⟨rest, rfl⟩
    rw [F.read_write] at h
    cases h

theorem incomplete_nil : F.Incomplete [] := fun b h => F.write_ne_nil b (List.prefix_nil.1 h)

/-- The start of a frame is incomplete as long as something of the frame is missing. -/
theorem incomplete_of_missing {more : List α} (hmore : more ≠ []) (h : F.write b = tail ++ more) : F.Incomplete tail := by
  rintro b' ⟨rest, rfl⟩
  have hfirst := F.read_write b []
  rw [List.append_nil, h, List.append_assoc, F.read_write, Option.some.injEq, Prod.mk.injEq] at hfirst
  exact hmore (List.append_eq_nil_iff.1 hfirst.2).2

/-- Whatever has arrived is a number of frames and an incomplete one. -/
theorem exists_split (s : List α) : ∃ bs tail, F.Incomplete tail ∧ s = F.stream bs ++ tail := by
  induction hn : s.length using Nat.strongRecOn generalizing s with
  | _ n ih =>
    cases hread : F.read s with
    | none => exact ⟨[], s, incomplete_iff.2 hread, rfl⟩
    | some p =>
      obtain ⟨b, rest⟩ := p
      obtain ⟨bs, tail, htail, hrest⟩ := ih rest.length (hn ▸ read_length hread) rest rfl
      refine ⟨b :: bs, tail, htail, ?_⟩
      rw [stream_cons, List.append_assoc, ← hrest]
      exact F.write_of_read hread

/-- The frames at the front of a stream are the first ones of all its frames. -/
theorem stream_append_eq (htail : F.Incomplete tail) : ∀ {bs bs' : List β}, F.stream bs ++ s = F.stream bs' ++ tail →
    ∃ next, bs' = bs ++ next ∧ s = F.stream next ++ tail
  | [], bs', h => ⟨bs', rfl, h⟩
  | b :: bs, [], h => by
    rw [stream_cons, List.append_assoc] at h
    exact absurd ⟨_, h⟩ (htail b)
  | b :: bs, b' :: bs', h => by
    have hfirst := F.read_write b (F.stream bs ++ s)
    rw [← List.append_assoc, ← stream_cons, h, stream_cons, List.append_assoc, F.read_write, Option.some.injEq,
      Prod.mk.injEq] at hfirst
    obtain ⟨rfl, hrest⟩ := hfirst
    obtain ⟨next, rfl, hs⟩ := stream_append_eq htail hrest.symm
    exact ⟨next, rfl, hs⟩

/-- A stream is cut into frames in one way only. -/
theorem stream_unique {tail' : List α} {bs' : List β} (htail : F.Incomplete tail) (htail' : F.Incomplete tail')
    (h : F.stream bs ++ tail = F.stream bs' ++ tail') : bs = bs' ∧ tail = tail' := by
  obtain ⟨next, rfl, hnext⟩ := stream_append_eq htail' h
  cases next with
  | nil => exact ⟨(List.append_nil bs).symm, hnext⟩
  | cons b next =>
    rw [stream_cons, List.append_assoc] at hnext
    exact absurd ⟨_, hnext.symm⟩ (htail b)

theorem stream_append (bs bs' : List β) : F.stream (bs ++ bs') = F.stream bs ++ F.stream bs' := List.flatMap_append

end

/-! ## The loop -/

section
variable {m : Type → Type} [Monad m]

/-- While there is a frame, take it from the buffer and handle it; return what is left. -/
def drain (body : β → m Unit) (buffer : List α) : m (List α) :=
  match _h : F.read buffer with
  | none => pure buffer
  | some (b, rest) => do
    body b
    drain body rest
termination_by buffer.length
decreasing_by exact read_length _h

variable {F} {body : β → m Unit} {s tail rest : List α} {b : β}

theorem drain_none (h : F.read s = none) : F.drain body s = pure s := by
  rw [drain]
  split
  · rfl
  · rename_i h'
    rw [h] at h'
    cases h'

theorem drain_some (h : F.read s = some (b, rest)) : F.drain body s = body b >>= fun _ => F.drain body rest := by
  rw [drain]
  split
  · rename_i h'
    rw [h] at h'
    cases h'
  · rename_i h'
    rw [h, Option.some.injEq, Prod.mk.injEq] at h'
    obtain ⟨rfl, rfl⟩ := h'
    rfl

variable [LawfulMonad m]

/-- Draining what has arrived handles its frames in their order and leaves the incomplete one. -/
theorem drain_stream (htail : F.Incomplete tail) : ∀ bs : List β,
    F.drain body (F.stream bs ++ tail) = bs.forM body >>= fun _ => pure tail
  | [] => by
    rw [stream_nil, List.nil_append, drain_none (incomplete_iff.1 htail)]
    exact (pure_bind (m := m) PUnit.unit fun _ => pure tail).symm
  | b :: bs => by
    have hread : F.read (F.stream (b :: bs) ++ tail) = some (b, F.stream bs ++ tail) := by
      rw [stream_cons, List.append_assoc]
      exact F.read_write b _
    rw [drain_some hread, drain_stream htail bs]
    exact (bind_assoc (body b) (fun _ => bs.forM body) _).symm

/-- Draining a part and then what it leaves with the rest is draining both at once. -/
theorem drain_append (s t : List α) : F.drain body (s ++ t) = F.drain body s >>= fun rest => F.drain body (rest ++ t) := by
  induction hn : s.length using Nat.strongRecOn generalizing s with
  | _ n ih =>
    cases hread : F.read s with
    | none => rw [drain_none hread, pure_bind]
    | some p =>
      obtain ⟨b, rest⟩ := p
      have hrest := ih rest.length (hn ▸ read_length hread) rest rfl
      rw [drain_some hread, drain_some (read_append hread t), bind_assoc]
      exact congrArg (body b >>= ·) (funext fun _ => hrest)

/-- However a stream is cut, the loop run on each piece as it arrives is the loop run on the whole. -/
theorem drain_pieces (s : List α) (hs : F.Incomplete s) (pieces : List (List α)) :
    pieces.foldlM (fun rest piece => F.drain body (rest ++ piece)) s = F.drain body (s ++ pieces.flatten) := by
  induction pieces using List.reverseRecOn with
  | nil =>
    rw [List.flatten_nil, List.append_nil, drain_none (incomplete_iff.1 hs)]
    rfl
  | append_singleton pieces piece ih =>
    have hlast : s ++ (pieces ++ [piece]).flatten = s ++ pieces.flatten ++ piece := by simp
    rw [List.foldlM_append, ih, hlast, drain_append (s ++ pieces.flatten) piece]
    refine congrArg (F.drain body (s ++ pieces.flatten) >>= ·) (funext fun rest => ?_)
    rw [List.foldlM_cons]
    exact bind_pure _

end

end Framing
