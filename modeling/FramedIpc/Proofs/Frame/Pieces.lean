import FramedIpc.Proofs.Frame.Wire

/-!
# Frames out of Pieces

Bytes come in pieces that know nothing of frames. A buffer takes a piece, is
asked for frames until it has no whole one, and waits for the next piece; at
the end of the bytes it is asked for what is left. `collect` is that whole
story, and `drain` the one without pieces, where all bytes lie in the buffer
and the end has come already.

The two agree (`collect_eq_drain`), because a decision about the front of a
buffer never changes while the buffer grows. So the payloads and the ending
depend on the bytes alone, and `drain` can stand for any way to cut them.

## Main definitions

* `takeAll`: Take frames off a buffer until none is whole.
* `drain`: The same for a buffer that will not grow.
* `feed`: Append pieces to a buffer, taking frames off after each.
* `collect`: The payloads in some pieces, and how the bytes ended.

## Theorems

* `drain_append`: The frames of a buffer can be taken before the rest comes.
* `collect_eq_drain`: The pieces do not matter.
* `drain_wire_append`: Whole frames come out as their payloads.
* `drain_cut`: A frame cut short is told of by what it lacks.
-/

namespace FramedIpc.Frame

theorem takeLast_of_frame {max : Nat} {buffer payload rest : Bytes}
    (h : take max buffer = .ok (some (payload, rest))) :
    takeLast max buffer = (.ok (some payload), rest) := by
  unfold takeLast
  rw [h]

theorem takeLast_of_error {max : Nat} {buffer : Bytes} {error : Error}
    (h : take max buffer = .error error) : takeLast max buffer = (.error error, buffer) := by
  unfold takeLast
  rw [h]

theorem takeLast_of_none {max : Nat} {buffer : Bytes} (h : take max buffer = .ok none) :
    takeLast max buffer =
      if buffer.isEmpty then (.ok none, buffer) else (.error (truncation buffer), []) := by
  unfold takeLast
  rw [h]

theorem take_of_takeLast {max : Nat} {buffer payload rest : Bytes}
    (h : takeLast max buffer = (.ok (some payload), rest)) :
    take max buffer = .ok (some (payload, rest)) := by
  rcases ht : take max buffer with error | _ | ⟨payload', rest'⟩
  · rw [takeLast_of_error ht] at h
    cases h
  · rw [takeLast_of_none ht] at h
    by_cases he : buffer.isEmpty
    · simp only [he, if_true, Prod.mk.injEq, Except.ok.injEq, reduceCtorEq, false_and] at h
    · simp only [he, if_false, Prod.mk.injEq, reduceCtorEq, false_and] at h
  · rw [takeLast_of_frame ht] at h
    cases h
    rfl

/-- Take frames off a buffer until none is whole. The second part is the
    error that stood in the way, or what is left in the buffer. -/
def takeAll (max : Nat) (buffer : Bytes) : List Bytes × Except Error Bytes :=
  match _h : take max buffer with
  | .error error => ([], .error error)
  | .ok none => ([], .ok buffer)
  | .ok (some (payload, rest)) =>
    (payload :: (takeAll max rest).1, (takeAll max rest).2)
termination_by buffer.length
decreasing_by all_goals exact length_of_take _h

/-- Take frames off a buffer that will not grow, up to the first error. There
    is none if the buffer held whole frames only. -/
def drain (max : Nat) (buffer : Bytes) : List Bytes × Option Error :=
  match _h : takeLast max buffer with
  | (.error error, _) => ([], some error)
  | (.ok none, _) => ([], none)
  | (.ok (some payload), rest) =>
    (payload :: (drain max rest).1, (drain max rest).2)
termination_by buffer.length
decreasing_by all_goals exact length_of_take (take_of_takeLast _h)

/-- Append pieces to a buffer one by one, and take off after each what is
    whole. Nothing is appended after an error. -/
def feed (max : Nat) : List Bytes → Bytes → List Bytes × Except Error Bytes
  | [], buffer => ([], .ok buffer)
  | piece :: pieces, buffer =>
    match takeAll max (buffer ++ piece) with
    | (payloads, .error error) => (payloads, .error error)
    | (payloads, .ok rest) => (payloads ++ (feed max pieces rest).1, (feed max pieces rest).2)

/-- Add to some payloads those of the bytes that are left, if no error stands
    in the way. -/
def finish (max : Nat) (more : Bytes) :
    List Bytes × Except Error Bytes → List Bytes × Option Error
  | (payloads, .error error) => (payloads, some error)
  | (payloads, .ok rest) =>
    (payloads ++ (drain max (rest ++ more)).1, (drain max (rest ++ more)).2)

/-- The payloads in some pieces, and how the bytes ended: with an error, or
    after a whole frame. -/
def collect (max : Nat) (pieces : List Bytes) : List Bytes × Option Error :=
  finish max [] (feed max pieces [])

theorem takeAll_eq (max : Nat) (buffer : Bytes) :
    takeAll max buffer = match take max buffer with
      | .error error => ([], .error error)
      | .ok none => ([], .ok buffer)
      | .ok (some (payload, rest)) =>
        (payload :: (takeAll max rest).1, (takeAll max rest).2) := by
  rw [takeAll]
  split <;> rename_i h <;> rw [h]

theorem drain_eq (max : Nat) (buffer : Bytes) :
    drain max buffer = match takeLast max buffer with
      | (.error error, _) => ([], some error)
      | (.ok none, _) => ([], none)
      | (.ok (some payload), rest) => (payload :: (drain max rest).1, (drain max rest).2) := by
  rw [drain]
  split <;> rename_i h <;> rw [h]

theorem drain_of_frame {max : Nat} {buffer payload rest : Bytes}
    (h : take max buffer = .ok (some (payload, rest))) :
    drain max buffer = (payload :: (drain max rest).1, (drain max rest).2) := by
  rw [drain_eq, takeLast_of_frame h]

theorem drain_of_error {max : Nat} {buffer : Bytes} {error : Error}
    (h : take max buffer = .error error) : drain max buffer = ([], some error) := by
  rw [drain_eq, takeLast_of_error h]

theorem drain_of_none {max : Nat} {buffer : Bytes} (h : take max buffer = .ok none) :
    drain max buffer = ([], if buffer.isEmpty then none else some (truncation buffer)) := by
  rw [drain_eq, takeLast_of_none h]
  by_cases he : buffer.isEmpty
  · simp only [he, if_true]
  · simp only [he, if_false, Bool.false_eq_true]

theorem drain_nil (max : Nat) : drain max [] = ([], none) :=
  drain_of_none rfl

/-- The frames of a buffer can be taken off before the rest of the bytes has
    come. What was taken off early is what would have been taken off late. -/
theorem drain_append (max : Nat) (buffer more : Bytes) :
    drain max (buffer ++ more) = finish max more (takeAll max buffer) := by
  induction buffer using take_induction max with
  | error buffer error ht =>
      -- An error at the front stands, and hides whatever is to come.
      rw [takeAll_eq, ht]
      exact drain_of_error (take_append_of_error ht more)
  | none buffer ht => rw [takeAll_eq, ht, finish, List.nil_append]
  | frame buffer payload rest ht ih =>
      rw [takeAll_eq, ht, drain_of_frame (take_append_of_frame ht more), ih]
      simp only []
      rcases takeAll max rest with ⟨payloads, error | left⟩
      · rfl
      · rfl

theorem finish_feed (max : Nat) (pieces : List Bytes) (buffer more : Bytes) :
    finish max more (feed max pieces buffer) =
      drain max (buffer ++ (pieces.flatten ++ more)) := by
  induction pieces generalizing buffer with
  | nil => simp only [feed, finish, List.flatten_nil, List.nil_append]
  | cons piece pieces ih =>
      rw [List.flatten_cons, List.append_assoc, ← List.append_assoc buffer, drain_append, feed]
      rcases takeAll max (buffer ++ piece) with ⟨payloads, error | rest⟩
      · simp only [finish]
      · simp only [finish]
        rw [← ih rest]
        -- What `feed` adds goes after the payloads of this piece.
        rcases feed max pieces rest with ⟨later, error | left⟩
        · simp only [finish]
        · simp only [finish, List.append_assoc]

/-- The pieces do not matter, only the bytes in them. -/
theorem collect_eq_drain (max : Nat) (pieces : List Bytes) :
    collect max pieces = drain max pieces.flatten := by
  rw [collect, finish_feed, List.nil_append, List.append_nil]

/-- Whole frames come out as their payloads, whatever follows them. -/
theorem drain_wire_append {max : Nat} {payloads : List Bytes}
    (hfit : ∀ payload ∈ payloads, Fits max payload) (rest : Bytes) :
    drain max (wire payloads ++ rest) =
      (payloads ++ (drain max rest).1, (drain max rest).2) := by
  induction payloads with
  | nil => rfl
  | cons payload payloads ih =>
      rw [wire_cons, List.append_assoc,
        drain_of_frame (take_framed_append (hfit payload List.mem_cons_self) _),
        ih (fun p hp => hfit p (List.mem_cons_of_mem _ hp))]
      rfl

/-- Bytes that do not end between two frames end inside one, or go on with
    one that is too large. -/
theorem drain_ending {max : Nat} {buffer : Bytes} {error : Error}
    (h : (drain max buffer).2 = some error) :
    (∃ expected received, error = .truncated expected received) ∨
      ∃ size, error = .payloadTooLarge size max := by
  induction buffer using take_induction max with
  | error buffer error' ht =>
      rw [drain_of_error ht, Option.some.injEq] at h
      rcases oversize_of_take ht with ⟨header, _, _, _, herr⟩
      exact Or.inr ⟨header.length, by rw [← h, herr]⟩
  | none buffer ht =>
      -- What is left lacks the rest of a header or of a payload.
      rw [drain_of_none ht] at h
      by_cases he : buffer.isEmpty
      · simp only [he, if_true, reduceCtorEq] at h
      · simp only [he, if_false, Bool.false_eq_true, Option.some.injEq] at h
        rw [← h, truncation]
        rcases Header.split? buffer with _ | ⟨header, rest⟩
        · exact Or.inl ⟨_, _, rfl⟩
        · exact Or.inl ⟨_, _, rfl⟩
  | frame buffer payload rest ht ih =>
      rw [drain_of_frame ht] at h
      exact ih h

/-- What a frame that is cut short after so many bytes lacks: the rest of its
    header, or the rest of its payload. -/
def shortage (payload : Bytes) (kept : Nat) : Error :=
  if kept < Header.size then .truncated Header.size kept
  else .truncated payload.length (kept - Header.size)

/-- A frame that is cut short inside is told of by what it lacks. -/
theorem drain_cut {max kept : Nat} {payload : Bytes} (hf : Fits max payload) (hpos : 0 < kept)
    (hcut : kept < Header.size + payload.length) :
    drain max ((framed payload).take kept) = ([], some (shortage payload kept)) := by
  have hlen : ((framed payload).take kept).length = kept := by
    rw [List.length_take, length_framed]
    omega
  have hne : ((framed payload).take kept).isEmpty = false := by
    rw [List.isEmpty_eq_false_iff, ← List.length_pos_iff, hlen]
    exact hpos
  by_cases hk : kept < Header.size
  · -- The cut goes through the header.
    have hshort : ((framed payload).take kept).length < Header.size := by rw [hlen]; exact hk
    rw [drain_of_none (take_of_short hshort), hne, truncation, split?_eq_none_iff.mpr hshort, hlen,
      shortage, if_pos hk]
    rfl
  · -- The header is whole, and the cut goes through the payload.
    have hsplit : (framed payload).take kept =
        (Header.spelling payload.length).bytes ++ payload.take (kept - Header.size) := by
      rw [framed, List.take_append, Header.length_bytes, List.take_of_length_le]
      rw [Header.length_bytes]
      omega
    have hrest : (payload.take (kept - Header.size)).length = kept - Header.size := by
      rw [List.length_take]
      omega
    have hspell := Header.length_spelling hf.2
    rw [drain_of_none (by
      rw [hsplit]
      exact take_of_header (by rw [hspell]; exact hf.1) (by rw [hspell, hrest]; omega)),
      hne, hsplit, truncation, Header.split?_bytes_append, shortage, if_neg hk]
    simp only [hspell, hrest, Bool.false_eq_true, if_false]

end FramedIpc.Frame
