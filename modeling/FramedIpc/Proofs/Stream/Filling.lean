import FramedIpc.Proofs.Stream.Tracked

/-!
# Reading into a Buffer

A reader that keeps a buffer does not join the bytes that it is given. It hands
the rest of the buffer to every call and has it written over, each call from
where the last one has stopped, until the buffer is full or the stream ends. A
whole read is what it comes to: the buffer holds the bytes that a whole read
gives, in front of whatever it held before, and is filled as far as they go.
Since the bytes only ever go in front, a buffer that is filled to its end holds
nothing of what was in it.

## Main definitions

* `overwrite`: A buffer with some bytes written over it.
* `fill`: Fill a buffer from a position on.

## Theorems

* `overwrite_overwrite`: Bytes written one after another are written joined.
* `overwrite_all`: Nothing is left of a buffer that is written over whole.
* `fill_of_readWhole`: Filling a buffer is a whole read.
-/

namespace FramedIpc.Stream

variable {σ : Type}

/-- A buffer with some bytes written over it from a position on. -/
def overwrite (buffer : Bytes) (position : Nat) (bs : Bytes) : Bytes :=
  buffer.take position ++ bs ++ buffer.drop (position + bs.length)

theorem length_overwrite {buffer bs : Bytes} {position : Nat}
    (h : position + bs.length ≤ buffer.length) :
    (overwrite buffer position bs).length = buffer.length := by
  simp only [overwrite, List.length_append, List.length_take, List.length_drop]
  omega

theorem overwrite_nil (buffer : Bytes) (position : Nat) :
    overwrite buffer position [] = buffer := by
  rw [overwrite, List.append_nil, List.length_nil, Nat.add_zero, List.take_append_drop]

/-- Bytes that are written one after another are written joined. -/
theorem overwrite_overwrite {buffer first : Bytes} {position : Nat}
    (h : position + first.length ≤ buffer.length) (second : Bytes) :
    overwrite (overwrite buffer position first) (position + first.length) second =
      overwrite buffer position (first ++ second) := by
  have hfront : (buffer.take position ++ first).length = position + first.length := by
    rw [List.length_append, List.length_take]
    omega
  have hrest : position + first.length + second.length - (position + first.length) =
      second.length := by
    omega
  rw [overwrite, overwrite, overwrite, List.take_append_of_le_length (Nat.le_of_eq hfront.symm),
    List.take_of_length_le (Nat.le_of_eq hfront), List.drop_append, hfront, hrest,
    List.drop_of_length_le (by rw [hfront]; omega), List.nil_append, List.drop_drop,
    List.length_append, List.append_assoc (buffer.take position), Nat.add_assoc]

/-- Nothing is left of a buffer that is written over whole. -/
theorem overwrite_all {buffer bs : Bytes} (h : bs.length = buffer.length) :
    overwrite buffer 0 bs = bs := by
  rw [overwrite, List.take_zero, List.nil_append, Nat.zero_add, h, List.drop_length,
    List.append_nil]

/-- Fill a buffer of which so many bytes are filled already. Each call is handed
    the rest of the buffer. The answer is how far the buffer is filled, less
    than it is long only if the stream ended; the last part is the buffer
    afterwards. -/
def fill (io : Stream σ) (buffer : Bytes) (filled : Nat) (s : σ) :
    Except Fault Nat × σ × Bytes :=
  if buffer.length ≤ filled then (.ok filled, s, buffer)
  else
    match hr : io.read (buffer.length - filled) s with
    | (.ok [], s') => (.ok filled, s', buffer)
    | (.ok (b :: bs), s') =>
      have := io.length_le_of_read hr
      io.fill (overwrite buffer filled (b :: bs)) (filled + (b :: bs).length) s'
    | (.error fault, s') =>
      if hi : fault.isInterrupted then
        have := io.patience_lt_of_read hr hi
        io.fill buffer filled s'
      else (.error fault, s', buffer)
termination_by (buffer.length - filled, io.patience s)
decreasing_by
  · refine Prod.Lex.left _ _ ?_
    have hpos : 0 < (b :: bs).length := Nat.succ_pos _
    rw [length_overwrite (by omega)]
    omega
  · exact Prod.Lex.right _ this

/-- Filling a buffer is a whole read: it ends alike and leaves the stream alike,
    and the bytes that the read gives are in the buffer. -/
theorem fill_of_readWhole {io : Stream σ} {buffer : Bytes} {filled : Nat} {s s' : σ}
    {outcome : Except Fault Bytes} (hle : filled ≤ buffer.length)
    (hr : io.readWhole (buffer.length - filled) s = (outcome, s')) :
    ∃ left, io.fill buffer filled s = (outcome.map (filled + ·.length), s', left) ∧
      ∀ bs, outcome = .ok bs → left = overwrite buffer filled bs := by
  fun_induction Stream.fill io buffer filled s generalizing outcome with
  | case1 buffer filled s hfull =>
      rw [Nat.sub_eq_zero_of_le hfull, readWhole_zero] at hr
      cases hr
      refine ⟨buffer, rfl, ?_⟩
      intro bs hbs
      cases hbs
      rw [overwrite_nil]
  | case2 buffer filled s hmore s₁ hc =>
      rw [readWhole_of_end (by omega) hc] at hr
      cases hr
      refine ⟨buffer, rfl, ?_⟩
      intro bs hbs
      cases hbs
      rw [overwrite_nil]
  | case3 buffer filled s hmore b bs s₁ hc hpart ih =>
      rw [readWhole_of_some (by omega) (List.cons_ne_nil b bs) hc] at hr
      rcases hrest : io.readWhole (buffer.length - filled - (b :: bs).length) s₁ with
        ⟨rest, s₂⟩
      rw [hrest] at hr
      cases hr
      have hfit : filled + (b :: bs).length ≤ buffer.length := by omega
      have hlen := length_overwrite hfit
      -- What is still missing of the buffer is what the rest of the read asks for.
      rw [← hlen] at hfit
      rw [← hlen, Nat.sub_sub] at hrest
      rcases ih hfit hrest with ⟨left, hfill, hleft⟩
      refine ⟨left, ?_, ?_⟩
      · rw [hfill]
        cases rest with
        | error fault => rfl
        | ok more => simp only [Except.map, List.length_append, Nat.add_assoc]
      · intro all hall
        cases rest with
        | error fault => cases hall
        | ok more =>
            cases hall
            rw [hleft more rfl, overwrite_overwrite (by rw [← hlen]; exact hfit)]
  | case4 buffer filled s hmore fault s₁ hc hi hlt ih =>
      rw [readWhole_of_fault (by omega) hc, if_pos hi] at hr
      exact ih hle hr
  | case5 buffer filled s hmore fault s₁ hc hi =>
      rw [readWhole_of_fault (by omega) hc, if_neg hi] at hr
      cases hr
      refine ⟨buffer, rfl, ?_⟩
      intro bs hbs
      cases hbs

end FramedIpc.Stream
