import FramedIpc.Proofs.Frame.Front
import FramedIpc.Proofs.Frame.Pieces

/-!
# What Is Left at the End

A buffer that will not grow is asked for frames until it answers with something
else. It gives the payloads of the whole frames at its front, and then what lies
behind them decides how it ends. There may be nothing. There may be the start of
a header, or a header with too little behind it: these bytes will never be a
frame, so they are told of and dropped. Or there is a header that promises more
than is allowed, and nothing is done about that.

`Remainder` lists these ways, each with its answer and with what the buffer
holds afterwards. None of them begins with a whole frame, so a buffer can be cut
into whole frames and a remainder in one way only (`Leads.unique`). Hence the
ending is a matter of the bytes alone, and can be told from the numbers in them.
Each frame takes a header at least, which bounds how often one can ask.

## Main definitions

* `Remainder`: What can follow the last whole frame, and what is answered.
* `Leads`: The whole frames at the front of a buffer, and the remainder.
* `exhaust`: Ask a buffer that will not grow until it gives no frame.
* `Settles`: How the last answer is told from the bytes.

## Theorems

* `takeLast_of_remainder`: A remainder decides the answer.
* `exists_leads`: Every buffer is whole frames and a remainder.
* `Leads.unique`: In one way only.
* `exhaust_wire_append`: Whole frames are given one after another.
* `exhaust_exactly`: What is given, how often, and how it ends.
-/

namespace FramedIpc.Frame

open Payload (ofBigEndian)

/-- What can follow the last whole frame of a buffer that will not grow, with the
    answer that it gets and what is left of the buffer. -/
inductive Remainder (max : Nat) : Bytes → Except Error (Option Bytes) × Bytes → Prop where
  /-- There is nothing. -/
  | nothing : Remainder max [] (.ok none, [])
  /-- There is a part of a header. -/
  | short {rest : Bytes} :
      rest ≠ [] → rest.length < Header.size →
      Remainder max rest (.error (.truncated Header.size rest.length), [])
  /-- There is a header, and behind it less than it promises. -/
  | started {header : Header} {rest : Bytes} :
      header.length ≤ max → rest.length < header.length →
      Remainder max (header.bytes ++ rest) (.error (.truncated header.length rest.length), [])
  /-- There is a header that promises more than is allowed. -/
  | oversize {header : Header} {rest : Bytes} :
      max < header.length →
      Remainder max (header.bytes ++ rest)
        (.error (.payloadTooLarge header.length max), header.bytes ++ rest)

/-- Payloads whose frames lie whole at the front of a buffer, and what follows
    the last of them, which does not begin with another. -/
structure Leads (max : Nat) (buffer : Bytes) (payloads : List Bytes) (rest : Bytes) : Prop where
  cut : buffer = wire payloads ++ rest
  fits : ∀ payload ∈ payloads, Fits max payload
  last : ∀ payload after, Fits max payload → rest ≠ framed payload ++ after

/-- Ask a buffer that will not grow for frames, so many times at most, and no
    more once an answer is no frame. The second part is the buffer afterwards. -/
def exhaust (max : Nat) : Nat → Bytes → List (Except Error (Option Bytes)) × Bytes
  | 0, buffer => ([], buffer)
  | calls + 1, buffer =>
    match takeLast max buffer with
    | (.ok (some payload), rest) =>
      (.ok (some payload) :: (exhaust max calls rest).1, (exhaust max calls rest).2)
    | (answer, rest) => ([answer], rest)

variable {max : Nat} {buffer rest : Bytes} {payloads : List Bytes}

section Remainder

variable {answer : Except Error (Option Bytes) × Bytes}

/-- A remainder decides the answer. -/
theorem takeLast_of_remainder (h : Remainder max rest answer) : takeLast max rest = answer := by
  cases h with
  | nothing => rfl
  | short hne hshort =>
      rw [takeLast_of_none (take_of_short hshort), truncation, split?_eq_none_iff.mpr hshort,
        if_neg (mt List.isEmpty_iff.mp hne)]
  | started hmax hlen =>
      rw [takeLast_of_none (take_of_header hmax hlen), truncation, Header.split?_bytes_append,
        if_neg]
      simp only [Header.bytes, List.cons_append, List.isEmpty_cons, Bool.false_eq_true,
        not_false_eq_true]
  | oversize hmax => rw [takeLast_of_error (take_of_oversize hmax _)]

/-- A remainder does not begin with a whole frame. -/
theorem Remainder.unframed (h : Remainder max rest answer) (payload after : Bytes)
    (hfits : Fits max payload) : rest ≠ framed payload ++ after := by
  intro heq
  have hwhole : Front max rest (.ok (some payload), after) := heq ▸ .whole hfits
  cases h with
  | nothing => cases (Front.short (by decide)).unique hwhole
  | short _ hshort => cases (Front.short hshort).unique hwhole
  | started hmax hlen => cases (Front.started hmax hlen).unique hwhole
  | oversize hmax => cases (Front.oversize hmax).unique hwhole

/-- A buffer begins with a whole frame, or is a remainder. -/
theorem framed_or_remainder (max : Nat) (buffer : Bytes) :
    (∃ payload rest, Fits max payload ∧ buffer = framed payload ++ rest) ∨
      ∃ answer, Remainder max buffer answer := by
  rcases hfirst : takeFirst max buffer with ⟨answer, left⟩
  cases takeFirst_eq_iff.mp hfirst with
  | short hshort =>
      by_cases hne : buffer = []
      · rw [hne]
        exact Or.inr ⟨_, Remainder.nothing⟩
      · exact Or.inr ⟨_, .short hne hshort⟩
  | started hmax hlen => exact Or.inr ⟨_, .started hmax hlen⟩
  | oversize hmax => exact Or.inr ⟨_, .oversize hmax⟩
  | whole hfits => exact Or.inl ⟨_, _, hfits, rfl⟩

end Remainder

theorem Leads.cons {payload : Bytes} (h : Leads max buffer payloads rest)
    (hfits : Fits max payload) :
    Leads max (framed payload ++ buffer) (payload :: payloads) rest where
  cut := by rw [h.cut, wire_cons, List.append_assoc]
  fits := List.forall_mem_cons.mpr ⟨hfits, h.fits⟩
  last := h.last

/-- Every buffer is whole frames and a remainder. -/
theorem exists_leads (max : Nat) (buffer : Bytes) :
    ∃ payloads rest answer, Leads max buffer payloads rest ∧ Remainder max rest answer := by
  rcases framed_or_remainder max buffer with ⟨payload, after, hfits, hbuffer⟩ | ⟨answer, h⟩
  · have hlt : after.length < buffer.length := by
      rw [hbuffer, List.length_append, length_framed, Header.size]
      omega
    rcases exists_leads max after with ⟨payloads, rest, answer, hleads, h⟩
    exact ⟨payload :: payloads, rest, answer, hbuffer ▸ hleads.cons hfits, h⟩
  · exact ⟨[], buffer, answer,
      ⟨rfl, fun _ hmem => absurd hmem List.not_mem_nil, h.unframed⟩, h⟩
termination_by buffer.length

/-- A buffer is whole frames and a remainder in one way only. -/
theorem Leads.unique {others : List Bytes} {rest' : Bytes} (h : Leads max buffer payloads rest)
    (h' : Leads max buffer others rest') : others = payloads ∧ rest' = rest := by
  induction payloads generalizing buffer others with
  | nil =>
      cases others with
      | nil => exact ⟨rfl, h'.cut.symm.trans h.cut⟩
      | cons other others =>
          -- What follows no frame at all would begin with one.
          refine absurd (h.cut.symm.trans h'.cut) ?_
          rw [wire_cons, List.append_assoc]
          exact h.last other _ (h'.fits other List.mem_cons_self)
  | cons payload payloads ih =>
      cases others with
      | nil =>
          refine absurd (h'.cut.symm.trans h.cut) ?_
          rw [wire_cons, List.append_assoc]
          exact h'.last payload _ (h.fits payload List.mem_cons_self)
      | cons other others =>
          have hcut := h.cut.symm.trans h'.cut
          rw [wire_cons, wire_cons, List.append_assoc, List.append_assoc] at hcut
          rcases framed_append_inj (h.fits payload List.mem_cons_self)
            (h'.fits other List.mem_cons_self) hcut with ⟨rfl, hrest⟩
          have hfirst : Leads max (wire payloads ++ rest) payloads rest :=
            ⟨rfl, fun p hp => h.fits p (List.mem_cons_of_mem _ hp), h.last⟩
          have hsecond : Leads max (wire payloads ++ rest) others rest' :=
            ⟨hrest, fun p hp => h'.fits p (List.mem_cons_of_mem _ hp), h'.last⟩
          rcases ih hfirst hsecond with ⟨rfl, hrest'⟩
          exact ⟨rfl, hrest'⟩

theorem size_mul_length_le (payloads : List Bytes) :
    payloads.length * Header.size ≤ (wire payloads).length := by
  induction payloads with
  | nil => exact Nat.zero_le _
  | cons payload payloads ih =>
      rw [wire_cons, List.length_append, length_framed, List.length_cons, Nat.succ_mul]
      omega

/-- Each whole frame takes up a header at least. -/
theorem Leads.length_le (h : Leads max buffer payloads rest) :
    payloads.length ≤ buffer.length / Header.size := by
  have hwire := size_mul_length_le payloads
  rw [Nat.le_div_iff_mul_le (by decide), h.cut, List.length_append]
  omega

/-- Whole frames are given one after another. -/
theorem exhaust_wire_append (hfits : ∀ payload ∈ payloads, Fits max payload) (calls : Nat)
    (rest : Bytes) :
    exhaust max (payloads.length + calls) (wire payloads ++ rest) =
      (payloads.map (fun payload => .ok (some payload)) ++ (exhaust max calls rest).1,
        (exhaust max calls rest).2) := by
  induction payloads with
  | nil => rw [List.length_nil, Nat.zero_add]; rfl
  | cons payload payloads ih =>
      have hfirst := take_framed_append (hfits payload List.mem_cons_self) (wire payloads ++ rest)
      rw [List.length_cons, Nat.succ_add, wire_cons, List.append_assoc, exhaust,
        takeLast_of_frame hfirst]
      simp only [ih (fun p hp => hfits p (List.mem_cons_of_mem _ hp)), List.map_cons,
        List.cons_append]

/-- A remainder is told of at once, and nothing is asked after that. -/
theorem exhaust_of_remainder {answer : Except Error (Option Bytes)} {left : Bytes}
    (h : Remainder max rest (answer, left)) (calls : Nat) :
    exhaust max (calls + 1) rest = ([answer], left) := by
  rw [exhaust, takeLast_of_remainder h]
  cases h with
  | nothing => rfl
  | short _ _ => rfl
  | started _ _ => rfl
  | oversize _ => rfl

/-- How the last answer of a buffer that will not grow is told from the bytes,
    and what it leaves. -/
structure Settles (max : Nat) (buffer rest : Bytes) (answer : Except Error (Option Bytes))
    (left : Bytes) : Prop where
  /-- It ends in one of three ways. -/
  ways : answer = .ok none ∨ (∃ expected received, answer = .error (.truncated expected received)) ∨
    ∃ size most, answer = .error (.payloadTooLarge size most)
  /-- There is no error exactly if the buffer was whole frames. -/
  done : answer = .ok none ↔ ∃ all, (∀ payload ∈ all, Fits max payload) ∧ buffer = wire all
  /-- Something is cut off exactly if the remainder is a part of a header, or a
      header within the limit with less behind it than it promises. -/
  cutOff : ∀ expected received, answer = .error (.truncated expected received) ↔
    (0 < rest.length ∧ rest.length < Header.size ∧
        expected = Header.size ∧ received = rest.length) ∨
      (Header.size ≤ rest.length ∧ ofBigEndian (rest.take Header.size) ≤ max ∧
        rest.length < Header.size + ofBigEndian (rest.take Header.size) ∧
        expected = ofBigEndian (rest.take Header.size) ∧
        received = rest.length - Header.size)
  /-- Then less came than was expected, and the buffer is empty afterwards and
      stays so. -/
  dropped : ∀ expected received, answer = .error (.truncated expected received) →
    received < expected ∧ left = [] ∧ takeLast max left = (.ok none, [])
  /-- Something is too large exactly if the remainder has a header that spells
      more than the limit. -/
  tooLarge : ∀ size most, answer = .error (.payloadTooLarge size most) ↔
    Header.size ≤ rest.length ∧ max < ofBigEndian (rest.take Header.size) ∧
      size = ofBigEndian (rest.take Header.size) ∧ most = max
  /-- Then the remainder stays as it is. -/
  kept : ∀ size most, answer = .error (.payloadTooLarge size most) → left = rest

section Settled

variable {answer : Except Error (Option Bytes)} {left : Bytes}

theorem Remainder.done_iff (h : Remainder max rest (answer, left)) :
    answer = .ok none ↔ rest = [] := by
  have hheader : ∀ (header : Header) (after : Bytes), header.bytes ++ after ≠ [] :=
    fun header after => List.append_ne_nil_of_left_ne_nil (List.cons_ne_nil _ _) after
  cases h with
  | nothing => exact iff_of_true rfl rfl
  | short hne _ => exact iff_of_false nofun hne
  | started _ _ => exact iff_of_false nofun (hheader _ _)
  | oversize _ => exact iff_of_false nofun (hheader _ _)

theorem Remainder.cutOff_iff (h : Remainder max rest (answer, left)) (expected received : Nat) :
    answer = .error (.truncated expected received) ↔
      (0 < rest.length ∧ rest.length < Header.size ∧
          expected = Header.size ∧ received = rest.length) ∨
        (Header.size ≤ rest.length ∧ ofBigEndian (rest.take Header.size) ≤ max ∧
          rest.length < Header.size + ofBigEndian (rest.take Header.size) ∧
          expected = ofBigEndian (rest.take Header.size) ∧
          received = rest.length - Header.size) := by
  cases h with
  | nothing =>
      simp only [reduceCtorEq, List.length_nil, Header.size, false_iff]
      omega
  | short hne hshort =>
      have hpos := List.length_pos_iff.mpr hne
      simp only [Except.error.injEq, Error.truncated.injEq]
      omega
  | started hmax hlen =>
      rw [ofBigEndian_take, List.length_append, Header.length_bytes]
      simp only [Except.error.injEq, Error.truncated.injEq]
      omega
  | oversize hmax =>
      rw [ofBigEndian_take, List.length_append, Header.length_bytes]
      simp only [Except.error.injEq, reduceCtorEq, false_iff]
      omega

theorem Remainder.tooLarge_iff (h : Remainder max rest (answer, left)) (size most : Nat) :
    answer = .error (.payloadTooLarge size most) ↔
      Header.size ≤ rest.length ∧ max < ofBigEndian (rest.take Header.size) ∧
        size = ofBigEndian (rest.take Header.size) ∧ most = max := by
  cases h with
  | nothing => exact iff_of_false nofun (fun hover => absurd hover.1 (by decide))
  | short _ hshort => exact iff_of_false nofun (fun hover => absurd hover.1 (Nat.not_le.mpr hshort))
  | started hmax _ =>
      rw [ofBigEndian_take]
      exact iff_of_false nofun (fun hover => absurd hover.2.1 (Nat.not_lt.mpr hmax))
  | oversize hmax =>
      rw [ofBigEndian_take, List.length_append, Header.length_bytes]
      simp only [Except.error.injEq, Error.payloadTooLarge.injEq, hmax, Nat.le_add_right, true_and]
      omega

/-- The last answer and what it leaves are told from the bytes. -/
theorem Leads.settles (hleads : Leads max buffer payloads rest)
    (h : Remainder max rest (answer, left)) : Settles max buffer rest answer left where
  ways := by
    cases h with
    | nothing => exact Or.inl rfl
    | short _ _ => exact Or.inr (Or.inl ⟨_, _, rfl⟩)
    | started _ _ => exact Or.inr (Or.inl ⟨_, _, rfl⟩)
    | oversize _ => exact Or.inr (Or.inr ⟨_, _, rfl⟩)
  done := by
    rw [h.done_iff]
    constructor
    · rintro rfl
      exact ⟨payloads, hleads.fits, hleads.cut.trans (List.append_nil _)⟩
    · rintro ⟨all, hall, hbuffer⟩
      have hwhole : Leads max buffer all [] :=
        ⟨hbuffer.trans (List.append_nil _).symm, hall, fun payload after _ heq =>
          framed_ne_nil payload (List.append_eq_nil_iff.mp heq.symm).1⟩
      exact (hwhole.unique hleads).2
  cutOff := h.cutOff_iff
  dropped := by
    rintro expected received rfl
    cases h with
    | short _ hshort => exact ⟨hshort, rfl, rfl⟩
    | started _ hlen => exact ⟨hlen, rfl, rfl⟩
  tooLarge := h.tooLarge_iff
  kept := by
    rintro size most rfl
    cases h with
    | oversize _ => rfl

end Settled

/-- A buffer that will not grow gives the payloads of the whole frames at its
    front, one for four bytes at most, and then tells what lies behind them. -/
theorem exhaust_exactly (max : Nat) (buffer : Bytes) :
    ∃ payloads rest answer left,
      Leads max buffer payloads rest ∧
      (∀ others rest', Leads max buffer others rest' → others = payloads ∧ rest' = rest) ∧
      payloads.length ≤ buffer.length / Header.size ∧
      (∀ calls, payloads.length < calls →
        exhaust max calls buffer =
          (payloads.map (fun payload => .ok (some payload)) ++ [answer], left)) ∧
      Settles max buffer rest answer left := by
  rcases exists_leads max buffer with ⟨payloads, rest, ⟨answer, left⟩, hleads, h⟩
  refine ⟨payloads, rest, answer, left, hleads, fun _ _ h' => hleads.unique h',
    hleads.length_le, ?_, hleads.settles h⟩
  intro calls hcalls
  have hsome : calls = payloads.length + (calls - payloads.length - 1 + 1) := by omega
  rw [hsome, hleads.cut, exhaust_wire_append hleads.fits, exhaust_of_remainder h]

/-- Behind a whole frame three bytes are a part of a header. -/
example : exhaust 2 3 [0, 0, 0, 1, 7, 0, 0, 0] =
    ([.ok (some [7]), .error (.truncated 4 3)], []) := by
  cbv

end FramedIpc.Frame
