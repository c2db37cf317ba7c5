import FramedIpc.Frame.Buffer

/-!
# Frames One After Another

What goes over the wire is a row of frames without anything between them.
Such a row can be taken apart in one way only: the header of each frame says
where the next begins. Everything here follows from two facts about the front
of a buffer. A whole frame there is taken off exactly (`take_framed_append`),
and whatever is taken off was a whole frame (`eq_of_take`).

The second half is about time. A buffer grows at its end, and what has been
decided about its front stays decided: a frame that is there stays there, and
a header that is too large stays too large. Only "not yet" may change.

## Main definitions

* `framed`: The frame of a payload.
* `wire`: The frames of some payloads in a row.
* `admission`: Whether a payload has a frame, and why not.

## Theorems

* `encode_eq_ok_iff`: A payload that fits the header is encoded as its frame.
* `encodeWithin_eq_admission`: Within a limit, if it is admitted.
* `encodeWithin_eq_error_iff`: The two reasons to refuse a payload.
* `take_framed_append`: A whole frame at the front is taken off.
* `framed_append_inj`: There is no other at the front.
* `eq_of_take`: What is taken off was a whole frame.
* `take_induction`: Induction along the frames of a buffer.
* `prefix_of_wire_prefix`: Rows of frames are compared payload by payload.
* `take_append_of_frame`: A frame at the front stays while more arrives.
* `take_append_of_error`: So does an error.
-/

namespace FramedIpc.Frame

/-- The frame of a payload. It is meaningful for payloads whose length fits
    the header. -/
def framed (payload : Bytes) : Bytes :=
  (Header.spelling payload.length).bytes ++ payload

/-- The frames of some payloads in a row. -/
def wire (payloads : List Bytes) : Bytes :=
  payloads.flatMap framed

/-- Whether a payload is within a limit and its length fits the header. -/
def Fits (max : Nat) (payload : Bytes) : Prop :=
  payload.length ≤ max ∧ payload.length < lengthBound

instance (max : Nat) : DecidablePred (Fits max) :=
  fun _ => inferInstanceAs (Decidable (_ ∧ _))

/-- Whether a payload has a frame within a limit. One that is longer than the
    limit is refused for that, even where its length fits no header either. -/
def admission (max : Nat) (payload : Bytes) : Except Error Unit :=
  if max < payload.length then .error (.payloadTooLarge payload.length max)
  else if lengthBound ≤ payload.length then .error (.lengthOverflow payload.length)
  else .ok ()

theorem admission_eq_ok_iff {max : Nat} {payload : Bytes} :
    admission max payload = .ok () ↔ Fits max payload := by
  unfold admission Fits
  by_cases hmax : max < payload.length
  · simp only [hmax, if_true, reduceCtorEq, Nat.not_le.mpr hmax, false_and]
  by_cases hbound : lengthBound ≤ payload.length
  · simp only [hmax, hbound, if_true, if_false, reduceCtorEq, Nat.not_lt.mpr hbound, and_false]
  · simp only [hmax, hbound, if_false, Nat.le_of_not_lt hmax, Nat.lt_of_not_le hbound, and_self]

theorem admission_eq_error_iff {max : Nat} {payload : Bytes} {error : Error} :
    admission max payload = .error error ↔
      (max < payload.length ∧ error = .payloadTooLarge payload.length max) ∨
        (payload.length ≤ max ∧ lengthBound ≤ payload.length ∧
          error = .lengthOverflow payload.length) := by
  unfold admission
  by_cases hmax : max < payload.length
  · simp only [hmax, if_true, Except.error.injEq, true_and, Nat.not_le.mpr hmax, false_and,
      or_false]
    exact eq_comm
  have hfit := Nat.le_of_not_lt hmax
  by_cases hbound : lengthBound ≤ payload.length
  · simp only [hmax, hbound, if_true, if_false, Except.error.injEq, false_and, false_or, hfit,
      true_and]
    exact eq_comm
  · simp only [hmax, hbound, if_false, reduceCtorEq, false_and, and_false, or_false]

theorem not_fits_of_admission {max : Nat} {payload : Bytes} {error : Error}
    (h : admission max payload = .error error) : ¬ Fits max payload := by
  rw [← admission_eq_ok_iff, h]
  exact nofun

theorem length_framed (payload : Bytes) :
    (framed payload).length = Header.size + payload.length := by
  rw [framed, List.length_append, Header.length_bytes]

theorem framed_ne_nil (payload : Bytes) : framed payload ≠ [] := by
  intro h
  have hlen := length_framed payload
  rw [h, Header.size, List.length_nil] at hlen
  omega

theorem wire_nil : wire [] = [] := rfl

theorem wire_cons (payload : Bytes) (rest : List Bytes) :
    wire (payload :: rest) = framed payload ++ wire rest := rfl

theorem wire_append (front back : List Bytes) :
    wire (front ++ back) = wire front ++ wire back :=
  List.flatMap_append

theorem wire_concat (front : List Bytes) (payload : Bytes) :
    wire (front ++ [payload]) = wire front ++ framed payload := by
  rw [wire_append, wire_cons, wire_nil, List.append_nil]

theorem wire_filter_of_fits {max : Nat} {payload : Bytes} (h : Fits max payload) :
    wire ([payload].filter (Fits max ·)) = framed payload := by
  simp only [List.filter_cons, List.filter_nil, h, decide_true, if_true, wire_cons, wire_nil,
    List.append_nil]

theorem wire_filter_of_not_fits {max : Nat} {payload : Bytes} (h : ¬ Fits max payload) :
    wire ([payload].filter (Fits max ·)) = [] := by
  simp only [List.filter_cons, List.filter_nil, h, decide_false, Bool.false_eq_true, if_false,
    wire_nil]

theorem encode_eq_ok_iff {payload frame : Bytes} :
    encode payload = .ok frame ↔ payload.length < lengthBound ∧ frame = framed payload := by
  unfold encode Header.ofLength
  by_cases h : payload.length < lengthBound
  · simp only [h, if_true, Except.ok.injEq, true_and]
    exact eq_comm
  · simp only [h, if_false, reduceCtorEq, false_and]

theorem encodeWithin_eq_ok_iff {max : Nat} {payload frame : Bytes} :
    encodeWithin max payload = .ok frame ↔ Fits max payload ∧ frame = framed payload := by
  unfold encodeWithin Fits
  by_cases h : max < payload.length
  · simp only [h, if_true, reduceCtorEq, Nat.not_le.mpr h, false_and]
  · simp only [h, if_false, encode_eq_ok_iff, Nat.le_of_not_lt h, true_and]

/-- A payload is encoded within a limit exactly if it is admitted. -/
theorem encodeWithin_eq_admission (max : Nat) (payload : Bytes) :
    encodeWithin max payload = (admission max payload).map fun _ => framed payload := by
  by_cases hfits : Fits max payload
  · rw [admission_eq_ok_iff.mpr hfits]
    exact encodeWithin_eq_ok_iff.mpr ⟨hfits, rfl⟩
  · unfold encodeWithin encode Header.ofLength admission
    by_cases hmax : max < payload.length
    · simp only [hmax, if_true, Except.map]
    · have hbound : lengthBound ≤ payload.length :=
        Nat.le_of_not_lt fun h => hfits ⟨Nat.le_of_not_lt hmax, h⟩
      simp only [hmax, hbound, if_true, if_false, Nat.not_lt.mpr hbound, Except.map]

/-- A payload is refused because it is longer than the limit, or else because
    its length does not fit the header. -/
theorem encodeWithin_eq_error_iff {max : Nat} {payload : Bytes} {error : Error} :
    encodeWithin max payload = .error error ↔
      (max < payload.length ∧ error = .payloadTooLarge payload.length max) ∨
        (payload.length ≤ max ∧ lengthBound ≤ payload.length ∧
          error = .lengthOverflow payload.length) := by
  rw [encodeWithin_eq_admission, ← admission_eq_error_iff]
  cases admission max payload with
  | error _ => simp only [Except.map, Except.error.injEq]
  | ok _ => simp only [Except.map, reduceCtorEq]

theorem isRefusal_of_encodeWithin {max : Nat} {payload : Bytes} {error : Error}
    (h : encodeWithin max payload = .error error) : error.isRefusal = true := by
  rcases encodeWithin_eq_error_iff.mp h with ⟨_, rfl⟩ | ⟨_, _, rfl⟩
  · rfl
  · rfl

theorem split?_framed_append (payload rest : Bytes) :
    Header.split? (framed payload ++ rest) =
      some (Header.spelling payload.length, payload ++ rest) := by
  rw [framed, List.append_assoc, Header.split?_bytes_append]

theorem split?_eq_none_iff {buffer : Bytes} :
    Header.split? buffer = none ↔ buffer.length < Header.size := by
  constructor
  · intro h
    match buffer with
    | [] => exact (by decide : 0 < 4)
    | [_] => exact (by decide : 1 < 4)
    | [_, _] => exact (by decide : 2 < 4)
    | [_, _, _] => exact (by decide : 3 < 4)
    | _ :: _ :: _ :: _ :: _ => cases h
  · intro h
    rcases hs : Header.split? buffer with _ | ⟨header, rest⟩
    · rfl
    · rw [Header.eq_of_split? hs, List.length_append, Header.length_bytes] at h
      omega

/-- A whole frame at the front of a buffer is taken off, and nothing else. -/
theorem take_framed_append {max : Nat} {payload : Bytes} (hf : Fits max payload) (rest : Bytes) :
    take max (framed payload ++ rest) = .ok (some (payload, rest)) := by
  rcases hf with ⟨hmax, hbound⟩
  unfold take
  rw [split?_framed_append]
  simp only [Header.length_spelling hbound]
  rw [if_neg (Nat.not_lt.mpr hmax), if_neg (by rw [List.length_append]; omega),
    List.take_left, List.drop_left]

/-- A buffer that begins with a whole frame begins with no other. -/
theorem framed_append_inj {max : Nat} {payload other after after' : Bytes}
    (hfits : Fits max payload) (hfits' : Fits max other)
    (h : framed payload ++ after = framed other ++ after') : payload = other ∧ after = after' := by
  have htake := take_framed_append hfits after
  rw [h, take_framed_append hfits' after'] at htake
  simp only [Except.ok.injEq, Option.some.injEq, Prod.mk.injEq] at htake
  exact ⟨htake.1.symm, htake.2.symm⟩

/-- A header and as many bytes as it promises are a frame. -/
theorem framed_of_header {header : Header} {payload : Bytes}
    (h : payload.length = header.length) : framed payload = header.bytes ++ payload := by
  rw [framed, h, Header.spelling_length]

/-- What is taken off the front of a buffer was a whole frame within the
    limit. -/
theorem eq_of_take {max : Nat} {buffer payload rest : Bytes}
    (h : take max buffer = .ok (some (payload, rest))) :
    buffer = framed payload ++ rest ∧ Fits max payload := by
  unfold take at h
  split at h
  · cases h
  · rename_i header tail hs
    by_cases hmax : max < header.length
    · simp only [hmax, if_true, reduceCtorEq] at h
    by_cases hlen : tail.length < header.length
    · simp only [hmax, hlen, if_true, if_false, Except.ok.injEq, reduceCtorEq] at h
    simp only [hmax, hlen, if_false, Except.ok.injEq, Option.some.injEq, Prod.mk.injEq] at h
    rcases h with ⟨rfl, rfl⟩
    have hl : (tail.take header.length).length = header.length := by
      rw [List.length_take]
      omega
    refine ⟨?_, ?_⟩
    · rw [framed_of_header hl, List.append_assoc, List.take_append_drop]
      exact Header.eq_of_split? hs
    · exact ⟨by omega, by rw [hl]; exact header.length_lt⟩

theorem length_of_take {max : Nat} {buffer payload rest : Bytes}
    (h : take max buffer = .ok (some (payload, rest))) : rest.length < buffer.length := by
  rw [(eq_of_take h).1, List.length_append, length_framed, Header.size]
  omega

/-- What holds of a buffer that gives no frame, and of one that gives a frame
    if it holds of the rest, holds of every buffer. -/
theorem take_induction {motive : Bytes → Prop} (max : Nat)
    (error : ∀ buffer error, take max buffer = .error error → motive buffer)
    (none : ∀ buffer, take max buffer = .ok none → motive buffer)
    (frame : ∀ buffer payload rest, take max buffer = .ok (some (payload, rest)) →
      motive rest → motive buffer) (buffer : Bytes) : motive buffer := by
  induction hn : buffer.length using Nat.strongRecOn generalizing buffer with
  | ind n ih =>
      rcases ht : take max buffer with e | _ | ⟨payload, rest⟩
      · exact error buffer e ht
      · exact none buffer ht
      · have hlt : rest.length < n := by
          rw [← hn]
          exact length_of_take ht
        exact frame buffer payload rest ht (ih rest.length hlt rest rfl)

theorem take_of_short {max : Nat} {buffer : Bytes} (h : buffer.length < Header.size) :
    take max buffer = .ok none := by
  unfold take
  rw [split?_eq_none_iff.mpr h]

theorem take_of_header {max : Nat} {header : Header} {rest : Bytes} (hmax : header.length ≤ max)
    (hlen : rest.length < header.length) : take max (header.bytes ++ rest) = .ok none := by
  unfold take
  rw [Header.split?_bytes_append]
  simp only [Nat.not_lt.mpr hmax, hlen, if_true, if_false]

theorem take_ne_of_short {max : Nat} {buffer : Bytes} (h : buffer.length < Header.size)
    (found : Bytes × Bytes) : take max buffer ≠ .ok (some found) := by
  rw [take_of_short h]
  simp only [ne_eq, Except.ok.injEq, reduceCtorEq, not_false_eq_true]

theorem take_ne_of_header {max : Nat} {header : Header} {rest : Bytes}
    (hmax : header.length ≤ max) (hlen : rest.length < header.length) (found : Bytes × Bytes) :
    take max (header.bytes ++ rest) ≠ .ok (some found) := by
  rw [take_of_header hmax hlen]
  simp only [ne_eq, Except.ok.injEq, reduceCtorEq, not_false_eq_true]

theorem take_of_oversize {max : Nat} {header : Header} (hmax : max < header.length)
    (rest : Bytes) :
    take max (header.bytes ++ rest) = .error (.payloadTooLarge header.length max) := by
  unfold take
  rw [Header.split?_bytes_append]
  simp only [hmax, if_true]

/-- Rows of frames are compared payload by payload: one row begins another
    only if its payloads begin the other's. -/
theorem prefix_of_wire_prefix {front all : List Bytes} {more : Bytes}
    (hfront : ∀ payload ∈ front, payload.length < lengthBound)
    (hall : ∀ payload ∈ all, payload.length < lengthBound)
    (h : wire front ++ more = wire all) : front <+: all := by
  induction front generalizing all with
  | nil => exact List.nil_prefix
  | cons p ps ih =>
      have hp : Fits lengthBound p :=
        ⟨Nat.le_of_lt (hfront p List.mem_cons_self), hfront p List.mem_cons_self⟩
      cases all with
      | nil =>
          have hlen := congrArg List.length h
          rw [wire_cons, wire_nil] at hlen
          simp only [List.length_append, length_framed, Header.size, List.length_nil] at hlen
          omega
      | cons q qs =>
          have hq : Fits lengthBound q :=
            ⟨Nat.le_of_lt (hall q List.mem_cons_self), hall q List.mem_cons_self⟩
          -- Both rows give up their first frame, and it is the same one.
          rw [wire_cons, wire_cons, List.append_assoc] at h
          rcases framed_append_inj hp hq h with ⟨rfl, hrest⟩
          exact List.prefix_cons_inj p |>.mpr
            (ih (fun r hr => hfront r (List.mem_cons_of_mem _ hr))
              (fun r hr => hall r (List.mem_cons_of_mem _ hr)) hrest)

/-- The only error at the front of a buffer is a header that is too large. -/
theorem oversize_of_take {max : Nat} {buffer : Bytes} {error : Error}
    (h : take max buffer = .error error) :
    ∃ header rest, buffer = Header.bytes header ++ rest ∧ max < header.length ∧
      error = .payloadTooLarge header.length max := by
  unfold take at h
  rcases hs : Header.split? buffer with _ | ⟨header, rest⟩
  · rw [hs] at h
    cases h
  rw [hs] at h
  simp only [] at h
  by_cases hmax : max < header.length
  · simp only [hmax, if_true, Except.error.injEq] at h
    exact ⟨header, rest, Header.eq_of_split? hs, hmax, h.symm⟩
  · by_cases hlen : rest.length < header.length
    · simp only [hmax, hlen, if_true, if_false, reduceCtorEq] at h
    · simp only [hmax, hlen, if_false, reduceCtorEq] at h

/-- A frame at the front stays there while more bytes arrive. -/
theorem take_append_of_frame {max : Nat} {buffer payload rest : Bytes}
    (h : take max buffer = .ok (some (payload, rest))) (more : Bytes) :
    take max (buffer ++ more) = .ok (some (payload, rest ++ more)) := by
  rcases eq_of_take h with ⟨rfl, hf⟩
  rw [List.append_assoc, take_framed_append hf]

/-- A header that is too large stays too large while more bytes arrive. -/
theorem take_append_of_error {max : Nat} {buffer : Bytes} {error : Error}
    (h : take max buffer = .error error) (more : Bytes) :
    take max (buffer ++ more) = .error error := by
  rcases oversize_of_take h with ⟨header, rest, rfl, hmax, rfl⟩
  rw [List.append_assoc, take_of_oversize hmax]

end FramedIpc.Frame
