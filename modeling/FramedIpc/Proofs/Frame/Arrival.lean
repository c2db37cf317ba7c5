import FramedIpc.Proofs.Frame.Exchange
import FramedIpc.Proofs.Stream.Filling
import FramedIpc.Proofs.Stream.Transcript

/-!
# How a Frame Arrives

A frame is read with two whole reads, one of the header and one of the payload,
each into a place that is filled up piece by piece. What comes of it must be a
matter of what the stream has to give and of nothing else: not of the pieces in
which it comes, nor of the interruptions in between, nor of what the buffer for
the payload still holds of an earlier frame.

The buffer is dealt with first. `readVia` fills it in place, as a program does
that has one buffer for all its frames, and agrees with `read` whatever it holds
(`readVia_eq`). The rest is said of transcripts. The lines of reading a frame
are those of one whole read or of two (`FrameLines`), so that there is one case
for each way in which it can end. What it comes to on some bytes and a way to
stop is written down without a stream (`verdict`, `consumed`), in terms of
frames at the front of a buffer, and every transcript whose answers are those
of such a source agrees with it (`FrameLines.of_supplied`). There always is such
a source (`FrameLines.supplied`), so nothing is left out.

## Main definitions

* `readVia`: Read a frame through a buffer that is used again.
* `verdict`: What reading a frame comes to, by the bytes and the stop.
* `consumed`: The bytes that it takes.
* `FrameLines`: The lines of reading a frame.
* `ReadTranscript`: What they are like, by how the reading ended.

## Theorems

* `readVia_eq`: What the buffer held does not matter.
* `FrameLines.of_supplied`: Nor do the pieces and the interruptions.
* `FrameLines.whole`: No call is made once the frame is there.
* `readVia_of_supplied`: All of it, for every stream.
-/

namespace FramedIpc.Frame

open FramedIpc.Stream

variable {σ : Type}

section Buffer

/-- Read the payload of one frame through a buffer that holds `scratch`. The
    header has a place of its own. For the payload the buffer is emptied and
    made as long as the header says, and once it is full it is given away. The
    last part is the buffer afterwards. -/
def readVia (io : Stream σ) (limit : Nat) (scratch : Bytes) (s : σ) :
    Except Error Bytes × σ × Bytes :=
  match io.fill (List.replicate Header.size 0) 0 s with
  | (.error fault, s', _) => (.error (.io fault), s', scratch)
  | (.ok filled, s', start) =>
    match Header.split? (start.take filled) with
    | none =>
      if filled = 0 then (.error .connectionClosed, s', scratch)
      else (.error (.truncated Header.size filled), s', scratch)
    | some (header, _) =>
      if limit < header.length then
        (.error (.payloadTooLarge header.length limit), s', scratch)
      else
        match io.fill (List.replicate header.length 0) 0 s' with
        | (.error fault, s'', left) => (.error (.io fault), s'', left)
        | (.ok received, s'', left) =>
          if received < header.length then
            (.error (.truncated header.length received), s'', left)
          else (.ok left, s'', [])

/-- Filling a buffer that is as long as what is asked for is a whole read. -/
theorem fill_of_start {io : Stream σ} {n : Nat} {s s' : σ} {outcome : Except Fault Bytes}
    (h : io.readWhole n s = (outcome, s')) :
    ∃ left, io.fill (List.replicate n 0) 0 s = (outcome.map List.length, s', left) ∧
      ∀ bs, outcome = .ok bs → left.take bs.length = bs ∧ (bs.length = n → left = bs) := by
  have hlen : (List.replicate n (0 : UInt8)).length - 0 = n := by
    rw [List.length_replicate, Nat.sub_zero]
  rw [← hlen] at h
  rcases fill_of_readWhole (Nat.zero_le _) h with ⟨left, hfill, hleft⟩
  refine ⟨left, ?_, ?_⟩
  · rw [hfill]
    cases outcome with
    | error fault => rfl
    | ok bs => simp only [Except.map, Nat.zero_add]
  · intro bs hbs
    rw [hleft bs hbs]
    refine ⟨?_, ?_⟩
    · rw [overwrite, List.take_zero, List.nil_append, List.take_left]
    · intro hfull
      exact overwrite_all (by rw [List.length_replicate]; exact hfull)

/-- Whatever the buffer held, reading through it is reading. -/
theorem readVia_eq (io : Stream σ) (limit : Nat) (scratch : Bytes) (s : σ) :
    ∃ left, readVia io limit scratch s =
      ((read io limit s).1, (read io limit s).2, left) := by
  unfold readVia read
  rcases hstart : io.readWhole Header.size s with ⟨fault | start, s₁⟩
  · rcases fill_of_start hstart with ⟨_, hfill, _⟩
    exact ⟨scratch, by rw [hfill]; rfl⟩
  rcases fill_of_start hstart with ⟨_, hfill, hbytes⟩
  rw [hfill]
  simp only [Except.map, (hbytes start rfl).1]
  rcases Header.split? start with _ | ⟨header, rest⟩
  · refine ⟨scratch, ?_⟩
    by_cases he : start = []
    · simp only [he, List.length_nil, List.isEmpty_nil, if_true]
    · simp only [List.isEmpty_eq_false_iff.mpr he, mt List.eq_nil_of_length_eq_zero he, if_false,
        Bool.false_eq_true]
  by_cases hmax : limit < header.length
  · exact ⟨scratch, by simp only [hmax, if_true]⟩
  simp only [hmax, if_false, readPayload]
  rcases hbody : io.readWhole header.length s₁ with ⟨fault | payload, s₂⟩
  · rcases fill_of_start hbody with ⟨left, hfill', _⟩
    exact ⟨left, by rw [hfill']; rfl⟩
  rcases fill_of_start hbody with ⟨left, hfill', hbytes'⟩
  rw [hfill']
  simp only [Except.map]
  by_cases hlen : payload.length < header.length
  · exact ⟨left, by simp only [hlen, if_true]⟩
  · -- Of a buffer that is full nothing is older than the payload.
    have hle := length_le_of_readWhole hbody
    have hleft := (hbytes' payload rfl).2 (by omega)
    exact ⟨[], by simp only [hlen, if_false, hleft]⟩

end Buffer

section Source

/-- What reading a frame comes to on a source that has these bytes to give and
    then stops. -/
def verdict (limit : Nat) (bytes : Bytes) : Stop → Except Error Bytes
  | .ended => heard (takeLast limit bytes).1
  | .failed fault =>
    match take limit bytes with
    | .ok (some (payload, _)) => .ok payload
    | .ok none => .error (.io fault)
    | .error error => .error error

/-- The bytes of it that reading a frame takes. -/
def consumed (limit : Nat) (bytes : Bytes) : Bytes :=
  match take limit bytes with
  | .ok (some (payload, _)) => framed payload
  | .ok none => bytes
  | .error _ => bytes.take Header.size

variable {limit : Nat} {bytes : Bytes}

theorem verdict_of_frame {payload rest : Bytes}
    (h : take limit bytes = .ok (some (payload, rest))) (stop : Stop) :
    verdict limit bytes stop = .ok payload ∧ consumed limit bytes = framed payload := by
  refine ⟨?_, by rw [consumed, h]⟩
  cases stop with
  | ended => rw [verdict, takeLast_of_frame h, heard]
  | failed fault => rw [verdict, h]

theorem verdict_of_error {error : Error} (h : take limit bytes = .error error) (stop : Stop) :
    verdict limit bytes stop = .error error ∧
      consumed limit bytes = bytes.take Header.size := by
  refine ⟨?_, by rw [consumed, h]⟩
  cases stop with
  | ended => rw [verdict, takeLast_of_error h, heard]
  | failed fault => rw [verdict, h]

theorem consumed_of_none (h : take limit bytes = .ok none) : consumed limit bytes = bytes := by
  rw [consumed, h]

theorem verdict_ended_of_none (h : take limit bytes = .ok none) :
    verdict limit bytes .ended =
      .error (if bytes.isEmpty then .connectionClosed else truncation bytes) := by
  rw [verdict, takeLast_of_none h]
  by_cases he : bytes.isEmpty = true
  · simp only [he, if_true, heard]
  · simp only [he, Bool.false_eq_true, if_false, heard]

theorem verdict_failed_of_none (h : take limit bytes = .ok none) (fault : Fault) :
    verdict limit bytes (.failed fault) = .error (.io fault) := by
  rw [verdict, h]

end Source

section Lines

/-- What reading a frame comes to if no payload is read after its header, by how
    reading the header went. -/
inductive StartError (limit : Nat) : Except Fault Bytes → Error → Prop where
  | failed {fault : Fault} : StartError limit (.error fault) (.io fault)
  | nothing : StartError limit (.ok []) .connectionClosed
  | short {start : Bytes} :
      start ≠ [] → start.length < Header.size →
      StartError limit (.ok start) (.truncated Header.size start.length)
  | oversize {header : Header} :
      limit < header.length →
      StartError limit (.ok header.bytes) (.payloadTooLarge header.length limit)

/-- What it comes to by how reading a payload of some length went. -/
inductive PayloadOutcome (length : Nat) : Except Fault Bytes → Except Error Bytes → Prop where
  | failed {fault : Fault} : PayloadOutcome length (.error fault) (.error (.io fault))
  | short {part : Bytes} :
      part.length < length →
      PayloadOutcome length (.ok part) (.error (.truncated length part.length))
  | whole {payload : Bytes} :
      payload.length = length → PayloadOutcome length (.ok payload) (.ok payload)

/-- The lines of reading a frame, and its outcome: the lines of a whole read of
    the header, and those of one of the payload if it comes to that. -/
inductive FrameLines (limit : Nat) : List Line → Except Error Bytes → Prop where
  | start {lines : List Line} {start : Except Fault Bytes} {error : Error} :
      ReadLines Header.size lines start → StartError limit start error →
      FrameLines limit lines (.error error)
  | payload {header : Header} {first second : List Line} {body : Except Fault Bytes}
      {outcome : Except Error Bytes} :
      ReadLines Header.size first (.ok header.bytes) → header.length ≤ limit →
      ReadLines header.length second body → PayloadOutcome header.length body outcome →
      FrameLines limit (first ++ second) outcome

/-- Reading a frame leaves the lines of one. -/
theorem frameLines_of_read {io : Stream σ} {limit : Nat} {s s' : σ × List Line}
    {outcome : Except Error Bytes} (h : read io.transcribed limit s = (outcome, s')) :
    ∃ lines, s'.2 = s.2 ++ lines ∧ FrameLines limit lines outcome := by
  have hstopped : ∀ {start : Except Fault Bytes} {error : Error},
      io.transcribed.readWhole Header.size s = (start, s') → StartError limit start error →
      ∃ lines, s'.2 = s.2 ++ lines ∧ FrameLines limit lines (.error error) := by
    intro start error hstart herror
    rcases readLines_of_readWhole hstart with ⟨lines, hlines, hread⟩
    exact ⟨lines, hlines, .start hread herror⟩
  -- Where a payload is read, its lines come after those of the header.
  have hboth : ∀ {header : Header} {body : Except Fault Bytes} {outcome : Except Error Bytes}
      {s₁ : σ × List Line},
      io.transcribed.readWhole Header.size s = (.ok header.bytes, s₁) →
      header.length ≤ limit → io.transcribed.readWhole header.length s₁ = (body, s') →
      PayloadOutcome header.length body outcome →
      ∃ lines, s'.2 = s.2 ++ lines ∧ FrameLines limit lines outcome := by
    intro header body outcome s₁ hstart hfit hbody houtcome
    rcases readLines_of_readWhole hstart with ⟨first, hfirst, hread⟩
    rcases readLines_of_readWhole hbody with ⟨second, hsecond, hread'⟩
    exact ⟨first ++ second, by rw [hsecond, hfirst, List.append_assoc],
      .payload hread hfit hread' houtcome⟩
  cases reading_of_read h with
  | noHeader hstart => exact hstopped hstart .failed
  | nothing hstart => exact hstopped hstart .nothing
  | shortHeader hstart hne hlen => exact hstopped hstart (.short hne hlen)
  | oversize hstart hmax => exact hstopped hstart (.oversize hmax)
  | noPayload hstart hfit hbody => exact hboth hstart hfit hbody .failed
  | shortPayload hstart hfit hbody hlen => exact hboth hstart hfit hbody (.short hlen)
  | whole hstart hfit hbody hlen => exact hboth hstart hfit hbody (.whole hlen)

variable {limit : Nat} {lines : List Line} {outcome : Except Error Bytes}

theorem length_take_of_le {bytes : Bytes} {n : Nat} (h : n ≤ bytes.length) :
    (bytes.take n).length = n := by
  rw [List.length_take]
  omega

/-- What comes of a source that gives a whole header, if no payload is read. -/
theorem StartError.of_long {start : Except Fault Bytes} {error : Error}
    (h : StartError limit start error) {bytes : Bytes} (hlong : Header.size ≤ bytes.length)
    (hstart : start = .ok (bytes.take Header.size)) : take limit bytes = .error error := by
  have hlen := length_take_of_le hlong
  cases h with
  | failed => cases hstart
  | nothing =>
      rw [← Except.ok.inj hstart] at hlen
      cases hlen
  | short _ hshort =>
      rw [← Except.ok.inj hstart] at hlen
      omega
  | @oversize header hmax =>
      have htake := take_of_oversize hmax (bytes.drop Header.size)
      rw [Except.ok.inj hstart, List.take_append_drop] at htake
      exact htake

/-- What comes of a source that has no whole header. -/
theorem StartError.of_short {start : Except Fault Bytes} {error : Error}
    (h : StartError limit start error) {bytes : Bytes} {stop : Stop}
    (hshort : bytes.length < Header.size) (hstart : start = stop.answer bytes) :
    verdict limit bytes stop = .error error := by
  have htake : take limit bytes = .ok none := take_of_short hshort
  cases stop with
  | failed fault =>
      cases h with
      | failed =>
          rw [Except.error.inj hstart]
          exact verdict_failed_of_none htake fault
      | nothing => cases hstart
      | short _ _ => cases hstart
      | oversize _ => cases hstart
  | ended =>
      rw [verdict_ended_of_none htake, truncation, split?_eq_none_iff.mpr hshort]
      cases h with
      | failed => cases hstart
      | nothing =>
          rw [← Except.ok.inj hstart]
          rfl
      | short hne _ =>
          rw [← Except.ok.inj hstart, List.isEmpty_eq_false_iff.mpr hne,
            if_neg Bool.false_ne_true]
      | @oversize header _ =>
          rw [← Except.ok.inj hstart, Header.length_bytes] at hshort
          exact absurd hshort (Nat.lt_irrefl _)

/-- What comes of a source that has a whole header and the payload it speaks of. -/
theorem PayloadOutcome.of_long {header : Header} {body : Except Fault Bytes}
    (h : PayloadOutcome header.length body outcome) {rest : Bytes}
    (hfit : header.length ≤ limit) (hlong : header.length ≤ rest.length)
    (hbody : body = .ok (rest.take header.length)) :
    outcome = .ok (rest.take header.length) ∧
      take limit (header.bytes ++ rest) =
        .ok (some (rest.take header.length, rest.drop header.length)) := by
  have hlen := length_take_of_le hlong
  have hfits : Fits limit (rest.take header.length) := by
    rw [Fits, hlen]
    exact ⟨hfit, header.length_lt⟩
  have htake := take_framed_append hfits (rest.drop header.length)
  rw [framed_of_header hlen, List.append_assoc, List.take_append_drop] at htake
  refine ⟨?_, htake⟩
  cases h with
  | failed => cases hbody
  | short hshort =>
      rw [Except.ok.inj hbody, hlen] at hshort
      exact absurd hshort (Nat.lt_irrefl _)
  | whole _ => rw [Except.ok.inj hbody]

/-- What comes of a source that has a whole header and less of the payload. -/
theorem PayloadOutcome.of_short {header : Header} {body : Except Fault Bytes}
    (h : PayloadOutcome header.length body outcome) {rest : Bytes} {stop : Stop}
    (hfit : header.length ≤ limit) (hshort : rest.length < header.length)
    (hbody : body = stop.answer rest) :
    outcome = verdict limit (header.bytes ++ rest) stop ∧
      take limit (header.bytes ++ rest) = .ok none := by
  have htake := take_of_header hfit hshort
  refine ⟨?_, htake⟩
  cases stop with
  | failed fault =>
      rw [verdict_failed_of_none htake]
      cases h with
      | failed => rw [Except.error.inj hbody]
      | short _ => cases hbody
      | whole _ => cases hbody
  | ended =>
      have hsome : (header.bytes ++ rest).isEmpty = false := rfl
      rw [verdict_ended_of_none htake, hsome, if_neg Bool.false_ne_true, truncation,
        Header.split?_bytes_append]
      cases h with
      | failed => cases hbody
      | short _ => rw [Except.ok.inj hbody]
      | whole hlen =>
          rw [Except.ok.inj hbody] at hlen
          omega

/-- What reading a frame comes to, and how much it takes, depends on the bytes
    of the source and on how it stops, and on nothing else. -/
theorem FrameLines.of_supplied (h : FrameLines limit lines outcome) {stop : Stop} {bytes : Bytes}
    (hs : Supplied stop bytes lines) :
    outcome = verdict limit bytes stop ∧ taken lines = consumed limit bytes := by
  cases h with
  | start hread herror =>
      rw [← List.append_nil lines] at hs
      rcases hread.of_supplied hs with ⟨hlong, hstart, htaken, _⟩ | ⟨hshort, hstart, htaken⟩
      · rcases verdict_of_error (herror.of_long hlong hstart) stop with ⟨hverdict, hconsumed⟩
        exact ⟨hverdict.symm, htaken.trans hconsumed.symm⟩
      · have hnone : take limit bytes = .ok none := take_of_short hshort
        have hconsumed := consumed_of_none hnone
        exact ⟨(herror.of_short hshort hstart).symm, htaken.trans hconsumed.symm⟩
  | @payload header first second body outcome hstart hfit hbody houtcome =>
      rcases hstart.of_supplied hs with ⟨_, hheader, htaken, hmore⟩ | ⟨hshort, hanswer, _⟩
      · have hbytes := List.take_append_drop Header.size bytes
        rw [← Except.ok.inj hheader] at hbytes htaken
        rw [← List.append_nil second] at hmore
        rcases hbody.of_supplied hmore with ⟨hlong, hbody, htaken', _⟩ | ⟨hlong, hbody, htaken'⟩
        · rcases houtcome.of_long hfit hlong hbody with ⟨rfl, htake⟩
          rw [hbytes] at htake
          rcases verdict_of_frame htake stop with ⟨hverdict, hconsumed⟩
          refine ⟨hverdict.symm, ?_⟩
          rw [hconsumed, taken_append, htaken, htaken',
            framed_of_header (length_take_of_le hlong)]
        · rcases houtcome.of_short hfit hlong hbody with ⟨rfl, htake⟩
          rw [hbytes] at htake ⊢
          refine ⟨rfl, ?_⟩
          rw [consumed_of_none htake, taken_append, htaken, htaken', hbytes]
      · -- A header that came whole was not cut short.
        cases stop with
        | failed fault => cases hanswer
        | ended =>
            rw [← Except.ok.inj hanswer, Header.length_bytes] at hshort
            exact absurd hshort (Nat.lt_irrefl _)

/-- The lines of every frame that is read are those of a source of the bytes
    that were taken. -/
theorem FrameLines.supplied (h : FrameLines limit lines outcome) :
    ∃ stop, Supplied stop (taken lines) lines := by
  cases h with
  | start hread _ => exact hread.supplied
  | payload hstart _ hbody _ =>
      rcases hbody.supplied with ⟨stop, hs⟩
      have hall := hstart.supplied_append (Header.length_bytes _) hs
      rw [← hstart.of_ok.1, ← taken_append] at hall
      exact ⟨stop, hall⟩

/-- Every call is a read, and asks for no more than a header or a payload. -/
theorem FrameLines.asks (h : FrameLines limit lines outcome) {line : Line} (hmem : line ∈ lines) :
    ∃ asked answer, line = .read asked answer ∧ 0 < asked ∧ asked ≤ max Header.size limit := by
  -- What is missing of a read is no more than was asked for.
  have hask : ∀ {n : Nat} {part : List Line} {result : Except Fault Bytes},
      ReadLines n part result → n ≤ max Header.size limit → line ∈ part →
      ∃ asked answer, line = .read asked answer ∧ 0 < asked ∧ asked ≤ max Header.size limit := by
    intro n part result hread hle hmem
    rcases List.append_of_mem hmem with ⟨before, after, heq⟩
    rcases hread.asks heq with ⟨asked, answer, hline, hpos, hsum⟩
    exact ⟨asked, answer, hline, hpos, by omega⟩
  have hsize := Nat.le_max_left Header.size limit
  cases h with
  | start hread _ => exact hask hread hsize hmem
  | payload hstart hfit hbody _ =>
      rcases List.mem_append.mp hmem with hmem | hmem
      · exact hask hstart hsize hmem
      · exact hask hbody (Nat.le_trans hfit (Nat.le_max_right _ _)) hmem

/-- No call follows one that closes. -/
theorem FrameLines.endsAtClose (h : FrameLines limit lines outcome) : EndsAtClose lines := by
  cases h with
  | start hread _ => exact hread.endsAtClose
  | payload hstart _ hbody _ =>
      exact hbody.endsAtClose.append (hstart.open_of_full (Header.length_bytes _))

/-- Reading a frame fails with the fault with which a call failed for good. -/
theorem FrameLines.failure (h : FrameLines limit lines outcome) {fault : Fault} :
    (∃ line ∈ lines, line.failure? = some fault) ↔ outcome = .error (.io fault) := by
  cases h with
  | start hread herror =>
      rw [hread.failure]
      cases herror with
      | failed => simp only [Except.error.injEq, Error.io.injEq]
      | nothing => simp only [reduceCtorEq, Except.error.injEq]
      | short _ _ => simp only [reduceCtorEq, Except.error.injEq]
      | oversize _ => simp only [reduceCtorEq, Except.error.injEq]
  | @payload header first second body outcome hstart _ hbody houtcome =>
      have hfirst : ¬ ∃ line ∈ first, line.failure? = some fault := by
        rw [hstart.failure]
        simp only [reduceCtorEq, not_false_eq_true]
      rw [failure_append, or_iff_right hfirst, hbody.failure]
      cases houtcome with
      | failed => simp only [Except.error.injEq, Error.io.injEq]
      | short _ => simp only [reduceCtorEq, Except.error.injEq]
      | whole _ => simp only [reduceCtorEq]

/-- The frame of a payload that was read is what was taken, and no call was made
    once that frame was there. -/
theorem FrameLines.whole {payload : Bytes} (h : FrameLines limit lines (.ok payload)) :
    encode payload = .ok (taken lines) ∧
      (taken lines).length = Header.size + payload.length ∧ payload.length ≤ limit ∧
      ∀ before line after, lines = before ++ line :: after →
        (taken before).length < Header.size + payload.length := by
  cases h with
  | @payload header first second body _ hstart hfit hbody houtcome =>
      cases houtcome with
      | whole hlen =>
          have hall : taken (first ++ second) = header.bytes ++ payload := by
            rw [taken_append, hstart.of_ok.1, hbody.of_ok.1]
          refine ⟨?_, ?_, by omega, ?_⟩
          · rw [encode, hlen, Header.ofLength_length, hall]
          · rw [hall, List.length_append, Header.length_bytes]
          intro before line after heq
          -- A call is made for what is missing of the header, or of the payload.
          rcases cut_append heq with ⟨rest, hfirst⟩ | ⟨middle, rfl, hsecond⟩
          · rcases hstart.asks hfirst with ⟨asked, answer, _, hpos, hsum⟩
            omega
          · rcases hbody.asks hsecond with ⟨asked, answer, _, hpos, hsum⟩
            rw [taken_append, hstart.of_ok.1, List.length_append, Header.length_bytes]
            omega

/-- A frame is refused for a header that says too much, and the header is then
    all that was taken. -/
theorem FrameLines.oversize {size most : Nat}
    (h : FrameLines limit lines (.error (.payloadTooLarge size most))) :
    most = limit ∧ limit < size ∧
      ∃ header : Header, taken lines = header.bytes ∧ header.length = size := by
  cases h with
  | start hread herror =>
      cases herror with
      | oversize hmax => exact ⟨rfl, hmax, _, hread.of_ok.1, rfl⟩
  | payload _ _ _ houtcome => cases houtcome

/-- A frame that was cut off lacks something. -/
theorem FrameLines.truncated {expected received : Nat}
    (h : FrameLines limit lines (.error (.truncated expected received))) :
    received < expected := by
  cases h with
  | start _ herror =>
      cases herror with
      | short _ hshort => exact hshort
  | payload _ _ _ houtcome =>
      cases houtcome with
      | short hshort => exact hshort

/-- Where a call failed for good the frame was not there yet. -/
theorem FrameLines.unfinished {fault : Fault}
    (h : FrameLines limit lines (.error (.io fault))) : take limit (taken lines) = .ok none := by
  rcases h.supplied with ⟨stop, hs⟩
  have hverdict := (h.of_supplied hs).1
  rcases htake : take limit (taken lines) with error | _ | ⟨payload, rest⟩
  · rw [(verdict_of_error htake stop).1] at hverdict
    rcases oversize_of_take htake with ⟨header, _, _, _, rfl⟩
    cases hverdict
  · rfl
  · rw [(verdict_of_frame htake stop).1] at hverdict
    cases hverdict

end Lines

/-- What the transcript of reading a frame is like, by how it ended. -/
structure ReadTranscript (limit : Nat) (lines : List Line) (outcome : Except Error Bytes) :
    Prop where
  /-- Every call is a read, and none asks for more than a header or a payload. -/
  asks : ∀ line ∈ lines, ∃ asked answer, line = .read asked answer ∧ 0 < asked ∧
    asked ≤ max Header.size limit
  /-- No call is made after the end of the stream, or after a fault. -/
  ends : EndsAtClose lines
  /-- A payload keeps to the limit, and its frame is what was taken. Every call
      was made before the frame was there. -/
  whole : ∀ payload, outcome = .ok payload →
    encode payload = .ok (taken lines) ∧
      (taken lines).length = Header.size + payload.length ∧ payload.length ≤ limit ∧
      ∀ before line after, lines = before ++ line :: after →
        (taken before).length < Header.size + payload.length
  /-- Of a frame that is too large the header was taken. -/
  oversize : ∀ size most, outcome = .error (.payloadTooLarge size most) →
    most = limit ∧ limit < size ∧
      ∃ header : Header, taken lines = header.bytes ∧ header.length = size
  /-- A frame that was cut off lacks something. -/
  truncated : ∀ expected received, outcome = .error (.truncated expected received) →
    received < expected
  /-- A fault is told of exactly if it is the first with which a call failed for
      good, and that call was the last. -/
  failed : ∀ fault, outcome = .error (.io fault) ↔
    ∃ before last, lines = before ++ [last] ∧ last.failure? = some fault ∧
      ∀ line ∈ before, line.failure? = none
  /-- The frame was then not there yet. -/
  unfinished : ∀ fault, outcome = .error (.io fault) → take limit (taken lines) = .ok none

/-- Reading a frame is the same whatever its buffer held. Whatever the stream
    does, its answers are those of some source of bytes; and what reading comes
    to and takes is a matter of the bytes that the source has and of how it
    stops, not of the pieces in which they come. No call goes beyond the frame. -/
theorem readVia_of_supplied (io : Stream σ) (limit : Nat) (s : σ) :
    ∃ outcome s' lines,
      read io limit s = (outcome, s') ∧
      (∀ scratch, ∃ left,
        readVia io.transcribed limit scratch (s, []) = (outcome, (s', lines), left)) ∧
      (∃ stop, Supplied stop (taken lines) lines) ∧
      (∀ stop bytes, Supplied stop bytes lines →
        outcome = verdict limit bytes stop ∧ taken lines = consumed limit bytes) ∧
      ReadTranscript limit lines outcome := by
  rcases hread : read io.transcribed limit (s, []) with ⟨outcome, s', lines⟩
  have hshown := (transcribed_shows io).readFrame limit (s, [])
  rw [hread] at hshown
  rcases frameLines_of_read hread with ⟨_, hlines, h⟩
  rw [List.nil_append] at hlines
  cases hlines
  refine ⟨outcome, s', lines, hshown, fun scratch => ?_, h.supplied,
    fun stop bytes hs => h.of_supplied hs, ?_⟩
  · rcases readVia_eq io.transcribed limit scratch (s, []) with ⟨left, hvia⟩
    rw [hread] at hvia
    exact ⟨left, hvia⟩
  · exact {
      asks := fun _ hmem => h.asks hmem
      ends := h.endsAtClose
      whole := fun _ hok => by subst hok; exact h.whole
      oversize := fun _ _ hover => by subst hover; exact h.oversize
      truncated := fun _ _ hcut => by subst hcut; exact h.truncated
      failed := fun _ => h.failure.symm.trans (EndsAtClose.failure_iff h.endsAtClose)
      unfinished := fun _ hio => by subst hio; exact h.unfinished }

-- Of an empty frame only the header is taken, whatever comes behind it.
example : verdict 8 [0, 0, 0, 0, 5] .ended = .ok [] ∧
    consumed 8 [0, 0, 0, 0, 5] = [0, 0, 0, 0] := ⟨rfl, by decide⟩

end FramedIpc.Frame
