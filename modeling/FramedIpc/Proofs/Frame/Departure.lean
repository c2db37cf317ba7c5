import FramedIpc.Proofs.Frame.Exchange
import FramedIpc.Proofs.Frame.Independence
import FramedIpc.Proofs.Stream.Transcript

/-!
# How a Frame Leaves

A frame is handed to the stream as one run of bytes, in as many calls as the
stream likes, and is flushed once the stream has all of it. Whatever the stream
does, three things have to be true of the calls. The bytes that it has taken so
far are a front of the frame, so that nothing is sent twice and nothing left
out. Nothing is asked of it after it has given up. And what the caller is told
is what has happened.

All of it is read off the transcript. The lines of writing a frame are those of
a whole write, and of a whole flush behind it if the write came to its end
(`SentLines`). Every write offers exactly what is missing of the frame
(`SentLines.calls`), which is what keeps the bytes in order across short writes
and interruptions: the front that was taken and the bytes that are offered are
the frame together. A payload that is refused leaves no lines.

## Main definitions

* `SentLines`: The lines of writing a frame.
* `WriteTranscript`: What they are like, by how the writing ended.

## Theorems

* `SentLines.calls`: What each call offers, and when a flush comes.
* `SentLines.front`: What was taken is a front of the frame.
* `SentLines.success`: A frame was written if it was taken and flushed.
* `writeVia_transcript`: All of it, for every stream and every buffer.
-/

namespace FramedIpc.Frame

open FramedIpc.Stream

variable {σ : Type}

/-- The lines of writing the frame of a payload, and its outcome. -/
inductive SentLines (limit : Nat) (payload : Bytes) : List Line → Except Error Unit → Prop where
  | refused {error : Error} :
      encodeWithin limit payload = .error error → SentLines limit payload [] (.error error)
  | cutOff {lines : List Line} {fault : Fault} :
      Fits limit payload → WriteLines (framed payload) lines (.error fault) →
      SentLines limit payload lines (.error (.io fault))
  | stopped {lines : List Line} :
      Fits limit payload → WriteLines (framed payload) lines (.ok false) →
      SentLines limit payload lines (.error .connectionClosed)
  | flushed {first second : List Line} {result : Except Fault Unit} :
      Fits limit payload → WriteLines (framed payload) first (.ok true) →
      FlushLines second result →
      SentLines limit payload (first ++ second) (result.mapError .io)

/-- Writing a frame leaves the lines of one. -/
theorem sentLines_of_write {io : Stream σ} {limit : Nat} {payload : Bytes}
    {s s' : σ × List Line} {outcome : Except Error Unit}
    (h : write io.transcribed limit payload s = (outcome, s')) :
    ∃ lines, s'.2 = s.2 ++ lines ∧ SentLines limit payload lines outcome := by
  have hflushed : ∀ {result : Except Fault Unit} {s₁ : σ × List Line}, Fits limit payload →
      io.transcribed.writeWhole (framed payload) s = (.ok true, s₁) →
      io.transcribed.flushWhole s₁ = (result, s') →
      ∃ lines, s'.2 = s.2 ++ lines ∧ SentLines limit payload lines (result.mapError .io) := by
    intro result s₁ hfit hwhole hflush
    rcases writeLines_of_writeWhole hwhole with ⟨first, hfirst, hwrite⟩
    rcases flushLines_of_flushWhole hflush with ⟨second, hsecond, hlines⟩
    exact ⟨first ++ second, by rw [hsecond, hfirst, List.append_assoc],
      .flushed hfit hwrite hlines⟩
  cases writing_of_write h with
  | refused he => exact ⟨[], (List.append_nil _).symm, .refused he⟩
  | cutOff hfit hwhole =>
      rcases writeLines_of_writeWhole hwhole with ⟨lines, hlines, hwrite⟩
      exact ⟨lines, hlines, .cutOff hfit hwrite⟩
  | stopped hfit hwhole =>
      rcases writeLines_of_writeWhole hwhole with ⟨lines, hlines, hwrite⟩
      exact ⟨lines, hlines, .stopped hfit hwrite⟩
  | unflushed hfit hwhole hflush => exact hflushed hfit hwhole hflush
  | whole hfit hwhole hflush => exact hflushed hfit hwhole hflush

section Sent

variable {limit : Nat} {payload : Bytes} {lines : List Line} {outcome : Except Error Unit}

/-- Each call offers what is missing of the frame, or is a flush when nothing
    is. -/
theorem SentLines.calls (h : SentLines limit payload lines outcome) {before after : List Line}
    {line : Line} (heq : lines = before ++ line :: after) :
    (∃ offered answer, line = .write offered answer ∧ offered ≠ [] ∧
        accepted before ++ offered = framed payload) ∨
      (∃ answer, line = .flush answer ∧ accepted before = framed payload) := by
  cases h with
  | refused _ => cases List.append_eq_nil_iff.mp heq.symm |>.2
  | cutOff _ hwrite => exact Or.inl (hwrite.offers heq)
  | stopped _ hwrite => exact Or.inl (hwrite.offers heq)
  | @flushed first second result _ hwrite hflush =>
      rcases cut_append heq with ⟨rest, hfirst⟩ | ⟨middle, rfl, hsecond⟩
      · exact Or.inl (hwrite.offers hfirst)
      · have hmem : line ∈ second := by
          rw [hsecond]
          exact List.mem_append_right _ List.mem_cons_self
        rcases hflush.flushes hmem with ⟨answer, hline⟩
        -- What the flush has asked of the stream so far has taken nothing.
        have hnone : accepted middle = [] := by
          refine hflush.accepts_nothing ?_
          rw [hsecond]
          exact List.subset_append_left _ _
        refine Or.inr ⟨answer, hline, ?_⟩
        rw [accepted_append, hwrite.open_of_whole.1, hnone, List.append_nil]

/-- What was taken at any time is a front of the frame. -/
theorem SentLines.front (h : SentLines limit payload lines outcome) {before after : List Line}
    (heq : lines = before ++ after) : accepted before <+: framed payload := by
  rcases List.eq_nil_or_concat before with rfl | ⟨init, last, rfl⟩
  · exact List.nil_prefix
  rw [List.concat_eq_append, List.append_assoc, List.singleton_append] at heq
  rw [List.concat_eq_append, accepted_append]
  rcases h.calls heq with ⟨offered, answer, rfl, _, hframe⟩ | ⟨answer, rfl, hframe⟩
  · -- Of what is missing the last call took a front.
    have htaken : accepted [Line.write offered answer] <+: offered := by
      rw [accepted, List.flatMap_singleton]
      cases answer with
      | ok n => exact List.take_prefix n offered
      | error fault => exact List.nil_prefix
    rw [← hframe]
    exact (List.prefix_append_right_inj _).mpr htaken
  · -- A flush takes nothing.
    have hall : accepted init ++ accepted [Line.flush answer] = framed payload := by
      rw [hframe]
      exact List.append_nil _
    exact hall ▸ List.prefix_refl _

/-- A payload is refused exactly if it has no frame within the limit. -/
theorem SentLines.refusal (h : SentLines limit payload lines outcome) {error : Error}
    (hr : error.isRefusal = true) :
    outcome = .error error ↔ encodeWithin limit payload = .error error := by
  -- A payload that fits is not refused, and no stream refuses one.
  have hfits : Fits limit payload → (outcome = .error error → error.isRefusal = false) →
      (outcome = .error error ↔ encodeWithin limit payload = .error error) := by
    intro hfit hstream
    rw [encodeWithin_eq_ok_iff.mpr ⟨hfit, rfl⟩]
    refine iff_of_false ?_ (by simp only [reduceCtorEq, not_false_eq_true])
    intro houtcome
    rw [hstream houtcome] at hr
    cases hr
  cases h with
  | refused he => rw [he, Except.error.injEq, Except.error.injEq]
  | cutOff hfit _ =>
      refine hfits hfit ?_
      rintro ⟨⟩
      rfl
  | stopped hfit _ =>
      refine hfits hfit ?_
      rintro ⟨⟩
      rfl
  | @flushed _ _ result hfit _ _ =>
      refine hfits hfit ?_
      cases result with
      | ok _ =>
          intro houtcome
          cases houtcome
      | error fault =>
          rintro ⟨⟩
          rfl

/-- Only what comes in is cut off. -/
theorem SentLines.ne_truncated (h : SentLines limit payload lines outcome)
    (expected received : Nat) : outcome ≠ .error (.truncated expected received) := by
  intro houtcome
  cases h with
  | refused he =>
      cases houtcome
      cases isRefusal_of_encodeWithin he
  | cutOff _ _ => cases houtcome
  | stopped _ _ => cases houtcome
  | @flushed _ _ result _ _ _ =>
      cases result with
      | ok _ => cases houtcome
      | error fault => cases houtcome

/-- For a payload that does not fit nothing is asked of the stream. -/
theorem SentLines.fits (h : SentLines limit payload lines outcome) (hne : lines ≠ []) :
    Fits limit payload := by
  cases h with
  | refused _ => exact absurd rfl hne
  | cutOff hfit _ => exact hfit
  | stopped hfit _ => exact hfit
  | flushed hfit _ _ => exact hfit

/-- No call follows one that closes. -/
theorem SentLines.endsAtClose (h : SentLines limit payload lines outcome) :
    EndsAtClose lines := by
  cases h with
  | refused _ => exact endsAtClose_nil
  | cutOff _ hwrite => exact hwrite.endsAtClose
  | stopped _ hwrite => exact hwrite.endsAtClose
  | flushed _ hwrite hflush => exact hflush.endsAtClose.append hwrite.open_of_whole.2

/-- A frame was written if all of it was taken and the last call is a flush that
    succeeded. -/
theorem SentLines.success (h : SentLines limit payload lines outcome) :
    outcome = .ok () ↔
      accepted lines = framed payload ∧ ∃ before, lines = before ++ [.flush (.ok ())] := by
  have hflushes : ∀ {bs : Bytes} {part : List Line} {result : Except Fault Bool},
      WriteLines bs part result → ¬ Line.flush (.ok ()) ∈ part := by
    intro bs part result hwrite hmem
    rcases hwrite.writes hmem with ⟨_, _, hline⟩
    cases hline
  cases h with
  | refused _ =>
      refine iff_of_false (by simp only [reduceCtorEq, not_false_eq_true]) ?_
      rintro ⟨_, before, heq⟩
      cases List.append_eq_nil_iff.mp heq.symm |>.2
  | cutOff _ hwrite =>
      refine iff_of_false (by simp only [reduceCtorEq, not_false_eq_true]) ?_
      rintro ⟨_, before, rfl⟩
      exact hflushes hwrite (List.mem_append_right _ (List.mem_singleton_self _))
  | stopped _ hwrite =>
      refine iff_of_false (by simp only [reduceCtorEq, not_false_eq_true]) ?_
      rintro ⟨_, before, rfl⟩
      exact hflushes hwrite (List.mem_append_right _ (List.mem_singleton_self _))
  | @flushed first second result _ hwrite hflush =>
      constructor
      · intro houtcome
        have hok : result = .ok () := by
          cases result with
          | ok _ => rfl
          | error fault => cases houtcome
        refine ⟨?_, ?_⟩
        · rw [accepted_append, hwrite.open_of_whole.1,
            hflush.accepts_nothing (List.Subset.refl _), List.append_nil]
        · rcases List.append_of_mem (hflush.success.mpr hok) with ⟨before, after, rfl⟩
          have hlast : after = [] := hflush.endsAtClose before _ after rfl rfl
          rw [hlast]
          exact ⟨first ++ before, (List.append_assoc _ _ _).symm⟩
      · rintro ⟨_, before, heq⟩
        have hmem : Line.flush (.ok ()) ∈ first ++ second := by
          rw [heq]
          exact List.mem_append_right _ (List.mem_singleton_self _)
        rcases List.mem_append.mp hmem with hmem | hmem
        · exact absurd hmem (hflushes hwrite)
        · rw [hflush.success.mp hmem]
          rfl

/-- The stream counts as closed if it took no byte of what it was offered. -/
theorem SentLines.closed (h : SentLines limit payload lines outcome) :
    outcome = .error .connectionClosed ↔ ∃ offered, .write offered (.ok 0) ∈ lines := by
  cases h with
  | refused he =>
      refine iff_of_false ?_ (by simp only [List.not_mem_nil, exists_false, not_false_eq_true])
      rintro ⟨⟩
      cases isRefusal_of_encodeWithin he
  | cutOff _ hwrite =>
      rw [hwrite.stop]
      simp only [Except.error.injEq, reduceCtorEq]
  | stopped _ hwrite => exact iff_of_true rfl (hwrite.stop.mpr rfl)
  | @flushed first second result _ hwrite hflush =>
      refine iff_of_false ?_ ?_
      · cases result with
        | ok _ => rintro ⟨⟩
        | error _ => rintro ⟨⟩
      · rintro ⟨offered, hmem⟩
        rcases List.mem_append.mp hmem with hmem | hmem
        · cases hwrite.stop.mp ⟨offered, hmem⟩
        · rcases hflush.flushes hmem with ⟨answer, hline⟩
          cases hline

/-- Writing a frame fails with the fault with which a call failed for good. -/
theorem SentLines.failure (h : SentLines limit payload lines outcome) {fault : Fault} :
    (∃ line ∈ lines, line.failure? = some fault) ↔ outcome = .error (.io fault) := by
  cases h with
  | refused he =>
      refine iff_of_false (by simp only [List.not_mem_nil, false_and, exists_false,
        not_false_eq_true]) ?_
      rintro ⟨⟩
      cases isRefusal_of_encodeWithin he
  | cutOff _ hwrite =>
      rw [hwrite.failure]
      simp only [Except.error.injEq, Error.io.injEq]
  | stopped _ hwrite =>
      rw [hwrite.failure]
      simp only [Except.error.injEq, reduceCtorEq]
  | @flushed first second result _ hwrite hflush =>
      have hfirst : ¬ ∃ line ∈ first, line.failure? = some fault := by
        rw [hwrite.failure]
        simp only [reduceCtorEq, not_false_eq_true]
      rw [failure_append, or_iff_right hfirst, hflush.failure]
      cases result with
      | ok _ => exact iff_of_false nofun nofun
      | error fault' => exact ⟨fun h => by cases h; rfl, fun h => by cases h; rfl⟩

end Sent

/-- What the transcript of writing a frame is like, by how it ended. -/
structure WriteTranscript (limit : Nat) (payload : Bytes) (lines : List Line)
    (outcome : Except Error Unit) : Prop where
  /-- A payload that is too long is refused. -/
  tooLarge : ∀ size most, outcome = .error (.payloadTooLarge size most) ↔
    limit < payload.length ∧ size = payload.length ∧ most = limit
  /-- So is any other whose length does not fit the header. -/
  overflow : ∀ size, outcome = .error (.lengthOverflow size) ↔
    payload.length ≤ limit ∧ lengthBound ≤ payload.length ∧ size = payload.length
  /-- Nothing is asked of the stream for either, and what it is asked to take
      otherwise is the frame of the payload. -/
  frame : lines ≠ [] → Fits limit payload ∧ encode payload = .ok (framed payload)
  /-- Each call offers what is missing of the frame, or is a flush when nothing
      is. -/
  calls : ∀ before line after, lines = before ++ line :: after →
    (∃ offered answer, line = .write offered answer ∧ offered ≠ [] ∧
        accepted before ++ offered = framed payload) ∨
      (∃ answer, line = .flush answer ∧ accepted before = framed payload)
  /-- What was taken is a front of the frame at any time. -/
  front : ∀ before after, lines = before ++ after → accepted before <+: framed payload
  /-- No call is made after one that took nothing, failed for good or flushed. -/
  ends : EndsAtClose lines
  /-- The frame was written exactly if all of it was taken, and then a flush
      succeeded. -/
  success : outcome = .ok () ↔
    accepted lines = framed payload ∧ ∃ before, lines = before ++ [.flush (.ok ())]
  /-- The stream counts as closed exactly if it took no byte of what was missing. -/
  closed : outcome = .error .connectionClosed ↔ ∃ offered, .write offered (.ok 0) ∈ lines
  /-- A fault is told of exactly if it is the first with which a call failed for
      good, and that call was the last. -/
  failed : ∀ fault, outcome = .error (.io fault) ↔
    ∃ before last, lines = before ++ [last] ∧ last.failure? = some fault ∧
      ∀ line ∈ before, line.failure? = none
  /-- There is no other way for it to end. -/
  uncut : ∀ expected received, outcome ≠ .error (.truncated expected received)

/-- Writing a frame is the same whatever its buffer held. Whatever the stream
    does, it has taken a front of the frame at any time, it is asked for what is
    missing and nothing else, and the outcome says what has happened. -/
theorem writeVia_transcript (io : Stream σ) (limit : Nat) (payload : Bytes) (s : σ) :
    ∃ outcome s' lines,
      write io limit payload s = (outcome, s') ∧
      (∀ scratch, ∃ left,
        writeVia io.transcribed limit payload scratch (s, []) = (outcome, (s', lines), left)) ∧
      WriteTranscript limit payload lines outcome := by
  rcases hwrite : write io.transcribed limit payload (s, []) with ⟨outcome, s', lines⟩
  have hshown := (transcribed_shows io).writeFrame limit payload (s, [])
  rw [hwrite] at hshown
  rcases sentLines_of_write hwrite with ⟨_, hlines, h⟩
  rw [List.nil_append] at hlines
  cases hlines
  refine ⟨outcome, s', lines, hshown, ?_, ?_⟩
  · intro scratch
    rcases writeVia_eq io.transcribed limit payload scratch (s, []) with ⟨left, hvia⟩
    rw [hwrite] at hvia
    exact ⟨left, hvia⟩
  · exact {
      tooLarge := fun size most => by
        rw [h.refusal rfl, encodeWithin_eq_error_iff]
        simp only [Error.payloadTooLarge.injEq, reduceCtorEq, and_false, or_false]
      overflow := fun size => by
        rw [h.refusal rfl, encodeWithin_eq_error_iff]
        simp only [Error.lengthOverflow.injEq, reduceCtorEq, and_false, false_or]
      frame := fun hne =>
        have hfit := h.fits hne
        ⟨hfit, encode_eq_ok_iff.mpr ⟨hfit.2, rfl⟩⟩
      calls := fun _ _ _ heq => h.calls heq
      front := fun _ _ heq => h.front heq
      ends := h.endsAtClose
      success := h.success
      closed := h.closed
      failed := fun _ => h.failure.symm.trans (EndsAtClose.failure_iff h.endsAtClose)
      uncut := h.ne_truncated }

end FramedIpc.Frame
