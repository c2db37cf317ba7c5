import FramedIpc.Proofs.Stream.View

/-!
# Transcripts of Streams

A transcript has a line for every call on a stream: what was asked of it and
how it ended. Unlike a ledger, which adds the bytes up, it shows which call
came after which, so that it can be said of a call that it was made too early,
or that none was made any more. A stream with a transcript beside it is the
same stream (`transcribed_shows`).

The lines of a whole read, a whole write or a whole flush are a small grammar,
one rule for each way that a call can go (`ReadLines`, `WriteLines`,
`FlushLines`). Everything about these loops is then an induction on their
lines, with no stream in it. All of them end at the first line that closes:
one that shows the end of the stream, a stream that takes no more, a fault
other than an interruption, or a flush that succeeded.

What a reader makes of a stream must not depend on how the stream cuts its
bytes. `Supplied` says of lines that they are answers of a source which has
certain bytes to give and then stops in a certain way, and leaves open where it
cuts them and how often it interrupts. The outcome of a whole read and the
bytes that it takes depend on the source alone (`ReadLines.of_supplied`).

## Main definitions

* `Line`: A call on a stream, with how it ended.
* `Line.closes`: Whether a loop makes no call after it.
* `Stream.transcribed`: A stream that writes down every call.
* `taken`, `accepted`: The bytes that reads gave and that writes took.
* `EndsAtClose`: Whether no call follows one that closes.
* `ReadLines`, `WriteLines`, `FlushLines`: The lines of the three loops.
* `Stop`: What a source does when its bytes are used up.
* `Supplied`: Lines as a source of some bytes answers them.

## Theorems

* `readLines_of_readWhole`, `writeLines_of_writeWhole`,
  `flushLines_of_flushWhole`: The loops leave such lines.
* `EndsAtClose.failure_iff`: The only fault that is not an interruption is that
  of the last call.
* `ReadLines.asks`: A read asks for what is missing.
* `WriteLines.offers`: A write offers what was not taken yet.
* `ReadLines.failure`, `WriteLines.failure`, `FlushLines.failure`: A loop fails
  with that fault.
* `ReadLines.of_supplied`: How the bytes are cut does not matter.
* `ReadLines.supplied`: The lines of every whole read are those of some source.
-/

namespace FramedIpc.Stream

variable {σ : Type}

/-- A call on a stream, with how it ended. -/
inductive Line where
  | read (asked : Nat) (answer : Except Fault Bytes)
  | write (offered : Bytes) (answer : Except Fault Nat)
  | flush (answer : Except Fault Unit)
  | shutdown (answer : Except Fault Unit)

namespace Line

/-- The fault with which the call failed for good. An interrupted call is made
    again. -/
def failure? : Line → Option Fault
  | .read _ (.error fault) | .write _ (.error fault) | .flush (.error fault)
  | .shutdown (.error fault) => if fault.isInterrupted then none else some fault
  | _ => none

/-- Whether a loop makes no call after this one. -/
def closes : Line → Bool
  | .read _ (.ok bs) => bs.isEmpty
  | .write _ (.ok n) => n == 0
  | .flush (.ok _) | .shutdown (.ok _) => true
  | .read _ (.error fault) | .write _ (.error fault) | .flush (.error fault)
  | .shutdown (.error fault) => !fault.isInterrupted

@[simp]
theorem failure?_read_ok (asked : Nat) (bs : Bytes) : failure? (.read asked (.ok bs)) = none := rfl

@[simp]
theorem failure?_read_error (asked : Nat) (fault : Fault) :
    failure? (.read asked (.error fault)) =
      if fault.isInterrupted then none else some fault := rfl

@[simp]
theorem failure?_write_ok (offered : Bytes) (n : Nat) :
    failure? (.write offered (.ok n)) = none := rfl

@[simp]
theorem failure?_write_error (offered : Bytes) (fault : Fault) :
    failure? (.write offered (.error fault)) =
      if fault.isInterrupted then none else some fault := rfl

@[simp]
theorem failure?_flush_ok : failure? (.flush (.ok ())) = none := rfl

@[simp]
theorem failure?_flush_error (fault : Fault) :
    failure? (.flush (.error fault)) = if fault.isInterrupted then none else some fault := rfl

/-- The bytes that the call gave. -/
def taken : Line → Bytes
  | .read _ (.ok bs) => bs
  | _ => []

/-- The bytes that the call took. -/
def accepted : Line → Bytes
  | .write bs (.ok n) => bs.take n
  | _ => []

end Line

/-- The bytes that reads gave, in order. -/
def taken (lines : List Line) : Bytes := lines.flatMap Line.taken

/-- The bytes that writes took, in order. -/
def accepted (lines : List Line) : Bytes := lines.flatMap Line.accepted

/-- A stream that writes down every call. -/
def transcribed (io : Stream σ) : Stream (σ × List Line) where
  read n s := ((io.read n s.1).1, ((io.read n s.1).2, s.2 ++ [.read n (io.read n s.1).1]))
  write bs s :=
    ((io.write bs s.1).1, ((io.write bs s.1).2, s.2 ++ [.write bs (io.write bs s.1).1]))
  flush s := ((io.flush s.1).1, ((io.flush s.1).2, s.2 ++ [.flush (io.flush s.1).1]))
  shutdown s :=
    ((io.shutdown s.1).1, ((io.shutdown s.1).2, s.2 ++ [.shutdown (io.shutdown s.1).1]))
  patience s := io.patience s.1
  read_le n s := io.read_le n s.1
  write_le bs s := io.write_le bs s.1
  read_interrupts n s := io.read_interrupts n s.1
  write_interrupts bs s := io.write_interrupts bs s.1
  flush_interrupts s := io.flush_interrupts s.1

/-- What is written down is not seen. -/
theorem transcribed_shows (io : Stream σ) : Shows io io.transcribed Prod.fst where
  read _ _ := rfl
  write _ _ := rfl
  flush _ := rfl
  shutdown _ := rfl

section Lines

variable {lines : List Line} {line : Line}

theorem taken_cons (line : Line) (lines : List Line) :
    taken (line :: lines) = line.taken ++ taken lines := rfl

theorem taken_append (front back : List Line) : taken (front ++ back) = taken front ++ taken back :=
  List.flatMap_append

theorem accepted_cons (line : Line) (lines : List Line) :
    accepted (line :: lines) = line.accepted ++ accepted lines := rfl

theorem accepted_append (front back : List Line) :
    accepted (front ++ back) = accepted front ++ accepted back :=
  List.flatMap_append

/-- A call of two transcripts in a row failed for good if one of the first or of
    the second did. -/
theorem failure_append {first second : List Line} {fault : Fault} :
    (∃ line ∈ first ++ second, line.failure? = some fault) ↔
      (∃ line ∈ first, line.failure? = some fault) ∨
        ∃ line ∈ second, line.failure? = some fault := by
  simp only [List.mem_append, or_and_right, exists_or]

/-- The only line of a transcript has nothing before it and nothing after it. -/
theorem cut_singleton {line' : Line} {before after : List Line}
    (h : [line] = before ++ line' :: after) : before = [] ∧ line' = line ∧ after = [] := by
  rcases List.singleton_eq_append_iff.mp h with ⟨hbefore, hrest⟩ | ⟨_, hrest⟩
  · exact ⟨hbefore, (List.cons.inj hrest).1, (List.cons.inj hrest).2⟩
  · cases hrest

/-- A line of a transcript is its first or one of the rest. -/
theorem cut_cons {line' : Line} {before after : List Line}
    (h : line :: lines = before ++ line' :: after) :
    (before = [] ∧ line' = line) ∨
      ∃ rest, before = line :: rest ∧ lines = rest ++ line' :: after := by
  rcases List.cons_eq_append_iff.mp h with ⟨hbefore, hrest⟩ | hrest
  · exact Or.inl ⟨hbefore, (List.cons.inj hrest).1⟩
  · exact Or.inr hrest

/-- A line of two transcripts in a row is one of the first or one of the second. -/
theorem cut_append {first second before after : List Line}
    (h : first ++ second = before ++ line :: after) :
    (∃ rest, first = before ++ line :: rest) ∨
      ∃ middle, before = first ++ middle ∧ second = middle ++ line :: after := by
  rcases List.append_eq_append_iff.mp h with ⟨middle, hbefore, hsecond⟩ | ⟨middle, hfirst, hrest⟩
  · exact Or.inr ⟨middle, hbefore, hsecond⟩
  cases middle with
  | nil =>
      rw [List.append_nil] at hfirst
      exact Or.inr ⟨[], by rw [hfirst, List.append_nil], hrest.symm⟩
  | cons line' middle =>
      rw [List.cons_append, List.cons.injEq] at hrest
      rw [← hrest.1] at hfirst
      exact Or.inl ⟨middle, hfirst⟩

/-- Whether no call follows one that closes. -/
def EndsAtClose (lines : List Line) : Prop :=
  ∀ before line after, lines = before ++ line :: after → line.closes = true → after = []

theorem endsAtClose_nil : EndsAtClose [] := by
  intro before line after h _
  cases List.append_eq_nil_iff.mp h.symm |>.2

theorem endsAtClose_singleton (line : Line) : EndsAtClose [line] := by
  intro before line' after h _
  exact (cut_singleton h).2.2

theorem EndsAtClose.cons (h : EndsAtClose lines) (hline : line.closes = false) :
    EndsAtClose (line :: lines) := by
  intro before line' after heq hcloses
  rcases cut_cons heq with ⟨_, rfl⟩ | ⟨rest, _, hrest⟩
  · rw [hcloses] at hline
    cases hline
  · exact h rest line' after hrest hcloses

theorem EndsAtClose.append (h : EndsAtClose lines) {front : List Line}
    (hfront : ∀ line ∈ front, line.closes = false) : EndsAtClose (front ++ lines) := by
  induction front with
  | nil => exact h
  | cons first front ih =>
      have hrest := ih fun line hmem => hfront line (List.mem_cons_of_mem _ hmem)
      exact hrest.cons (hfront first List.mem_cons_self)

theorem closes_of_failure {fault : Fault} (h : line.failure? = some fault) :
    line.closes = true := by
  have hfor : ∀ {fault' : Fault},
      (if fault'.isInterrupted then none else some fault') = some fault →
        (!fault'.isInterrupted) = true := by
    intro fault' hsome
    by_cases hi : fault'.isInterrupted = true
    · rw [if_pos hi] at hsome
      cases hsome
    · rw [Bool.eq_false_iff.mpr hi, Bool.not_false]
  unfold Line.failure? at h
  split at h
  · exact hfor h
  · exact hfor h
  · exact hfor h
  · exact hfor h
  · cases h

/-- Where no call follows one that closes, the fault with which a call failed
    for good is that of the last call, and the first one. -/
theorem EndsAtClose.failure_iff (h : EndsAtClose lines) {fault : Fault} :
    (∃ line ∈ lines, line.failure? = some fault) ↔
      ∃ before last, lines = before ++ [last] ∧ last.failure? = some fault ∧
        ∀ line ∈ before, line.failure? = none := by
  constructor
  · rintro ⟨line, hmem, hfailure⟩
    rcases List.append_of_mem hmem with ⟨before, after, heq⟩
    have hafter := h before line after heq (closes_of_failure hfailure)
    rw [hafter] at heq
    refine ⟨before, line, heq, hfailure, ?_⟩
    intro earlier hearlier
    rcases hnone : earlier.failure? with _ | fault'
    · rfl
    · rcases List.append_of_mem hearlier with ⟨front, back, rfl⟩
      have hback := h front earlier (back ++ [line]) (by rw [heq, List.append_assoc]; rfl)
        (closes_of_failure hnone)
      cases List.append_eq_nil_iff.mp hback |>.2
  · rintro ⟨before, last, rfl, hfailure, _⟩
    exact ⟨last, List.mem_append_right _ (List.mem_singleton_self _), hfailure⟩

end Lines

/-! ## The lines of a loop -/

/-- The lines of a whole read of so many bytes, and its outcome. -/
inductive ReadLines : Nat → List Line → Except Fault Bytes → Prop where
  | nothing : ReadLines 0 [] (.ok [])
  | ended {n : Nat} : 0 < n → ReadLines n [.read n (.ok [])] (.ok [])
  | part {n : Nat} {bs : Bytes} {lines : List Line} {outcome : Except Fault Bytes} :
      bs ≠ [] → bs.length ≤ n → ReadLines (n - bs.length) lines outcome →
      ReadLines n (.read n (.ok bs) :: lines) (outcome.map (bs ++ ·))
  | again {n : Nat} {fault : Fault} {lines : List Line} {outcome : Except Fault Bytes} :
      0 < n → fault.isInterrupted = true → ReadLines n lines outcome →
      ReadLines n (.read n (.error fault) :: lines) outcome
  | failed {n : Nat} {fault : Fault} :
      0 < n → fault.isInterrupted = false → ReadLines n [.read n (.error fault)] (.error fault)

/-- The lines of a whole write of some bytes, and its outcome. -/
inductive WriteLines : Bytes → List Line → Except Fault Bool → Prop where
  | nothing : WriteLines [] [] (.ok true)
  | stopped {bs : Bytes} : bs ≠ [] → WriteLines bs [.write bs (.ok 0)] (.ok false)
  | part {bs : Bytes} {n : Nat} {lines : List Line} {outcome : Except Fault Bool} :
      bs ≠ [] → WriteLines (bs.drop (n + 1)) lines outcome →
      WriteLines bs (.write bs (.ok (n + 1)) :: lines) outcome
  | again {bs : Bytes} {fault : Fault} {lines : List Line} {outcome : Except Fault Bool} :
      bs ≠ [] → fault.isInterrupted = true → WriteLines bs lines outcome →
      WriteLines bs (.write bs (.error fault) :: lines) outcome
  | failed {bs : Bytes} {fault : Fault} :
      bs ≠ [] → fault.isInterrupted = false →
      WriteLines bs [.write bs (.error fault)] (.error fault)

/-- The lines of a whole flush, and its outcome. -/
inductive FlushLines : List Line → Except Fault Unit → Prop where
  | done : FlushLines [.flush (.ok ())] (.ok ())
  | again {fault : Fault} {lines : List Line} {outcome : Except Fault Unit} :
      fault.isInterrupted = true → FlushLines lines outcome →
      FlushLines (.flush (.error fault) :: lines) outcome
  | failed {fault : Fault} :
      fault.isInterrupted = false → FlushLines [.flush (.error fault)] (.error fault)

section Loops

variable {io : Stream σ} {s s' : σ × List Line}

theorem read_of_transcribed {n : Nat} {answer : Except Fault Bytes}
    (h : io.transcribed.read n s = (answer, s')) : s'.2 = s.2 ++ [.read n answer] := by
  simp only [transcribed, Prod.mk.injEq] at h
  rw [← h.2, ← h.1]

theorem write_of_transcribed {bs : Bytes} {answer : Except Fault Nat}
    (h : io.transcribed.write bs s = (answer, s')) : s'.2 = s.2 ++ [.write bs answer] := by
  simp only [transcribed, Prod.mk.injEq] at h
  rw [← h.2, ← h.1]

theorem flush_of_transcribed {answer : Except Fault Unit}
    (h : io.transcribed.flush s = (answer, s')) : s'.2 = s.2 ++ [.flush answer] := by
  simp only [transcribed, Prod.mk.injEq] at h
  rw [← h.2, ← h.1]

/-- A whole read leaves the lines of one. -/
theorem readLines_of_readWhole {n : Nat} {outcome : Except Fault Bytes}
    (h : io.transcribed.readWhole n s = (outcome, s')) :
    ∃ lines, s'.2 = s.2 ++ lines ∧ ReadLines n lines outcome := by
  fun_induction Stream.readWhole io.transcribed n s generalizing outcome with
  | case1 s =>
      cases h
      exact ⟨[], (List.append_nil _).symm, .nothing⟩
  | case2 n s hn s₁ hr =>
      cases h
      exact ⟨_, read_of_transcribed hr, .ended (Nat.pos_of_ne_zero hn)⟩
  | case3 n s hn b bs s₁ hr rest s₂ hrest ih =>
      cases h
      rcases ih hrest with ⟨lines, hlines, hread⟩
      have hle := io.transcribed.length_le_of_read hr
      refine ⟨_ :: lines, ?_, .part (List.cons_ne_nil b bs) hle hread⟩
      rw [hlines, read_of_transcribed hr, List.append_assoc, List.singleton_append]
  | case4 n s hn b bs s₁ hr fault s₂ hrest ih =>
      cases h
      rcases ih hrest with ⟨lines, hlines, hread⟩
      have hle := io.transcribed.length_le_of_read hr
      refine ⟨_ :: lines, ?_, .part (List.cons_ne_nil b bs) hle hread⟩
      rw [hlines, read_of_transcribed hr, List.append_assoc, List.singleton_append]
  | case5 n s hn fault s₁ hr hi hlt ih =>
      rcases ih h with ⟨lines, hlines, hread⟩
      refine ⟨_ :: lines, ?_, .again (Nat.pos_of_ne_zero hn) hi hread⟩
      rw [hlines, read_of_transcribed hr, List.append_assoc, List.singleton_append]
  | case6 n s hn fault s₁ hr hi =>
      cases h
      exact ⟨_, read_of_transcribed hr,
        .failed (Nat.pos_of_ne_zero hn) (Bool.not_eq_true _ ▸ hi)⟩

/-- A whole write leaves the lines of one. -/
theorem writeLines_of_writeWhole {bs : Bytes} {outcome : Except Fault Bool}
    (h : io.transcribed.writeWhole bs s = (outcome, s')) :
    ∃ lines, s'.2 = s.2 ++ lines ∧ WriteLines bs lines outcome := by
  fun_induction Stream.writeWhole io.transcribed bs s with
  | case1 bs s hbs =>
      cases h
      rw [List.isEmpty_iff.mp hbs]
      exact ⟨[], (List.append_nil _).symm, .nothing⟩
  | case2 bs s hbs s₁ hw =>
      cases h
      exact ⟨_, write_of_transcribed hw, .stopped (mt List.isEmpty_iff.mpr hbs)⟩
  | case3 bs s hbs n s₁ hw hle ih =>
      rcases ih h with ⟨lines, hlines, hwrite⟩
      refine ⟨_ :: lines, ?_, .part (mt List.isEmpty_iff.mpr hbs) hwrite⟩
      rw [hlines, write_of_transcribed hw, List.append_assoc, List.singleton_append]
  | case4 bs s hbs fault s₁ hw hi hlt ih =>
      rcases ih h with ⟨lines, hlines, hwrite⟩
      refine ⟨_ :: lines, ?_, .again (mt List.isEmpty_iff.mpr hbs) hi hwrite⟩
      rw [hlines, write_of_transcribed hw, List.append_assoc, List.singleton_append]
  | case5 bs s hbs fault s₁ hw hi =>
      cases h
      exact ⟨_, write_of_transcribed hw,
        .failed (mt List.isEmpty_iff.mpr hbs) (Bool.not_eq_true _ ▸ hi)⟩

/-- A whole flush leaves the lines of one. -/
theorem flushLines_of_flushWhole {outcome : Except Fault Unit}
    (h : io.transcribed.flushWhole s = (outcome, s')) :
    ∃ lines, s'.2 = s.2 ++ lines ∧ FlushLines lines outcome := by
  fun_induction Stream.flushWhole io.transcribed s with
  | case1 s s₁ hf =>
      cases h
      exact ⟨_, flush_of_transcribed hf, .done⟩
  | case2 s fault s₁ hf hi hlt ih =>
      rcases ih h with ⟨lines, hlines, hflush⟩
      refine ⟨_ :: lines, ?_, .again hi hflush⟩
      rw [hlines, flush_of_transcribed hf, List.append_assoc, List.singleton_append]
  | case3 s fault s₁ hf hi =>
      cases h
      exact ⟨_, flush_of_transcribed hf, .failed (Bool.not_eq_true _ ▸ hi)⟩

end Loops

/-! ## What the lines of a read show -/

section Read

variable {n : Nat} {lines : List Line} {outcome : Except Fault Bytes}

/-- Every call asks for exactly the bytes that are missing. -/
theorem ReadLines.asks (h : ReadLines n lines outcome) {before after : List Line} {line : Line}
    (heq : lines = before ++ line :: after) :
    ∃ asked answer, line = .read asked answer ∧ 0 < asked ∧
      (taken before).length + asked = n := by
  induction h generalizing before with
  | nothing => cases List.append_eq_nil_iff.mp heq.symm |>.2
  | @ended n hn =>
      rcases cut_singleton heq with ⟨rfl, rfl, _⟩
      exact ⟨n, _, rfl, hn, Nat.zero_add n⟩
  | @part n bs lines outcome hbs hle _ ih =>
      have hpos := List.length_pos_iff.mpr hbs
      rcases cut_cons heq with ⟨rfl, rfl⟩ | ⟨rest, rfl, hrest⟩
      · exact ⟨n, _, rfl, by omega, Nat.zero_add n⟩
      · rcases ih hrest with ⟨asked, answer, hline, hasked, hsum⟩
        refine ⟨asked, answer, hline, hasked, ?_⟩
        rw [taken_cons, List.length_append, Line.taken]
        omega
  | @again n fault lines outcome hn _ _ ih =>
      rcases cut_cons heq with ⟨rfl, rfl⟩ | ⟨rest, rfl, hrest⟩
      · exact ⟨n, _, rfl, hn, Nat.zero_add n⟩
      · -- An interrupted call has moved nothing.
        have hlater := ih hrest
        exact hlater
  | @failed n fault hn _ =>
      rcases cut_singleton heq with ⟨rfl, rfl, _⟩
      exact ⟨n, _, rfl, hn, Nat.zero_add n⟩

/-- No call follows one that closes. -/
theorem ReadLines.endsAtClose (h : ReadLines n lines outcome) : EndsAtClose lines := by
  induction h with
  | nothing => exact endsAtClose_nil
  | ended _ => exact endsAtClose_singleton _
  | part hbs _ _ ih => exact ih.cons (List.isEmpty_eq_false_iff.mpr hbs)
  | again _ hi _ ih => exact ih.cons (by rw [Line.closes, hi, Bool.not_true])
  | failed _ _ => exact endsAtClose_singleton _

/-- A read that gives some bytes has taken them, and no more than it was asked
    for. -/
theorem ReadLines.of_ok {bs : Bytes} (h : ReadLines n lines (.ok bs)) :
    taken lines = bs ∧ bs.length ≤ n := by
  generalize houtcome : (.ok bs : Except Fault Bytes) = outcome at h
  induction h generalizing bs with
  | nothing =>
      cases houtcome
      exact ⟨rfl, Nat.le_refl 0⟩
  | ended _ =>
      cases houtcome
      exact ⟨rfl, Nat.zero_le _⟩
  | @part n part lines outcome _ hle _ ih =>
      rcases outcome with fault | rest
      · cases houtcome
      cases houtcome
      rcases ih rfl with ⟨hrest, hlen⟩
      refine ⟨by rw [taken_cons, hrest, Line.taken], ?_⟩
      rw [List.length_append]
      omega
  | again _ _ _ ih => exact ih houtcome
  | failed _ _ => cases houtcome

/-- A read that gives all that was asked for meets nothing that closes. -/
theorem ReadLines.open_of_full {bs : Bytes} (h : ReadLines n lines (.ok bs))
    (hfull : bs.length = n) : ∀ line ∈ lines, line.closes = false := by
  generalize houtcome : (.ok bs : Except Fault Bytes) = outcome at h
  induction h generalizing bs with
  | nothing =>
      intro line hmem
      cases hmem
  | ended hn =>
      cases houtcome
      exact absurd hn (by rw [← hfull]; exact Nat.lt_irrefl 0)
  | @part n part lines outcome hpart hle hrest ih =>
      rcases outcome with fault | rest
      · cases houtcome
      cases houtcome
      rw [List.length_append] at hfull
      have hopen := @ih rest (by omega) rfl
      intro line hmem
      rcases List.mem_cons.mp hmem with rfl | hmem
      · exact List.isEmpty_eq_false_iff.mpr hpart
      · exact hopen line hmem
  | again _ hi _ ih =>
      have hopen := ih hfull houtcome
      intro line hmem
      rcases List.mem_cons.mp hmem with rfl | hmem
      · rw [Line.closes, hi, Bool.not_true]
      · exact hopen line hmem
  | failed _ _ => cases houtcome

/-- A read fails with the fault with which a call failed for good. -/
theorem ReadLines.failure (h : ReadLines n lines outcome) {fault : Fault} :
    (∃ line ∈ lines, line.failure? = some fault) ↔ outcome = .error fault := by
  induction h with
  | nothing => simp only [List.not_mem_nil, false_and, exists_false, reduceCtorEq]
  | ended _ =>
      simp only [List.mem_singleton, exists_eq_left, Line.failure?_read_ok, reduceCtorEq]
  | @part n bs lines outcome _ _ _ ih =>
      simp only [List.mem_cons, exists_eq_or_imp, Line.failure?_read_ok, reduceCtorEq, false_or,
        ih]
      cases outcome with
      | ok rest => simp only [Except.map, reduceCtorEq]
      | error fault' => exact Iff.rfl
  | again _ hi _ ih =>
      simp only [List.mem_cons, exists_eq_or_imp, Line.failure?_read_error, hi, if_true,
        reduceCtorEq, false_or, ih]
  | failed _ hi =>
      simp only [List.mem_singleton, exists_eq_left, Line.failure?_read_error, hi,
        Bool.false_eq_true, if_false, Option.some.injEq, Except.error.injEq]

end Read

/-! ## What the lines of a write and a flush show -/

section Write

variable {bs : Bytes} {lines : List Line} {outcome : Except Fault Bool}

/-- Every call offers exactly the bytes that were not taken yet. -/
theorem WriteLines.offers (h : WriteLines bs lines outcome) {before after : List Line}
    {line : Line} (heq : lines = before ++ line :: after) :
    ∃ offered answer, line = .write offered answer ∧ offered ≠ [] ∧
      accepted before ++ offered = bs := by
  induction h generalizing before with
  | nothing => cases List.append_eq_nil_iff.mp heq.symm |>.2
  | @stopped bs hbs =>
      rcases cut_singleton heq with ⟨rfl, rfl, _⟩
      exact ⟨bs, _, rfl, hbs, rfl⟩
  | @part bs n lines outcome hbs _ ih =>
      rcases cut_cons heq with ⟨rfl, rfl⟩ | ⟨rest, rfl, hrest⟩
      · exact ⟨bs, _, rfl, hbs, rfl⟩
      · rcases ih hrest with ⟨offered, answer, hline, hoffered, hbytes⟩
        refine ⟨offered, answer, hline, hoffered, ?_⟩
        rw [accepted_cons, List.append_assoc, hbytes, Line.accepted, List.take_append_drop]
  | @again bs fault lines outcome hbs _ _ ih =>
      rcases cut_cons heq with ⟨rfl, rfl⟩ | ⟨rest, rfl, hrest⟩
      · exact ⟨bs, _, rfl, hbs, rfl⟩
      · -- An interrupted call has moved nothing.
        have hlater := ih hrest
        exact hlater
  | @failed bs fault hbs _ =>
      rcases cut_singleton heq with ⟨rfl, rfl, _⟩
      exact ⟨bs, _, rfl, hbs, rfl⟩

/-- Every call is a write. -/
theorem WriteLines.writes (h : WriteLines bs lines outcome) {line : Line} (hmem : line ∈ lines) :
    ∃ offered answer, line = .write offered answer := by
  rcases List.append_of_mem hmem with ⟨before, after, heq⟩
  rcases h.offers heq with ⟨offered, answer, hline, _⟩
  exact ⟨offered, answer, hline⟩

/-- No call follows one that closes. -/
theorem WriteLines.endsAtClose (h : WriteLines bs lines outcome) : EndsAtClose lines := by
  induction h with
  | nothing => exact endsAtClose_nil
  | stopped _ => exact endsAtClose_singleton _
  | part _ _ ih => exact ih.cons rfl
  | again _ hi _ ih => exact ih.cons (by rw [Line.closes, hi, Bool.not_true])
  | failed _ _ => exact endsAtClose_singleton _

/-- A write that is taken whole meets nothing that closes. -/
theorem WriteLines.open_of_whole (h : WriteLines bs lines (.ok true)) :
    accepted lines = bs ∧ ∀ line ∈ lines, line.closes = false := by
  generalize houtcome : (.ok true : Except Fault Bool) = outcome at h
  induction h with
  | nothing =>
      refine ⟨rfl, ?_⟩
      intro line hmem
      cases hmem
  | stopped _ => cases houtcome
  | @part bs n lines outcome _ _ ih =>
      rcases ih houtcome with ⟨hrest, hopen⟩
      refine ⟨?_, ?_⟩
      · rw [accepted_cons, hrest, Line.accepted, List.take_append_drop]
      · intro line hmem
        rcases List.mem_cons.mp hmem with rfl | hmem
        · rfl
        · exact hopen line hmem
  | again _ hi _ ih =>
      rcases ih houtcome with ⟨hrest, hopen⟩
      refine ⟨hrest, ?_⟩
      intro line hmem
      rcases List.mem_cons.mp hmem with rfl | hmem
      · rw [Line.closes, hi, Bool.not_true]
      · exact hopen line hmem
  | failed _ _ => cases houtcome

/-- A write fails with the fault with which a call failed for good. -/
theorem WriteLines.failure (h : WriteLines bs lines outcome) {fault : Fault} :
    (∃ line ∈ lines, line.failure? = some fault) ↔ outcome = .error fault := by
  induction h with
  | nothing => simp only [List.not_mem_nil, false_and, exists_false, reduceCtorEq]
  | stopped _ =>
      simp only [List.mem_singleton, exists_eq_left, Line.failure?_write_ok, reduceCtorEq]
  | part _ _ ih =>
      simp only [List.mem_cons, exists_eq_or_imp, Line.failure?_write_ok, reduceCtorEq, false_or,
        ih]
  | again _ hi _ ih =>
      simp only [List.mem_cons, exists_eq_or_imp, Line.failure?_write_error, hi, if_true,
        reduceCtorEq, false_or, ih]
  | failed _ hi =>
      simp only [List.mem_singleton, exists_eq_left, Line.failure?_write_error, hi,
        Bool.false_eq_true, if_false, Option.some.injEq, Except.error.injEq]

/-- A write stops short where a call takes nothing. -/
theorem WriteLines.stop (h : WriteLines bs lines outcome) :
    (∃ offered, .write offered (.ok 0) ∈ lines) ↔ outcome = .ok false := by
  induction h with
  | nothing => simp only [List.not_mem_nil, exists_false, Except.ok.injEq, Bool.true_eq_false]
  | @stopped bs _ => exact iff_of_true ⟨bs, List.mem_singleton_self _⟩ rfl
  | part _ _ ih =>
      simp only [List.mem_cons, Line.write.injEq, Except.ok.injEq, (Nat.succ_ne_zero _).symm,
        and_false, false_or, ih]
  | again _ _ _ ih =>
      simp only [List.mem_cons, Line.write.injEq, reduceCtorEq, and_false, false_or, ih]
  | failed _ _ =>
      simp only [List.mem_singleton, Line.write.injEq, reduceCtorEq, and_false, exists_false]

end Write

section Flush

variable {lines : List Line} {outcome : Except Fault Unit}

/-- Every call is a flush. -/
theorem FlushLines.flushes (h : FlushLines lines outcome) {line : Line} (hmem : line ∈ lines) :
    ∃ answer, line = .flush answer := by
  induction h with
  | done => exact ⟨_, List.mem_singleton.mp hmem⟩
  | again _ _ ih =>
      rcases List.mem_cons.mp hmem with rfl | hmem
      · exact ⟨_, rfl⟩
      · exact ih hmem
  | failed _ => exact ⟨_, List.mem_singleton.mp hmem⟩

/-- No byte is taken. -/
theorem FlushLines.accepts_nothing (h : FlushLines lines outcome) {front : List Line}
    (hfront : front ⊆ lines) : accepted front = [] := by
  rw [accepted, List.flatMap_eq_nil_iff]
  intro line hmem
  rcases h.flushes (hfront hmem) with ⟨answer, rfl⟩
  rfl

/-- No call follows one that closes. -/
theorem FlushLines.endsAtClose (h : FlushLines lines outcome) : EndsAtClose lines := by
  induction h with
  | done => exact endsAtClose_singleton _
  | again hi _ ih => exact ih.cons (by rw [Line.closes, hi, Bool.not_true])
  | failed _ => exact endsAtClose_singleton _

/-- A flush fails with the fault with which a call failed for good. -/
theorem FlushLines.failure (h : FlushLines lines outcome) {fault : Fault} :
    (∃ line ∈ lines, line.failure? = some fault) ↔ outcome = .error fault := by
  induction h with
  | done => simp only [List.mem_singleton, exists_eq_left, Line.failure?_flush_ok, reduceCtorEq]
  | again hi _ ih =>
      simp only [List.mem_cons, exists_eq_or_imp, Line.failure?_flush_error, hi, if_true,
        reduceCtorEq, false_or, ih]
  | failed hi =>
      simp only [List.mem_singleton, exists_eq_left, Line.failure?_flush_error, hi,
        Bool.false_eq_true, if_false, Option.some.injEq, Except.error.injEq]

/-- A flush succeeds when a call does. -/
theorem FlushLines.success (h : FlushLines lines outcome) :
    .flush (.ok ()) ∈ lines ↔ outcome = .ok () := by
  induction h with
  | done => exact iff_of_true (List.mem_singleton_self _) rfl
  | again _ _ ih => simp only [List.mem_cons, Line.flush.injEq, reduceCtorEq, false_or, ih]
  | failed _ => simp only [List.mem_singleton, Line.flush.injEq, reduceCtorEq]

end Flush

/-! ## Sources -/

/-- What a source does when its bytes are used up. -/
inductive Stop where
  | ended
  | failed (fault : Fault)

/-- What a read of more bytes than a source has comes to. -/
def Stop.answer (bytes : Bytes) : Stop → Except Fault Bytes
  | .ended => .ok bytes
  | .failed fault => .error fault

/-- Whether lines are answered as a source answers reads that has some bytes to
    give and then stops. Where it cuts its bytes, how often it interrupts, and
    what it does after the stop is left open. -/
inductive Supplied : Stop → Bytes → List Line → Prop where
  | unasked {stop : Stop} {bytes : Bytes} : Supplied stop bytes []
  | piece {stop : Stop} {asked : Nat} {bs rest : Bytes} {lines : List Line} :
      bs ≠ [] → Supplied stop rest lines →
      Supplied stop (bs ++ rest) (.read asked (.ok bs) :: lines)
  | interrupted {stop : Stop} {bytes : Bytes} {asked : Nat} {fault : Fault}
      {lines : List Line} :
      fault.isInterrupted = true → Supplied stop bytes lines →
      Supplied stop bytes (.read asked (.error fault) :: lines)
  | ended {asked : Nat} {lines : List Line} :
      Supplied .ended [] (.read asked (.ok []) :: lines)
  | failed {asked : Nat} {fault : Fault} {lines : List Line} :
      fault.isInterrupted = false →
      Supplied (.failed fault) [] (.read asked (.error fault) :: lines)

/-- How a source cuts its bytes does not matter. A whole read takes as many
    bytes as it was asked for, and the source goes on with the rest; if there
    are fewer, it takes all of them and comes to what the source does then. -/
theorem ReadLines.of_supplied {n : Nat} {lines more : List Line} {outcome : Except Fault Bytes}
    {stop : Stop} {bytes : Bytes} (h : ReadLines n lines outcome)
    (hs : Supplied stop bytes (lines ++ more)) :
    (n ≤ bytes.length ∧ outcome = .ok (bytes.take n) ∧ taken lines = bytes.take n ∧
        Supplied stop (bytes.drop n) more) ∨
      (bytes.length < n ∧ outcome = stop.answer bytes ∧ taken lines = bytes) := by
  induction h generalizing bytes with
  | nothing => exact Or.inl ⟨Nat.zero_le _, rfl, rfl, hs⟩
  | ended hn =>
      cases hs with
      | piece hbs _ => exact absurd rfl hbs
      | ended => exact Or.inr ⟨hn, rfl, rfl⟩
  | @part n bs lines outcome hbs hle _ ih =>
      rw [List.cons_append] at hs
      cases hs with
      | ended => exact absurd rfl hbs
      | @piece _ _ _ rest _ _ hrest =>
          -- The piece goes in front of what the rest of the read comes to.
          rw [List.length_append, taken_cons, Line.taken]
          rcases ih hrest with ⟨hn, rfl, htaken, hmore⟩ | ⟨hn, rfl, htaken⟩
          · refine Or.inl ⟨by omega, ?_, ?_, ?_⟩
            · rw [List.take_append, List.take_of_length_le hle]
              rfl
            · rw [htaken, List.take_append, List.take_of_length_le hle]
            · rw [List.drop_append, List.drop_of_length_le hle]
              exact hmore
          · refine Or.inr ⟨by omega, ?_, by rw [htaken]⟩
            cases stop with
            | ended => rfl
            | failed fault => rfl
  | again _ hi _ ih =>
      cases hs with
      | interrupted _ hrest => exact ih hrest
      | failed hfor =>
          rw [hi] at hfor
          cases hfor
  | failed hn hfor =>
      cases hs with
      | interrupted hi _ =>
          rw [hi] at hfor
          cases hfor
      | failed _ => exact Or.inr ⟨hn, rfl, rfl⟩

/-- A source can go on behind the lines of a whole read that was not cut short. -/
theorem ReadLines.supplied_append {n : Nat} {lines more : List Line} {bs rest : Bytes}
    {stop : Stop} (h : ReadLines n lines (.ok bs)) (hfull : bs.length = n)
    (hs : Supplied stop rest more) : Supplied stop (bs ++ rest) (lines ++ more) := by
  generalize houtcome : (.ok bs : Except Fault Bytes) = outcome at h
  induction h generalizing bs with
  | nothing =>
      cases houtcome
      exact hs
  | ended hn =>
      cases houtcome
      exact absurd hn (by rw [← hfull]; exact Nat.lt_irrefl 0)
  | @part n part lines outcome hpart hle _ ih =>
      rcases outcome with fault | bs'
      · cases houtcome
      cases houtcome
      rw [List.length_append] at hfull
      have hrest := @ih bs' (by omega) rfl
      rw [List.append_assoc]
      exact .piece hpart hrest
  | again _ hi _ ih => exact .interrupted hi (ih hfull houtcome)
  | failed _ _ => cases houtcome

/-- The lines of every whole read are those of a source of the bytes that it
    has taken. -/
theorem ReadLines.supplied {n : Nat} {lines : List Line} {outcome : Except Fault Bytes}
    (h : ReadLines n lines outcome) : ∃ stop, Supplied stop (taken lines) lines := by
  induction h with
  | nothing => exact ⟨.ended, .unasked⟩
  | ended _ => exact ⟨.ended, .ended⟩
  | part hbs _ _ ih =>
      rcases ih with ⟨stop, hs⟩
      exact ⟨stop, .piece hbs hs⟩
  | again _ hi _ ih =>
      rcases ih with ⟨stop, hs⟩
      exact ⟨stop, .interrupted hi hs⟩
  | failed _ hfor => exact ⟨.failed _, .failed hfor⟩

end FramedIpc.Stream
