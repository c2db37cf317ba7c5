import FramedIpc.Client.Blocking
import FramedIpc.Proofs.Frame.Wire
import FramedIpc.Proofs.Stream.Tracked

/-!
# Links to a Server

A server that only answers: it sends nothing on its own, and for every whole
request it takes off its end of the link it appends one reply to the other. A
link is what lies between it and a client, bytes on their way in either
direction, and it remembers which reply was given to which request.

Nobody knows when the server will move, how many bytes a call of the client
will get through, or whether the call will fail. All of this is a schedule,
one turn for each call on the stream: first the server moves as it likes, then
the call moves some bytes or does not. To quantify over schedules is to
quantify over every way in which client and server can be interleaved. A read
finds nothing and fails if the server is neither ahead nor gone, which is what
a timeout looks like from outside.

A server that goes away may do so inside a frame: of what is still on its way
to the client, only so many bytes arrive.

## Main definitions

* `Link.Move`: What a server does.
* `Link`: What lies between a client and a server.
* `Link.stream`: A link as the stream of its client.
* `Link.Served`: What the server has made of some bytes.
* `Link.Serving`: What it has made of those that a ledger notes.

## Theorems

* `Link.Served.moved`: Every move of the server keeps the service.
* `Link.serving_keeps`: So does every call of the client.
-/

namespace FramedIpc.Client

open FramedIpc.Frame (framed wire)

/-- What a server does. -/
inductive Link.Move where
  /-- Take the next request and append the frame of a reply, if there is a
      whole request. -/
  | answer (reply : Bytes)
  /-- Go away. Only so many of the bytes that the client has not taken still
      arrive. -/
  | hangUp (kept : Nat)

/-- What happens at a call on the stream: the moves of the server before it,
    and the fault of the call or a bound on the bytes it moves. -/
structure Link.Turn where
  moves : List Link.Move
  outcome : Except Fault Nat

/-- What lies between a client and a server. -/
structure Link where
  /-- What the client wrote and the server did not take yet. -/
  toServer : Bytes
  /-- What the server wrote and the client did not take yet. -/
  toClient : Bytes
  hungUp : Bool
  /-- The requests that the server took, in order, each with its reply. -/
  answered : List (Bytes × Bytes)
  /-- What will happen at the calls to come. -/
  turns : List Link.Turn

namespace Link

/-- A link on which nothing has happened. -/
def fresh (turns : List Turn) : Link := ⟨[], [], false, [], turns⟩

/-- One move of the server. A server that has gone away does not move, and one
    that has no whole request, or no reply that is a frame, waits. -/
def moved (link : Link) : Move → Link
  | .answer reply =>
    match link.hungUp, Frame.take lengthBound link.toServer, Frame.encode reply with
    | false, .ok (some (request, rest)), .ok frame =>
      { link with
        toServer := rest
        toClient := link.toClient ++ frame
        answered := link.answered ++ [(request, reply)] }
    | _, _, _ => link
  | .hangUp kept => { link with toClient := link.toClient.take kept, hungUp := true }

/-- The next turn: what the server makes of the link, and how the call
    ends. Calls after the last turn time out. -/
def next (link : Link) : Except Fault Nat × Link :=
  match link.turns with
  | [] => (.error (.bare .wouldBlock), link)
  | turn :: turns => (turn.outcome, turn.moves.foldl moved { link with turns := turns })

/-- One read of the client. Where there is nothing to read the server has gone
    away, or the read times out. -/
def read (n : Nat) (link : Link) : Except Fault Bytes × Link :=
  match link.next with
  | (.error fault, link') => (.error fault, link')
  | (.ok most, link') =>
    if link'.toClient.isEmpty then
      (if link'.hungUp then .ok [] else .error (.bare .wouldBlock), link')
    else
      (.ok (link'.toClient.take (min (most + 1) n)),
        { link' with toClient := link'.toClient.drop (min (most + 1) n) })

/-- One write of the client. -/
def write (bs : Bytes) (link : Link) : Except Fault Nat × Link :=
  match link.next with
  | (.error fault, link') => (.error fault, link')
  | (.ok most, link') =>
    (.ok (min most bs.length), { link' with toServer := link'.toServer ++ bs.take most })

/-- One flush or shutdown of the client. -/
def settle (link : Link) : Except Fault Unit × Link :=
  match link.next with
  | (.error fault, link') => (.error fault, link')
  | (.ok _, link') => (.ok (), link')

/-- To answer is to do nothing, or to take a whole request and append the
    frame of the reply. -/
theorem moved_answer (link : Link) (reply : Bytes) :
    link.moved (.answer reply) = link ∨ ∃ request rest,
      link.hungUp = false ∧ reply.length < lengthBound ∧
      Frame.take lengthBound link.toServer = .ok (some (request, rest)) ∧
      link.moved (.answer reply) =
        { link with
          toServer := rest
          toClient := link.toClient ++ framed reply
          answered := link.answered ++ [(request, reply)] } := by
  simp only [moved]
  split
  · rename_i request rest frame hup htake hframe
    rcases Frame.encode_eq_ok_iff.mp hframe with ⟨hlen, rfl⟩
    exact Or.inr ⟨request, rest, hup, hlen, htake, rfl⟩
  · exact Or.inl rfl

theorem turns_moved (link : Link) (move : Move) : (link.moved move).turns = link.turns := by
  cases move with
  | answer reply =>
      rcases moved_answer link reply with h | ⟨_, _, _, _, _, h⟩
      · rw [h]
      · rw [h]
  | hangUp kept => rfl

theorem turns_foldl_moved (moves : List Move) (link : Link) :
    (moves.foldl moved link).turns = link.turns := by
  induction moves generalizing link with
  | nil => rfl
  | cons move moves ih => rw [List.foldl_cons, ih, turns_moved]

theorem length_turns_next {link link' : Link} {fault : Fault}
    (h : link.next = (.error fault, link')) (hi : fault.isInterrupted = true) :
    link'.turns.length < link.turns.length := by
  unfold next at h
  rcases ht : link.turns with _ | ⟨turn, turns⟩
  · -- The fault of a call after the last turn is no interruption.
    rw [ht] at h
    cases h
    cases hi
  · rw [ht] at h
    simp only [Prod.mk.injEq] at h
    rw [← h.2, turns_foldl_moved, List.length_cons]
    exact Nat.lt_succ_self _

theorem length_read_le (n : Nat) (link : Link) (bs : Bytes) (h : (read n link).1 = .ok bs) :
    bs.length ≤ n := by
  unfold read at h
  rcases hn : link.next with ⟨fault | most, link'⟩
  · rw [hn] at h
    cases h
  · rw [hn] at h
    simp only [] at h
    by_cases he : link'.toClient.isEmpty
    · by_cases hu : link'.hungUp
      · simp only [he, hu, if_true, Except.ok.injEq] at h
        rw [← h]
        exact Nat.zero_le n
      · simp only [he, hu, if_true, if_false, Bool.false_eq_true, reduceCtorEq] at h
    · simp only [he, if_false, Bool.false_eq_true, Except.ok.injEq] at h
      rw [← h, List.length_take]
      omega

theorem write_le (bs : Bytes) (link : Link) (n : Nat) (h : (write bs link).1 = .ok n) :
    n ≤ bs.length := by
  unfold write at h
  rcases hn : link.next with ⟨fault | most, link'⟩
  · rw [hn] at h
    cases h
  · rw [hn] at h
    cases h
    exact Nat.min_le_right _ _

theorem turns_read_lt (n : Nat) (link : Link) (h : Interrupts (read n link).1) :
    (read n link).2.turns.length < link.turns.length := by
  unfold read at *
  rcases hn : link.next with ⟨fault | most, link'⟩
  · rw [hn] at h
    exact length_turns_next hn h
  · rw [hn] at h
    simp only [] at h
    by_cases he : link'.toClient.isEmpty
    · by_cases hu : link'.hungUp
      · simp only [he, hu, if_true, Interrupts] at h
      · simp only [he, hu, if_true, if_false, Bool.false_eq_true, Interrupts] at h
        cases h
    · simp only [he, if_false, Bool.false_eq_true, Interrupts] at h

theorem turns_write_lt (bs : Bytes) (link : Link) (h : Interrupts (write bs link).1) :
    (write bs link).2.turns.length < link.turns.length := by
  unfold write at *
  rcases hn : link.next with ⟨fault | most, link'⟩
  · rw [hn] at h
    exact length_turns_next hn h
  · rw [hn] at h
    cases h

theorem turns_settle_lt (link : Link) (h : Interrupts link.settle.1) :
    link.settle.2.turns.length < link.turns.length := by
  unfold settle at *
  rcases hn : link.next with ⟨fault | most, link'⟩
  · rw [hn] at h
    exact length_turns_next hn h
  · rw [hn] at h
    cases h

/-- A link as the stream of its client. -/
def stream : Stream Link where
  read := read
  write := write
  flush := settle
  shutdown := settle
  patience link := link.turns.length
  read_le := length_read_le
  write_le := write_le
  read_interrupts := turns_read_lt
  write_interrupts := turns_write_lt
  flush_interrupts := turns_settle_lt

/-! ## The service -/

/-- What the server has made of the bytes that the client has written and
    taken. It has taken whole requests off the ones, and replied to each; the
    others, with those that are on their way, are these replies as far as they
    arrive. -/
structure Served (link : Link) (written taken : Bytes) : Prop where
  requests : written = wire (link.answered.map Prod.fst) ++ link.toServer
  replies : taken ++ link.toClient <+: wire (link.answered.map Prod.snd)
  all_replies : link.hungUp = false →
    taken ++ link.toClient = wire (link.answered.map Prod.snd)
  bounded : ∀ pair ∈ link.answered, pair.1.length < lengthBound ∧ pair.2.length < lengthBound

theorem Served.fresh (turns : List Turn) : Served (fresh turns) [] [] :=
  ⟨rfl, List.prefix_refl _, fun _ => rfl, fun _ hp => by cases hp⟩

/-- Every move of the server keeps the service. -/
theorem Served.moved {link : Link} {written taken : Bytes} (h : Served link written taken)
    (move : Move) : Served (link.moved move) written taken := by
  cases move with
  | answer reply =>
      rcases moved_answer link reply with hsame | ⟨request, rest, hup, hlen, htake, hmoved⟩
      · rw [hsame]
        exact h
      -- The request was the front of what the server had not taken, and the
      -- reply goes behind all that it has sent, since nothing was cut off.
      rcases Frame.eq_of_take htake with ⟨hrest, hfit⟩
      have hreplies := h.all_replies hup
      rw [hmoved]
      have hall : taken ++ (link.toClient ++ framed reply) =
          wire ((link.answered ++ [(request, reply)]).map Prod.snd) := by
        rw [List.map_append, List.map_singleton, Frame.wire_concat, ← hreplies,
          List.append_assoc]
      refine ⟨?_, ?_, fun _ => hall, fun pair hp => ?_⟩
      · rw [List.map_append, List.map_singleton, Frame.wire_concat, List.append_assoc, ← hrest]
        exact h.requests
      · exact ⟨[], by rw [List.append_nil]; exact hall⟩
      · rcases List.mem_append.mp hp with hp | hp
        · exact h.bounded pair hp
        · rw [List.mem_singleton.mp hp]
          exact ⟨hfit.2, hlen⟩
  | hangUp kept =>
      -- A back of the replies is lost, and what is left is still a front.
      refine ⟨h.requests, ?_, (fun hup => by cases hup), h.bounded⟩
      have hkept := (List.prefix_append_right_inj taken).mpr
        (List.take_prefix kept link.toClient)
      exact hkept.trans h.replies

theorem Served.foldl_moved {link : Link} {written taken : Bytes} (h : Served link written taken)
    (moves : List Move) : Served (moves.foldl Link.moved link) written taken := by
  induction moves generalizing link with
  | nil => exact h
  | cons move moves ih => exact ih (h.moved move)

theorem Served.next {link link' : Link} {written taken : Bytes} {outcome : Except Fault Nat}
    (h : Served link written taken) (hn : link.next = (outcome, link')) :
    Served link' written taken := by
  unfold Link.next at hn
  rcases ht : link.turns with _ | ⟨turn, turns⟩
  · rw [ht] at hn
    cases hn
    exact h
  · rw [ht] at hn
    simp only [Prod.mk.injEq] at hn
    have hturns : Served { link with turns := turns } written taken :=
      ⟨h.requests, h.replies, h.all_replies, h.bounded⟩
    rw [← hn.2]
    exact hturns.foldl_moved turn.moves

theorem Served.read {n : Nat} {link link' : Link} {written taken : Bytes}
    {outcome : Except Fault Bytes} (h : Served link written taken)
    (hr : link.read n = (outcome, link')) :
    Served link' written (taken ++ (outcome.toOption.getD [])) := by
  unfold Link.read at hr
  rcases hn : link.next with ⟨fault | most, after⟩
  · rw [hn] at hr
    cases hr
    rw [Except.toOption, Option.getD_none, List.append_nil]
    exact h.next hn
  have h' := h.next hn
  rw [hn] at hr
  simp only [] at hr
  by_cases he : after.toClient.isEmpty
  · by_cases hu : after.hungUp
    · simp only [he, hu, if_true] at hr
      cases hr
      rw [Except.toOption, Option.getD_some, List.append_nil]
      exact h'
    · simp only [he, hu, if_true, if_false, Bool.false_eq_true] at hr
      cases hr
      rw [Except.toOption, Option.getD_none, List.append_nil]
      exact h'
  · simp only [he, if_false, Bool.false_eq_true] at hr
    cases hr
    -- What the read takes goes from the one side of the seam to the other.
    have hseam : taken ++ after.toClient.take (min (most + 1) n) ++
        after.toClient.drop (min (most + 1) n) = taken ++ after.toClient := by
      rw [List.append_assoc, List.take_append_drop]
    rw [Except.toOption, Option.getD_some]
    exact ⟨h'.requests, by rw [hseam]; exact h'.replies,
      fun hup => by rw [hseam]; exact h'.all_replies hup, h'.bounded⟩

theorem Served.write_ok {bs : Bytes} {n : Nat} {link link' : Link} {written taken : Bytes}
    (h : Served link written taken) (hw : link.write bs = (.ok n, link')) :
    Served link' (written ++ bs.take n) taken := by
  unfold Link.write at hw
  rcases hn : link.next with ⟨fault | most, after⟩
  · rw [hn] at hw
    cases hw
  · rw [hn] at hw
    cases hw
    have h' := h.next hn
    -- The link takes the bytes up to the bound, the ledger by their number.
    have htake : bs.take (min most bs.length) = bs.take most := by
      rw [List.take_eq_take_iff]
      omega
    refine ⟨?_, h'.replies, h'.all_replies, h'.bounded⟩
    rw [htake, ← List.append_assoc, ← h'.requests]

theorem Served.write_error {bs : Bytes} {fault : Fault} {link link' : Link}
    {written taken : Bytes} (h : Served link written taken)
    (hw : link.write bs = (.error fault, link')) : Served link' written taken := by
  unfold Link.write at hw
  rcases hn : link.next with ⟨fault' | most, after⟩
  · rw [hn] at hw
    cases hw
    exact h.next hn
  · rw [hn] at hw
    cases hw

theorem Served.settle {outcome : Except Fault Unit} {link link' : Link} {written taken : Bytes}
    (h : Served link written taken) (hf : link.settle = (outcome, link')) :
    Served link' written taken := by
  unfold Link.settle at hf
  rcases hn : link.next with ⟨fault | most, after⟩
  · rw [hn] at hf
    cases hf
    exact h.next hn
  · rw [hn] at hf
    cases hf
    exact h.next hn

/-- What the server has made of the bytes that a ledger notes. -/
def Serving (s : Link × Ledger) : Prop :=
  Served s.1 s.2.written s.2.taken

/-- Every call of the client keeps the service. -/
theorem serving_keeps : stream.recorded.Keeps Serving := by
  constructor
  · rintro n ⟨link, ledger⟩ outcome s' h hr
    cases hr
    have h' := h.read (Prod.eta (link.read n)).symm
    change Served (link.read n).2 (ledger.noteRead (link.read n).1).written
      (ledger.noteRead (link.read n).1).taken
    -- The ledger notes what the read gave, which is nothing if it failed.
    rcases ho : (link.read n).1 with fault | bs
    · rw [ho, Except.toOption, Option.getD_none, List.append_nil] at h'
      exact h'
    · rw [ho] at h'
      exact h'
  · rintro bs ⟨link, ledger⟩ outcome s' h hw
    cases hw
    change Served (link.write bs).2 (ledger.noteWrite bs (link.write bs).1).written
      (ledger.noteWrite bs (link.write bs).1).taken
    rcases ho : link.write bs with ⟨fault | n, link'⟩
    · exact h.write_error ho
    · exact h.write_ok ho
  · rintro ⟨link, ledger⟩ outcome s' h hf
    cases hf
    exact h.settle (Prod.eta link.settle).symm
  · rintro ⟨link, ledger⟩ outcome s' h hf
    cases hf
    exact h.settle (Prod.eta link.settle).symm

end Link

end FramedIpc.Client
