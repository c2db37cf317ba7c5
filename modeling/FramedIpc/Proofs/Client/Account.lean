import FramedIpc.Proofs.Client.Run

/-!
# What a Client Has Moved

The bytes that a stream has taken from a client and given to it can be
accounted for by the halves of exchanges that the client has made. While the
client is open there is nothing on either side but whole frames: those of the
requests that were written, and those of the responses that were read. Every
way to fail that could leave something else closes the client, and what it
leaves is then the last that ever moves: the front of one request's frame on
the one side, and on the other some bytes that are no frame.

## Main definitions

* `recorded`: A client whose stream keeps a ledger.
* `Stray`: Bytes of a frame whose writing failed.
* `Account`: What a ledger holds, frame by frame.
* `trial`: A run on a stream on which nothing has happened.

## Theorems

* `pair_of_prefixes`: Responses and requests are paired by their places.
* `Account.halvesKeep`: Every half keeps the account.
* `HalvesKeep.trial`: What every half keeps holds of every run from the start.
* `account_of_trial`: Every run has an account.
-/

namespace FramedIpc.Client

open FramedIpc.Frame (Fits framed wire)

variable {ρ τ σ : Type}

/-- A client whose stream keeps a ledger. -/
def recorded (client : Client ρ τ σ) : Client ρ τ (σ × Ledger) :=
  ⟨client.codec, client.stream.recorded, client.maxPayload⟩

section Notes

/-! What noting calls in one direction keeps in a ledger is kept by half of an
exchange. -/

variable {client : Client ρ τ σ} {s s' : State (σ × Ledger)} {Q : Ledger → Prop}

theorem notes_write {request : ρ} {outcome : Except Error Unit}
    (hwrite : ∀ bs outcome ledger, Q ledger → Q (ledger.noteWrite bs outcome))
    (hflush : ∀ ledger, Q ledger → Q ledger.noteFlush) (h : Q s.stream.2)
    (hw : client.recorded.write request s = (outcome, s')) : Q s'.stream.2 :=
  keeps_write (P := fun stream : σ × Ledger => Q stream.2)
    (Stream.recorded_keepsWriting client.stream hwrite hflush) h hw

theorem notes_read {outcome : Except Error τ}
    (hread : ∀ outcome ledger, Q ledger → Q (ledger.noteRead outcome)) (h : Q s.stream.2)
    (hr : client.recorded.read s = (outcome, s')) : Q s'.stream.2 :=
  keeps_read (P := fun stream : σ × Ledger => Q stream.2)
    (Stream.recorded_keepsReading client.stream hread) h hr

end Notes

/-- A server's pairs of requests and replies lie between what a client sent and
    what it received: a response that was received is the second of a pair, and
    the first is what was sent in its place. -/
theorem pair_of_prefixes {answered : List (Bytes × Bytes)} {sent received : List Bytes}
    {place : Nat} {response : Bytes} (hsent : answered.map Prod.fst <+: sent)
    (hreceived : received <+: answered.map Prod.snd) (hplace : received[place]? = some response) :
    ∃ request, answered[place]? = some (request, response) ∧ sent[place]? = some request := by
  rcases List.getElem?_eq_some_iff.mp hplace with ⟨hlt, hresponse⟩
  have hreply := List.prefix_iff_getElem?.mp hreceived place hlt
  rw [List.getElem?_map, Option.map_eq_some_iff] at hreply
  rcases hreply with ⟨⟨request, reply⟩, hpair, hsnd⟩
  have hfst : (answered.map Prod.fst)[place]? = some request := by
    rw [List.getElem?_map, hpair]
    rfl
  rcases List.getElem?_eq_some_iff.mp hfst with ⟨hltA, hrequest⟩
  refine ⟨request, ?_, hrequest ▸ List.prefix_iff_getElem?.mp hsent place hltA⟩
  rw [hpair, ← hresponse, ← hsnd]

/-- Whether some bytes are the front of the frame of a request that was to be
    written, but was not. -/
def Stray (client : Client ρ τ σ) (history : List (Half ρ τ)) (tail : Bytes) : Prop :=
  ∃ request payload error, Half.wrote request (.error error) ∈ history ∧
    client.codec.encode request = .ok payload ∧ Fits client.maxPayload payload ∧
    tail <+: framed payload

/-- What the ledger of a client holds after some halves: the frames of the
    requests sent and of the responses received, and on each side what an
    error has left there. -/
structure Account (client : Client ρ τ σ) (history : List (Half ρ τ)) (s : State (σ × Ledger))
    (sent received : List Bytes) (tail rest : Bytes) : Prop where
  encoded : (requests history).map client.codec.encode = sent.map .ok
  decoded : responses history = received.map (decodeResponse client.codec)
  fits : ∀ payload ∈ sent ++ received, Fits client.maxPayload payload
  written : s.stream.2.written = wire sent ++ tail
  taken : s.stream.2.taken = wire received ++ rest
  open_clean : s.phase ≠ .closed → tail = [] ∧ rest = []
  tail_stray : tail = [] ∨ Stray client history tail
  rest_short : ∀ found, Frame.take client.maxPayload rest ≠ .ok (some found)

variable {client : Client ρ τ σ}

theorem Stray.append {history : List (Half ρ τ)} {tail : Bytes}
    (h : tail = [] ∨ Stray client history tail) (more : List (Half ρ τ)) :
    tail = [] ∨ Stray client (history ++ more) tail := by
  rcases h with h | ⟨request, payload, error, hmem, hrest⟩
  · exact Or.inl h
  · exact Or.inr ⟨request, payload, error, List.mem_append_left _ hmem, hrest⟩

/-- A half that has moved nothing and told of nothing leaves the account as it
    was. -/
theorem Account.untouched {history : List (Half ρ τ)} {s : State (σ × Ledger)}
    {sent received : List Bytes} {tail rest : Bytes}
    (h : Account client history s sent received tail rest) {half : Half ρ τ}
    (hrequest : half.request? = none) (hresponse : half.response? = none) :
    Account client (history ++ [half]) s sent received tail rest where
  encoded := by
    rw [requests_concat_none hrequest]
    exact h.encoded
  decoded := by
    rw [responses_concat_none hresponse]
    exact h.decoded
  fits := h.fits
  written := h.written
  taken := h.taken
  open_clean := h.open_clean
  tail_stray := Stray.append h.tail_stray [half]
  rest_short := h.rest_short

/-- A request that was written adds its frame. -/
theorem Account.written_more {history : List (Half ρ τ)} {s : State (σ × Ledger)}
    {sent received : List Bytes} {tail rest payload : Bytes} {request : ρ}
    {stream : σ × Ledger} (h : Account client history s sent received tail rest)
    (hopen : s.phase ≠ .closed) (hencode : client.codec.encode request = .ok payload)
    (hwrite : Frame.write client.stream.recorded client.maxPayload payload s.stream =
      (.ok (), stream)) :
    Account client (history ++ [.wrote request (.ok ())]) ⟨stream, .awaiting⟩
      (sent ++ [payload]) received tail rest := by
  -- An open client has left nothing behind, so the frame joins the others.
  rcases h.open_clean hopen with ⟨rfl, rfl⟩
  rcases Frame.write_cases (Stream.recorded_tracks client.stream) hwrite with
    ⟨htaken, ⟨_, hfit, hwritten⟩ | ⟨_, ho, _⟩ | ⟨_, _, ho, _⟩⟩
  · refine ⟨?_, ?_, ?_, ?_, ?_, fun _ => ⟨rfl, rfl⟩, Or.inl rfl, h.rest_short⟩
    · rw [requests_concat_some rfl, List.map_append, List.map_append, h.encoded,
        List.map_singleton, List.map_singleton, hencode]
    · rw [responses_concat_none rfl, h.decoded]
    · intro p hp
      simp only [List.mem_append, List.mem_singleton] at hp
      rcases hp with (hp | rfl) | hp
      · exact h.fits p (List.mem_append_left _ hp)
      · exact hfit
      · exact h.fits p (List.mem_append_right _ hp)
    · rw [hwritten, h.written, List.append_nil, List.append_nil, Frame.wire_concat]
    · rw [htaken, h.taken]
  · cases ho
  · cases ho

/-- A request that was broken off leaves the front of its frame behind. -/
theorem Account.broken_off {history : List (Half ρ τ)} {s : State (σ × Ledger)}
    {sent received : List Bytes} {tail rest payload : Bytes} {request : ρ}
    {error : Frame.Error} {stream : σ × Ledger}
    (h : Account client history s sent received tail rest) (hopen : s.phase ≠ .closed)
    (hencode : client.codec.encode request = .ok payload)
    (hwrite : Frame.write client.stream.recorded client.maxPayload payload s.stream =
      (.error error, stream)) (hrefusal : error.isRefusal = false) :
    ∃ front, Account client (history ++ [.wrote request (.error (.ofFrame error))])
      ⟨stream, .closed⟩ sent received front rest := by
  rcases h.open_clean hopen with ⟨rfl, rfl⟩
  rcases Frame.write_cases (Stream.recorded_tracks client.stream) hwrite with
    ⟨htaken, ⟨ho, _⟩ | ⟨_, ho, hr, _⟩ | ⟨_, front, _, _, hfit, hfront, hwritten⟩⟩
  · cases ho
  · cases ho
    rw [hrefusal] at hr
    cases hr
  · -- The half that failed is now in the history and accounts for the front.
    have hstray : Stray client (history ++ [.wrote request (.error (.ofFrame error))]) front :=
      ⟨request, payload, _, List.mem_append_right _ List.mem_cons_self, hencode, hfit, hfront⟩
    refine ⟨front, ?_, ?_, h.fits, ?_, ?_, fun hc => absurd rfl hc, Or.inr hstray, h.rest_short⟩
    · rw [requests_concat_none rfl, h.encoded]
    · rw [responses_concat_none rfl, h.decoded]
    · rw [hwritten, h.written, List.append_nil]
    · rw [htaken, h.taken]

/-- A response that was read adds its frame. -/
theorem Account.read_more {history : List (Half ρ τ)} {s : State (σ × Ledger)}
    {sent received : List Bytes} {tail rest payload : Bytes} {stream : σ × Ledger}
    (h : Account client history s sent received tail rest) (hopen : s.phase ≠ .closed)
    (hread : Frame.read client.stream.recorded client.maxPayload s.stream =
      (.ok payload, stream)) :
    Account client (history ++ [.heard (decodeResponse client.codec payload)]) ⟨stream, .idle⟩
      sent (received ++ [payload]) tail rest := by
  rcases h.open_clean hopen with ⟨rfl, rfl⟩
  rcases Frame.read_cases (Stream.recorded_tracks client.stream) hread with
    ⟨hwritten, ⟨_, ho, hfit, htaken⟩ | ⟨_, _, ho, _⟩⟩
  · cases ho
    refine ⟨?_, ?_, ?_, ?_, ?_, fun _ => ⟨rfl, rfl⟩, Or.inl rfl, h.rest_short⟩
    · rw [requests_concat_none rfl, h.encoded]
    · rw [responses_concat_some (response?_decodeResponse _ _), List.map_append, h.decoded,
        List.map_singleton]
    · intro p hp
      simp only [List.mem_append, List.mem_singleton] at hp
      rcases hp with hp | hp | rfl
      · exact h.fits p (List.mem_append_left _ hp)
      · exact h.fits p (List.mem_append_right _ hp)
      · exact hfit
    · rw [hwritten, h.written]
    · rw [htaken, h.taken, List.append_nil, List.append_nil, Frame.wire_concat]
  · cases ho

/-- A response that did not come leaves behind some bytes that are no
    frame. -/
theorem Account.read_short {history : List (Half ρ τ)} {s : State (σ × Ledger)}
    {sent received : List Bytes} {tail rest : Bytes} {error : Frame.Error} {stream : σ × Ledger}
    (h : Account client history s sent received tail rest) (hopen : s.phase ≠ .closed)
    (hread : Frame.read client.stream.recorded client.maxPayload s.stream =
      (.error error, stream)) :
    ∃ part, Account client (history ++ [.heard (.error (.ofFrame error))]) ⟨stream, .closed⟩
      sent received tail part := by
  rcases h.open_clean hopen with ⟨rfl, rfl⟩
  rcases Frame.read_cases (Stream.recorded_tracks client.stream) hread with
    ⟨hwritten, ⟨_, ho, _⟩ | ⟨_, part, _, htaken, hshort⟩⟩
  · cases ho
  · refine ⟨part, ?_, ?_, h.fits, ?_, ?_, fun hc => absurd rfl hc, Or.inl rfl, hshort⟩
    · rw [requests_concat_none rfl, h.encoded]
    · rw [responses_concat_none (response?_ofFrame error), h.decoded]
    · rw [hwritten, h.written]
    · rw [htaken, h.taken, List.append_nil]

theorem Account.close {history : List (Half ρ τ)} {s : State (σ × Ledger)}
    {sent received : List Bytes} {tail rest : Bytes}
    (h : Account client history s sent received tail rest) :
    Account client history (client.recorded.close s) sent received tail rest := by
  by_cases hc : s.phase = .closed
  · rw [close_of_closed hc]
    exact h
  · rcases (Stream.recorded_tracks client.stream).shutdown
      (Prod.eta (client.stream.recorded.shutdown s.stream)).symm with ⟨hwritten, htaken⟩
    rw [close_of_open hc]
    exact ⟨h.encoded, h.decoded, h.fits, hwritten.trans h.written, htaken.trans h.taken,
      fun hopen => absurd rfl hopen, h.tail_stray, h.rest_short⟩

/-- Every half keeps the account. -/
theorem Account.halvesKeep (client : Client ρ τ σ) :
    HalvesKeep client.recorded
      (fun history s => ∃ sent received tail rest,
        Account client history s sent received tail rest) := by
  constructor
  · rintro history s request outcome s' ⟨sent, received, tail, rest, h⟩ hw
    -- Only the last two ways have touched the stream.
    cases writeHalf_of_write hw with
    | closed _ => exact ⟨_, _, _, _, h.untouched rfl rfl⟩
    | pending _ => exact ⟨_, _, _, _, h.untouched rfl rfl⟩
    | unencoded _ _ => exact ⟨_, _, _, _, h.untouched rfl rfl⟩
    | refused _ _ _ _ => exact ⟨_, _, _, _, h.untouched rfl rfl⟩
    | broken hidle hencode hframe hrefusal =>
        rcases h.broken_off (by rw [hidle]; decide) hencode hframe hrefusal with ⟨front, h'⟩
        exact ⟨_, _, _, _, h'⟩
    | written hidle hencode hframe =>
        exact ⟨_, _, _, _, h.written_more (by rw [hidle]; decide) hencode hframe⟩
  · rintro history s outcome s' ⟨sent, received, tail, rest, h⟩ hr
    cases readHalf_of_read hr with
    | closed _ => exact ⟨_, _, _, _, h.untouched rfl rfl⟩
    | broken hopen hframe =>
        rcases h.read_short hopen hframe with ⟨part, h'⟩
        exact ⟨_, _, _, _, h'⟩
    | answered hopen hframe => exact ⟨_, _, _, _, h.read_more hopen hframe⟩
  · rintro history s ⟨sent, received, tail, rest, h⟩
    exact ⟨_, _, _, _, h.close⟩

theorem Account.fresh (client : Client ρ τ σ) (start : σ) :
    Account client [] (.fresh (start, .blank)) [] [] [] [] where
  encoded := rfl
  decoded := rfl
  fits := fun _ hp => by cases hp
  written := rfl
  taken := rfl
  open_clean := fun _ => ⟨rfl, rfl⟩
  tail_stray := Or.inl rfl
  rest_short := Frame.take_ne_of_short (by decide)

/-- Calls on a client whose stream has done nothing so far: the halves that
    they make, and the state after the last. -/
def trial (client : Client ρ τ σ) (calls : List (Call ρ)) (start : σ) :
    List (Half ρ τ) × State (σ × Ledger) :=
  run client.recorded calls (.fresh (start, .blank))

/-- What every half keeps holds of every run that begins with it. -/
theorem HalvesKeep.trial {P : List (Half ρ τ) → State (σ × Ledger) → Prop}
    (hk : HalvesKeep client.recorded P) {start : σ} (h : P [] (.fresh (start, .blank)))
    (calls : List (Call ρ)) : P (client.trial calls start).1 (client.trial calls start).2 :=
  hk.run h calls

theorem exists_account (client : Client ρ τ σ) (calls : List (Call ρ)) (start : σ) :
    ∃ sent received tail rest,
      Account client (client.trial calls start).1 (client.trial calls start).2 sent received tail
        rest :=
  (Account.halvesKeep client).trial ⟨_, _, _, _, Account.fresh client start⟩ calls

/-- Every run has an account. While the client is open, the bytes written are
    the frames of the requests that were written, and the bytes taken those of
    the responses that were read. A client that is closed may have left more:
    the front of one more request's frame, and bytes that no frame begins. -/
theorem account_of_trial (client : Client ρ τ σ) (calls : List (Call ρ)) (start : σ) :
    ∃ sent received : List Bytes,
      (requests (client.trial calls start).1).map client.codec.encode = sent.map .ok ∧
      responses (client.trial calls start).1 = received.map (decodeResponse client.codec) ∧
      (∀ payload ∈ sent ++ received, Fits client.maxPayload payload) ∧
      ((client.trial calls start).2.phase ≠ .closed →
        (client.trial calls start).2.stream.2.written = wire sent ∧
          (client.trial calls start).2.stream.2.taken = wire received) ∧
      ∃ tail rest : Bytes,
        (client.trial calls start).2.stream.2.written = wire sent ++ tail ∧
        (client.trial calls start).2.stream.2.taken = wire received ++ rest ∧
        (tail = [] ∨ Stray client (client.trial calls start).1 tail) ∧
        ∀ found, Frame.take client.maxPayload rest ≠ .ok (some found) := by
  rcases exists_account client calls start with ⟨sent, received, tail, rest, h⟩
  refine ⟨sent, received, h.encoded, h.decoded, h.fits, ?_,
    tail, rest, h.written, h.taken, h.tail_stray, h.rest_short⟩
  intro hopen
  rcases h.open_clean hopen with ⟨htail, hrest⟩
  have hwritten := h.written
  have htaken := h.taken
  rw [htail, List.append_nil] at hwritten
  rw [hrest, List.append_nil] at htaken
  exact ⟨hwritten, htaken⟩

end FramedIpc.Client
