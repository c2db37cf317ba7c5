import FramedIpc.Proofs.Payload.Notes
import FramedIpc.Proofs.Payload.Stable.Bincode
import FramedIpc.Proofs.Payload.Stable.Cbor
import FramedIpc.Proofs.Payload.Stable.MessagePack

/-!
# Messages Cut Short

A payload of which the end is missing is not taken for another message. In the
binary formats this is so for values of every shape, as what their readers find
does not depend on what follows: whatever is found in the front of a payload is
found in all of it. A message that is the whole of its payload is found in no
front of it, and the payload is refused.

JSON has no counts, and what is read there may depend on what follows, as the
digits of a number do. But a message is an object, and its reader has to come to
the closing brace. On the way it may be stopped inside a text, where it may be
inside an escape or inside a character; it is always the end that stops it, and
that is what it says.

## Main definitions

* `Format.textBound`, `Format.Holds`: How long a text can be in a format.
* `Format.refusal`: How a format refuses what is cut short.

## Theorems

* `decode_of_prefix`: What a binary format finds in a front, it finds in all.
* `whole_cuts`: What takes a whole payload is in no front of it.
* `Json.readRaw_of_cutShort`: A written text that is cut short has no end.
* `Json.decode_of_cutShort`: Nor has a message in JSON.
* `note_cutShort`: A message that is cut short is refused.
-/

namespace FramedIpc.Payload

open Text (utf8 utf8Chars)

/-- The least count of bytes that a format has no length for, if there is one. -/
def Format.textBound : Format → Option Nat
  | json => none
  | bincode => some (Nat.pow 256 8)
  | messagePack => some (Nat.pow 256 4)
  | cbor => some (Nat.pow 256 8)

/-- Whether a format has a length for a text. -/
def Format.Holds (format : Format) (s : String) : Prop :=
  ∀ bound ∈ format.textBound, (utf8 s).length < bound

/-- How a format refuses what is cut short. -/
def Format.refusal : Format → Error
  | json => .json .eof
  | bincode => .bincode
  | messagePack => .messagePackDecode
  | cbor => .cborDecode

section Binary

theorem whole_append {read : Reader} (h : Stable read) {error : Error} {bs : Bytes} {value : Datum}
    (more : Bytes) (hread : whole error (read bs) = .ok value) :
    whole error (read (bs ++ more)) = .ok value := by
  rcases hfound : read bs with _ | ⟨found, rest⟩
  · rw [hfound] at hread
    cases hread
  · rw [hfound] at hread
    rw [h bs more found rest hfound]
    exact hread

/-- What a binary format finds in the front of a payload, it finds in all of it,
    whatever shape is expected. -/
theorem decode_of_prefix {format : Format} (hformat : format ≠ .json) (shape : Shape)
    {front payload : Bytes} {value : Datum} (hfront : front <+: payload)
    (h : format.decode shape front = .ok value) : format.decode shape payload = .ok value := by
  rcases hfront with ⟨more, rfl⟩
  cases format with
  | json => exact absurd rfl hformat
  | bincode => exact whole_append (Bincode.stable_decode shape) more h
  | messagePack => exact whole_append (MessagePack.stable_decode shape) more h
  | cbor => exact whole_append (Cbor.stable_decode shape) more h

/-- What takes a whole payload is in the payload and in no proper front of it. -/
theorem whole_cuts {read : Reader} (h : Stable read) (error : Error) {payload : Bytes}
    {value : Datum} (hread : read (payload ++ []) = some (value, [])) :
    whole error (read payload) = .ok value ∧
      ∀ cut, cut <+: payload → cut ≠ payload → whole error (read cut) = .error error := by
  rw [List.append_nil] at hread
  refine ⟨by rw [hread, whole], fun cut hfront hne => ?_⟩
  rw [h.eq_none_of_cutShort hread (cutShort_iff.mpr ⟨hfront, hne⟩), whole]

end Binary

namespace Json

section Texts

variable {cut : Bytes} (done : Bytes)

theorem readRaw_nil : readRaw done [] = .error .eof := by
  rw [readRaw]

theorem readRaw_escape_error {more : Bytes} {category : Category}
    (h : readEscape more = .error category) : readRaw done (92 :: more) = .error category := by
  rw [readRaw, if_neg (by decide), if_pos rfl]
  split
  · rename_i h'
    rw [h] at h'
    cases h'
    rfl
  · rename_i h'
    rw [h] at h'
    cases h'

theorem readHex_of_length_lt {bs : Bytes} (h : bs.length < 4) : readHex bs = .error .eof := by
  rcases bs with _ | ⟨_, _ | ⟨_, _ | ⟨_, _ | ⟨_, _⟩⟩⟩⟩
  case cons.cons.cons.cons =>
    simp only [List.length_cons] at h
    omega
  all_goals rfl

/-- An escape by its number has four digits, and none of them may be missing. -/
theorem readEscape_of_cutShort {a b c d : UInt8} (h : CutShort cut [117, a, b, c, d]) :
    readEscape cut = .error .eof := by
  rcases h.cons_cases with rfl | ⟨cut', rfl, hcut'⟩
  · rfl
  · have hhex := readHex_of_length_lt hcut'.length_lt
    change readUnicode cut' = _
    rw [readUnicode, hhex]

/-- Behind a backslash the end may be anywhere, or there is only the backslash. -/
theorem readRaw_of_cutShort_backslash {rest : Bytes}
    (hescape : ∀ {cut}, CutShort cut rest → readEscape cut = .error .eof)
    (h : CutShort cut (92 :: rest)) : readRaw done cut = .error .eof := by
  rcases h.cons_cases with rfl | ⟨cut', rfl, hcut'⟩
  · exact readRaw_nil done
  · exact readRaw_escape_error done (hescape hcut')

/-- Within a written character there is no end of the text. -/
theorem readRaw_of_cutShort_escaped {c : Char} (h : CutShort cut (utf8Chars (escaped c))) :
    readRaw done cut = .error .eof := by
  have hletter {letter : UInt8} (h : CutShort cut [92, letter]) :
      readRaw done cut = .error .eof := by
    refine readRaw_of_cutShort_backslash done (fun hcut' => ?_) h
    rcases hcut'.cons_cases with rfl | ⟨_, _, hnil⟩
    · rfl
    · exact absurd hnil not_cutShort_nil
  -- One case for each way to write a character, in the order they are tried.
  unfold escaped at h
  split at h
  · exact hletter h
  split at h
  · exact hletter h
  split at h
  · exact hletter h
  split at h
  · exact hletter h
  split at h
  · exact hletter h
  split at h
  · exact hletter h
  split at h
  · exact hletter h
  split at h
  · rename_i hcontrol
    rcases utf8EncodeChar_hexDigit (n := c.toNat / 16) (by omega) with ⟨high, hhigh, _⟩
    rcases utf8EncodeChar_hexDigit (n := c.toNat % 16) (by omega) with ⟨low, hlow, _⟩
    simp only [Text.utf8Chars_cons, hhigh, hlow] at h
    exact readRaw_of_cutShort_backslash done readEscape_of_cutShort h
  · rename_i hquote hbackslash _ _ _ _ _ hcontrol
    have hsole : utf8Chars [c] = String.utf8EncodeChar c := List.append_nil _
    rw [hsole] at h
    have hplain : ∀ b ∈ cut, IsPlain b := fun b hb =>
      isPlain_of_mem hquote hbackslash (Nat.le_of_not_lt hcontrol) (h.mem hb)
    have hread := readRaw_plain_append done [] hplain
    rw [List.append_nil] at hread
    rw [hread, readRaw_nil]

/-- A written text that is cut short has no end. -/
theorem readRaw_of_cutShort {cs : List Char}
    (h : CutShort cut (utf8Chars (cs.flatMap escaped) ++ [34])) :
    readRaw done cut = .error .eof := by
  induction cs generalizing done cut with
  | nil =>
      rcases h.cons_cases with rfl | ⟨_, _, hnil⟩
      · exact readRaw_nil done
      · exact absurd hnil not_cutShort_nil
  | cons c cs ih =>
      rw [List.flatMap_cons, Text.utf8Chars_append, List.append_assoc] at h
      rcases h.append_cases with hinside | ⟨cut', rfl, hcut'⟩
      · exact readRaw_of_cutShort_escaped done hinside
      · rw [readRaw_escaped]
        exact ih _ hcut'

theorem readText_of_cutShort {s : String} (h : CutShort cut (written s ++ [34])) :
    readText cut = .error .eof := by
  rw [readText, readRaw_of_cutShort [] h]

end Texts

section Messages

variable {cut : Bytes} {field s : String}

/-- Where a text stands, it is cut short or there, with what follows it cut. -/
theorem readText_cut_cases {back : Bytes} (h : CutShort cut (written s ++ 34 :: back)) :
    readText cut = .error .eof ∨
      ∃ cut', readText cut = .ok (s, cut') ∧ CutShort cut' back := by
  rw [← List.singleton_append, ← List.append_assoc] at h
  rcases h.append_cases with hinside | ⟨cut', rfl, hcut'⟩
  · exact Or.inl (readText_of_cutShort hinside)
  · rw [List.append_assoc, List.singleton_append]
    exact Or.inr ⟨cut', readText_append s cut', hcut'⟩

theorem readValue_cut_cases {back : Bytes} (depth : Nat)
    (h : CutShort cut (58 :: 34 :: (written s ++ 34 :: back))) :
    (readColon cut >>= decodeAt .text depth) = .error .eof ∨
      ∃ cut', (readColon cut >>= decodeAt .text depth) = .ok (.text s, cut') ∧
        CutShort cut' back := by
  rcases h.cons_cases with rfl | ⟨cut', rfl, hcut'⟩
  · exact Or.inl rfl
  rcases hcut'.cons_cases with rfl | ⟨behind, rfl, hbehind⟩
  · exact Or.inl rfl
  rw [readColon_colon]
  rcases readText_cut_cases hbehind with heof | ⟨left, htext, hleft⟩
  · refine Or.inl ?_
    have htoken : readToken (34 :: behind) = .error .eof := by
      change (readText behind).map _ = _
      rw [heof]
      rfl
    simp only [bind, Except.bind, decodeAt, readMade, htoken]
  · refine Or.inr ⟨left, ?_, hleft⟩
    simp only [bind, Except.bind, decodeAt, readMade, readToken_text behind htext]

/-- The end of an object is missed in its entry, or behind it. -/
theorem readFields_of_cutShort {field : Field ValueReader} {value : Datum} {bs : Bytes} (n : Nat)
    (hread : ∀ {cut}, CutShort cut bs → (readColon cut >>= field.reader) = .error .eof ∨
      (readColon cut >>= field.reader) = .ok (value, []))
    (h : CutShort cut (34 :: (written field.name ++ 34 :: bs))) :
    readFields [field] n true [none] cut = .error .eof := by
  have hposition : positionOf? field.name [field] = some 0 := by
    simp only [positionOf?, List.findIdx?_cons, beq_self_eq_true, if_true]
  rcases n with _ | n
  · rw [readFields]
  rcases h.cons_cases with rfl | ⟨cut', rfl, hcut'⟩
  · rfl
  rw [readFields, nextKey_quote]
  rcases readText_cut_cases hcut' with heof | ⟨behind, hname, hbehind⟩
  · simp only [heof, bind, Except.bind]
  simp only [hname, Except.bind, bind, hposition, List.getElem?_cons_zero, isFilled,
    Option.getD_some, Option.isSome_none, Bool.false_eq_true, if_false]
  have hread' := hread hbehind
  simp only [bind, Except.bind] at hread'
  rcases hread' with heof | hvalue
  · rw [heof]
  · rw [hvalue]
    -- What is missing then is the brace.
    rcases n with _ | n <;> rfl

/-- An object of one entry is missed from its opening brace on. -/
theorem readRecord_of_cutShort {field : Field ValueReader} {value : Datum} {bs : Bytes}
    {depth : Nat} (hdepth : 1 < depth)
    (hread : ∀ {cut}, CutShort cut bs → (readColon cut >>= field.reader) = .error .eof ∨
      (readColon cut >>= field.reader) = .ok (value, []))
    (h : CutShort cut (123 :: 34 :: (written field.name ++ 34 :: bs))) :
    readRecord depth [field] cut = .error .eof := by
  rcases h.cons_cases with rfl | ⟨cut', rfl, hcut'⟩
  · rfl
  simp only [readRecord, readToken_object, nested, if_neg (Nat.not_le.mpr hdepth), emptySlots,
    List.map_cons, List.map_nil]
  rw [readFields_of_cutShort _ hread hcut']
  rfl

/-- A message of one text has no end if it is cut short. -/
theorem decode_of_cutShort (h : CutShort cut (noteBytes field s)) :
    decode (noteShape field) cut = .error .eof := by
  have hvalue {cut : Bytes} (hcut : CutShort cut (58 :: 34 :: (written s ++ [34, 125]))) :
      (readColon cut >>= decodeAt .text (depthLimit - 1)) = .error .eof ∨
        (readColon cut >>= decodeAt .text (depthLimit - 1)) = .ok (.text s, []) := by
    rcases readValue_cut_cases (depthLimit - 1) hcut with heof | ⟨left, hread, hleft⟩
    · exact Or.inl heof
    · rcases hleft.cons_cases with rfl | ⟨_, _, hnil⟩
      · exact Or.inr hread
      · exact absurd hnil not_cutShort_nil
  have hrecord : decodeAt (noteShape field) depthLimit cut = .error .eof :=
    @readRecord_of_cutShort _ ⟨field, false, decodeAt .text (depthLimit - 1)⟩ _ _ _ (by decide)
      hvalue h
  rw [decode, hrecord]

end Messages

end Json

/-- A message of one text that is cut short is refused. Its payload holds the
    message, and none of its proper fronts holds any: each format says that of
    what is cut short. What is asked is that the format has a length for the
    text, which MessagePack, as it is published, has below four gibibytes. -/
theorem note_cutShort (format : Format) {field s : String}
    (hfield : (utf8 field).length ≤ Cbor.nameLimit) (htext : format.Holds s) :
    ∃ payload, format.encode (note field s) = .ok payload ∧
      format.decode (noteShape field) payload = .ok (note field s) ∧
      ∀ cut, cut <+: payload → cut ≠ payload →
        format.decode (noteShape field) cut = .error format.refusal := by
  have hname : (utf8 field).length < 4294967296 := Nat.lt_of_le_of_lt hfield (by decide)
  cases format with
  | json =>
      refine ⟨Json.noteBytes field s, ?_, ?_, fun cut hfront hne => ?_⟩
      · rw [Format.encode, Json.encode_note]
        rfl
      · rw [Format.decode, Json.decode_note]
        rfl
      · rw [Format.decode, Json.decode_of_cutShort (cutShort_iff.mpr ⟨hfront, hne⟩)]
        rfl
  | bincode =>
      have hdecode := Bincode.decode_note (htext _ rfl) field []
      refine ⟨_, by rw [Format.encode, Bincode.encode_note]; rfl, ?_⟩
      simp only [Format.decode, Format.refusal]
      exact whole_cuts (Bincode.stable_decode _) .bincode hdecode
  | messagePack =>
      have hdecode := MessagePack.decode_note hname (htext _ rfl) []
      refine ⟨_, by rw [Format.encode, MessagePack.encode_note]; rfl, ?_⟩
      simp only [Format.decode, Format.refusal]
      exact whole_cuts (MessagePack.stable_decode _) .messagePackDecode hdecode
  | cbor =>
      have hdecode := Cbor.decode_note hfield (htext _ rfl) []
      refine ⟨_, by rw [Format.encode, Cbor.encode_note]; rfl, ?_⟩
      simp only [Format.decode, Format.refusal]
      exact whole_cuts (Cbor.stable_decode _) .cborDecode hdecode

/-- In MessagePack an awkward text has seven bytes, in a message of fourteen. It is
    refused where any of them is missing. -/
theorem note_cutShort_awkward :
    ∃ payload, Format.messagePack.encode (note "name" awkward) = .ok payload ∧
      payload.length = 14 ∧ ∀ n < 14,
        Format.messagePack.decode (noteShape "name") (payload.take n) =
          .error .messagePackDecode := by
  have htext : Format.messagePack.Holds awkward := by
    intro bound hbound
    cases hbound
    decide +kernel
  rcases @note_cutShort .messagePack "name" awkward (by decide +kernel) htext with
    ⟨payload, hencode, _, hcuts⟩
  have hlength : payload.length = 14 := by
    rw [Format.encode, MessagePack.encode_note] at hencode
    cases hencode
    decide +kernel
  refine ⟨payload, hencode, hlength, fun n hn => hcuts _ (List.take_prefix n payload) ?_⟩
  intro heq
  have htake := congrArg List.length heq
  rw [List.length_take] at htake
  omega

end FramedIpc.Payload
