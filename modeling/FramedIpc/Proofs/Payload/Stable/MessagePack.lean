import FramedIpc.Payload.MessagePack
import FramedIpc.Proofs.Payload.Stable.Basic

/-!
# What Follows a Value in MessagePack

Every value begins with a head, and what is behind the head belongs to the value
as far as the head says. So the readers go by the head, and each is stable as it
goes on stably behind every head (`HeadFirst.of_cases`). The one that looks for a
value that may be missing leaves the head to another reader; that one refuses what
has no head, as all of them do.

What nobody wants is skipped by its head as well, and what is skipped does not
depend on what follows.

## Theorems

* `stable_takeHead?`: A head is found whatever follows it.
* `skipsStably_skip`: A value is skipped whatever follows it.
* `headFirst_decodeAt`: A value of any shape is read by its head.
* `stable_decode`: So it is found whatever follows it.
-/

namespace FramedIpc.Payload.MessagePack

section Heads

theorem stable_withNumber (size : Nat) (f : Nat → Head) : Stable (withNumber size f) :=
  (stable_takeBig? size).map f

/-- The first byte of a head tells what the rest of it is. -/
theorem stable_takeHead? : Stable takeHead? := by
  intro bs
  cases bs with
  | nil => exact nofun
  | cons b bs =>
      have hrest : Stable fun bs => takeHead? (b :: bs) := by
        intro bs more head rest
        simp only [takeHead?]
        repeat' split
        all_goals first
          | exact Stable.some _ bs more head rest
          | exact Stable.none bs more head rest
          | exact stable_withNumber _ _ bs more head rest
      exact hrest bs

end Heads

section Leaves

/-! Values that hold no others. -/

theorem stable_takeText? (size : Nat) : Stable (takeText? size) :=
  (stable_takeBytes? size).bind fun taken => Stable.made (Text.ofUtf8? taken) id

theorem headFirst_readText : HeadFirst takeHead? readText := by
  refine .of_cases stable_takeHead? (fun bs h => by rw [readText, h]) fun head => ?_
  cases head with
  | text size | bytes size =>
      exact .behind (stable_takeText? size) fun bs rest h => by rw [readText, h]
  | _ => exact .behind Stable.none fun bs rest h => by rw [readText, h]

theorem headFirst_readInteger : HeadFirst takeHead? readInteger := by
  refine .of_cases stable_takeHead? (fun bs h => by rw [readInteger, h]) fun head => ?_
  cases head with
  | natural n => exact .behind (Stable.some (n : Int)) fun bs rest h => by rw [readInteger, h]
  | integer i => exact .behind (Stable.some i) fun bs rest h => by rw [readInteger, h]
  | _ => exact .behind Stable.none fun bs rest h => by rw [readInteger, h]

theorem headFirst_readRange (ofInt? : Int → Option Datum) :
    HeadFirst takeHead? (readRange ofInt?) :=
  headFirst_readInteger.bind fun i => Stable.made (ofInt? i) id

theorem headFirst_readSingle : HeadFirst takeHead? readSingle := by
  refine .of_cases stable_takeHead? (fun bs h => by rw [readSingle, h]) fun head => ?_
  cases head with
  | single _ | double _ | natural _ | integer _ =>
      exact .behind (Stable.some _) fun bs rest h => by rw [readSingle, h]
  | _ => exact .behind Stable.none fun bs rest h => by rw [readSingle, h]

theorem headFirst_readDouble : HeadFirst takeHead? readDouble := by
  refine .of_cases stable_takeHead? (fun bs h => by rw [readDouble, h]) fun head => ?_
  cases head with
  | single _ | double _ | natural _ | integer _ =>
      exact .behind (Stable.some _) fun bs rest h => by rw [readDouble, h]
  | _ => exact .behind Stable.none fun bs rest h => by rw [readDouble, h]

theorem headFirst_readCharacter : HeadFirst takeHead? readCharacter := by
  refine .of_cases stable_takeHead? (fun bs h => by rw [readCharacter, h]) fun head => ?_
  cases head with
  | text size =>
      refine .behind ((stable_takeText? size).bind stable_sole) fun bs rest h => ?_
      rcases htext : takeText? size rest with _ | ⟨text, behind⟩
      · simp only [readCharacter, h, htext, Option.bind_eq_bind, Option.bind_none]
      · rcases hchars : text.toList with _ | ⟨c, _ | _⟩ <;>
          simp only [readCharacter, h, htext, hchars, Option.bind_eq_bind, Option.bind_some]
  | _ => exact .behind Stable.none fun bs rest h => by rw [readCharacter, h]

theorem headFirst_readKey : HeadFirst takeHead? readKey := by
  refine .of_cases stable_takeHead? (fun bs h => by rw [readKey, h]) fun head => ?_
  cases head with
  | natural n => exact .behind (Stable.some (.position n)) fun bs rest h => by rw [readKey, h]
  | text size | bytes size =>
      exact .behind ((stable_takeBytes? size).map .name) fun bs rest h => by rw [readKey, h]
  | _ => exact .behind Stable.none fun bs rest h => by rw [readKey, h]

end Leaves

section Nested

theorem skipsStably_skipTimes {skip : Bytes → Option Bytes} (h : SkipsStably skip) (n : Nat) :
    SkipsStably (skipTimes skip n) := by
  intro bs more rest hskip
  induction n generalizing bs with
  | zero =>
      cases hskip
      rfl
  | succ n ih =>
      rw [skipTimes] at hskip ⊢
      rcases hfirst : skip bs with _ | behind
      · rw [hfirst] at hskip
        cases hskip
      · rw [hfirst] at hskip
        rw [h bs more behind hfirst]
        exact ih behind hskip

/-- A value is skipped whatever follows it. -/
theorem skipsStably_skip (depth : Nat) : SkipsStably (skip depth) := by
  induction depth with
  | zero => exact nofun
  | succ depth ih =>
      intro bs more rest hskip
      rw [skip] at hskip ⊢
      rcases hhead : takeHead? bs with _ | ⟨head, behind⟩
      · rw [hhead] at hskip
        cases hskip
      rw [hhead] at hskip
      rw [stable_takeHead? bs more head behind hhead]
      have hnested {n : Nat} (h : (if depth = 0 then none else skipTimes (skip depth) n behind) =
          some rest) : (if depth = 0 then none else skipTimes (skip depth) n (behind ++ more)) =
            some (rest ++ more) := by
        by_cases hdepth : depth = 0
        · rw [if_pos hdepth] at h
          cases h
        · rw [if_neg hdepth] at h ⊢
          exact skipsStably_skipTimes ih n behind more rest h
      cases head with
      | text _ | bytes _ | extension _ =>
          exact (stable_takeBytes? _).skipsStably behind more rest hskip
      | array _ | map _ => exact hnested hskip
      | _ =>
          cases hskip
          rfl

theorem stable_readEntries {read : Reader} (h : Stable read) (n : Nat)
    (done : List (String × Datum)) : Stable (readEntries read n done) := by
  induction n generalizing done with
  | zero => exact Stable.some done
  | succ n ih =>
      refine (headFirst_readText.stable.bind fun key => h.bind fun value =>
        ih (putKey key value done)).congr fun bs => ?_
      rw [readEntries]
      rcases readText bs with _ | ⟨key, behind⟩
      · rfl
      · simp only [Option.bind_some]
        cases read behind <;> rfl

/-- What the first key has to be is told by its head. Where there is no head there
    must be no entry. -/
theorem stable_readObject {read : Reader} (h : Stable read) (size : Nat) :
    Stable (readObject read size) := by
  have hentries := (stable_readEntries h size []).map Datum.ofEntries
  intro bs more value rest hread
  unfold readObject at hread ⊢
  rcases hhead : takeHead? bs with _ | ⟨head, behind⟩
  · simp only [hhead] at hread
    by_cases hsize : (size == 0) = true
    · rw [if_pos hsize] at hread
      simp only [hsize]
      split <;> exact hentries bs more value rest hread
    · rw [if_neg hsize] at hread
      cases hread
  · rw [hhead] at hread
    rw [stable_takeHead? bs more head behind hhead]
    cases head with
    | text _ => exact hentries bs more value rest hread
    | _ => exact Stable.ite hentries Stable.none bs more value rest hread

theorem headFirst_readAnything (depth : Nat) : HeadFirst takeHead? (readAnything depth) := by
  induction depth with
  | zero => exact ⟨Stable.none, fun _ _ => rfl⟩
  | succ depth ih =>
      refine .of_cases stable_takeHead? (fun bs h => by rw [readAnything, h]) fun head => ?_
      cases head with
      | nil | boolean _ | natural _ | single _ | double _ =>
          exact .behind (Stable.some _) fun bs rest h => by rw [readAnything, h]
      | integer i =>
          exact .behind (Stable.given (Datum.ofInt? i)) fun bs rest h => by rw [readAnything, h]
      | text size =>
          exact .behind ((stable_takeText? size).map Datum.text) fun bs rest h => by
            rw [readAnything, h]
      | array size =>
          have htimes := stable_times ih.stable size []
          exact .behind (Stable.ite Stable.none (htimes.map Datum.sequence)) fun bs rest h => by
            rw [readAnything, h]
      | map size =>
          exact .behind (Stable.ite Stable.none (stable_readObject ih.stable size))
            fun bs rest h => by rw [readAnything, h]
      | _ => exact .behind Stable.none fun bs rest h => by rw [readAnything, h]

/-- Fields are filled in the order in which their names turn up. -/
theorem stable_readFields {fields : List (Field Reader)}
    (h : ∀ field ∈ fields, Stable field.reader) (depth n : Nat) (slots : List Slot) :
    Stable (readFields depth fields n slots) := by
  induction n generalizing slots with
  | zero => exact Stable.some slots
  | succ n ih =>
      intro bs more filled rest hread
      rw [readFields] at hread ⊢
      rcases hkey : readKey bs with _ | ⟨key, behind⟩
      · rw [hkey] at hread
        cases hread
      rw [hkey] at hread
      rw [headFirst_readKey.stable bs more key behind hkey]
      simp only [] at hread ⊢
      rcases hposition : key.positionIn? (fields.map Field.name) with _ | position
      · simp only [hposition] at hread ⊢
        rcases hskip : skip depth behind with _ | left
        · rw [hskip] at hread
          cases hread
        · rw [hskip] at hread
          rw [skipsStably_skip depth behind more left hskip]
          exact ih slots left more filled rest hread
      · simp only [hposition] at hread ⊢
        by_cases hfilled : isFilled slots position = true
        · rw [if_pos hfilled] at hread
          cases hread
        · rw [if_neg hfilled] at hread ⊢
          rcases hfield : fields[position]? with _ | field
          · rw [hfield] at hread
            cases hread
          simp only [hfield, Option.bind_some] at hread ⊢
          rcases hvalue : field.reader behind with _ | ⟨value, left⟩
          · rw [hvalue] at hread
            cases hread
          · rw [hvalue] at hread
            rw [h field (List.mem_of_getElem? hfield) behind more value left hvalue]
            exact ih _ left more filled rest hread

theorem headFirst_readRecord {fields : List (Field Reader)}
    (h : ∀ field ∈ fields, Stable field.reader) (depth : Nat) :
    HeadFirst takeHead? (readRecord depth fields) := by
  refine .of_cases stable_takeHead? (fun bs hnone => by rw [readRecord, hnone]) fun head => ?_
  cases head with
  | array size =>
      have horder := stable_inOrder (List.forall_mem_map.mpr h)
      exact .behind (Stable.ite Stable.none (horder.map fun values =>
        Datum.record (named fields values))) fun bs rest hhead => by rw [readRecord, hhead]
  | map size =>
      exact .behind ((stable_readFields h depth size (emptySlots fields)).bind fun slots =>
        Stable.made (collect? fields slots) Datum.record) fun bs rest hhead => by
          rw [readRecord, hhead]
          rfl
  | _ => exact .behind Stable.none fun bs rest hhead => by rw [readRecord, hhead]

/-- An alternative is chosen by its name, whatever follows it. -/
theorem chosen?_append {alternatives : List (Alternative Reader)} {bs rest : Bytes}
    {position : Nat} {alternative : Alternative Reader} (more : Bytes)
    (h : chosen? alternatives bs = some (position, alternative, rest)) :
    chosen? alternatives (bs ++ more) = some (position, alternative, rest ++ more) ∧
      alternative ∈ alternatives := by
  unfold chosen? at h ⊢
  simp only [Option.bind_eq_bind, Option.bind_eq_some_iff] at h
  rcases h with ⟨⟨key, behind⟩, hkey, position', hposition, alternative', hfound, heq⟩
  cases heq
  simp only [headFirst_readKey.stable bs more key behind hkey, hposition, hfound,
    Option.bind_eq_bind, Option.bind_some]
  exact ⟨rfl, List.mem_of_getElem? hfound⟩

section Choice

variable {alternatives : List (Alternative Reader)}

/-- A name alone stands for an alternative that carries nothing. -/
theorem stable_alone : Stable fun bs =>
    match chosen? alternatives bs with
    | some (position, ⟨name, none⟩, rest) => some (Datum.variant position name none, rest)
    | _ => none := by
  intro bs more value rest h
  rcases hchosen : chosen? alternatives bs with _ | ⟨position, ⟨name, _ | read⟩, behind⟩
  · simp only [hchosen, reduceCtorEq] at h
  · simp only [hchosen] at h
    cases h
    simp only [(chosen?_append more hchosen).1]
  · simp only [hchosen, reduceCtorEq] at h

/-- In a mapping, what the alternative carries stands behind its name. -/
theorem stable_entry (h : ∀ alternative ∈ alternatives, ∀ read ∈ alternative.reader, Stable read) :
    Stable fun bs =>
      match chosen? alternatives bs with
      | none => none
      | some (position, ⟨name, none⟩, rest) =>
        match takeHead? rest with
        | some (.nil, rest) => some (Datum.variant position name none, rest)
        | _ => none
      | some (position, ⟨name, some read⟩, rest) =>
        read.map (fun body => .variant position name (some body)) rest := by
  intro bs more value rest hentry
  rcases hchosen : chosen? alternatives bs with _ | ⟨position, ⟨name, _ | read⟩, behind⟩
  · simp only [hchosen, reduceCtorEq] at hentry
  · simp only [hchosen] at hentry
    simp only [(chosen?_append more hchosen).1]
    rcases hhead : takeHead? behind with _ | ⟨head, left⟩
    · simp only [hhead, reduceCtorEq] at hentry
    rw [hhead] at hentry
    rw [stable_takeHead? behind more head left hhead]
    cases head with
    | nil =>
        cases hentry
        rfl
    | _ => cases hentry
  · rcases chosen?_append more hchosen with ⟨hmore, hmem⟩
    simp only [hchosen] at hentry
    simp only [hmore]
    exact (h _ hmem read rfl).map (fun body => Datum.variant position name (some body)) behind more
      value rest hentry

theorem headFirst_readChoice
    (h : ∀ alternative ∈ alternatives, ∀ read ∈ alternative.reader, Stable read) :
    HeadFirst takeHead? (readChoice alternatives) := by
  refine .of_cases stable_takeHead? (fun bs hnone => ?_) fun head => ?_
  · simp only [readChoice, hnone, chosen?, headFirst_readKey.needs bs hnone, Option.bind_eq_bind,
      Option.bind_none]
  · cases head with
    | map size =>
        refine .behind (Stable.ite (p := size ≠ 1) Stable.none (stable_entry h))
          fun bs rest hhead => ?_
        rcases hchosen : chosen? alternatives rest with _ | ⟨position, ⟨name, _ | read⟩, behind⟩
        · simp only [readChoice, hhead, hchosen]
        · rcases hbehind : takeHead? behind with _ | ⟨head, left⟩
          · simp only [readChoice, hhead, hchosen, hbehind]
          · cases head <;> simp only [readChoice, hhead, hchosen, hbehind]
        · simp only [readChoice, hhead, hchosen]
    | _ =>
        refine .again (@stable_alone alternatives) fun bs rest hhead => ?_
        rcases hchosen : chosen? alternatives bs with _ | ⟨position, ⟨name, _ | read⟩, behind⟩ <;>
          simp only [readChoice, hhead, hchosen]

end Choice

theorem headFirst_readSequence {item : Reader} (h : Stable item) :
    HeadFirst takeHead? (readSequence item) := by
  refine .of_cases stable_takeHead? (fun bs hnone => by rw [readSequence, hnone]) fun head => ?_
  cases head with
  | array size =>
      exact .behind ((stable_times h size []).map Datum.sequence) fun bs rest hhead => by
        rw [readSequence, hhead]
  | bytes size =>
      exact .behind ((stable_takeBytes? size).bind fun taken =>
        Stable.made (taken.mapM fun b => (item (natural b.toNat)).map Prod.fst) Datum.sequence)
        fun bs rest hhead => by
          rw [readSequence, hhead]
          rfl
  | _ => exact .behind Stable.none fun bs rest hhead => by rw [readSequence, hhead]

end Nested

section Shapes

theorem headFirst_unit (depth : Nat) : HeadFirst takeHead? (decodeAt .unit depth) := by
  refine .of_cases stable_takeHead? (fun bs h => by simp only [decodeAt, h]) fun head => ?_
  cases head with
  | nil => exact .behind (Stable.some Datum.unit) fun bs rest h => by simp only [decodeAt, h]
  | _ => exact .behind Stable.none fun bs rest h => by simp only [decodeAt, h]

theorem headFirst_boolean (depth : Nat) : HeadFirst takeHead? (decodeAt .boolean depth) := by
  refine .of_cases stable_takeHead? (fun bs h => by simp only [decodeAt, h]) fun head => ?_
  cases head with
  | boolean value =>
      exact .behind (Stable.some (Datum.boolean value)) fun bs rest h => by simp only [decodeAt, h]
  | _ => exact .behind Stable.none fun bs rest h => by simp only [decodeAt, h]

variable {depth : Nat}

/-- What is not said to be missing is left to the reader of the value. -/
theorem headFirst_option {value : Shape} (h : HeadFirst takeHead? (decodeAt value depth)) :
    HeadFirst takeHead? (decodeAt (.option value) depth) := by
  have hpresent := h.map Datum.present
  refine .of_cases stable_takeHead? (fun bs hnone => ?_) fun head => ?_
  · simp only [decodeAt, hnone]
    exact hpresent.needs bs hnone
  · cases head with
    | nil =>
        exact .behind (Stable.some Datum.absent) fun bs rest hhead => by
          simp only [decodeAt, hhead]
    | _ =>
        refine .again hpresent.stable fun bs rest hhead => ?_
        simp only [decodeAt, hhead]
        rfl

theorem headFirst_tuple {items : List Shape}
    (h : ∀ read ∈ readersAt items (depth - 1), Stable read) :
    HeadFirst takeHead? (decodeAt (.tuple items) depth) := by
  refine .of_cases stable_takeHead? (fun bs hnone => by simp only [decodeAt, hnone]) fun head => ?_
  cases head with
  | array size =>
      exact .behind (Stable.ite (p := size ≠ items.length) Stable.none
        ((stable_inOrder h).map Datum.tuple)) fun bs rest hhead => by simp only [decodeAt, hhead]
  | _ => exact .behind Stable.none fun bs rest hhead => by simp only [decodeAt, hhead]

theorem headFirst_mapping {value : Shape} (h : Stable (decodeAt value (depth - 1))) :
    HeadFirst takeHead? (decodeAt (.mapping value) depth) := by
  refine .of_cases stable_takeHead? (fun bs hnone => by simp only [decodeAt, hnone]) fun head => ?_
  cases head with
  | map size =>
      exact .behind ((stable_readEntries h size []).map Datum.ofEntries)
        fun bs rest hhead => by simp only [decodeAt, hhead]
  | _ => exact .behind Stable.none fun bs rest hhead => by simp only [decodeAt, hhead]

end Shapes

mutual

/-- A value of any shape is read by its head. -/
theorem headFirst_decodeAt : ∀ (shape : Shape) (depth : Nat),
    HeadFirst takeHead? (decodeAt shape depth)
  | .unit, depth => headFirst_unit depth
  | .boolean, depth => headFirst_boolean depth
  | .unsigned width, _ => headFirst_readRange (Datum.ofUnsigned? width)
  | .signed width, _ => headFirst_readRange (Datum.ofSigned? width)
  | .single, _ => headFirst_readSingle
  | .double, _ => headFirst_readDouble
  | .character, _ => headFirst_readCharacter
  | .text, _ => headFirst_readText.map Datum.text
  | .option value, depth => headFirst_option (headFirst_decodeAt value depth)
  | .sequence item, depth => headFirst_readSequence (headFirst_decodeAt item (depth - 1)).stable
  | .tuple items, depth => headFirst_tuple (stable_readersAt items (depth - 1))
  | .mapping value, depth => headFirst_mapping (headFirst_decodeAt value (depth - 1)).stable
  | .record fields, depth =>
      headFirst_readRecord (stable_fieldReadersAt fields (depth - 1)) (depth - 1)
  | .choice variants, depth => headFirst_readChoice (stable_alternativeReadersAt variants depth)
  | .anything, depth => headFirst_readAnything depth

theorem stable_readersAt : ∀ (shapes : List Shape) (depth : Nat),
    ∀ read ∈ readersAt shapes depth, Stable read
  | [], _ => nofun
  | shape :: shapes, depth => by
      rw [readersAt, List.forall_mem_cons]
      exact ⟨(headFirst_decodeAt shape depth).stable, stable_readersAt shapes depth⟩

theorem stable_fieldReadersAt : ∀ (fields : List (String × Shape)) (depth : Nat),
    ∀ field ∈ fieldReadersAt fields depth, Stable field.reader
  | [], _ => nofun
  | (_, shape) :: fields, depth => by
      rw [fieldReadersAt, List.forall_mem_cons]
      exact ⟨(headFirst_decodeAt shape depth).stable, stable_fieldReadersAt fields depth⟩

theorem stable_alternativeReadersAt : ∀ (variants : List (String × Option Shape)) (depth : Nat),
    ∀ alternative ∈ alternativeReadersAt variants depth,
      ∀ read ∈ alternative.reader, Stable read
  | [], _ => nofun
  | (_, none) :: variants, depth => by
      rw [alternativeReadersAt, List.forall_mem_cons]
      exact ⟨nofun, stable_alternativeReadersAt variants depth⟩
  | (_, some shape) :: variants, depth => by
      rw [alternativeReadersAt, List.forall_mem_cons]
      refine ⟨?_, stable_alternativeReadersAt variants depth⟩
      rintro _ ⟨⟩
      exact (headFirst_decodeAt shape depth).stable

end

/-- So it is found whatever follows it. -/
theorem stable_decode (shape : Shape) : Stable (decode shape) :=
  (headFirst_decodeAt shape depthLimit).stable

end FramedIpc.Payload.MessagePack
