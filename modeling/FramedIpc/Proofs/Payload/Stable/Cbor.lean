import FramedIpc.Payload.Cbor
import FramedIpc.Proofs.Payload.Stable.Basic

/-!
# What Follows a Value in CBOR

Here too the readers go by the head. Some look past the tags first, and some go on
to a mark of the end that has to be looked for. These look at no more heads than
there are bytes, and so may look at more if more follows. What they find does not
change, as they stop where they did before.

## Theorems

* `stable_takeHead?`, `stable_takeUntagged?`: A head is found whatever follows it,
  and so is one behind tags.
* `stable_takePieces?`: So is a string, whether its end is counted or marked.
* `skipsStably_skip`: A value is skipped whatever follows it.
* `headFirst_decodeAt`: A value of any shape is read by its head.
* `stable_decode`: So it is found whatever follows it.
-/

namespace FramedIpc.Payload.Cbor

section Heads

theorem stable_takeNumber? (low : Nat) : Stable (takeNumber? low) := by
  intro bs more n rest
  simp only [takeNumber?]
  repeat' split
  all_goals first
    | exact Stable.some _ bs more n rest
    | exact Stable.none bs more n rest
    | exact stable_takeBig? _ bs more n rest

theorem stable_takeSize? (low : Nat) : Stable (takeSize? low) :=
  Stable.ite (Stable.some none) ((stable_takeNumber? low).map some)

theorem stable_takeOther? (low : Nat) : Stable (takeOther? low) :=
  Stable.ite (Stable.some Head.stop) ((stable_takeNumber? low).map fun n =>
    if low = 25 then Head.real (Real.half.convert Real.double n)
    else if low = 26 then .real (Real.single.convert Real.double n)
    else if low = 27 then .real n
    else .simple n)

/-- The first byte of a head tells what it is and where its number is. -/
theorem stable_takeHead? : Stable takeHead? := by
  intro bs
  cases bs with
  | nil => exact nofun
  | cons b bs =>
      have hrest : Stable fun bs => takeHead? (b :: bs) := by
        intro bs more head rest
        simp only [takeHead?]
        split
        all_goals first
          | exact (stable_takeNumber? _).map _ bs more head rest
          | exact (stable_takeSize? _).map _ bs more head rest
          | exact stable_takeOther? _ bs more head rest
      exact hrest bs

/-- A head behind tags is found again if more follows, with as many looks or
    with more. -/
theorem untagged_append {n m : Nat} {bs rest : Bytes} {head : Head} (more : Bytes) (hle : n ≤ m)
    (h : untagged n bs = some (head, rest)) :
    untagged m (bs ++ more) = some (head, rest ++ more) := by
  induction n generalizing m bs with
  | zero => cases h
  | succ n ih =>
      rcases m with _ | m
      · exact absurd hle (Nat.not_succ_le_zero n)
      rw [untagged] at h ⊢
      rcases hhead : takeHead? bs with _ | ⟨front, behind⟩
      · rw [hhead] at h
        cases h
      rw [hhead] at h
      rw [stable_takeHead? bs more front behind hhead]
      cases front with
      | tag tag => exact ih (Nat.le_of_succ_le_succ hle) h
      | _ =>
          cases h
          rfl

/-- Where more follows there are more bytes, and so there may be more looks. -/
theorem length_append_le (bs more : Bytes) : bs.length + 1 ≤ (bs ++ more).length + 1 := by
  rw [List.length_append]
  omega

theorem headFirst_takeUntagged? : HeadFirst takeHead? takeUntagged? :=
  ⟨fun bs more _ _ => untagged_append more (length_append_le bs more),
    fun bs hnone => by rw [takeUntagged?, untagged, hnone]⟩

end Heads

section Strings

/-- Pieces are put together until the mark that was their end before. -/
theorem pieces_append {size? : Head → Option (Option Nat)} {n m marks : Nat}
    {done parts : List Bytes} {bs rest : Bytes} (more : Bytes) (hle : n ≤ m)
    (h : pieces size? n marks done bs = some (parts, rest)) :
    pieces size? m marks done (bs ++ more) = some (parts, rest ++ more) := by
  induction n generalizing m marks done bs with
  | zero => cases h
  | succ n ih =>
      rcases m with _ | m
      · exact absurd hle (Nat.not_succ_le_zero n)
      have hle' := Nat.le_of_succ_le_succ hle
      rw [pieces] at h ⊢
      rcases hhead : takeHead? bs with _ | ⟨head, behind⟩
      · rw [hhead] at h
        cases h
      rw [hhead] at h
      rw [stable_takeHead? bs more head behind hhead]
      cases head with
      | stop =>
          by_cases hmarks : marks ≤ 1
          · simp only [hmarks, if_true] at h ⊢
            cases h
            rfl
          · simp only [hmarks, if_false] at h ⊢
            exact ih hle' h
      | _ =>
          simp only [] at h ⊢
          split at h
          · cases h
          · exact ih hle' h
          · split at h
            · cases h
            · rename_i hpiece
              simp only [stable_takeBytes? _ _ more _ _ hpiece]
              exact ih hle' h

theorem stable_takePieces? (size? : Head → Option (Option Nat)) (size : Option Nat) :
    Stable (takePieces? size? size) := by
  cases size with
  | none => exact fun bs more _ _ => pieces_append more (length_append_le bs more)
  | some size => exact (stable_takeBytes? size).map fun piece => [piece]

theorem stable_takeByteString? (size : Option Nat) : Stable (takeByteString? size) :=
  (stable_takePieces? _ size).map List.flatten

theorem stable_takeText? (size : Option Nat) : Stable (takeText? size) :=
  (stable_takePieces? _ size).bind fun parts =>
    Stable.made (parts.mapM Text.ofUtf8?) String.join

theorem headFirst_takeLarge? : HeadFirst takeHead? takeLarge? := by
  refine .of_cases stable_takeHead? (fun bs h => by rw [takeLarge?, h]) fun head => ?_
  cases head with
  | bytes size =>
      exact .behind ((stable_takeByteString? size).bind fun bytes =>
        Stable.made (largeValue? bytes) id) fun bs rest h => by
          rw [takeLarge?, h]
          rfl
  | _ => exact .behind Stable.none fun bs rest h => by rw [takeLarge?, h]

end Strings

section Leaves

/-! Values that hold no others. -/

/-- An integer is found behind any tags but the two that say how it is spelled. -/
theorem integerWithin_append {n m : Nat} {bs rest : Bytes} {i : Int} (more : Bytes) (hle : n ≤ m)
    (h : integerWithin n bs = some (i, rest)) :
    integerWithin m (bs ++ more) = some (i, rest ++ more) := by
  induction n generalizing m bs with
  | zero => cases h
  | succ n ih =>
      rcases m with _ | m
      · exact absurd hle (Nat.not_succ_le_zero n)
      rw [integerWithin] at h ⊢
      rcases hhead : takeHead? bs with _ | ⟨head, behind⟩
      · rw [hhead] at h
        cases h
      rw [hhead] at h
      rw [stable_takeHead? bs more head behind hhead]
      cases head with
      | natural _ | negative _ =>
          cases h
          rfl
      | tag tag =>
          simp only [] at h ⊢
          split at h
          · rename_i htag
            rw [if_pos htag]
            exact headFirst_takeLarge?.stable.map (fun n => (n : Int)) behind more i rest h
          split at h
          · rename_i hnatural hnegative
            rw [if_neg hnatural, if_pos hnegative]
            exact headFirst_takeLarge?.stable.map (fun n => -1 - (n : Int)) behind more i rest h
          · rename_i hnatural hnegative
            rw [if_neg hnatural, if_neg hnegative]
            exact ih (Nat.le_of_succ_le_succ hle) h
      | _ => cases h

theorem headFirst_readInteger : HeadFirst takeHead? readInteger :=
  ⟨fun bs more _ _ => integerWithin_append more (length_append_le bs more),
    fun bs hnone => by rw [readInteger, integerWithin, hnone]⟩

theorem headFirst_readRange (ofInt? : Int → Option Datum) :
    HeadFirst takeHead? (readRange ofInt?) :=
  headFirst_readInteger.bind fun i => Stable.made (ofInt? i) id

theorem headFirst_readText : HeadFirst takeUntagged? readText := by
  refine .of_cases headFirst_takeUntagged?.stable (fun bs h => by rw [readText, h]) fun head => ?_
  cases head with
  | text size => exact .behind (stable_takeText? size) fun bs rest h => by rw [readText, h]
  | _ => exact .behind Stable.none fun bs rest h => by rw [readText, h]

theorem headFirst_readCharacter : HeadFirst takeUntagged? readCharacter := by
  refine .of_cases headFirst_takeUntagged?.stable (fun bs h => by rw [readCharacter, h])
    fun head => ?_
  cases head with
  | text size =>
      cases size with
      | none => exact .behind Stable.none fun bs rest h => by rw [readCharacter, h]
      | some size =>
          refine .behind (Stable.ite (p := 4 < size) Stable.none
            ((stable_takeText? (some size)).bind stable_sole)) fun bs rest h => ?_
          rcases htext : takeText? (some size) rest with _ | ⟨text, behind⟩
          · simp only [readCharacter, h, htext, Option.bind_eq_bind, Option.bind_none, ite_self]
          · rcases hchars : text.toList with _ | ⟨c, _ | _⟩ <;>
              simp only [readCharacter, h, htext, hchars, Option.bind_eq_bind, Option.bind_some]
  | _ => exact .behind Stable.none fun bs rest h => by rw [readCharacter, h]

theorem headFirst_readName : HeadFirst takeUntagged? readName := by
  refine .of_cases headFirst_takeUntagged?.stable (fun bs h => by rw [readName, h]) fun head => ?_
  cases head with
  | text size =>
      cases size with
      | none => exact .behind Stable.none fun bs rest h => by rw [readName, h]
      | some size =>
          exact .behind (Stable.ite (p := nameLimit < size) Stable.none
            ((stable_takeText? (some size)).map Text.utf8)) fun bs rest h => by rw [readName, h]
  | bytes size =>
      cases size with
      | none => exact .behind Stable.none fun bs rest h => by rw [readName, h]
      | some size =>
          exact .behind (Stable.ite (p := nameLimit < size) Stable.none (stable_takeBytes? size))
            fun bs rest h => by rw [readName, h]
  | _ => exact .behind Stable.none fun bs rest h => by rw [readName, h]

end Leaves

section Counted

/-! Items and entries, whether their end is counted or marked. -/

theorem headFirst_atStop? : HeadFirst takeHead? atStop? := by
  refine .of_cases stable_takeHead? (fun bs h => by rw [atStop?, h]) fun head => ?_
  cases head with
  | stop => exact .behind (Stable.some true) fun bs rest h => by rw [atStop?, h]
  | _ => exact .again (Stable.some false) fun bs rest h => by rw [atStop?, h]

theorem timesToStop_append {read : Reader} (hread : Stable read) {n m : Nat}
    {done items : List Datum} {bs rest : Bytes} (more : Bytes) (hle : n ≤ m)
    (h : timesToStop read n done bs = some (items, rest)) :
    timesToStop read m done (bs ++ more) = some (items, rest ++ more) := by
  induction n generalizing m done bs with
  | zero => cases h
  | succ n ih =>
      rcases m with _ | m
      · exact absurd hle (Nat.not_succ_le_zero n)
      rw [timesToStop] at h ⊢
      rcases hstop : atStop? bs with _ | ⟨_ | _, behind⟩
      · rw [hstop] at h
        cases h
      · rw [hstop] at h
        rw [headFirst_atStop?.stable bs more false behind hstop]
        simp only [] at h ⊢
        rcases hvalue : read behind with _ | ⟨value, left⟩
        · rw [hvalue] at h
          cases h
        · rw [hvalue] at h
          rw [hread behind more value left hvalue]
          exact ih (Nat.le_of_succ_le_succ hle) h
      · rw [hstop] at h
        rw [headFirst_atStop?.stable bs more true behind hstop]
        cases h
        rfl

theorem stable_readItems {read : Reader} (h : Stable read) (size : Option Nat) :
    Stable (readItems read size) := by
  cases size with
  | none => exact fun bs more _ _ => timesToStop_append h more (length_append_le bs more)
  | some size => exact stable_times h size []

theorem stable_readFirst {reads : List Reader} (h : ∀ read ∈ reads, Stable read)
    (size : Option Nat) : Stable (readFirst reads size) := by
  cases size with
  | none =>
      refine stable_inOrder (List.forall_mem_map.mpr fun read hread => ?_)
      refine (HeadFirst.of_cases headFirst_atStop?.stable (fun bs hnone => by simp only [hnone])
        fun stop => ?_).stable
      cases stop with
      | false => exact .behind (h read hread) fun bs rest hstop => by simp only [hstop]
      | true => exact .behind Stable.none fun bs rest hstop => by simp only [hstop]
  | some size => exact Stable.ite Stable.none (stable_inOrder h)

variable {α : Type} {step : α → Bytes → Option (α × Bytes)}

theorem entriesWithin_append (hstep : ∀ state, Stable (step state)) {n m : Nat} {size : Option Nat}
    {start state : α} {bs rest : Bytes} (more : Bytes) (hle : n ≤ m)
    (h : entriesWithin step n size start bs = some (state, rest)) :
    entriesWithin step m size start (bs ++ more) = some (state, rest ++ more) := by
  induction n generalizing m size start bs with
  | zero => cases h
  | succ n ih =>
      rcases m with _ | m
      · exact absurd hle (Nat.not_succ_le_zero n)
      have hle' := Nat.le_of_succ_le_succ hle
      rcases size with _ | _ | left
      · rw [entriesWithin] at h ⊢
        rcases hstop : atStop? bs with _ | ⟨_ | _, behind⟩
        · rw [hstop] at h
          cases h
        · rw [hstop] at h
          rw [headFirst_atStop?.stable bs more false behind hstop]
          simp only [] at h ⊢
          rcases hone : step start behind with _ | ⟨next, left⟩
          · rw [hone] at h
            cases h
          · rw [hone] at h
            rw [hstep start behind more next left hone]
            exact ih hle' h
        · rw [hstop] at h
          rw [headFirst_atStop?.stable bs more true behind hstop]
          cases h
          rfl
      · cases h
        rfl
      · rw [entriesWithin] at h ⊢
        rcases hone : step start bs with _ | ⟨next, behind⟩
        · rw [hone] at h
          cases h
        · rw [hone] at h
          rw [hstep start bs more next behind hone]
          exact ih hle' h

theorem stable_readEntriesWith (hstep : ∀ state, Stable (step state)) (size : Option Nat)
    (start : α) : Stable (readEntriesWith step size start) :=
  fun bs more _ _ => entriesWithin_append hstep more (length_append_le bs more)

theorem stable_textEntry {read : Reader} (h : Stable read) (done : List (String × Datum)) :
    Stable (textEntry read done) := by
  have htext : Stable readText := headFirst_readText.stable
  exact htext.bind fun key => h.bind fun value => Stable.some (putKey key value done)

end Counted

section Nested

/-- What two values in a row are skipped with, as an entry of a mapping is. -/
theorem stable_skipEntry {skip : Bytes → Option Bytes} (h : SkipsStably skip) (state : Unit) :
    Stable fun bs => (skip bs).bind fun bs => (skip bs).bind fun bs => some (state, bs) := by
  intro bs more state' rest hskip
  simp only [Option.bind_eq_some_iff] at hskip
  rcases hskip with ⟨behind, hkey, left, hvalue, heq⟩
  cases heq
  simp only [h bs more behind hkey, h behind more rest hvalue, Option.bind_some]

theorem skipsStably_skipWith {nested : Option (Bytes → Option Bytes)}
    (h : ∀ skip ∈ nested, SkipsStably skip) : SkipsStably (skipWith nested) := by
  intro bs more rest hskip
  rw [skipWith] at hskip ⊢
  rcases hhead : takeHead? bs with _ | ⟨head, behind⟩
  · simp only [hhead] at hskip
    cases hskip
  simp only [hhead] at hskip
  simp only [stable_takeHead? bs more head behind hhead]
  cases head with
  | natural _ | negative _ | real _ =>
      cases hskip
      rfl
  | simple n =>
      simp only [] at hskip ⊢
      split at hskip
      · rename_i hn
        rw [if_pos hn]
        cases hskip
        rfl
      · cases hskip
  | bytes size => exact (stable_takeByteString? size).skipsStably behind more rest hskip
  | text size => exact (stable_takeText? size).skipsStably behind more rest hskip
  | tag n =>
      simp only [] at hskip ⊢
      split at hskip
      · rename_i hn
        rw [if_pos hn]
        exact headFirst_takeLarge?.stable.skipsStably behind more rest hskip
      · rename_i hn
        rw [if_neg hn]
        cases nested with
        | none => cases hskip
        | some skip => exact h skip rfl behind more rest hskip
  | array size =>
      cases nested with
      | none => cases hskip
      | some skip =>
          have hitems := stable_readItems ((h skip rfl).stable Datum.unit) size
          exact hitems.leaves behind more rest hskip
  | map size =>
      cases nested with
      | none => cases hskip
      | some skip =>
          exact (stable_readEntriesWith (stable_skipEntry (h skip rfl)) size ()).leaves behind more
            rest hskip
  | stop => cases hskip

/-- A value is skipped whatever follows it. -/
theorem skipsStably_skip (depth : Nat) : SkipsStably (skip depth) := by
  induction depth with
  | zero => exact skipsStably_skipWith nofun
  | succ depth ih =>
      refine skipsStably_skipWith ?_
      rintro _ ⟨⟩
      exact ih

/-- What the first key has to be is told by its head. Where there is no head there
    must be no entry. -/
theorem stable_readObject {read : Reader} (h : Stable read) (size : Option Nat) :
    Stable (readObject read size) := by
  have hentries := (stable_readEntriesWith (stable_textEntry h) size []).map Datum.ofEntries
  intro bs more value rest hread
  unfold readObject at hread ⊢
  by_cases hsize : (size == some 0) = true
  · simp only [hsize, Bool.true_or, if_true] at hread ⊢
    exact hentries bs more value rest hread
  rcases hhead : takeUntagged? bs with _ | ⟨head, behind⟩
  · simp only [hhead, hsize] at hread
    cases hread
  · simp only [hhead] at hread
    simp only [headFirst_takeUntagged?.stable bs more head behind hhead]
    cases head with
    | text first => cases first <;> exact Stable.ite hentries Stable.none bs more value rest hread
    | _ => exact Stable.ite hentries Stable.none bs more value rest hread

theorem headFirst_readAnythingWith {nested : Option Reader} (h : ∀ read ∈ nested, Stable read) :
    HeadFirst takeHead? (readAnythingWith nested) := by
  refine .of_cases stable_takeHead? (fun bs hnone => by rw [readAnythingWith, hnone]) fun head => ?_
  cases head with
  | natural n =>
      exact .behind (Stable.given (Datum.ofInt? n)) fun bs rest hhead => by
        rw [readAnythingWith, hhead]
  | negative n =>
      exact .behind (Stable.given (Datum.ofInt? (-1 - n))) fun bs rest hhead => by
        rw [readAnythingWith, hhead]
  | tag n =>
      exact .again (Stable.ite (p := (n = largeNatural || n = largeNegative) = true)
        (headFirst_readRange Datum.ofInt?).stable Stable.none) fun bs rest hhead => by
          rw [readAnythingWith, hhead]
  | real bits => exact .behind (Stable.some _) fun bs rest hhead => by rw [readAnythingWith, hhead]
  | simple n =>
      exact .behind (Stable.ite (p := n = 20) (Stable.some (Datum.boolean false))
        (Stable.ite (p := n = 21) (Stable.some (Datum.boolean true))
          (Stable.ite (p := saysNothing n = true) (Stable.some Datum.unit) Stable.none)))
        fun bs rest hhead => by rw [readAnythingWith, hhead]
  | text size =>
      exact .behind ((stable_takeText? size).map Datum.text) fun bs rest hhead => by
        rw [readAnythingWith, hhead]
  | array size =>
      cases nested with
      | none =>
          exact .behind Stable.none fun bs rest hhead => by
            rw [readAnythingWith, hhead]
            rfl
      | some read =>
          exact .behind ((stable_readItems (h read rfl) size).bind fun items =>
            Stable.some (Datum.sequence items)) fun bs rest hhead => by
              rw [readAnythingWith, hhead]
              rfl
  | map size =>
      cases nested with
      | none =>
          exact .behind Stable.none fun bs rest hhead => by
            rw [readAnythingWith, hhead]
            rfl
      | some read =>
          exact .behind (stable_readObject (h read rfl) size) fun bs rest hhead => by
            rw [readAnythingWith, hhead]
            rfl
  | _ => exact .behind Stable.none fun bs rest hhead => by rw [readAnythingWith, hhead]

theorem headFirst_readAnything (depth : Nat) : HeadFirst takeHead? (readAnything depth) := by
  induction depth with
  | zero => exact headFirst_readAnythingWith nofun
  | succ depth ih =>
      refine headFirst_readAnythingWith ?_
      rintro _ ⟨⟩
      exact ih.stable

theorem stable_fieldEntry {fields : List (Field Reader)}
    (h : ∀ field ∈ fields, Stable field.reader) (depth : Nat) (slots : List Slot) :
    Stable (fieldEntry depth fields slots) := by
  intro bs more filled rest hread
  unfold fieldEntry at hread ⊢
  simp only [Option.bind_eq_bind] at hread ⊢
  rcases hname : readName bs with _ | ⟨name, behind⟩
  · rw [hname] at hread
    cases hread
  rw [hname, Option.bind_some] at hread
  rw [headFirst_readName.stable bs more name behind hname, Option.bind_some]
  rcases hposition : position? (fields.map Field.name) name with _ | position
  · simp only [hposition] at hread ⊢
    rcases hskip : skip depth behind with _ | left
    · rw [hskip] at hread
      cases hread
    · rw [hskip] at hread
      rw [skipsStably_skip depth behind more left hskip]
      exact Stable.some slots left more filled rest hread
  · simp only [hposition] at hread ⊢
    by_cases hfilled : isFilled slots position = true
    · rw [if_pos hfilled] at hread
      cases hread
    · rw [if_neg hfilled] at hread ⊢
      rcases hfield : fields[position]? with _ | field
      · rw [hfield] at hread
        cases hread
      · rw [hfield] at hread
        exact ((h field (List.mem_of_getElem? hfield)).bind fun value =>
          Stable.some (fill slots position value)) behind more filled rest hread

theorem stable_readFields {fields : List (Field Reader)}
    (h : ∀ field ∈ fields, Stable field.reader) (depth : Nat) (size : Option Nat) :
    Stable (readFields depth fields size) :=
  (stable_readEntriesWith (stable_fieldEntry h depth) size (emptySlots fields)).bind fun slots =>
    Stable.made (collect? fields slots) Datum.record

theorem headFirst_chosen? {alternatives : List (Alternative Reader)}
    (h : ∀ alternative ∈ alternatives, ∀ read ∈ alternative.reader, Stable read) :
    HeadFirst takeUntagged? (chosen? alternatives) := by
  refine ⟨fun bs more value rest hread => ?_, fun bs hnone => ?_⟩
  · unfold chosen? at hread ⊢
    simp only [Option.bind_eq_bind] at hread ⊢
    rcases hname : readName bs with _ | ⟨name, behind⟩
    · rw [hname] at hread
      cases hread
    rw [hname, Option.bind_some] at hread
    rw [headFirst_readName.stable bs more name behind hname, Option.bind_some]
    rcases hposition : position? (alternatives.map Alternative.name) name with _ | position
    · rw [hposition] at hread
      cases hread
    simp only [hposition, Option.bind_some] at hread ⊢
    rcases hfound : alternatives[position]? with _ | ⟨name, _ | read⟩
    · rw [hfound] at hread
      cases hread
    · rw [hfound] at hread
      exact Stable.some (Datum.variant position name none) behind more value rest hread
    · rw [hfound] at hread
      exact (h _ (List.mem_of_getElem? hfound) read rfl).map
        (fun body => Datum.variant position name (some body)) behind more value rest hread
  · simp only [chosen?, headFirst_readName.needs bs hnone, Option.bind_eq_bind, Option.bind_none]

theorem headFirst_readChoice {alternatives : List (Alternative Reader)}
    (h : ∀ alternative ∈ alternatives, ∀ read ∈ alternative.reader, Stable read) :
    HeadFirst takeUntagged? (readChoice alternatives) := by
  have hchosen := (headFirst_chosen? h).stable
  refine .of_cases headFirst_takeUntagged?.stable (fun bs hnone => by rw [readChoice, hnone])
    fun head => ?_
  cases head with
  | map size =>
      rcases size with _ | _ | _ | _
      case some.succ.zero =>
        exact .behind hchosen fun bs rest hhead => by
          rw [readChoice, hhead]
          rfl
      all_goals
        refine .behind Stable.none fun bs rest hhead => ?_
        simp only [readChoice, hhead]
  | text size => exact .again hchosen fun bs rest hhead => by rw [readChoice, hhead]
  | _ => exact .behind Stable.none fun bs rest hhead => by rw [readChoice, hhead]

theorem headFirst_readSequence {item : Reader} (h : Stable item) (depth : Nat) :
    HeadFirst takeUntagged? (readSequence depth item) := by
  refine .of_cases headFirst_takeUntagged?.stable (fun bs hnone => by rw [readSequence, hnone])
    fun head => ?_
  cases head with
  | array size =>
      exact .behind (Stable.ite (p := depth = 0) Stable.none
        ((stable_readItems h size).map Datum.sequence)) fun bs rest hhead => by
          rw [readSequence, hhead]
  | bytes size =>
      exact .behind ((stable_takeByteString? size).bind fun taken =>
        Stable.made (taken.mapM fun b => (item (head 0 b.toNat)).map Prod.fst) Datum.sequence)
          fun bs rest hhead => by
            rw [readSequence, hhead]
            rfl
  | _ => exact .behind Stable.none fun bs rest hhead => by rw [readSequence, hhead]

theorem headFirst_itemsBody {reads : List Reader} (h : ∀ read ∈ reads, Stable read) (depth : Nat) :
    HeadFirst takeHead? (itemsBody depth reads) := by
  refine .of_cases stable_takeHead? (fun bs hnone => by rw [itemsBody, hnone]) fun head => ?_
  cases head with
  | array size =>
      exact .behind (Stable.ite (p := depth = 0) Stable.none
        ((stable_readFirst h size).map Datum.tuple)) fun bs rest hhead => by rw [itemsBody, hhead]
  | _ => exact .behind Stable.none fun bs rest hhead => by rw [itemsBody, hhead]

theorem headFirst_fieldsBody {fields : List (Field Reader)}
    (h : ∀ field ∈ fields, Stable field.reader) (depth : Nat) :
    HeadFirst takeHead? (fieldsBody depth fields) := by
  refine .of_cases stable_takeHead? (fun bs hnone => by rw [fieldsBody, hnone]) fun head => ?_
  cases head with
  | array size =>
      exact .behind (Stable.ite (p := depth = 0) Stable.none
        ((stable_readFirst (List.forall_mem_map.mpr h) size).map fun values =>
          Datum.record (named fields values))) fun bs rest hhead => by rw [fieldsBody, hhead]
  | map size =>
      exact .behind (Stable.ite (p := depth = 0) Stable.none (stable_readFields h (depth - 1) size))
        fun bs rest hhead => by rw [fieldsBody, hhead]
  | _ => exact .behind Stable.none fun bs rest hhead => by rw [fieldsBody, hhead]

end Nested

section Shapes

theorem headFirst_unit (depth : Nat) : HeadFirst takeUntagged? (decodeAt .unit depth) := by
  refine .of_cases headFirst_takeUntagged?.stable (fun bs h => by simp only [decodeAt, h])
    fun head => ?_
  cases head with
  | simple n =>
      exact .behind (Stable.ite (p := saysNothing n = true) (Stable.some Datum.unit) Stable.none)
        fun bs rest h => by simp only [decodeAt, h]
  | _ => exact .behind Stable.none fun bs rest h => by simp only [decodeAt, h]

theorem headFirst_boolean (depth : Nat) : HeadFirst takeUntagged? (decodeAt .boolean depth) := by
  refine .of_cases headFirst_takeUntagged?.stable (fun bs h => by simp only [decodeAt, h])
    fun head => ?_
  cases head with
  | simple n =>
      by_cases hfalse : n = 20
      · subst hfalse
        exact .behind (Stable.some (Datum.boolean false)) fun bs rest h => by
          simp only [decodeAt, h]
      by_cases htrue : n = 21
      · subst htrue
        exact .behind (Stable.some (Datum.boolean true)) fun bs rest h => by
          simp only [decodeAt, h]
      · refine .behind Stable.none fun bs rest h => ?_
        simp only [decodeAt, h]
        split
        · rename_i heq
          cases heq
          exact absurd rfl hfalse
        · rename_i heq
          cases heq
          exact absurd rfl htrue
        · rfl
  | _ => exact .behind Stable.none fun bs rest h => by simp only [decodeAt, h]

theorem headFirst_single (depth : Nat) : HeadFirst takeUntagged? (decodeAt .single depth) := by
  refine .of_cases headFirst_takeUntagged?.stable (fun bs h => by simp only [decodeAt, h])
    fun head => ?_
  cases head with
  | real bits =>
      exact .behind (Stable.some (Datum.single (Real.narrow (UInt64.ofNat bits))))
        fun bs rest h => by simp only [decodeAt, h]
  | _ => exact .behind Stable.none fun bs rest h => by simp only [decodeAt, h]

theorem headFirst_double (depth : Nat) : HeadFirst takeUntagged? (decodeAt .double depth) := by
  refine .of_cases headFirst_takeUntagged?.stable (fun bs h => by simp only [decodeAt, h])
    fun head => ?_
  cases head with
  | real bits =>
      exact .behind (Stable.some (Datum.double (UInt64.ofNat bits)))
        fun bs rest h => by simp only [decodeAt, h]
  | _ => exact .behind Stable.none fun bs rest h => by simp only [decodeAt, h]

variable {depth : Nat}

/-- What is not said to be missing is left to the reader of the value. -/
theorem headFirst_option {value : Shape} (h : HeadFirst takeHead? (decodeAt value depth)) :
    HeadFirst takeHead? (decodeAt (.option value) depth) := by
  have hpresent := h.map Datum.present
  refine .of_cases stable_takeHead? (fun bs hnone => ?_) fun head => ?_
  · simp only [decodeAt, hnone]
    exact hpresent.needs bs hnone
  · cases head with
    | simple n =>
        by_cases hn : saysNothing n = true
        · exact .behind (Stable.some Datum.absent) fun bs rest hhead => by
            simp only [decodeAt, hhead, hn, if_true]
        · refine .again hpresent.stable fun bs rest hhead => ?_
          simp only [decodeAt, hhead, hn]
          rfl
    | _ =>
        refine .again hpresent.stable fun bs rest hhead => ?_
        simp only [decodeAt, hhead]
        rfl

theorem headFirst_tuple {items : List Shape}
    (h : ∀ read ∈ readersAt items (depth - 1), Stable read) :
    HeadFirst takeUntagged? (decodeAt (.tuple items) depth) := by
  refine .of_cases headFirst_takeUntagged?.stable (fun bs hnone => by simp only [decodeAt, hnone])
    fun head => ?_
  cases head with
  | array size =>
      exact .behind (Stable.ite (p := depth = 0) Stable.none
        ((stable_readFirst h size).map Datum.tuple)) fun bs rest hhead => by
          simp only [decodeAt, hhead]
  | _ => exact .behind Stable.none fun bs rest hhead => by simp only [decodeAt, hhead]

theorem headFirst_mapping {value : Shape} (h : Stable (decodeAt value (depth - 1))) :
    HeadFirst takeUntagged? (decodeAt (.mapping value) depth) := by
  refine .of_cases headFirst_takeUntagged?.stable (fun bs hnone => by simp only [decodeAt, hnone])
    fun head => ?_
  cases head with
  | map size =>
      exact .behind (Stable.ite (p := depth = 0) Stable.none
        ((stable_readEntriesWith (stable_textEntry h) size []).map Datum.ofEntries))
        fun bs rest hhead => by simp only [decodeAt, hhead]
  | _ => exact .behind Stable.none fun bs rest hhead => by simp only [decodeAt, hhead]

theorem headFirst_record {fields : List (String × Shape)}
    (h : ∀ field ∈ fieldReadersAt fields (depth - 1), Stable field.reader) :
    HeadFirst takeUntagged? (decodeAt (.record fields) depth) := by
  refine .of_cases headFirst_takeUntagged?.stable (fun bs hnone => by simp only [decodeAt, hnone])
    fun head => ?_
  cases head with
  | map size =>
      exact .behind (Stable.ite (p := depth = 0) Stable.none (stable_readFields h (depth - 1) size))
        fun bs rest hhead => by simp only [decodeAt, hhead]
  | _ => exact .behind Stable.none fun bs rest hhead => by simp only [decodeAt, hhead]

theorem headFirst_choice {variants : List (String × Option Shape)}
    (h : ∀ alternative ∈ alternativeReadersAt variants (depth - 1),
      ∀ read ∈ alternative.reader, Stable read) :
    HeadFirst takeUntagged? (decodeAt (.choice variants) depth) := by
  have hchoice := headFirst_readChoice h
  refine ⟨Stable.ite Stable.none hchoice.stable, fun bs hnone => ?_⟩
  simp only [decodeAt, hchoice.needs bs hnone, ite_self]

end Shapes

mutual

/-- A value of any shape is read by its head. -/
theorem headFirst_decodeAt : ∀ (shape : Shape) (depth : Nat),
    HeadFirst takeHead? (decodeAt shape depth)
  | .unit, depth => headFirst_takeUntagged?.trans (headFirst_unit depth)
  | .boolean, depth => headFirst_takeUntagged?.trans (headFirst_boolean depth)
  | .unsigned width, _ => headFirst_readRange (Datum.ofUnsigned? width)
  | .signed width, _ => headFirst_readRange (Datum.ofSigned? width)
  | .single, depth => headFirst_takeUntagged?.trans (headFirst_single depth)
  | .double, depth => headFirst_takeUntagged?.trans (headFirst_double depth)
  | .character, _ => headFirst_takeUntagged?.trans headFirst_readCharacter
  | .text, _ => (headFirst_takeUntagged?.trans headFirst_readText).map Datum.text
  | .option value, depth => headFirst_option (headFirst_decodeAt value depth)
  | .sequence item, depth =>
      headFirst_takeUntagged?.trans
        (headFirst_readSequence (headFirst_decodeAt item (depth - 1)).stable depth)
  | .tuple items, depth =>
      headFirst_takeUntagged?.trans (headFirst_tuple (stable_readersAt items (depth - 1)))
  | .mapping value, depth =>
      headFirst_takeUntagged?.trans
        (headFirst_mapping (headFirst_decodeAt value (depth - 1)).stable)
  | .record fields, depth =>
      headFirst_takeUntagged?.trans (headFirst_record (stable_fieldReadersAt fields (depth - 1)))
  | .choice variants, depth =>
      headFirst_takeUntagged?.trans
        (headFirst_choice (stable_alternativeReadersAt variants (depth - 1)))
  | .anything, depth => headFirst_readAnything depth

theorem stable_readersAt : ∀ (shapes : List Shape) (depth : Nat),
    ∀ read ∈ readersAt shapes depth, Stable read
  | [], _ => nofun
  | shape :: shapes, depth => by
      rw [readersAt, List.forall_mem_cons]
      exact ⟨(headFirst_decodeAt shape depth).stable, stable_readersAt shapes depth⟩

theorem stable_fieldReadersAt : ∀ (fields : List (String × Shape)) (depth : Nat),
    ∀ field ∈ fieldReadersAt fields depth, Stable field.reader
  | [], _ => nofun
  | (_, shape) :: fields, depth => by
      rw [fieldReadersAt, List.forall_mem_cons]
      exact ⟨(headFirst_decodeAt shape depth).stable, stable_fieldReadersAt fields depth⟩

theorem stable_alternativeReadersAt : ∀ (variants : List (String × Option Shape)) (depth : Nat),
    ∀ alternative ∈ alternativeReadersAt variants depth,
      ∀ read ∈ alternative.reader, Stable read
  | [], _ => nofun
  | (_, none) :: variants, depth => by
      rw [alternativeReadersAt, List.forall_mem_cons]
      exact ⟨nofun, stable_alternativeReadersAt variants depth⟩
  | (_, some shape) :: variants, depth => by
      have hrest := stable_alternativeReadersAt variants depth
      have hshape := (headFirst_decodeAt shape depth).stable
      -- Items and fields are read with no tag before them.
      cases shape with
      | tuple items =>
          rw [alternativeReadersAt, List.forall_mem_cons]
          refine ⟨?_, hrest⟩
          rintro _ ⟨⟩
          exact (headFirst_itemsBody (stable_readersAt items (depth - 1)) depth).stable
      | record fields =>
          rw [alternativeReadersAt, List.forall_mem_cons]
          refine ⟨?_, hrest⟩
          rintro _ ⟨⟩
          exact (headFirst_fieldsBody (stable_fieldReadersAt fields (depth - 1)) depth).stable
      | _ =>
          refine List.forall_mem_cons.mpr ⟨?_, hrest⟩
          rintro _ ⟨⟩
          exact hshape

end

/-- So it is found whatever follows it. -/
theorem stable_decode (shape : Shape) : Stable (decode shape) :=
  (headFirst_decodeAt shape depthLimit).stable

end FramedIpc.Payload.Cbor
