import FramedIpc.Text.Utf8

/-!
# Text Comes Back from Its Bytes

The bytes of a scalar value are one, two, three or four, and its bits are
spread over them six at a time from the end. `firstScalar` puts them together
again, whatever bytes follow. What has to be checked is that it turns none of
them away: the bounds on a second byte are there for overlong forms,
surrogates and values past the last scalar, and a character is none of these.

So a text is what its bytes spell.

## Theorems

* `firstScalar_utf8EncodeChar_append`: A character is read off the front.
* `mem_utf8EncodeChar`: A character of several bytes has none of a small one.
* `readChars_utf8Chars_append`: So are characters one after another.
* `ofUtf8?_utf8`: A text is what its bytes spell.
* `utf8_inj`: So no two texts have the same bytes.
* `exists_mem_of_mem_utf8`: A small byte is a character of the text.
* `length_utf8`: The bytes are as many as the text is said to have.
* `firstScalar_append`: A character is found whatever follows it.
-/

namespace FramedIpc.Text

/-- A byte that comes next in a sequence adds its low six bits. -/
theorem readTails_succ {n value low : Nat} {bounds : UInt8 × UInt8} (rest : Bytes)
    (hlow : low < 64) (hleft : bounds.1.toNat ≤ low + 128) (hright : low + 128 ≤ bounds.2.toNat) :
    readTails (n + 1) value bounds (UInt8.ofNat (low + 128) :: rest) =
      readTails n (value * 64 + low) (0x80, 0xBF) rest := by
  have hbyte : (UInt8.ofNat (low + 128)).toNat = low + 128 := by
    rw [UInt8.toNat_ofNat']
    omega
  have hin : (bounds.1 ≤ UInt8.ofNat (low + 128) && UInt8.ofNat (low + 128) ≤ bounds.2) = true := by
    simp only [UInt8.le_iff_toNat_le, hbyte, hleft, hright, decide_true, Bool.and_self]
  rw [readTails, if_pos hin, hbyte]
  congr 2
  omega

/-- Behind the second byte there are no bounds but the general ones. -/
theorem readTails_next {n value low : Nat} (rest : Bytes) (hlow : low < 64) :
    readTails (n + 1) value (0x80, 0xBF) (UInt8.ofNat (low + 128) :: rest) =
      readTails n (value * 64 + low) (0x80, 0xBF) rest := by
  refine readTails_succ rest hlow ?_ ?_
  · simp only [UInt8.reduceToNat]
    omega
  · simp only [UInt8.reduceToNat]
    omega

/-- A second byte that makes no overlong form and no surrogate is within the
    bounds of a lead of three. -/
theorem secondBounds_three (high low : Nat) (hhigh : high < 16) (hlow : low < 64)
    (hoverlong : high = 0 → 32 ≤ low) (hsurrogate : high = 13 → low < 32) :
    (secondBounds (UInt8.ofNat (high + 224))).1.toNat ≤ low + 128 ∧
      low + 128 ≤ (secondBounds (UInt8.ofNat (high + 224))).2.toNat := by
  have hbyte : (UInt8.ofNat (high + 224)).toNat = high + 224 := by
    rw [UInt8.toNat_ofNat']
    omega
  unfold secondBounds
  simp only [← UInt8.toNat_inj, hbyte, UInt8.reduceToNat]
  split
  · simp only [UInt8.reduceToNat]
    omega
  split
  · simp only [UInt8.reduceToNat]
    omega
  -- The other two leads with bounds of their own are of four bytes.
  rw [if_neg (by omega), if_neg (by omega)]
  simp only [UInt8.reduceToNat]
  omega

/-- A second byte that makes no overlong form and no value past the last scalar
    is within the bounds of a lead of four. -/
theorem secondBounds_four (high low : Nat) (hhigh : high < 5) (hlow : low < 64)
    (hoverlong : high = 0 → 16 ≤ low) (hlast : high = 4 → low < 16) :
    (secondBounds (UInt8.ofNat (high + 240))).1.toNat ≤ low + 128 ∧
      low + 128 ≤ (secondBounds (UInt8.ofNat (high + 240))).2.toNat := by
  have hbyte : (UInt8.ofNat (high + 240)).toNat = high + 240 := by
    rw [UInt8.toNat_ofNat']
    omega
  unfold secondBounds
  simp only [← UInt8.toNat_inj, hbyte, UInt8.reduceToNat]
  rw [if_neg (by omega), if_neg (by omega)]
  split
  · simp only [UInt8.reduceToNat]
    omega
  split
  · simp only [UInt8.reduceToNat]
    omega
  · simp only [UInt8.reduceToNat]
    omega

section Leads

/-! The first byte tells how many follow, and gives the bits above theirs. -/

variable {high : Nat} (rest : Bytes)

theorem firstScalar_one (h : high < 128) :
    firstScalar (UInt8.ofNat high :: rest) = .scalar (Char.ofNat high) rest := by
  have hbyte : (UInt8.ofNat high).toNat = high := by
    rw [UInt8.toNat_ofNat']
    omega
  simp only [firstScalar, UInt8.lt_iff_toNat_lt, hbyte, UInt8.reduceToNat, readTails]
  rw [if_pos h]

theorem firstScalar_two (hleast : 2 ≤ high) (h : high < 32) :
    firstScalar (UInt8.ofNat (high + 192) :: rest) = readTails 1 high (0x80, 0xBF) rest := by
  have hbyte : (UInt8.ofNat (high + 192)).toNat = high + 192 := by
    rw [UInt8.toNat_ofNat']
    omega
  have hbounds : secondBounds (UInt8.ofNat (high + 192)) = (0x80, 0xBF) := by
    simp only [secondBounds, ← UInt8.toNat_inj, hbyte, UInt8.reduceToNat]
    rw [if_neg (by omega), if_neg (by omega), if_neg (by omega), if_neg (by omega)]
  simp only [firstScalar, UInt8.lt_iff_toNat_lt, hbyte, UInt8.reduceToNat, hbounds]
  rw [if_neg (by omega), if_neg (by omega), if_pos (by omega)]
  congr 1
  omega

theorem firstScalar_three (h : high < 16) :
    firstScalar (UInt8.ofNat (high + 224) :: rest) =
      readTails 2 high (secondBounds (UInt8.ofNat (high + 224))) rest := by
  have hbyte : (UInt8.ofNat (high + 224)).toNat = high + 224 := by
    rw [UInt8.toNat_ofNat']
    omega
  simp only [firstScalar, UInt8.lt_iff_toNat_lt, hbyte, UInt8.reduceToNat]
  rw [if_neg (by omega), if_neg (by omega), if_neg (by omega), if_pos (by omega)]
  congr 1
  omega

theorem firstScalar_four (h : high < 5) :
    firstScalar (UInt8.ofNat (high + 240) :: rest) =
      readTails 3 high (secondBounds (UInt8.ofNat (high + 240))) rest := by
  have hbyte : (UInt8.ofNat (high + 240)).toNat = high + 240 := by
    rw [UInt8.toNat_ofNat']
    omega
  simp only [firstScalar, UInt8.lt_iff_toNat_lt, hbyte, UInt8.reduceToNat]
  rw [if_neg (by omega), if_neg (by omega), if_neg (by omega), if_neg (by omega),
    if_pos (by omega)]
  congr 1
  omega

end Leads

/-- A character is read off the front of whatever it stands before. -/
theorem firstScalar_utf8EncodeChar_append (c : Char) (rest : Bytes) :
    firstScalar (String.utf8EncodeChar c ++ rest) = .scalar c rest := by
  have hvalid : c.toNat < 0xD800 ∨ 0xDFFF < c.toNat ∧ c.toNat < 0x110000 := c.valid
  have hc : Char.ofNat c.toNat = c := Char.ofNat_toNat c
  rw [String.utf8EncodeChar]
  simp only [show c.val.toNat = c.toNat from rfl]
  -- From here on it is a matter of numbers; what is left of the character is
  -- that its number is no surrogate and not past the last scalar.
  generalize c.toNat = v at hvalid hc ⊢
  have hlow : v % 64 < 64 := Nat.mod_lt _ (by decide)
  by_cases h1 : v ≤ 0x7F
  · rw [if_pos h1, List.cons_append, List.nil_append, firstScalar_one _ (by omega), hc]
  rw [if_neg h1]
  by_cases h2 : v ≤ 0x7FF
  · simp only [if_pos h2, List.cons_append, List.nil_append]
    rw [firstScalar_two _ (by omega) (by omega), readTails_next _ hlow, readTails, ← hc]
    congr 2
    omega
  rw [if_neg h2]
  by_cases h3 : v ≤ 0xFFFF
  · simp only [if_pos h3, List.cons_append, List.nil_append]
    rcases secondBounds_three (v / 4096 % 16) (v / 64 % 64) (by omega) (by omega)
      (by omega) (by omega) with ⟨hleft, hright⟩
    rw [firstScalar_three _ (by omega), readTails_succ _ (by omega) hleft hright,
      readTails_next _ hlow, readTails, ← hc]
    congr 2
    omega
  · simp only [if_neg h3, List.cons_append, List.nil_append]
    rcases secondBounds_four (v / 262144 % 8) (v / 4096 % 64) (by omega) (by omega)
      (by omega) (by omega) with ⟨hleft, hright⟩
    rw [firstScalar_four _ (by omega), readTails_succ _ (by omega) hleft hright,
      readTails_next _ (by omega), readTails_next _ hlow, readTails, ← hc]
    congr 2
    omega

theorem utf8Chars_cons (c : Char) (cs : List Char) :
    utf8Chars (c :: cs) = String.utf8EncodeChar c ++ utf8Chars cs :=
  List.flatMap_cons

theorem utf8Chars_append (cs ds : List Char) :
    utf8Chars (cs ++ ds) = utf8Chars cs ++ utf8Chars ds :=
  List.flatMap_append

/-- The bytes of a character are one byte that is its number, or none of them
    is below a hundred and twenty-eight. -/
theorem mem_utf8EncodeChar {c : Char} {b : UInt8} (h : b ∈ String.utf8EncodeChar c) :
    b.toNat = c.toNat ∨ 128 ≤ b.toNat := by
  have hhigh {n : Nat} (hleft : 128 ≤ n) (hright : n < 256) : 128 ≤ (UInt8.ofNat n).toNat := by
    rw [UInt8.toNat_ofNat']
    omega
  rw [String.utf8EncodeChar] at h
  simp only [show c.val.toNat = c.toNat from rfl] at h
  split at h
  · rw [List.mem_singleton.mp h, UInt8.toNat_ofNat']
    omega
  -- The forms of several bytes have a mark on each byte that puts it above.
  refine Or.inr ?_
  split at h
  · simp only [List.mem_cons, List.not_mem_nil, or_false] at h
    rcases h with rfl | rfl <;> exact hhigh (by omega) (by omega)
  split at h
  · simp only [List.mem_cons, List.not_mem_nil, or_false] at h
    rcases h with rfl | rfl | rfl <;> exact hhigh (by omega) (by omega)
  · simp only [List.mem_cons, List.not_mem_nil, or_false] at h
    rcases h with rfl | rfl | rfl | rfl <;> exact hhigh (by omega) (by omega)

/-- Characters one after another are read, up to whatever cannot be read. -/
theorem readChars_utf8Chars_append (cs : List Char) (read : List Char) (rest : Bytes) :
    readChars read (utf8Chars cs ++ rest) = readChars (cs.reverse ++ read) rest := by
  induction cs generalizing read with
  | nil => rfl
  | cons c cs ih =>
      have hfront := firstScalar_utf8EncodeChar_append c (utf8Chars cs ++ rest)
      -- The reader goes by what it finds in front, which is this character.
      rw [utf8Chars_cons, List.append_assoc, readChars]
      split
      · rename_i h
        rw [hfront] at h
        cases h
      · rename_i h
        rw [hfront] at h
        cases h
      · rename_i h
        rw [hfront] at h
        cases h
        rw [ih, List.reverse_cons, List.append_assoc, List.singleton_append]

/-- A text is what its bytes spell. -/
theorem ofUtf8?_utf8 (s : String) : ofUtf8? (utf8 s) = some s := by
  have hread := readChars_utf8Chars_append s.toList [] []
  rw [List.append_nil, List.append_nil] at hread
  rw [ofUtf8?, utf8, hread, readChars]
  simp only [firstScalar, List.reverse_reverse, Option.map_some, String.ofList_toList]

/-- No two texts have the same bytes. -/
theorem utf8_inj {s t : String} (h : utf8 s = utf8 t) : s = t := by
  have hsame := ofUtf8?_utf8 s
  rw [h, ofUtf8?_utf8] at hsame
  exact (Option.some.inj hsame).symm

/-- A byte below a hundred and twenty-eight is a character of the text. -/
theorem exists_mem_of_mem_utf8 {s : String} {b : UInt8} (h : b ∈ utf8 s) (hb : b.toNat < 128) :
    ∃ c ∈ s.toList, c.toNat = b.toNat := by
  rcases List.mem_flatMap.mp h with ⟨c, hc, hmem⟩
  rcases mem_utf8EncodeChar hmem with hsame | hhigh
  · exact ⟨c, hc, hsame.symm⟩
  · exact absurd hb (Nat.not_lt.mpr hhigh)

/-- The bytes are as many as the text is said to have. -/
theorem length_utf8 (s : String) : (utf8 s).length = s.utf8ByteSize := by
  have hbytes : s.toByteArray = (utf8 s).toByteArray := by
    rw [← String.ofList_toList (s := s), String.toByteArray_ofList, String.ofList_toList]
    rfl
  rw [String.utf8ByteSize, hbytes, List.size_toByteArray]

section Front

variable {bs rest : Bytes} {c : Char}

theorem readTails_append {n value : Nat} {bounds : UInt8 × UInt8} (more : Bytes)
    (h : readTails n value bounds bs = .scalar c rest) :
    readTails n value bounds (bs ++ more) = .scalar c (rest ++ more) := by
  induction n generalizing value bounds bs with
  | zero =>
      cases h
      rfl
  | succ n ih =>
      cases bs with
      | nil => cases h
      | cons b bs =>
          rw [readTails] at h
          rw [List.cons_append, readTails]
          split at h
          · rename_i hb
            rw [if_pos hb]
            exact ih h
          · cases h

/-- A character is found whatever follows it. -/
theorem firstScalar_append (more : Bytes) (h : firstScalar bs = .scalar c rest) :
    firstScalar (bs ++ more) = .scalar c (rest ++ more) := by
  cases bs with
  | nil => cases h
  | cons b bs =>
      revert h
      simp only [firstScalar, List.cons_append]
      repeat' split
      all_goals intro h
      all_goals first
        | exact readTails_append more h
        | cases h

end Front

end FramedIpc.Text
