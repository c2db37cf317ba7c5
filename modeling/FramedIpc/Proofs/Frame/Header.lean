import FramedIpc.Frame.Header
import Mathlib.Data.Nat.Digits.Defs

/-!
# Headers and Lengths

A header is a number written to base two hundred and fifty-six in four digits,
the most significant first. There are as many such numbers as lengths below
`2 ^ 32`, and each is the length of one header. So nothing is lost between a
length and its four bytes in either direction, and whoever finds four bytes at
the front of some others has found a header, whatever they are.

## Theorems

* `length_eq_ofDigits`: The bytes of a header are the digits of its length.
* `ofLength_eq_ok_iff`: A header belongs to a length if it spells it.
* `ofLength_eq_error_iff`: A length without a header is too large for one.
* `exists_bytes_iff`: Four bytes are a header, and nothing else is.
* `lengths_exactly`: Lengths below `2 ^ 32` and four bytes are the same thing.
-/

namespace FramedIpc.Header

variable {h h' : Header} {n : Nat}

/-- The bytes of a header are the digits of its length, the last byte the least
    significant. -/
theorem length_eq_ofDigits (h : Header) :
    h.length = Nat.ofDigits 256 (h.bytes.reverse.map UInt8.toNat) := by
  simp only [length, bytes, List.reverse_cons, List.reverse_nil, List.nil_append,
    List.cons_append, List.map_cons, List.map_nil, Nat.ofDigits_cons, Nat.ofDigits_nil]
  omega

theorem ofLength_eq_ok_iff : ofLength n = .ok h ↔ h.length = n := by
  refine ⟨length_ofLength, ?_⟩
  rintro rfl
  exact ofLength_length h

theorem exists_ofLength_iff : (∃ h, ofLength n = .ok h) ↔ n < lengthBound := by
  constructor
  · rintro ⟨h, hn⟩
    rw [← length_ofLength hn]
    exact h.length_lt
  · intro hn
    exact ⟨spelling n, if_pos hn⟩

theorem ofLength_eq_error_iff {error : Frame.Error} :
    ofLength n = .error error ↔ lengthBound ≤ n ∧ error = .lengthOverflow n := by
  rw [ofLength]
  by_cases hn : n < lengthBound
  · simp only [hn, if_true, reduceCtorEq, Nat.not_le.mpr hn, false_and]
  · simp only [hn, if_false, Except.error.injEq, Nat.le_of_not_lt hn, true_and]
    exact eq_comm

theorem bytes_inj (hb : h.bytes = h'.bytes) : h = h' := by
  rcases h with ⟨a, b, c, d⟩
  rcases h' with ⟨a', b', c', d'⟩
  cases hb
  rfl

/-- Four bytes are a header, and nothing else is. -/
theorem exists_bytes_iff {bs : Bytes} : (∃ h : Header, h.bytes = bs) ↔ bs.length = size := by
  constructor
  · rintro ⟨h, rfl⟩
    exact h.length_bytes
  · intro hlen
    rcases bs with _ | ⟨a, _ | ⟨b, _ | ⟨c, _ | ⟨d, _ | ⟨e, rest⟩⟩⟩⟩⟩
    case cons.cons.cons.cons.nil => exact ⟨⟨a, b, c, d⟩, rfl⟩
    all_goals simp only [List.length_cons, List.length_nil, size] at hlen
    all_goals omega

theorem split?_eq_some_iff {bs rest : Bytes} :
    split? bs = some (h, rest) ↔ bs = h.bytes ++ rest := by
  refine ⟨eq_of_split?, ?_⟩
  rintro rfl
  exact split?_bytes_append h rest

/-- No two lengths have the same bytes. -/
theorem ofLength_inj {m : Nat} (hn : ofLength n = .ok h) (hm : ofLength m = .ok h')
    (hb : h.bytes = h'.bytes) : n = m := by
  rw [← length_ofLength hn, ← length_ofLength hm, bytes_inj hb]

/-- Exactly the lengths below `2 ^ 32` have a header, and every other is too
    large and said to be. A length has the header that spells it, with the digits
    of the length for bytes, the most significant first. Any four bytes are the
    header of one length, and no others are; and at the front of a buffer a header
    is found exactly where its bytes are. -/
theorem lengths_exactly :
    (∀ n, (∃ h, ofLength n = .ok h) ↔ n ≤ 4294967295) ∧
    (∀ n error, ofLength n = .error error ↔ 4294967295 < n ∧ error = .lengthOverflow n) ∧
    (∀ n h, ofLength n = .ok h ↔ h.length = n) ∧
    (∀ h : Header, h.length = Nat.ofDigits 256 (h.bytes.reverse.map UInt8.toNat)) ∧
    (∀ bs : Bytes, bs.length = 4 ↔ ∃! n, ∃ h, ofLength n = .ok h ∧ h.bytes = bs) ∧
    ∀ bs h rest, split? bs = some (h, rest) ↔ bs = h.bytes ++ rest := by
  refine ⟨fun n => exists_ofLength_iff.trans Nat.lt_succ_iff,
    fun n error => ofLength_eq_error_iff, fun n h => ofLength_eq_ok_iff, length_eq_ofDigits, ?_,
    fun bs h rest => split?_eq_some_iff⟩
  intro bs
  constructor
  · intro hlen
    rcases exists_bytes_iff.mpr hlen with ⟨h, rfl⟩
    refine ⟨h.length, ⟨h, ofLength_length h, rfl⟩, ?_⟩
    rintro n ⟨h', hn, hb⟩
    exact ofLength_inj hn (ofLength_length h) hb
  · rintro ⟨_, ⟨h, _, rfl⟩, _⟩
    exact h.length_bytes

end FramedIpc.Header
