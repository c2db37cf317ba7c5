import FramedIpc.Frame.Error
import FramedIpc.Text.Utf8

/-!
# Frame Headers

A frame begins with the length of its payload in four bytes, the most
significant first. The bytes are the digits of the length to base 256, so a
header and a length below `2 ^ 32` are two ways to write the same thing.

## Main definitions

* `Header`: The four bytes.
* `Header.length`: The length they spell.
* `Header.ofLength`: The header of a length, if it fits.
* `Header.split?`: The header at the front of some bytes, and the rest.

## Theorems

* `Header.length_ofLength`: The header of a length spells that length.
* `Header.ofLength_length`: The length of a header has that header.
-/

namespace FramedIpc

/-- The least length that does not fit a header. -/
def lengthBound : Nat := 4294967296

/-- The four bytes that begin a frame. -/
structure Header where
  first : UInt8
  second : UInt8
  third : UInt8
  fourth : UInt8
  deriving DecidableEq, Repr

namespace Header

/-- How many bytes a header is. -/
def size : Nat := 4

/-- The bytes of a header, in order. -/
def bytes (h : Header) : Bytes :=
  [h.first, h.second, h.third, h.fourth]

/-- The length that a header spells. -/
def length (h : Header) : Nat :=
  ((h.first.toNat * 256 + h.second.toNat) * 256 + h.third.toNat) * 256 + h.fourth.toNat

/-- The header that spells a length below the bound. -/
def spelling (n : Nat) : Header :=
  ⟨UInt8.ofNat (n / 16777216), UInt8.ofNat (n / 65536), UInt8.ofNat (n / 256), UInt8.ofNat n⟩

/-- The header of a length, if the length fits. -/
def ofLength (n : Nat) : Except Frame.Error Header :=
  if n < lengthBound then .ok (spelling n) else .error (.lengthOverflow n)

/-- The header at the front of some bytes, and the bytes after it. -/
def split? : Bytes → Option (Header × Bytes)
  | a :: b :: c :: d :: rest => some (⟨a, b, c, d⟩, rest)
  | _ => none

theorem length_lt (h : Header) : h.length < lengthBound := by
  have h1 := h.first.toNat_lt
  have h2 := h.second.toNat_lt
  have h3 := h.third.toNat_lt
  have h4 := h.fourth.toNat_lt
  simp only [length, lengthBound]
  omega

theorem length_bytes (h : Header) : h.bytes.length = size := rfl

theorem length_spelling {n : Nat} (hn : n < lengthBound) : (spelling n).length = n := by
  simp only [length, spelling, lengthBound, UInt8.toNat_ofNat'] at *
  omega

theorem spelling_length (h : Header) : spelling h.length = h := by
  have h1 := h.first.toNat_lt
  have h2 := h.second.toNat_lt
  have h3 := h.third.toNat_lt
  have h4 := h.fourth.toNat_lt
  cases h with
  | mk a b c d =>
      simp only [length, spelling, mk.injEq, ← UInt8.toNat_inj, UInt8.toNat_ofNat'] at *
      omega

/-- The header of a length spells that length. -/
theorem length_ofLength {n : Nat} {h : Header} (hn : ofLength n = .ok h) : h.length = n := by
  unfold ofLength at hn
  split at hn
  · cases hn
    exact length_spelling ‹_›
  · cases hn

/-- The length of a header has that header. -/
theorem ofLength_length (h : Header) : ofLength h.length = .ok h := by
  rw [ofLength, if_pos h.length_lt, spelling_length]

theorem split?_bytes_append (h : Header) (rest : Bytes) :
    split? (h.bytes ++ rest) = some (h, rest) := rfl

theorem eq_of_split? {bs rest : Bytes} {h : Header} (hs : split? bs = some (h, rest)) :
    bs = h.bytes ++ rest := by
  match bs with
  | a :: b :: c :: d :: tail =>
      simp only [split?, Option.some.injEq, Prod.mk.injEq] at hs
      rcases hs with ⟨rfl, rfl⟩
      rfl

end Header

end FramedIpc
