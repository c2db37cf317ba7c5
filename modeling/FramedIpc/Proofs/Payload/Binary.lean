import FramedIpc.Payload.Binary

/-!
# Numbers Come Back from Their Bytes

A natural in so many bytes is read back if it is in range, in either order, and
so many bytes are taken off the front of whatever follows them. The binary
formats use nothing else of `littleEndian` and `bigEndian`.

## Theorems

* `takeBytes?_append`: So many bytes are taken off the front.
* `takeLittle?_append`: A natural is, the least significant byte first.
* `takeBig?_append`: And the most significant byte first.
-/

namespace FramedIpc.Payload

theorem takeBytes?_append (bs rest : Bytes) :
    takeBytes? bs.length (bs ++ rest) = some (bs, rest) := by
  simp only [takeBytes?, List.take_left, List.drop_left, Nat.lt_irrefl, if_false]

theorem length_littleEndian (size n : Nat) : (littleEndian size n).length = size := by
  induction size generalizing n with
  | zero => rfl
  | succ size ih => rw [littleEndian, List.length_cons, ih]

theorem length_bigEndian (size n : Nat) : (bigEndian size n).length = size := by
  rw [bigEndian, List.length_reverse, length_littleEndian]

theorem ofLittleEndian_littleEndian {size n : Nat} (h : n < Nat.pow 256 size) :
    ofLittleEndian (littleEndian size n) = n := by
  induction size generalizing n with
  | zero =>
      have hzero : n < 1 := h
      rw [littleEndian, ofLittleEndian, List.foldr_nil]
      omega
  | succ size ih =>
      -- The first byte is the remainder and the others spell the quotient.
      have hsucc : n < Nat.pow 256 size * 256 := h
      have hhigh : n / 256 < Nat.pow 256 size := by omega
      have hrest := ih hhigh
      rw [ofLittleEndian] at hrest
      rw [littleEndian, ofLittleEndian, List.foldr_cons, hrest, UInt8.toNat_ofNat']
      omega

theorem ofBigEndian_bigEndian {size n : Nat} (h : n < Nat.pow 256 size) :
    ofBigEndian (bigEndian size n) = n := by
  have hlittle := ofLittleEndian_littleEndian h
  rw [ofLittleEndian] at hlittle
  rw [ofBigEndian, bigEndian, List.foldl_reverse]
  refine Eq.trans ?_ hlittle
  congr 1
  funext b k
  rw [Nat.mul_comm, Nat.add_comm]

theorem takeLittle?_append {size n : Nat} (h : n < Nat.pow 256 size) (rest : Bytes) :
    takeLittle? size (littleEndian size n ++ rest) = some (n, rest) := by
  have htake := takeBytes?_append (littleEndian size n) rest
  rw [length_littleEndian] at htake
  rw [takeLittle?, htake, Option.map_some, ofLittleEndian_littleEndian h]

theorem takeBig?_append {size n : Nat} (h : n < Nat.pow 256 size) (rest : Bytes) :
    takeBig? size (bigEndian size n ++ rest) = some (n, rest) := by
  have htake := takeBytes?_append (bigEndian size n) rest
  rw [length_bigEndian] at htake
  rw [takeBig?, htake, Option.map_some, ofBigEndian_bigEndian h]

end FramedIpc.Payload
