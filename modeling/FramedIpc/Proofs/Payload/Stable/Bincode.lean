import FramedIpc.Payload.Bincode
import FramedIpc.Proofs.Payload.Stable.Basic
import FramedIpc.Proofs.Text.Utf8

/-!
# What Follows a Value in Bincode

Bincode tells the reader nothing, so nothing can be told it by what follows. All
that is read has a size that the shape gives, or a count that stands in front of
it, or it is a character, whose first byte says how many there are.

## Theorems

* `stable_readEntries`: Entries are found whatever follows them.
* `stable_decode`: So is a value of any shape.
-/

namespace FramedIpc.Payload.Bincode

theorem stable_takeCount? : Stable takeCount? := stable_takeLittle? 8

theorem stable_takeText? : Stable takeText? :=
  stable_takeCount?.bind fun size => (stable_takeBytes? size).bind fun taken =>
    Stable.made (Text.ofUtf8? taken) id

theorem stable_takeBit? : Stable takeBit? := by
  intro bs more bit rest h
  unfold takeBit? at h
  split at h
  · cases h
    rfl
  · cases h
    rfl
  · cases h

theorem stable_readEntries {read : Reader} (h : Stable read) (n : Nat)
    (done : List (String × Datum)) : Stable (readEntries read n done) := by
  induction n generalizing done with
  | zero => exact Stable.some done
  | succ n ih =>
      refine (stable_takeText?.bind fun key => h.bind fun value =>
        ih (putKey key value done)).congr fun bs => ?_
      rw [readEntries]
      rcases takeText? bs with _ | ⟨key, behind⟩
      · rfl
      · simp only [Option.bind_some]
        cases read behind <;> rfl

theorem stable_readAlternative {alternatives : List (Alternative Reader)}
    (h : ∀ alternative ∈ alternatives, ∀ read ∈ alternative.reader, Stable read) (index : Nat) :
    Stable (readAlternative alternatives index) := by
  unfold readAlternative
  rcases hfound : alternatives[index]? with _ | ⟨name, _ | read⟩
  · exact Stable.none
  · exact Stable.some _
  · exact (h _ (List.mem_of_getElem? hfound) read rfl).map fun body =>
      Datum.variant index name (some body)

section Shapes

/-! What the shapes do that look at what they have read. -/

theorem stable_character : Stable (decode .character) := by
  intro bs more value rest h
  simp only [decode] at h ⊢
  rcases hfront : Text.firstScalar bs with _ | ⟨c, behind⟩ | _
  · rw [hfront] at h
    cases h
  · rw [hfront] at h
    cases h
    rw [Text.firstScalar_append more hfront]
  · rw [hfront] at h
    cases h

theorem stable_option {value : Shape} (h : Stable (decode value)) :
    Stable (decode (.option value)) := by
  have hnone (bs : Bytes) (h : takeBit? bs = none) : decode (.option value) bs = none := by
    simp only [decode, h]
  refine (HeadFirst.of_cases stable_takeBit? hnone ?_).stable
  rintro (_ | _)
  · exact .behind (Stable.some Datum.absent) fun bs rest hbit => by simp only [decode, hbit]
  · exact .behind (h.map Datum.present) fun bs rest hbit => by simp only [decode, hbit, Reader.map]

end Shapes

mutual

/-- A value of any shape is found whatever follows it. -/
theorem stable_decode : ∀ shape : Shape, Stable (decode shape)
  | .unit => Stable.some Datum.unit
  | .boolean => stable_takeBit?.map Datum.boolean
  | .unsigned width => (stable_takeLittle? width.bytes).map (Datum.unsigned width)
  | .signed width => (stable_takeLittle? width.bytes).map fun n =>
      Datum.signed width (ofTwosComplement width.bytes n)
  | .single => (stable_takeLittle? 4).map fun n => Datum.single (UInt32.ofNat n)
  | .double => (stable_takeLittle? 8).map fun n => Datum.double (UInt64.ofNat n)
  | .character => stable_character
  | .text => stable_takeText?.map Datum.text
  | .option value => stable_option (stable_decode value)
  | .sequence item => by
      have hitem := stable_decode item
      refine (stable_takeCount?.bind fun size =>
        (stable_times hitem size []).map Datum.sequence).congr fun bs => ?_
      simp only [decode]
      cases takeCount? bs <;> rfl
  | .tuple items => (stable_inOrder (stable_readers items)).map Datum.tuple
  | .mapping value => by
      have hvalue := stable_decode value
      refine (stable_takeCount?.bind fun size =>
        (stable_readEntries hvalue size []).map Datum.ofEntries).congr fun bs => ?_
      simp only [decode]
      cases takeCount? bs <;> rfl
  | .record fields =>
      (stable_inOrder (List.forall_mem_map.mpr (stable_fieldReaders fields))).map fun values =>
        Datum.record (named (fieldReaders fields) values)
  | .choice variants => by
      have hvariants := stable_alternativeReaders variants
      refine ((stable_takeLittle? 4).bind fun index =>
        stable_readAlternative hvariants index).congr fun bs => ?_
      simp only [decode]
      cases takeLittle? 4 bs <;> rfl
  | .anything => Stable.none

theorem stable_readers : ∀ (shapes : List Shape), ∀ read ∈ readers shapes, Stable read
  | [] => nofun
  | shape :: shapes => by
      rw [readers, List.forall_mem_cons]
      exact ⟨stable_decode shape, stable_readers shapes⟩

theorem stable_fieldReaders : ∀ (fields : List (String × Shape)),
    ∀ field ∈ fieldReaders fields, Stable field.reader
  | [] => nofun
  | (_, shape) :: fields => by
      rw [fieldReaders, List.forall_mem_cons]
      exact ⟨stable_decode shape, stable_fieldReaders fields⟩

theorem stable_alternativeReaders : ∀ (variants : List (String × Option Shape)),
    ∀ alternative ∈ alternativeReaders variants, ∀ read ∈ alternative.reader, Stable read
  | [] => nofun
  | (_, none) :: variants => by
      rw [alternativeReaders, List.forall_mem_cons]
      exact ⟨nofun, stable_alternativeReaders variants⟩
  | (_, some shape) :: variants => by
      rw [alternativeReaders, List.forall_mem_cons]
      refine ⟨?_, stable_alternativeReaders variants⟩
      rintro _ ⟨⟩
      exact stable_decode shape

end

end FramedIpc.Payload.Bincode
