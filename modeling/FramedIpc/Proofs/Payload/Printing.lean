import FramedIpc.Payload.Json.Printer
import FramedIpc.Payload.Json.Reader

/-!
# What Was Read Can Be Printed

Not every value has a text in JSON: a key has to be a text, and there is a value
that refuses to be written. Neither comes up in what was read. A value of which
nothing was known when it was read holds the tokens of some JSON and no more, so
it can be written down again, on one line or on several.

The reader takes values apart by depth, and so do the proofs: a list prints if
its items do (`Prints.sequence`), an object if the values of its entries do
(`Prints.ofEntries`), and one more depth adds one of the two.

## Main definitions

* `Prints`: Whether a value has a text in every setting.

## Theorems

* `prints_of_readItems`, `prints_of_readEntries`: Whatever items and values are
  read prints, if each does.
* `prints_of_readAnything`: A value of which nothing was known prints.
* `prints_of_decode`: So does the value that some bytes are.
-/

namespace FramedIpc.Payload.Json

/-- Whether a value has a text, however it is set. -/
def Prints (value : Datum) : Prop := ∀ setting, ∃ text, printed setting value = .ok text

section Printing

theorem exists_printedItems {items : List Datum} (h : ∀ item ∈ items, Prints item)
    (setting : Setting) : ∃ texts, printedItems setting items = .ok texts := by
  induction items with
  | nil => exact ⟨[], by rw [printedItems]⟩
  | cons item items ih =>
      rcases h item List.mem_cons_self setting with ⟨text, htext⟩
      rcases ih fun i hi => h i (List.mem_cons_of_mem _ hi) with ⟨texts, htexts⟩
      exact ⟨text :: texts, by rw [printedItems, htext, htexts]; rfl⟩

theorem exists_printedEntries {entries : List (String × Datum)}
    (h : ∀ entry ∈ entries, Prints entry.2) (setting : Setting) :
    ∃ texts, printedEntries setting (entries.map fun e => (.text e.1, e.2)) = .ok texts := by
  induction entries with
  | nil => exact ⟨[], by rw [List.map_nil, printedEntries]⟩
  | cons entry entries ih =>
      rcases h entry List.mem_cons_self setting with ⟨text, htext⟩
      rcases ih fun e he => h e (List.mem_cons_of_mem _ he) with ⟨texts, htexts⟩
      refine ⟨setting.entry entry.1 text :: texts, ?_⟩
      rw [List.map_cons, printedEntries, key?, htext, htexts]
      rfl

theorem Prints.sequence {items : List Datum} (h : ∀ item ∈ items, Prints item) :
    Prints (.sequence items) := by
  intro setting
  rcases exists_printedItems h setting.inner with ⟨texts, htexts⟩
  exact ⟨setting.enclosed '[' ']' texts, by rw [printed, htexts]; rfl⟩

theorem Prints.ofEntries {entries : List (String × Datum)}
    (h : ∀ entry ∈ entries, Prints entry.2) : Prints (Datum.ofEntries entries) := by
  intro setting
  rcases exists_printedEntries h setting.inner with ⟨texts, htexts⟩
  exact ⟨setting.enclosed '\x7b' '\x7d' texts, by rw [Datum.ofEntries, printed, htexts]; rfl⟩

theorem prints_unit : Prints .unit := fun _ => ⟨_, by rw [printed]⟩

theorem prints_boolean (value : Bool) : Prints (.boolean value) := fun _ => ⟨_, by rw [printed]⟩

theorem prints_text (value : String) : Prints (.text value) := fun _ => ⟨_, by rw [printed]⟩

theorem prints_number (number : Number) : Prints number.datum := by
  intro setting
  cases number with
  | natural n => exact ⟨_, by rw [Number.datum, printed]⟩
  | negative i => exact ⟨_, by rw [Number.datum, printed]⟩
  | real bits =>
      rw [Number.datum, Datum.ofReal]
      -- A real that JSON has no text for is written as null.
      by_cases hfinite : Real.isFinite bits = true
      · rw [if_pos hfinite]
        exact ⟨_, by rw [printed]⟩
      · rw [if_neg hfinite]
        exact prints_unit setting

end Printing

section Reading

/-- An entry that is put in takes nothing away but what had its key. -/
theorem mem_of_mem_putKey {α : Type} {key : String} {value : α} {entries : List (String × α)}
    {entry : String × α} (h : entry ∈ putKey key value entries) :
    entry = (key, value) ∨ entry ∈ entries := by
  induction entries with
  | nil => exact Or.inl (List.mem_singleton.mp h)
  | cons first rest ih =>
      rcases first with ⟨k, v⟩
      rw [putKey] at h
      split at h
      · exact List.mem_cons.mp h
      split at h
      · rcases List.mem_cons.mp h with heq | hrest
        · exact Or.inl heq
        · exact Or.inr (List.mem_cons_of_mem _ hrest)
      · rcases List.mem_cons.mp h with rfl | hrest
        · exact Or.inr List.mem_cons_self
        · exact (ih hrest).imp_right (List.mem_cons_of_mem _)

variable {read : ValueReader}

theorem prints_of_readItems (hread : ∀ {bs value rest}, read bs = .ok (value, rest) → Prints value)
    {n : Nat} {first : Bool} {done items : List Datum} {bs rest : Bytes}
    (hdone : ∀ item ∈ done, Prints item)
    (h : readItems read n first done bs = .ok (items, rest)) : ∀ item ∈ items, Prints item := by
  -- By the items that may still come; those that came print already.
  induction n generalizing first done bs with
  | zero => cases h
  | succ n ih =>
      rw [readItems] at h
      rcases hnext : nextItem first bs with e | ⟨_ | _, more⟩
      · rw [hnext] at h
        cases h
      · rw [hnext] at h
        cases h
        exact fun item hitem => hdone item (List.mem_reverse.mp hitem)
      rw [hnext] at h
      simp only [] at h
      rcases hvalue : read more with e | ⟨value, left⟩
      · rw [hvalue] at h
        cases h
      rw [hvalue] at h
      refine ih (fun item hitem => ?_) h
      rcases List.mem_cons.mp hitem with rfl | hmem
      · exact hread hvalue
      · exact hdone item hmem

theorem prints_of_readEntries
    (hread : ∀ {bs value rest}, read bs = .ok (value, rest) → Prints value) {n : Nat} {first : Bool}
    {done entries : List (String × Datum)} {bs rest : Bytes}
    (hdone : ∀ entry ∈ done, Prints entry.2)
    (h : readEntries read n first done bs = .ok (entries, rest)) :
    ∀ entry ∈ entries, Prints entry.2 := by
  induction n generalizing first done bs with
  | zero => cases h
  | succ n ih =>
      rw [readEntries] at h
      rcases hnext : nextKey first bs with e | ⟨_ | _, more⟩
      · rw [hnext] at h
        cases h
      · rw [hnext] at h
        cases h
        exact hdone
      rw [hnext] at h
      simp only [] at h
      rcases hkey : readText more with e | ⟨key, left⟩
      · rw [hkey] at h
        cases h
      simp only [hkey, Except.bind, Bind.bind] at h
      rcases hcolon : readColon left with e | afterColon
      · rw [hcolon] at h
        cases h
      rw [hcolon] at h
      simp only [] at h
      rcases hvalue : read afterColon with e | ⟨value, afterValue⟩
      · rw [hvalue] at h
        cases h
      rw [hvalue] at h
      refine ih (fun entry hentry => ?_) h
      rcases mem_of_mem_putKey hentry with rfl | hmem
      · exact hread hvalue
      · exact hdone entry hmem

theorem eq_of_nested {α : Type} {depth : Nat} {inside : Except Category α} {result : α}
    (h : nested depth inside = .ok result) : inside = .ok result := by
  rw [nested] at h
  split at h
  · cases h
  · exact h

/-- A value of which nothing was known when it was read can be printed. -/
theorem prints_of_readAnything {depth : Nat} {bs rest : Bytes} {value : Datum}
    (h : readAnything depth bs = .ok (value, rest)) : Prints value := by
  -- By the depth: what stands inside a list or an object has one less.
  induction depth generalizing bs value rest with
  | zero => cases h
  | succ depth ih =>
      rw [readAnything] at h
      rcases htoken : readToken bs with e | ⟨token, left⟩
      · rw [htoken] at h
        cases h
      rw [htoken] at h
      cases token with
      | null =>
          cases h
          exact prints_unit
      | boolean value =>
          cases h
          exact prints_boolean value
      | number number =>
          cases h
          exact prints_number number
      | text value =>
          cases h
          exact prints_text value
      | list =>
          have hlist := eq_of_nested h
          rcases hitems : readItems (readAnything depth) (left.length + 1) true [] left with
            e | ⟨items, more⟩
          · rw [hitems] at hlist
            cases hlist
          · rw [hitems] at hlist
            cases hlist
            exact .sequence (prints_of_readItems ih (List.forall_mem_nil _) hitems)
      | object =>
          have hobject := eq_of_nested h
          rcases hentries : readEntries (readAnything depth) (left.length + 1) true [] left with
            e | ⟨entries, more⟩
          · rw [hentries] at hobject
            cases hobject
          · rw [hentries] at hobject
            cases hobject
            exact .ofEntries (prints_of_readEntries ih (List.forall_mem_nil _) hentries)

end Reading

/-- So can the value that some bytes are. -/
theorem prints_of_decode {bs : Bytes} {value : Datum} (h : decode .anything bs = .ok value) :
    Prints value := by
  rw [decode, decodeAt] at h
  rcases hread : readAnything depthLimit bs with e | ⟨found, rest⟩
  · rw [hread] at h
    cases h
  · rw [hread] at h
    simp only [] at h
    split at h
    · cases h
      exact prints_of_readAnything hread
    · cases h

end FramedIpc.Payload.Json
