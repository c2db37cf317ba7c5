import FramedIpc.Payload.Binary
import FramedIpc.Payload.Fields
import FramedIpc.Text.Utf8

/-!
# What Follows a Value

The readers of the binary formats take what they want off the front, and what
follows it they leave alone. So what they find stays what it is if more follows.
The other way round, where the end of some bytes is missing, a reader cannot find
anything else in what is there: it finds the same as before and leaves less, or
it runs out of bytes and refuses them (`Stable.cut_cases`). If nothing was left
before, it refuses.

Readers are made of readers, and stability goes along: one reader after another,
one so many times over, one that goes by the head in front. The last kind needs
something besides. A reader that looks at the head for one thing, and leaves the
bytes to another reader if it does not find it, must not do so for want of bytes;
so it has to be known that the other one refuses where there is no head
(`HeadFirst`).

## Main definitions

* `CutShort`: Whether some bytes are others without their end.
* `Stable`: Whether what a reader finds does not depend on what follows.
* `SkipsStably`: Whether what is skipped does not.
* `Continues`: Whether a reader goes on stably once it has seen a head.
* `HeadFirst`: Whether a stable reader refuses what has no head.

## Theorems

* `Stable.cut_cases`: What a stable reader does with bytes that are cut short.
* `Stable.bind`: One stable reader after another is stable.
* `HeadFirst.of_cases`: So is one that goes by the head.
* `stable_takeBytes?`: Taking so many bytes is stable.
* `stable_times`, `stable_inOrder`: So is taking so many values.
-/

namespace FramedIpc.Payload

/-- Whether some bytes are others without their end. -/
def CutShort (cut whole : Bytes) : Prop :=
  ∃ missing, missing ≠ [] ∧ whole = cut ++ missing

section Cuts

variable {cut front back : Bytes} {b : UInt8}

theorem cutShort_iff {whole : Bytes} : CutShort cut whole ↔ cut <+: whole ∧ cut ≠ whole := by
  constructor
  · rintro ⟨missing, hmissing, rfl⟩
    exact ⟨List.prefix_append cut missing, fun h => hmissing (List.self_eq_append_right.mp h)⟩
  · rintro ⟨⟨missing, rfl⟩, hne⟩
    refine ⟨missing, ?_, rfl⟩
    rintro rfl
    exact hne (List.append_nil cut).symm

theorem not_cutShort_nil : ¬ CutShort cut [] := by
  rintro ⟨missing, hmissing, h⟩
  exact hmissing (List.append_eq_nil_iff.mp h.symm).2

theorem CutShort.length_lt {whole : Bytes} (h : CutShort cut whole) :
    cut.length < whole.length := by
  rcases h with ⟨missing, hmissing, rfl⟩
  have hpos := List.length_pos_iff.mpr hmissing
  rw [List.length_append]
  omega

theorem CutShort.mem {whole : Bytes} (h : CutShort cut whole) (hb : b ∈ cut) : b ∈ whole := by
  rcases h with ⟨missing, _, rfl⟩
  exact List.mem_append_left missing hb

/-- Nothing is left, or the first byte. -/
theorem CutShort.cons_cases (h : CutShort cut (b :: back)) :
    cut = [] ∨ ∃ cut', cut = b :: cut' ∧ CutShort cut' back := by
  rcases h with ⟨missing, hmissing, hwhole⟩
  rcases List.cons_eq_append_iff.mp hwhole with ⟨hnil, _⟩ | ⟨cut', hcut, hback⟩
  · exact Or.inl hnil
  · exact Or.inr ⟨cut', hcut, missing, hmissing, hback⟩

/-- The cut is in the first part, or all of that is there. -/
theorem CutShort.append_cases (h : CutShort cut (front ++ back)) :
    CutShort cut front ∨ ∃ cut', cut = front ++ cut' ∧ CutShort cut' back := by
  rcases h with ⟨missing, hmissing, hwhole⟩
  rcases List.append_eq_append_iff.mp hwhole with ⟨cut', hcut, hback⟩ | ⟨lost, hfront, hlost⟩
  · exact Or.inr ⟨cut', hcut, missing, hmissing, hback⟩
  · by_cases hnil : lost = []
    · rw [hnil, List.append_nil] at hfront
      rw [hnil, List.nil_append] at hlost
      exact Or.inr ⟨[], by rw [hfront, List.append_nil], missing, hmissing, hlost.symm⟩
    · exact Or.inl ⟨lost, hnil, hfront⟩

end Cuts

/-- Whether what a reader takes off the front does not depend on what follows. -/
def Stable {α : Type} (read : Bytes → Option (α × Bytes)) : Prop :=
  ∀ bs more a rest, read bs = some (a, rest) → read (bs ++ more) = some (a, rest ++ more)

/-- Whether what is skipped does not depend on what follows. -/
def SkipsStably (skip : Bytes → Option Bytes) : Prop :=
  ∀ bs more rest, skip bs = some rest → skip (bs ++ more) = some (rest ++ more)

/-- Whether a stable reader refuses what has no head. -/
structure HeadFirst {α β : Type} (take : Bytes → Option (α × Bytes))
    (read : Bytes → Option (β × Bytes)) : Prop where
  stable : Stable read
  needs : ∀ bs, take bs = none → read bs = none

/-- Whether a reader goes on stably once it has seen a head: from behind it, or by
    leaving it to another reader. -/
inductive Continues {α β : Type} (take : Bytes → Option (α × Bytes))
    (read : Bytes → Option (β × Bytes)) (head : α) : Prop where
  | behind {next : Bytes → Option (β × Bytes)} : Stable next →
      (∀ bs rest, take bs = some (head, rest) → read bs = next rest) → Continues take read head
  | again {next : Bytes → Option (β × Bytes)} : Stable next →
      (∀ bs rest, take bs = some (head, rest) → read bs = next bs) → Continues take read head

variable {α β : Type} {read : Bytes → Option (α × Bytes)}

namespace Stable

/-- Where the end is missing, a stable reader refuses or finds the same. -/
theorem cut_cases (h : Stable read) {cut whole rest : Bytes} {a : α}
    (hwhole : read whole = some (a, rest)) (hcut : CutShort cut whole) :
    read cut = none ∨ ∃ cut', read cut = some (a, cut') ∧ CutShort cut' rest := by
  rcases hcut with ⟨missing, hmissing, rfl⟩
  rcases hread : read cut with _ | ⟨a', cut'⟩
  · exact Or.inl rfl
  · rw [h cut missing a' cut' hread] at hwhole
    cases hwhole
    exact Or.inr ⟨cut', rfl, missing, hmissing, rfl⟩

/-- It refuses if it took everything before. -/
theorem eq_none_of_cutShort (h : Stable read) {cut whole : Bytes} {a : α}
    (hwhole : read whole = some (a, [])) (hcut : CutShort cut whole) : read cut = none := by
  rcases h.cut_cases hwhole hcut with hnone | ⟨cut', _, hcut'⟩
  · exact hnone
  · exact absurd hcut' not_cutShort_nil

theorem none : Stable fun _ => (none : Option (α × Bytes)) := nofun

theorem some (a : α) : Stable fun bs => some (a, bs) := by
  intro bs more a' rest h
  cases h
  rfl

/-- Something that is made without reading, if it can be. -/
theorem made (a? : Option α) (f : α → β) :
    Stable fun bs => a?.bind fun a => Option.some (f a, bs) := by
  cases a? with
  | none => exact nofun
  | some a => exact Stable.some (f a)

theorem given (a? : Option α) : Stable fun bs => a?.map fun a => (a, bs) := by
  cases a? with
  | none => exact nofun
  | some a => exact Stable.some a

/-- One reader after another, with what the first has found. -/
theorem bind (h : Stable read) {next : α → Bytes → Option (β × Bytes)}
    (hnext : ∀ a, Stable (next a)) : Stable fun bs => (read bs).bind fun r => next r.1 r.2 := by
  intro bs more b rest hbind
  rcases Option.bind_eq_some_iff.mp hbind with ⟨⟨a, rest'⟩, hread, hrest⟩
  exact Option.bind_eq_some_iff.mpr ⟨_, h bs more a rest' hread, hnext a rest' more b rest hrest⟩

theorem congr (h : Stable read) {other : Bytes → Option (α × Bytes)}
    (hsame : ∀ bs, other bs = read bs) : Stable other := by
  intro bs more a rest hother
  rw [hsame] at hother ⊢
  exact h bs more a rest hother

theorem map (h : Stable read) (f : α → β) :
    Stable fun bs => (read bs).map fun r => (f r.1, r.2) := by
  intro bs more b rest hmap
  rcases Option.map_eq_some_iff.mp hmap with ⟨⟨a, rest'⟩, hread, heq⟩
  cases heq
  exact Option.map_eq_some_iff.mpr ⟨_, h bs more a rest' hread, rfl⟩

/-- A choice that is made without reading. -/
theorem ite {p : Prop} [Decidable p] {other : Bytes → Option (α × Bytes)} (h : Stable read)
    (hother : Stable other) : Stable fun bs => if p then read bs else other bs := by
  by_cases hp : p
  · simp only [hp, if_true]
    exact h
  · simp only [hp, if_false]
    exact hother

end Stable

/-- A reader that goes by the head is stable if it goes on stably after each. -/
theorem HeadFirst.of_cases {take : Bytes → Option (β × Bytes)} (htake : Stable take)
    (hnone : ∀ bs, take bs = none → read bs = none) (hsome : ∀ head, Continues take read head) :
    HeadFirst take read := by
  refine ⟨fun bs more a rest hread => ?_, hnone⟩
  rcases hhead : take bs with _ | ⟨head, behind⟩
  · rw [hnone bs hhead] at hread
    cases hread
  have hmore := htake bs more head behind hhead
  cases hsome head with
  | behind hnext hgoes =>
      rw [hgoes bs behind hhead] at hread
      rw [hgoes _ _ hmore]
      exact hnext behind more a rest hread
  | again hnext hgoes =>
      rw [hgoes bs behind hhead] at hread
      rw [hgoes _ _ hmore]
      exact hnext bs more a rest hread

/-- A head may be looked for by what itself goes by a head. -/
theorem HeadFirst.trans {γ : Type} {take : Bytes → Option (γ × Bytes)}
    {behind : Bytes → Option (β × Bytes)} (hbehind : HeadFirst take behind)
    (h : HeadFirst behind read) : HeadFirst take read :=
  ⟨h.stable, fun bs hnone => h.needs bs (hbehind.needs bs hnone)⟩

theorem HeadFirst.bind {γ : Type} {take : Bytes → Option (γ × Bytes)} (h : HeadFirst take read)
    {next : α → Bytes → Option (β × Bytes)} (hnext : ∀ a, Stable (next a)) :
    HeadFirst take fun bs => (read bs).bind fun r => next r.1 r.2 :=
  ⟨h.stable.bind hnext, fun bs hnone => by rw [h.needs bs hnone, Option.bind_none]⟩

theorem HeadFirst.map {γ : Type} {take : Bytes → Option (γ × Bytes)} (h : HeadFirst take read)
    (f : α → β) : HeadFirst take fun bs => (read bs).map fun r => (f r.1, r.2) :=
  ⟨h.stable.map f, fun bs hnone => by rw [h.needs bs hnone, Option.map_none]⟩

/-- What reads a value and lets it go skips stably, and the other way round. -/
theorem Stable.skipsStably (h : Stable read) : SkipsStably fun bs => (read bs).map Prod.snd := by
  intro bs more rest hskip
  rcases Option.map_eq_some_iff.mp hskip with ⟨⟨a, rest'⟩, hread, rfl⟩
  exact Option.map_eq_some_iff.mpr ⟨_, h bs more a rest' hread, rfl⟩

theorem Stable.leaves (h : Stable read) :
    SkipsStably fun bs => (read bs).bind fun r => Option.some r.2 := by
  intro bs more rest hskip
  rcases Option.bind_eq_some_iff.mp hskip with ⟨⟨a, rest'⟩, hread, heq⟩
  cases heq
  exact Option.bind_eq_some_iff.mpr ⟨_, h bs more a rest' hread, rfl⟩

theorem SkipsStably.stable {skip : Bytes → Option Bytes} (h : SkipsStably skip) (a : α) :
    Stable fun bs => (skip bs).map fun rest => (a, rest) := by
  intro bs more a' rest hread
  rcases Option.map_eq_some_iff.mp hread with ⟨rest', hskip, heq⟩
  cases heq
  exact Option.map_eq_some_iff.mpr ⟨_, h bs more rest hskip, rfl⟩

section Numbers

theorem stable_takeBytes? (n : Nat) : Stable (takeBytes? n) := by
  intro bs more taken rest h
  unfold takeBytes? at h ⊢
  simp only [List.length_take] at h ⊢
  split at h
  · cases h
  · have hle : n ≤ bs.length := by omega
    cases h
    rw [if_neg (by rw [List.length_append]; omega), List.take_append_of_le_length hle,
      List.drop_append_of_le_length hle]

theorem stable_takeBig? (size : Nat) : Stable (takeBig? size) := (stable_takeBytes? size).map _

theorem stable_takeLittle? (size : Nat) : Stable (takeLittle? size) :=
  (stable_takeBytes? size).map _

end Numbers

section Parts

/-- A reader so many times over. -/
theorem stable_times {read : Reader} (h : Stable read) (n : Nat) (done : List Datum) :
    Stable (Reader.times read n done) := by
  induction n generalizing done with
  | zero => exact Stable.some done.reverse
  | succ n ih =>
      refine (h.bind fun value => ih (value :: done)).congr fun bs => ?_
      rw [Reader.times]
      cases read bs <;> rfl

/-- Readers one after another. -/
theorem stable_inOrder {reads : List Reader} (h : ∀ read ∈ reads, Stable read) :
    Stable (Reader.inOrder reads) := by
  induction reads with
  | nil => exact Stable.some []
  | cons read reads ih =>
      have hrest := ih fun read' hread => h read' (List.mem_cons_of_mem _ hread)
      exact (h read List.mem_cons_self).bind fun value => hrest.bind fun values =>
        Stable.some (value :: values)

/-- The one character of a text, if it has just one. -/
theorem stable_sole (text : String) : Stable fun bs =>
    match text.toList with
    | [c] => some (Datum.character c, bs)
    | _ => none := by
  rcases text.toList with _ | ⟨c, _ | _⟩
  · exact Stable.none
  · exact Stable.some (Datum.character c)
  · exact Stable.none

end Parts

end FramedIpc.Payload
