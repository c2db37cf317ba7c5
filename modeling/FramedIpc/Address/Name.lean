import FramedIpc.Address.Error

/-!
# Channel Names

A channel is known by a name that becomes one component of a path, so it is
not empty and holds no separator of any system's paths and no NUL. A name can
be qualified: the qualifier follows an underscore, and the whole is checked
again, so every name there is has been checked.

The type carries the check. Whoever holds a `Name` may put it into a path.

## Main definitions

* `Valid`: What a text has to be to name a channel.
* `Name`: A channel name.
* `Name.of`: The name of a text, or the reason why it is none.
* `Name.qualified`: A name with a qualifier.

## Theorems

* `reason?_eq_none_iff`: There is no reason exactly where the text is valid.
-/

namespace FramedIpc

namespace Address

/-- Whether a character separates the components of a path. -/
def isSeparator (c : Char) : Bool :=
  c = '/' || c = '\\'

/-- What a text has to be to name a channel. -/
def Valid (cs : List Char) : Prop :=
  cs ≠ [] ∧ ∀ c ∈ cs, isSeparator c = false ∧ c ≠ '\x00'

/-- The first reason, in this order, why a text names no channel. -/
def reason? (cs : List Char) : Option Reason :=
  if cs.isEmpty then some .empty
  else if cs.any isSeparator then some .separator
  else if cs.contains '\x00' then some .nul
  else none

theorem reason?_eq_none_iff (cs : List Char) : reason? cs = none ↔ Valid cs := by
  unfold reason? Valid
  constructor
  · intro h
    split at h
    · exact absurd h (by simp only [reduceCtorEq, not_false_eq_true])
    split at h
    · exact absurd h (by simp only [reduceCtorEq, not_false_eq_true])
    split at h
    · exact absurd h (by simp only [reduceCtorEq, not_false_eq_true])
    · rename_i he hs hn
      refine ⟨fun hc => he (hc ▸ rfl), fun c hc => ⟨?_, ?_⟩⟩
      · cases hsep : isSeparator c with
        | false => rfl
        | true => exact absurd (List.any_eq_true.2 ⟨c, hc, hsep⟩) hs
      · intro hz
        exact hn (List.contains_iff_mem.2 (hz ▸ hc))
  · rintro ⟨he, hv⟩
    rw [if_neg (by simpa only [List.isEmpty_iff] using he), if_neg, if_neg]
    · intro h
      exact (hv _ (List.contains_iff_mem.1 h)).2 rfl
    · intro h
      rcases List.any_eq_true.1 h with ⟨c, hc, hs⟩
      exact Bool.false_ne_true ((hv c hc).1.symm.trans hs)

end Address

/-- A channel name. -/
structure Name where
  /-- The name as written. -/
  text : String
  valid : Address.Valid text.toList

namespace Name

/-- The name that a text is, or why it is none. -/
def of (text : String) : Except Address.Error Name :=
  match h : Address.reason? text.toList with
  | some reason => .error (.invalidName text reason)
  | none => .ok ⟨text, (Address.reason?_eq_none_iff _).1 h⟩

/-- A name with a qualifier after an underscore. The empty qualifier leaves
    the name as it is. -/
def qualified (name : Name) (qualifier : String) : Except Address.Error Name :=
  -- No underscore either.
  if qualifier = "" then .ok name
  else of (name.text ++ "_" ++ qualifier)

end Name

end FramedIpc
