import FramedIpc.Address.Name

/-!
# Names and Their Qualifiers

A name is checked where it is made. A name that is read is made from its text,
and a name with a qualifier is made as any other, so there is one check for all
of them. What has to be shown is that this one check says the same of a qualifier
as of a name: whatever is wrong with the whole is wrong with the qualifier, since
a name and an underscore have no flaw to add (`plain_append`). A qualifier may be
anything that a name may be, and may be empty as well.

So a row of qualifiers can be judged without looking at the names in between.
Each is taken or turned away for what it holds, whatever went before, and the
last name is the first one with those behind it that were taken. The text of a
name tells which qualifier made it of a given one.

## Main definitions

* `Address.Plain`: A text with no character that names are not made of.
* `Address.Flaw`: What a reason says of a text.
* `Address.firstFlaw?`: The first reason that applies.
* `Name.suffix`: What a qualifier adds to a name.
* `Name.chain`: Qualify a name with one text after another.
* `Name.reached`: The text that some qualifications have come to.
* `Name.Judged`: What came of one qualifier.
* `Name.Qualifies`: What a row of qualifications comes to.

## Theorems

* `Name.of_eq_ok_iff`: A text is a name exactly if it has no flaw.
* `Name.of_eq_error_iff`: Else the first flaw is told.
* `Name.qualified_eq_ok_iff`: A qualifier is taken exactly if it is plain.
* `Name.qualified_eq_error_iff`: Else the first flaw of the whole is told.
* `Name.qualifies_chain`: A row of qualifications, step by step.
* `Name.qualified_inj`: Different qualifiers make different names.
* `Name.names_exactly`: What texts and qualifiers make names, and which.
-/

namespace FramedIpc

namespace Address

/-- A text with no character that names are not made of. -/
def Plain (text : String) : Prop :=
  '/' ∉ text.toList ∧ '\\' ∉ text.toList ∧ '\x00' ∉ text.toList

instance : DecidablePred Plain :=
  fun _ => inferInstanceAs (Decidable (_ ∧ _ ∧ _))

/-- What a reason says of a text. -/
def Flaw (text : String) : Reason → Prop
  | .empty => text = ""
  | .separator => '/' ∈ text.toList ∨ '\\' ∈ text.toList
  | .nul => '\x00' ∈ text.toList

instance (text : String) : DecidablePred (Flaw text)
  | .empty => inferInstanceAs (Decidable (_ = _))
  | .separator => inferInstanceAs (Decidable (_ ∨ _))
  | .nul => inferInstanceAs (Decidable (_ ∈ _))

/-- The first reason that applies to a text. -/
def firstFlaw? (text : String) : Option Reason :=
  [Reason.empty, .separator, .nul].find? (Flaw text ·)

theorem plain_append {front back : String} :
    Plain (front ++ back) ↔ Plain front ∧ Plain back := by
  unfold Plain
  simp only [String.toList_append, List.mem_append, not_or]
  constructor
  · rintro ⟨⟨h1, h1'⟩, ⟨h2, h2'⟩, h3, h3'⟩
    exact ⟨⟨h1, h2, h3⟩, h1', h2', h3'⟩
  · rintro ⟨⟨h1, h2, h3⟩, h1', h2', h3'⟩
    exact ⟨⟨h1, h1'⟩, ⟨h2, h2'⟩, h3, h3'⟩

theorem any_isSeparator_iff (cs : List Char) :
    cs.any isSeparator = true ↔ '/' ∈ cs ∨ '\\' ∈ cs := by
  simp only [List.any_eq_true, isSeparator, Bool.or_eq_true, decide_eq_true_eq]
  constructor
  · rintro ⟨c, hc, rfl | rfl⟩
    · exact Or.inl hc
    · exact Or.inr hc
  · rintro (hc | hc)
    · exact ⟨_, hc, Or.inl rfl⟩
    · exact ⟨_, hc, Or.inr rfl⟩

/-- The check goes through the reasons in their order. -/
theorem reason?_eq_firstFlaw? (text : String) : reason? text.toList = firstFlaw? text := by
  have hempty : text.toList.isEmpty = decide (Flaw text .empty) := by
    rw [Bool.eq_iff_iff, decide_eq_true_iff, List.isEmpty_iff, String.toList_eq_nil_iff]
    rfl
  have hseparator : text.toList.any isSeparator = decide (Flaw text .separator) := by
    rw [Bool.eq_iff_iff, decide_eq_true_iff, any_isSeparator_iff]
    rfl
  have hnul : text.toList.contains '\x00' = decide (Flaw text .nul) := by
    rw [Bool.eq_iff_iff, decide_eq_true_iff, List.contains_iff_mem]
    rfl
  rw [reason?, firstFlaw?, hempty, hseparator, hnul]
  simp only [List.find?_cons, List.find?_nil]
  cases decide (Flaw text .empty) with
  | true => rfl
  | false =>
      cases decide (Flaw text .separator) with
      | true => rfl
      | false => cases decide (Flaw text .nul) <;> rfl

/-- No reason applies to a text that is plain and not empty, and to no other. -/
theorem firstFlaw?_eq_none_iff {text : String} :
    firstFlaw? text = none ↔ text ≠ "" ∧ Plain text := by
  rw [firstFlaw?, List.find?_eq_none]
  constructor
  · intro h
    have hflaw : ∀ reason, ¬ Flaw text reason := fun reason hreason =>
      h reason (by cases reason <;> decide) (decide_eq_true hreason)
    exact ⟨hflaw .empty, fun hc => hflaw .separator (Or.inl hc),
      fun hc => hflaw .separator (Or.inr hc), hflaw .nul⟩
  · rintro ⟨hempty, hslash, hbackslash, hnul⟩ reason -
    rw [decide_eq_true_iff]
    cases reason with
    | empty => exact hempty
    | separator => exact not_or.mpr ⟨hslash, hbackslash⟩
    | nul => exact hnul

end Address

namespace Name

open Address

theorem eq_of_text {name other : Name} (h : name.text = other.text) : name = other := by
  cases name
  cases other
  cases h
  rfl

theorem firstFlaw?_text (name : Name) : firstFlaw? name.text = none := by
  rw [← reason?_eq_firstFlaw?, reason?_eq_none_iff]
  exact name.valid

theorem of_of_flaw {text : String} {reason : Reason} (h : firstFlaw? text = some reason) :
    of text = .error (.invalidName text reason) := by
  unfold of
  split
  · rename_i found hfound
    rw [reason?_eq_firstFlaw?, h] at hfound
    cases hfound
    rfl
  · rename_i hfound
    rw [reason?_eq_firstFlaw?, h] at hfound
    cases hfound

theorem of_text (name : Name) : of name.text = .ok name := by
  unfold of
  split
  · rename_i found hfound
    rw [reason?_eq_firstFlaw?, firstFlaw?_text] at hfound
    cases hfound
  · rfl

theorem exists_of {text : String} (h : firstFlaw? text = none) : ∃ name : Name, name.text = text :=
  ⟨⟨text, (reason?_eq_none_iff _).mp ((reason?_eq_firstFlaw? text).trans h)⟩, rfl⟩

/-- A text is a name exactly if it has no flaw, and then it is the text of the
    name. -/
theorem of_eq_ok_iff {text : String} {name : Name} :
    of text = .ok name ↔ (text ≠ "" ∧ Plain text) ∧ name.text = text := by
  rw [← firstFlaw?_eq_none_iff]
  constructor
  · intro h
    rcases hflaw : firstFlaw? text with _ | reason
    · rcases exists_of hflaw with ⟨made, rfl⟩
      rw [of_text] at h
      cases h
      exact ⟨rfl, rfl⟩
    · rw [of_of_flaw hflaw] at h
      cases h
  · rintro ⟨_, rfl⟩
    exact of_text name

/-- Else the first flaw is told. -/
theorem of_eq_error_iff {text : String} {error : Error} :
    of text = .error error ↔
      ∃ reason, firstFlaw? text = some reason ∧ error = .invalidName text reason := by
  constructor
  · intro h
    rcases hflaw : firstFlaw? text with _ | reason
    · rcases exists_of hflaw with ⟨made, rfl⟩
      rw [of_text] at h
      cases h
    · rw [of_of_flaw hflaw] at h
      cases h
      exact ⟨reason, rfl, rfl⟩
  · rintro ⟨reason, hflaw, rfl⟩
    exact of_of_flaw hflaw

/-- What a qualifier adds to a name. -/
def suffix (qualifier : String) : String :=
  if qualifier = "" then "" else "_" ++ qualifier

/-- A name and an underscore add no flaw to a qualifier. -/
theorem firstFlaw?_whole_iff (name : Name) (qualifier : String) :
    firstFlaw? (name.text ++ "_" ++ qualifier) = none ↔ Plain qualifier := by
  rcases firstFlaw?_eq_none_iff.mp name.firstFlaw?_text with ⟨hne, hplain⟩
  have hunderscore : Plain "_" := by decide
  rw [firstFlaw?_eq_none_iff, plain_append, plain_append]
  constructor
  · rintro ⟨_, _, hqualifier⟩
    exact hqualifier
  · intro hqualifier
    refine ⟨?_, ⟨hplain, hunderscore⟩, hqualifier⟩
    intro hempty
    rw [String.append_eq_empty_iff, String.append_eq_empty_iff] at hempty
    exact hne hempty.1.1

/-- A qualifier is taken exactly if it is plain, and then the name goes on with
    it. -/
theorem qualified_eq_ok_iff {name made : Name} {qualifier : String} :
    name.qualified qualifier = .ok made ↔
      Plain qualifier ∧ made.text = name.text ++ suffix qualifier := by
  unfold qualified suffix
  by_cases hempty : qualifier = ""
  · simp only [hempty, if_true, Except.ok.injEq, String.append_empty]
    constructor
    · rintro rfl
      exact ⟨by decide, rfl⟩
    · rintro ⟨_, htext⟩
      exact (eq_of_text htext).symm
  · simp only [hempty, if_false]
    rw [of_eq_ok_iff, ← firstFlaw?_eq_none_iff, firstFlaw?_whole_iff, String.append_assoc]

/-- Else the first flaw of the whole is told. -/
theorem qualified_eq_error_iff {name : Name} {qualifier : String} {error : Error} :
    name.qualified qualifier = .error error ↔
      ∃ reason, firstFlaw? (name.text ++ "_" ++ qualifier) = some reason ∧
        error = .invalidName (name.text ++ "_" ++ qualifier) reason := by
  unfold qualified
  by_cases hempty : qualifier = ""
  · simp only [hempty, if_true]
    refine iff_of_false nofun ?_
    rintro ⟨reason, hflaw, _⟩
    rw [(firstFlaw?_whole_iff name "").mpr (by decide)] at hflaw
    cases hflaw
  · simp only [hempty, if_false]
    exact of_eq_error_iff

theorem suffix_eq_empty_iff {qualifier : String} : suffix qualifier = "" ↔ qualifier = "" := by
  unfold suffix
  by_cases hempty : qualifier = ""
  · simp only [hempty, if_true]
  · simp only [hempty, if_false, iff_false, String.append_eq_empty_iff]
    exact fun h => absurd h.1 (by decide)

theorem suffix_inj {qualifier other : String} (h : suffix qualifier = suffix other) :
    qualifier = other := by
  by_cases hempty : qualifier = ""
  · rw [hempty, suffix_eq_empty_iff.mpr rfl, eq_comm, suffix_eq_empty_iff] at h
    rw [hempty, h]
  by_cases hother : other = ""
  · rw [hother, suffix_eq_empty_iff.mpr rfl, suffix_eq_empty_iff] at h
    exact absurd h hempty
  · rw [suffix, suffix, if_neg hempty, if_neg hother, String.append_right_inj] at h
    exact h

/-- Different qualifiers make different names of one. -/
theorem qualified_inj {name made : Name} {qualifier other : String}
    (h : name.qualified qualifier = .ok made) (h' : name.qualified other = .ok made) :
    qualifier = other := by
  have hsame := (qualified_eq_ok_iff.mp h).2.symm.trans (qualified_eq_ok_iff.mp h').2
  exact suffix_inj ((String.append_right_inj name.text).mp hsame)

/-- Only the empty qualifier gives the name back. -/
theorem qualified_eq_self_iff {name : Name} {qualifier : String} :
    name.qualified qualifier = .ok name ↔ qualifier = "" := by
  constructor
  · exact fun h => qualified_inj h (if_pos rfl)
  · rintro rfl
    exact if_pos rfl

/-- Qualify a name with some texts one after another, each time the last name
    that was made. Each qualifier is kept with what came of it, and the second
    part is the last name. -/
def chain (name : Name) : List String → List (String × Except Error Name) × Name
  | [] => ([], name)
  | qualifier :: rest =>
    match name.qualified qualifier with
    | .ok made => ((qualifier, .ok made) :: (made.chain rest).1, (made.chain rest).2)
    | .error error => ((qualifier, .error error) :: (name.chain rest).1, (name.chain rest).2)

/-- The text that some qualifications of a text have come to: behind it those
    that are not empty and were taken, each after an underscore. -/
def reached (text : String) (steps : List (String × Except Error Name)) : String :=
  text ++ String.join
    ((steps.filter fun step => step.1 ≠ "" && step.2.isOk).map fun step => "_" ++ step.1)

/-- What came of a qualifier, if the name to be qualified has this text. -/
structure Judged (text qualifier : String) (outcome : Except Error Name) : Prop where
  /-- It is taken exactly if it is plain. -/
  taken : (∃ made, outcome = .ok made) ↔ Plain qualifier
  /-- Then the name goes on with it, and is as plain as any. -/
  made : ∀ made, outcome = .ok made →
    made.text = reached text [(qualifier, outcome)] ∧ made.text ≠ "" ∧ Plain made.text
  /-- Else it is told what is wrong, the first of all there is. -/
  refused : ∀ error, outcome = .error error ↔
    ∃ reason, firstFlaw? (text ++ "_" ++ qualifier) = some reason ∧
      error = .invalidName (text ++ "_" ++ qualifier) reason

theorem reached_nil (text : String) : reached text [] = text :=
  String.append_empty

theorem reached_append (text : String) (front back : List (String × Except Error Name)) :
    reached text (front ++ back) = reached (reached text front) back := by
  rw [reached, reached, reached, List.filter_append, List.map_append, String.join_append,
    String.append_assoc]

theorem reached_taken (text qualifier : String) (made : Name) :
    reached text [(qualifier, .ok made)] = text ++ suffix qualifier := by
  unfold reached suffix
  by_cases hempty : qualifier = ""
  · simp only [List.filter_cons, hempty, ne_eq, not_true_eq_false, decide_false, Bool.false_and,
      Bool.false_eq_true, if_false, if_true, List.filter_nil, List.map_nil, String.join_nil]
  · simp only [List.filter_cons, hempty, ne_eq, not_false_eq_true, decide_true, Bool.true_and,
      Except.isOk, Except.toBool, if_true, if_false, List.filter_nil, List.map_cons, List.map_nil,
      String.join_cons, String.join_nil, String.append_empty]

theorem reached_refused (text qualifier : String) (error : Error) :
    reached text [(qualifier, .error error)] = text := by
  unfold reached
  simp only [List.filter_cons, Except.isOk, Except.toBool, Bool.and_false, Bool.false_eq_true,
    if_false, List.filter_nil, List.map_nil, String.join_nil, String.append_empty]

theorem exists_qualified_iff {name : Name} {qualifier : String} :
    (∃ made, name.qualified qualifier = .ok made) ↔ Plain qualifier := by
  constructor
  · rintro ⟨made, h⟩
    exact (qualified_eq_ok_iff.mp h).1
  · intro hplain
    rcases h : name.qualified qualifier with error | made
    · rcases qualified_eq_error_iff.mp h with ⟨reason, hflaw, _⟩
      rw [(firstFlaw?_whole_iff name qualifier).mpr hplain] at hflaw
      cases hflaw
    · exact ⟨made, rfl⟩

/-- One qualification is judged by its qualifier. -/
theorem judged_qualified (name : Name) (qualifier : String) :
    Judged name.text qualifier (name.qualified qualifier) where
  taken := exists_qualified_iff
  made := by
    intro made h
    rw [h, reached_taken]
    exact ⟨(qualified_eq_ok_iff.mp h).2, firstFlaw?_eq_none_iff.mp made.firstFlaw?_text⟩
  refused := fun _ => qualified_eq_error_iff

/-- What a row of qualifications of a text comes to. -/
structure Qualifies (text : String) (qualifiers : List String)
    (steps : List (String × Except Error Name)) (last : Name) : Prop where
  /-- There is a step for each qualifier, in order. -/
  each : steps.map Prod.fst = qualifiers
  /-- It is judged by itself, the text being what those before it came to. -/
  judged : ∀ before qualifier outcome after, steps = before ++ (qualifier, outcome) :: after →
    Judged (reached text before) qualifier outcome
  /-- The last name is what all of them come to. -/
  last : last.text = reached text steps

/-- A step before a row of them, if the row goes on from where it leads. -/
theorem Qualifies.cons {text qualifier : String} {qualifiers : List String}
    {outcome : Except Error Name} {steps : List (String × Except Error Name)} {last : Name}
    (hfirst : Judged text qualifier outcome)
    (h : Qualifies (reached text [(qualifier, outcome)]) qualifiers steps last) :
    Qualifies text (qualifier :: qualifiers) ((qualifier, outcome) :: steps) last where
  each := by rw [List.map_cons, h.each]
  judged := by
    rintro before q found after hcut
    cases before with
    | nil =>
        cases hcut
        rw [reached_nil]
        exact hfirst
    | cons step before =>
        rw [List.cons_append, List.cons.injEq] at hcut
        rcases hcut with ⟨rfl, hcut⟩
        have hreached := reached_append text [(qualifier, outcome)] before
        rw [List.singleton_append] at hreached
        rw [hreached]
        exact h.judged before q found after hcut
  last := h.last.trans (reached_append text [(qualifier, outcome)] steps).symm

/-- Whatever the qualifiers, the row of them comes to what it should. -/
theorem qualifies_chain (name : Name) (qualifiers : List String) :
    Qualifies name.text qualifiers (name.chain qualifiers).1 (name.chain qualifiers).2 := by
  induction qualifiers generalizing name with
  | nil =>
      refine ⟨rfl, ?_, (reached_nil name.text).symm⟩
      intro before qualifier outcome after hcut
      cases (List.append_eq_nil_iff.mp hcut.symm).2
  | cons qualifier rest ih =>
      have hfirst := judged_qualified name qualifier
      unfold chain
      rcases h : name.qualified qualifier with error | made
      · rw [h] at hfirst
        have hnext := ih name
        rw [← reached_refused name.text qualifier error] at hnext
        exact hnext.cons hfirst
      · rw [h] at hfirst
        have hnext := ih made
        rw [(hfirst.made made rfl).1] at hnext
        exact hnext.cons hfirst

/-- A text is a name exactly if it is not empty and has no separator and no NUL,
    and a qualifier is taken by the same rule, but that it may be empty. What is
    told else is the first thing wrong. From a name a row of qualifiers leads to
    its text with those behind it that were taken, through names that are all of
    them such texts. One name is led to another by one qualifier at most, and to
    itself by the empty one. -/
theorem names_exactly (text : String) (qualifiers : List String) :
    (∀ name, of text = .ok name ↔ (text ≠ "" ∧ Plain text) ∧ name.text = text) ∧
    (∀ error, of text = .error error ↔
      ∃ reason, firstFlaw? text = some reason ∧ error = .invalidName text reason) ∧
    (∀ base, of text = .ok base →
      ∃ steps last, base.chain qualifiers = (steps, last) ∧
        Qualifies text qualifiers steps last) ∧
    ∀ base : Name,
      (∀ qualifier other made, base.qualified qualifier = .ok made →
        base.qualified other = .ok made → qualifier = other) ∧
      ∀ qualifier, base.qualified qualifier = .ok base ↔ qualifier = "" := by
  refine ⟨fun _ => of_eq_ok_iff, fun _ => of_eq_error_iff, ?_, fun base =>
    ⟨fun _ _ _ h h' => qualified_inj h h', fun _ => qualified_eq_self_iff⟩⟩
  intro base hbase
  have htext := (of_eq_ok_iff.mp hbase).2
  refine ⟨_, _, rfl, ?_⟩
  rw [← htext]
  exact qualifies_chain base qualifiers

end Name

end FramedIpc
