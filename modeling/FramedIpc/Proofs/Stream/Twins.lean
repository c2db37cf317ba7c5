import FramedIpc.Proofs.Stream.Delivery

/-!
# Streams That Differ in What They Give

Two states of a stream may be alike in everything but the bytes that they give
next. They fail at the same calls and with the same faults, they cut their
bytes into pieces at the same places, and once those bytes are taken they are
one state. What a reader does that looks at nothing but the length of what it
reads is then the same on both, up to these bytes.

As with streams that deliver, this speaks of all reads to come and is had by
giving a relation that every read keeps. The relation says nothing of reads
that go beyond the bytes in which the states differ, since a reader of frames
makes no such read.

For scripts it is enough to look at them: two scripts are alike if their
entries are, chunk for chunk of the same length.

## Main definitions

* `Stream.TwinStep`: A relation between such states that every read keeps.
* `Stream.Twins`: Two states that differ in the bytes that they give next.
* `Script.Inbound.outline`, `Script.outline`: A script without its bytes.

## Theorems

* `TwinStep.readWhole`: A whole read ends alike on twins.
* `Script.eq_of_outline`: A script is its outline and its bytes.
* `Script.twins`: Scripts with one outline are twins in the bytes that they
  give before the same rest.
-/

namespace FramedIpc.Stream

variable {σ : Type}

/-- A relation between states that give `left` and `right` next and differ in
    nothing else. A read within these bytes fails on both with the same fault,
    or gives as many of them on both. -/
structure TwinStep (io : Stream σ) (R : σ → Bytes → σ → Bytes → Prop) : Prop where
  length : ∀ {s left s' right}, R s left s' right → left.length = right.length
  same : ∀ {s s'}, R s [] s' [] → s = s'
  gives : ∀ {s left s' right n bs t}, R s left s' right → 0 < n → n ≤ left.length →
    io.read n s = (.ok bs, t) →
      bs = left.take bs.length ∧ ∃ t', io.read n s' = (.ok (right.take bs.length), t') ∧
        R t (left.drop bs.length) t' (right.drop bs.length)
  fails : ∀ {s left s' right n fault t}, R s left s' right → 0 < n → n ≤ left.length →
    io.read n s = (.error fault, t) →
      ∃ t', io.read n s' = (.error fault, t') ∧ R t left t' right

/-- Two states that give these bytes next, each its own, and differ in nothing
    else. -/
def Twins (io : Stream σ) (s : σ) (left : Bytes) (s' : σ) (right : Bytes) : Prop :=
  ∃ R : σ → Bytes → σ → Bytes → Prop, TwinStep io R ∧ R s left s' right

variable {io : Stream σ}

/-- What a twin gives in the place of some bytes is as long. -/
theorem TwinStep.length_take {R : σ → Bytes → σ → Bytes → Prop} (hR : TwinStep io R) {n : Nat}
    {s s' t : σ} {left right bs : Bytes} (h : R s left s' right) (hle : n ≤ left.length)
    (hr : io.read n s = (.ok bs, t)) : (right.take bs.length).length = bs.length := by
  have hlen := hR.length h
  have hbs := io.length_le_of_read hr
  rw [List.length_take]
  omega

/-- A whole read within the bytes of twins fails on both with the same fault,
    or gives as many bytes on both. -/
theorem TwinStep.readWhole {R : σ → Bytes → σ → Bytes → Prop} (hR : TwinStep io R) {n : Nat}
    {s s' t : σ} {left right : Bytes} {outcome : Except Fault Bytes} (h : R s left s' right)
    (hle : n ≤ left.length) (hr : io.readWhole n s = (outcome, t)) :
    ∃ t', (∃ fault, outcome = .error fault ∧ io.readWhole n s' = (.error fault, t')) ∨
      ∃ k, k ≤ n ∧ outcome = .ok (left.take k) ∧ io.readWhole n s' = (.ok (right.take k), t') ∧
        R t (left.drop k) t' (right.drop k) := by
  fun_induction Stream.readWhole io n s generalizing s' left right outcome with
  | case1 s =>
      cases hr
      exact ⟨s', Or.inr ⟨0, Nat.le_refl 0, by rw [List.take_zero],
        by rw [List.take_zero, readWhole_zero], h⟩⟩
  | case2 n s hn s₁ hc =>
      cases hr
      rcases hR.gives h (Nat.pos_of_ne_zero hn) hle hc with ⟨_, t', hc', h₁⟩
      rw [List.length_nil, List.take_zero] at hc'
      exact ⟨t', Or.inr ⟨0, Nat.zero_le n, by rw [List.take_zero],
        by rw [List.take_zero, readWhole_of_end hn hc'], h₁⟩⟩
  | case3 n s hn b bs s₁ hc more s₂ hmore ih =>
      cases hr
      have hpart := hR.length_take h hle hc
      have hsome := io.length_le_of_read hc
      rcases hR.gives h (Nat.pos_of_ne_zero hn) hle hc with ⟨hbs, t₁, hc', h₁⟩
      have hleft : n - (b :: bs).length ≤ (left.drop (b :: bs).length).length := by
        rw [List.length_drop]
        omega
      rcases ih h₁ hleft hmore with ⟨t', ⟨_, ho, _⟩ | ⟨k, hk, ho, hmore', h₂⟩⟩
      · cases ho
      -- What both have given so far goes in front of what the rest of the read gives.
      · refine ⟨t', Or.inr ⟨(b :: bs).length + k, by omega, ?_, ?_, ?_⟩⟩
        · rw [List.take_add, ← hbs, Except.ok.inj ho]
        · rw [readWhole_of_some hn (List.ne_nil_of_length_eq_add_one hpart) hc', hpart, hmore',
            List.take_add]
          rfl
        · rw [List.drop_drop, List.drop_drop] at h₂
          exact h₂
  | case4 n s hn b bs s₁ hc fault s₂ hmore ih =>
      cases hr
      have hpart := hR.length_take h hle hc
      have hsome := io.length_le_of_read hc
      rcases hR.gives h (Nat.pos_of_ne_zero hn) hle hc with ⟨_, t₁, hc', h₁⟩
      have hleft : n - (b :: bs).length ≤ (left.drop (b :: bs).length).length := by
        rw [List.length_drop]
        omega
      -- The fault comes later in the read, on both at the same call.
      rcases ih h₁ hleft hmore with ⟨t', ⟨_, ho, hmore'⟩ | ⟨_, _, ho, _⟩⟩
      · cases ho
        refine ⟨t', Or.inl ⟨fault, rfl, ?_⟩⟩
        rw [readWhole_of_some hn (List.ne_nil_of_length_eq_add_one hpart) hc', hpart, hmore']
        rfl
      · cases ho
  | case5 n s hn fault s₁ hc hi hlt ih =>
      rcases hR.fails h (Nat.pos_of_ne_zero hn) hle hc with ⟨t₁, hc', h₁⟩
      rw [readWhole_of_fault hn hc', if_pos hi]
      exact ih h₁ hle hr
  | case6 n s hn fault s₁ hc hi =>
      cases hr
      rcases hR.fails h (Nat.pos_of_ne_zero hn) hle hc with ⟨t₁, hc', h₁⟩
      exact ⟨t₁, Or.inl ⟨fault, rfl, by rw [readWhole_of_fault hn hc', if_neg hi]⟩⟩

/-! ## Scripts -/

namespace Script

/-- What is left of an entry without its bytes: how many they are, that it is
    the end, or its fault. -/
def Inbound.outline : Inbound → Except Fault (Option Nat)
  | .chunk bs => .ok (some bs.length)
  | .ended => .ok none
  | .fault f => .error f

/-- A script without the bytes that it gives. -/
def outline (script : Script) :
    Nat × List (Except Fault (Option Nat)) × List (Except Fault Nat) × List (Option Fault) ×
      List (Option Fault) :=
  (script.left.length, script.reads.map Inbound.outline, script.writes, script.flushes,
    script.shutdowns)

/-- Entries are their outline and their bytes. -/
theorem Inbound.eq_of_outline {entry entry' : Inbound} (ho : entry.outline = entry'.outline)
    (hb : entry.bytes = entry'.bytes) : entry = entry' := by
  cases entry with
  | chunk bs =>
      cases entry' with
      | chunk bs' => exact congrArg Inbound.chunk hb
      | ended => cases ho
      | fault fault => cases ho
  | ended =>
      cases entry' with
      | chunk bs' => cases ho
      | ended => rfl
      | fault fault => cases ho
  | fault fault =>
      cases entry' with
      | chunk bs' => cases ho
      | ended => cases ho
      | fault fault' => exact congrArg Inbound.fault (Except.error.inj ho)

theorem Inbound.length_of_outline {entry entry' : Inbound}
    (ho : entry.outline = entry'.outline) : entry.bytes.length = entry'.bytes.length := by
  cases entry with
  | chunk bs =>
      cases entry' with
      | chunk bs' => exact Option.some.inj (Except.ok.inj ho)
      | ended => cases ho
      | fault fault => cases ho
  | ended =>
      cases entry' with
      | chunk bs' => cases ho
      | ended => rfl
      | fault fault => cases ho
  | fault fault =>
      cases entry' with
      | chunk bs' => cases ho
      | ended => cases ho
      | fault fault' => rfl

theorem reads_eq_of_outline {reads reads' : List Inbound}
    (ho : reads.map Inbound.outline = reads'.map Inbound.outline)
    (hb : reads.flatMap Inbound.bytes = reads'.flatMap Inbound.bytes) : reads = reads' := by
  induction reads generalizing reads' with
  | nil => exact (List.map_eq_nil_iff.mp ho.symm).symm
  | cons entry reads ih =>
      rcases reads' with _ | ⟨entry', reads'⟩
      · cases ho
      rw [List.map_cons, List.map_cons, List.cons.injEq] at ho
      rw [List.flatMap_cons, List.flatMap_cons] at hb
      -- Entries of one length share out the bytes in one way.
      rcases List.append_inj hb (Inbound.length_of_outline ho.1) with ⟨hentry, hreads⟩
      rw [Inbound.eq_of_outline ho.1 hentry, ih ho.2 hreads]

/-- A script is its outline and its bytes. -/
theorem eq_of_outline {script script' : Script} (ho : script.outline = script'.outline)
    (hb : script.bytes = script'.bytes) : script = script' := by
  rcases script with ⟨left, reads, writes, flushes, shutdowns⟩
  rcases script' with ⟨left', reads', writes', flushes', shutdowns'⟩
  simp only [outline, Prod.mk.injEq] at ho
  rcases ho with ⟨hlen, hreads, rfl, rfl, rfl⟩
  rcases List.append_inj hb hlen with ⟨rfl, hflat⟩
  rw [reads_eq_of_outline hreads hflat]

/-- What a read does to two scripts of one outline: it fails on both with the
    same fault, or gives as many bytes on both, the next that each has. -/
theorem read_of_outline {script script' after : Script} {n : Nat}
    {outcome : Except Fault Bytes} (ho : script.outline = script'.outline)
    (hr : read n script = (outcome, after)) :
    ∃ outcome' after', read n script' = (outcome', after') ∧ after.outline = after'.outline ∧
      ((∃ fault, outcome = .error fault ∧ outcome' = .error fault ∧
          script.bytes = after.bytes ∧ script'.bytes = after'.bytes) ∨
        ∃ bs bs', outcome = .ok bs ∧ outcome' = .ok bs' ∧ bs.length = bs'.length ∧
          script.bytes = bs ++ after.bytes ∧ script'.bytes = bs' ++ after'.bytes) := by
  rcases script with ⟨left, reads, writes, flushes, shutdowns⟩
  rcases script' with ⟨left', reads', writes', flushes', shutdowns'⟩
  simp only [outline, Prod.mk.injEq] at ho
  rcases ho with ⟨hlen, hreads, rfl, rfl, rfl⟩
  unfold read takeChunk at hr ⊢
  have hempty : left'.isEmpty = left.isEmpty := by
    rw [Bool.eq_iff_iff, List.isEmpty_iff_length_eq_zero, List.isEmpty_iff_length_eq_zero, hlen]
  simp only [hempty]
  by_cases hleft : left = []
  · rw [hleft, List.length_nil, eq_comm, List.length_eq_zero_iff] at hlen
    simp only [hleft, hlen, List.isEmpty_nil, if_true] at hr ⊢
    rcases reads with _ | ⟨entry, reads⟩
    · rw [List.map_nil, eq_comm, List.map_eq_nil_iff] at hreads
      subst hreads
      cases hr
      exact ⟨_, _, rfl, rfl, Or.inr ⟨[], [], rfl, rfl, rfl, rfl, rfl⟩⟩
    rcases reads' with _ | ⟨entry', reads'⟩
    · cases hreads
    rw [List.map_cons, List.map_cons, List.cons.injEq] at hreads
    rcases hreads with ⟨hentry, hreads⟩
    cases entry with
    | chunk bs =>
        cases entry' with
        | ended => cases hentry
        | fault fault => cases hentry
        | chunk bs' =>
            have hbs : bs.length = bs'.length := Option.some.inj (Except.ok.inj hentry)
            cases hr
            refine ⟨_, _, rfl, ?_, Or.inr ⟨_, _, rfl, rfl, ?_, ?_, ?_⟩⟩
            · simp only [outline, List.length_drop, hbs, hreads]
            · rw [List.length_take, List.length_take, hbs]
            · simp only [bytes, List.flatMap_cons, Inbound.bytes, List.nil_append,
                ← List.append_assoc, List.take_append_drop]
            · simp only [bytes, List.flatMap_cons, Inbound.bytes, List.nil_append,
                ← List.append_assoc, List.take_append_drop]
    | ended =>
        cases entry' with
        | chunk bs' => cases hentry
        | fault fault => cases hentry
        | ended =>
            cases hr
            refine ⟨_, _, rfl, ?_, Or.inr ⟨[], [], rfl, rfl, rfl, rfl, rfl⟩⟩
            simp only [outline, hreads]
    | fault fault =>
        cases entry' with
        | chunk bs' => cases hentry
        | ended => cases hentry
        | fault fault' =>
            cases hentry
            cases hr
            refine ⟨_, _, rfl, ?_, Or.inl ⟨fault, rfl, rfl, rfl, rfl⟩⟩
            simp only [outline, hreads]
  · simp only [List.isEmpty_eq_false_iff.mpr hleft, Bool.false_eq_true, if_false] at hr ⊢
    cases hr
    refine ⟨_, _, rfl, ?_, Or.inr ⟨_, _, rfl, rfl, ?_, ?_, ?_⟩⟩
    · simp only [outline, List.length_drop, hlen, hreads]
    · rw [List.length_take, List.length_take, hlen]
    · simp only [bytes, ← List.append_assoc, List.take_append_drop]
    · simp only [bytes, ← List.append_assoc, List.take_append_drop]

theorem twinStep : TwinStep stream (fun script left script' right =>
    script.outline = script'.outline ∧ left.length = right.length ∧
      ∃ behind, script.bytes = left ++ behind ∧ script'.bytes = right ++ behind) := by
  constructor
  · rintro s left s' right ⟨_, hlen, _⟩
    exact hlen
  · rintro s s' ⟨ho, _, behind, hb, hb'⟩
    exact eq_of_outline ho (hb.trans hb'.symm)
  · rintro s left s' right n bs t ⟨ho, hlen, behind, hb, hb'⟩ _ hle hr
    have hbs := length_le_of_read stream hr
    rcases read_of_outline ho hr with ⟨_, t', hr', ho', ⟨_, hc, _⟩ | ⟨_, bs', hc, rfl, h⟩⟩
    · cases hc
    cases hc
    rcases h with ⟨hlen', hrest, hrest'⟩
    rw [hb, ← List.take_append_drop bs.length left, List.append_assoc] at hrest
    rw [hb', ← List.take_append_drop bs.length right, List.append_assoc] at hrest'
    -- As many bytes were taken on both sides, so each row is cut at one place.
    rcases List.append_inj hrest (by rw [List.length_take]; omega) with ⟨hbs₁, hrest⟩
    rcases List.append_inj hrest' (by rw [List.length_take]; omega) with ⟨hbs₂, hrest'⟩
    refine ⟨hbs₁.symm, t', ?_, ho', ?_, behind, hrest.symm, hrest'.symm⟩
    · rw [hbs₂]
      exact hr'
    · rw [List.length_drop, List.length_drop, hlen]
  · rintro s left s' right n fault t ⟨ho, hlen, behind, hb, hb'⟩ _ _ hr
    rcases read_of_outline ho hr with ⟨_, t', hr', ho', ⟨_, hc, rfl, h⟩ | ⟨_, _, hc, _⟩⟩
    · cases hc
      exact ⟨t', hr', ho', hlen, behind, h.1.symm.trans hb, h.2.symm.trans hb'⟩
    · cases hc

/-- Scripts with one outline are twins in the bytes that they give before the
    same rest. -/
theorem twins {script script' : Script} {left right behind : Bytes}
    (ho : script.outline = script'.outline) (hlen : left.length = right.length)
    (hb : script.bytes = left ++ behind) (hb' : script'.bytes = right ++ behind) :
    stream.Twins script left script' right :=
  ⟨_, twinStep, ho, hlen, behind, hb, hb'⟩

end Script

end FramedIpc.Stream
