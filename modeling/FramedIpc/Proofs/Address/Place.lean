import FramedIpc.Address.Endpoint
import FramedIpc.Proofs.Address.Chain
import FramedIpc.Proofs.Text.Utf8

/-!
# Where a Name Leads

A name becomes a file in one directory, and nobody may be led out of that
directory by the name that they are given, nor to the file of another name. A
path is taken apart at its slashes, whatever text they come from, and a piece
that is a dot or two dots is no file. So it has to be seen that a name brings no
slash along, in whatever bytes it is written, and that with what is put behind it
no name is a dot or two. The first is the check that every name has passed, and
that a small byte of a text is a character of it. The second is a matter of the
last byte.

How long a path may be is counted in bytes, and so the bound on the name is one
on its bytes. `socketPath` adds ten to them.

## Main definitions

* `Endpoint.Component`: What a step of a path is.
* `Endpoint.components`: The steps of a path.
* `Endpoint.fileOf`: The file that a name becomes.

## Theorems

* `socketPath_eq`: A socket's path is the directory and the file.
* `socketPath_inj`: Different names have different paths.
* `components_socketPath`: A socket is a file in the directory.
* `resolve_exactly`: Which names have an address, and what it is.
-/

namespace FramedIpc.Endpoint

open Address

/-- The byte between two steps of a path. -/
def slash : UInt8 := 0x2F

/-- What a step of a path is. -/
inductive Component where
  /-- To the top of all directories. -/
  | root
  /-- To where one is. -/
  | here
  /-- To the directory above. -/
  | parent
  /-- To what has this name in the directory. -/
  | normal (name : Bytes)
  deriving DecidableEq, Repr

/-- The step that is written between two slashes. Nothing and a single dot are
    none. -/
def Component.ofPiece? (piece : Bytes) : Option Component :=
  if piece = [] ∨ piece = Text.utf8 "." then none
  else if piece = Text.utf8 ".." then some .parent
  else some (.normal piece)

/-- The step that a path begins with before any that is written out. -/
def Component.first? (path : Bytes) : Option Component :=
  if path.head? = some slash then some .root
  else if (path.splitOn slash).head? = some (Text.utf8 ".") then some .here
  else none

/-- The steps of a path. -/
def components (path : Bytes) : List Component :=
  (Component.first? path).toList ++ (path.splitOn slash).filterMap Component.ofPiece?

/-- The file that a name becomes. -/
def fileOf (name : Name) : Bytes :=
  Text.utf8 name.text ++ Text.utf8 ".sock"

/-- A socket's path is the directory and the file. -/
theorem socketPath_eq (name : Name) :
    socketPath name = slash :: (Text.utf8 "tmp" ++ slash :: fileOf name) := rfl

theorem length_socketPath (name : Name) :
    (socketPath name).length = name.text.utf8ByteSize + 10 := by
  rw [socketPath, List.length_append, List.length_append, Text.length_utf8 name.text]
  have hfront : (Text.utf8 "/tmp/").length = 5 := rfl
  have hback : (Text.utf8 ".sock").length = 5 := rfl
  omega

/-- Different names have different paths. -/
theorem socketPath_inj {name other : Name} (h : socketPath name = socketPath other) :
    name = other := by
  rw [socketPath, socketPath, List.append_cancel_left_eq, List.append_cancel_right_eq] at h
  exact Name.eq_of_text (Text.utf8_inj h)

/-- A character that names are not made of has no byte in the file. -/
theorem not_mem_fileOf {name : Name} {c : Char} {b : UInt8} (hc : c ∉ name.text.toList)
    (hcode : c.toNat = b.toNat) (hsmall : b.toNat < 128) (hback : b ∉ Text.utf8 ".sock") :
    b ∉ fileOf name := by
  rw [fileOf, List.mem_append]
  rintro (hmem | hmem)
  · rcases Text.exists_mem_of_mem_utf8 hmem hsmall with ⟨found, hfound, hsame⟩
    rw [Char.toNat_inj.mp (hsame.trans hcode.symm)] at hfound
    exact hc hfound
  · exact hback hmem

theorem plain_text (name : Name) : Plain name.text :=
  (firstFlaw?_eq_none_iff.mp name.firstFlaw?_text).2

theorem slash_not_mem_fileOf (name : Name) : slash ∉ fileOf name :=
  not_mem_fileOf (plain_text name).1 rfl (by decide) (by decide)

theorem nul_not_mem_socketPath (name : Name) : 0 ∉ socketPath name := by
  have hfile : 0 ∉ fileOf name :=
    not_mem_fileOf (plain_text name).2.2 rfl (by decide) (by decide)
  have hfront : 0 ∉ Text.utf8 "/tmp/" := by decide
  rw [socketPath, List.mem_append, not_or]
  exact ⟨hfront, hfile⟩

/-- A file's last byte is none that a dot or two dots end with. -/
theorem fileOf_ne {name : Name} {piece : Bytes} (h : piece.getLast? ≠ some 0x6B) :
    fileOf name ≠ piece := by
  rintro rfl
  refine h ?_
  rw [fileOf, List.getLast?_append]
  rfl

/-- A socket is a file in the directory, and there is no other step to it. -/
theorem components_socketPath (name : Name) :
    components (socketPath name) = [.root, .normal (Text.utf8 "tmp"), .normal (fileOf name)] := by
  have hpieces : (socketPath name).splitOn slash = [[], Text.utf8 "tmp", fileOf name] := by
    have hfront : slash ∉ ([] : Bytes) := List.not_mem_nil
    have htmp : slash ∉ Text.utf8 "tmp" := by decide
    rw [socketPath_eq, ← List.nil_append (slash :: _),
      List.splitOn_append_cons_self_of_not_mem hfront,
      List.splitOn_append_cons_self_of_not_mem htmp,
      List.splitOn_eq_singleton (slash_not_mem_fileOf name)]
  have hfile : Component.ofPiece? (fileOf name) = some (.normal (fileOf name)) := by
    have hnone : ¬ (fileOf name = [] ∨ fileOf name = Text.utf8 ".") :=
      not_or.mpr ⟨fileOf_ne (by decide), fileOf_ne (by decide)⟩
    rw [Component.ofPiece?, if_neg hnone, if_neg (fileOf_ne (by decide))]
  rw [components, hpieces]
  simp only [List.filterMap_cons, hfile]
  rfl

/-- Two dots by themselves lead out of a directory. As a name they are a part of
    what a file in it is called. -/
example :
    components (Text.utf8 "/tmp/..") = [.root, .normal (Text.utf8 "tmp"), .parent] ∧
      (Name.of "..").map (fun name => components (socketPath name)) =
        .ok [.root, .normal (Text.utf8 "tmp"), .normal (Text.utf8 "...sock")] :=
  ⟨by decide, rfl⟩

/-- The bytes of a name decide, and not its characters. -/
theorem resolve_eq (name : Name) :
    resolve name =
      if name.text.utf8ByteSize ≤ 97 then .ok ⟨socketPath name, .unixSocket⟩
      else .error (.pathTooLong (socketPath name) (name.text.utf8ByteSize + 10) pathCapacity) := by
  rw [resolve, unixSocket, ofSocketPath, length_socketPath]
  have hroom : name.text.utf8ByteSize + 10 < pathCapacity ↔ name.text.utf8ByteSize ≤ 97 := by
    rw [pathCapacity]
    omega
  simp only [hroom]

theorem resolve_eq_ok_iff {name : Name} {endpoint : Endpoint} :
    resolve name = .ok endpoint ↔
      name.text.utf8ByteSize ≤ 97 ∧ endpoint = ⟨socketPath name, .unixSocket⟩ := by
  rw [resolve_eq]
  by_cases h : name.text.utf8ByteSize ≤ 97
  · simp only [h, if_true, Except.ok.injEq, true_and]
    exact eq_comm
  · simp only [h, if_false, reduceCtorEq, false_and]

theorem resolve_eq_error_iff {name : Name} {error : Error} :
    resolve name = .error error ↔
      97 < name.text.utf8ByteSize ∧
        error = .pathTooLong (socketPath name) (name.text.utf8ByteSize + 10) pathCapacity := by
  rw [resolve_eq, ← Nat.not_le]
  by_cases h : name.text.utf8ByteSize ≤ 97
  · simp only [h, if_true, reduceCtorEq, not_true_eq_false, false_and]
  · simp only [h, if_false, Except.error.injEq, not_false_eq_true, true_and]
    exact eq_comm

/-- A name has an address exactly if it has at most ninety-seven bytes, and else
    it is told how long the path would be. The address leads to the top, into one
    directory and to a file there, whose name is neither a dot nor two; it holds
    no NUL, leaves room for the one behind it, and is the address of no other
    name. -/
theorem resolve_exactly (name : Name) :
    (∀ endpoint, resolve name = .ok endpoint ↔
      name.text.utf8ByteSize ≤ 97 ∧ endpoint = ⟨socketPath name, .unixSocket⟩) ∧
    (∀ error, resolve name = .error error ↔
      97 < name.text.utf8ByteSize ∧
        error = .pathTooLong (socketPath name) (name.text.utf8ByteSize + 10) pathCapacity) ∧
    ∀ endpoint, resolve name = .ok endpoint →
      (∃ file, components endpoint.address = [.root, .normal (Text.utf8 "tmp"), .normal file] ∧
        file ≠ Text.utf8 "." ∧ file ≠ Text.utf8 ".." ∧ slash ∉ file) ∧
      0 ∉ endpoint.address ∧ endpoint.address.length ≤ 107 ∧
      ∀ other endpoint', resolve other = .ok endpoint' →
        endpoint'.address = endpoint.address → other = name := by
  refine ⟨fun _ => resolve_eq_ok_iff, fun _ => resolve_eq_error_iff, ?_⟩
  intro endpoint h
  rcases resolve_eq_ok_iff.mp h with ⟨hsize, rfl⟩
  refine ⟨⟨fileOf name, components_socketPath name, fileOf_ne (by decide), fileOf_ne (by decide),
    slash_not_mem_fileOf name⟩, nul_not_mem_socketPath name, ?_, ?_⟩
  · rw [length_socketPath]
    omega
  · intro other endpoint' h' hsame
    rcases resolve_eq_ok_iff.mp h' with ⟨_, rfl⟩
    exact socketPath_inj hsame

end FramedIpc.Endpoint
