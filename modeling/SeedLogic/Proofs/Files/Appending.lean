import SeedLogic.Files.Tree

/-!
# Appending to files

A path leads to the same place as long as files are only added or rewritten, since the directories
on its way stay. The file that has been opened under a path is therefore the one that later lines
go to, and a line changes no other file.

## Main definitions

* `FileTree.Appended` : trees that differ in a line at the end of one file.

## Main results

* `FileTree.file?_write`, `FileTree.isDirectory_write` : what writing a file changes.
* `FileTree.appendTarget_write` : the target of a path survives writing it.
* `FileTree.appended_of_touch` : opening a file and appending a line adds that line.
* `FileTree.Appended.read` : what is read under the path afterwards.
-/

namespace SeedLogic.FileTree

variable {tree later : FileTree} {names other dir : List String} {content : ByteArray}
  {path line : String}

/-! ### Writing a file -/

private theorem lookup_map_write (files : List (List String × ByteArray)) :
    (files.map fun entry => if entry.1 = names then (names, content) else entry).lookup other =
      if other = names then (files.lookup names).map fun _ => content else files.lookup other := by
  induction files with
  | nil => simp
  | cons entry files ih =>
    obtain ⟨key, old⟩ := entry
    by_cases hkey : key = names <;> by_cases hother : other = names
    · simp [hkey, hother]
    · simp [hkey, hother, List.lookup_cons, beq_eq_false_iff_ne.2 hother, ih]
    · subst hother
      simpa [hkey, List.lookup_cons, beq_eq_false_iff_ne.2 (Ne.symm hkey)] using ih
    · simp [hkey, hother, List.lookup_cons, ih]

/-- Writing a file changes its content only. -/
theorem file?_write (tree : FileTree) (names other : List String) (content : ByteArray) :
    (tree.write names content).file? other =
      if other = names then some content else tree.file? other := by
  rw [write]
  split
  case isTrue hfile =>
    obtain ⟨old, hold⟩ := Option.isSome_iff_exists.1 hfile
    rw [file?, lookup_map_write, show tree.files.lookup names = some old from hold]
    rfl
  case isFalse hfile =>
    have hnone : tree.files.lookup names = none := Option.not_isSome_iff_eq_none.1 hfile
    rw [file?, List.lookup_append]
    by_cases hother : other = names
    · simp [hother, hnone]
    · simp [hother, file?, List.lookup_cons, beq_eq_false_iff_ne.2 hother]

/-- Writing a file adds the directories on the way to it. -/
theorem isDirectory_write (tree : FileTree) (names dir : List String) (content : ByteArray) :
    (tree.write names content).isDirectory dir =
      (tree.isDirectory dir || (dir.length < names.length && dir.isPrefixOf names)) := by
  rw [write]
  split
  case isTrue hfile =>
    obtain ⟨old, hold⟩ := Option.isSome_iff_exists.1 hfile
    have hentry : (names, old) ∈ tree.files := by
      obtain ⟨front, back, hfiles, -⟩ := List.lookup_eq_some_iff.1 hold
      simp [hfiles]
    have hkeys (entry : List String × ByteArray) :
        (if entry.1 = names then (names, content) else entry).1 = entry.1 := by
      split <;> simp_all
    simp only [isDirectory, List.any_map, Function.comp_def, hkeys]
    cases hdir : decide (dir.length < names.length) && dir.isPrefixOf names with
    | false => rw [Bool.or_false]
    | true => rw [List.any_eq_true.2 ⟨_, hentry, hdir⟩, Bool.or_true, Bool.true_or]
  case isFalse hfile => simp [isDirectory, Bool.or_assoc]

theorem workingDirectory_write (tree : FileTree) (names : List String) (content : ByteArray) :
    (tree.write names content).workingDirectory = tree.workingDirectory := by
  rw [write]
  split <;> rfl

/-! ### Walking through a tree with more directories -/

/-- The later tree has the same working directory and all directories of the tree. -/
structure Extends (tree later : FileTree) : Prop where
  workingDirectory : later.workingDirectory = tree.workingDirectory
  isDirectory (dir : List String) (h : tree.isDirectory dir = true) : later.isDirectory dir = true

theorem extends_write (tree : FileTree) (names : List String) (content : ByteArray) :
    Extends tree (tree.write names content) where
  workingDirectory := workingDirectory_write tree names content
  isDirectory dir h := by rw [isDirectory_write, h, Bool.true_or]

/-- A step that succeeds also succeeds where there are more directories. -/
theorem Extends.enter (hlater : Extends tree later) {start place : List String}
    {piece : List Char} (h : tree.enter start piece = .ok place) :
    later.enter start piece = .ok place := by
  cases hdir : tree.isDirectory start with
  | false =>
    rw [FileTree.enter, hdir] at h
    cases h
  | true =>
    rw [FileTree.enter, hdir] at h
    rwa [FileTree.enter, hlater.isDirectory start hdir]

private theorem Extends.foldlM_enter (hlater : Extends tree later) {pieces : List (List Char)}
    {start place : List String} (h : pieces.foldlM tree.enter start = .ok place) :
    pieces.foldlM later.enter start = .ok place := by
  induction pieces generalizing start with
  | nil => exact h
  | cons piece pieces ih =>
    rw [List.foldlM_cons] at h ⊢
    cases hstep : tree.enter start piece with
    | error e => rw [hstep] at h; cases h
    | ok next =>
      rw [hstep] at h
      rw [hlater.enter hstep]
      exact ih h

/-- A path leads to the same place where there are more directories. -/
theorem Extends.place (hlater : Extends tree later) {place : List String}
    (h : tree.place path = .ok place) : later.place path = .ok place := by
  rw [FileTree.place] at h ⊢
  cases hcheck : checkPath path with
  | error e => rw [hcheck] at h; cases h
  | ok =>
    rw [hcheck] at h
    rw [hlater.workingDirectory]
    exact hlater.foldlM_enter h

/-! ### The file that lines are appended to -/

/-- Lines go to the place to which the path leads, provided that the path does not end with a slash
and leads to no directory. -/
theorem appendTarget_eq_ok_iff : tree.appendTarget path = .ok names ↔
    path.toList.getLast? ≠ some '/' ∧ tree.place path = .ok names ∧
      tree.isDirectory names = false := by
  rw [appendTarget]
  cases hcheck : checkPath path with
  | error e =>
    have hplace : tree.place path = .error e := by rw [FileTree.place, hcheck]; rfl
    simp [hplace, bind, Except.bind]
  | ok =>
    by_cases hslash : path.toList.getLast? = some '/'
    · simp only [List.head?_reverse, hslash, bind, Except.bind, if_true, ne_eq, not_true_eq_false,
        false_and, iff_false]
      split
      · exact nofun
      · cases tree.place _ <;> exact nofun
    · simp only [List.head?_reverse, hslash, bind, Except.bind, if_false, ne_eq, not_false_eq_true,
        true_and]
      cases hplace : tree.place path with
      | error e => simp
      | ok found =>
        cases hdir : tree.isDirectory found with
        | true =>
          refine ⟨by simp [hdir], ?_⟩
          rintro ⟨⟨⟩, hfile⟩
          rw [hdir] at hfile
          cases hfile
        | false =>
          simp only [hdir, Bool.false_eq_true, if_false]
          refine ⟨?_, ?_⟩
          · rintro ⟨⟩
            exact ⟨rfl, hdir⟩
          · rintro ⟨⟨⟩, -⟩
            rfl

/-- Writing the target of a path keeps it the target. -/
theorem appendTarget_write (h : tree.appendTarget path = .ok names) (content : ByteArray) :
    (tree.write names content).appendTarget path = .ok names := by
  obtain ⟨hslash, hplace, hfile⟩ := appendTarget_eq_ok_iff.1 h
  refine appendTarget_eq_ok_iff.2 ⟨hslash, (extends_write tree names content).place hplace, ?_⟩
  rw [isDirectory_write, hfile, Bool.false_or]
  simp

/-- The target of a path is what is read under the path. -/
theorem read_of_appendTarget (h : tree.appendTarget path = .ok names) :
    tree.read path = match tree.file? names with
      | some content => .ok content
      | none => .error .notFound := by
  obtain ⟨-, hplace, hfile⟩ := appendTarget_eq_ok_iff.1 h
  rw [read, hplace]
  cases hcontent : tree.file? names with
  | some content => simp [bind, Except.bind, pure, Except.pure, hcontent]
  | none => simp [bind, Except.bind, hcontent, hfile]; rfl

/-! ### Appending a line -/

/-- The trees differ in one line at the end of the file under the given names, which may be a new
file. -/
structure Appended (tree : FileTree) (names : List String) (line : String) (later : FileTree) :
    Prop where
  /-- The file keeps its content and ends with the line. -/
  file : later.file? names = some ((tree.file? names).getD .empty ++ (line ++ "\n").toUTF8)
  /-- All other files keep their content. -/
  others (other : List String) (h : other ≠ names) : later.file? other = tree.file? other

/-- What is read under the target of a path after a line has been appended is what was read before,
followed by the line. -/
theorem Appended.read (h : Appended tree names line later)
    (htarget : tree.appendTarget path = .ok names) (hlater : later.appendTarget path = .ok names) :
    later.read path = .ok ((tree.read path).toOption.getD .empty ++ (line ++ "\n").toUTF8) := by
  rw [read_of_appendTarget hlater, h.file, read_of_appendTarget htarget]
  cases tree.file? names <;> rfl

/-- Opening a file makes sure that it exists. It keeps its content, or is empty when it is new. -/
theorem exists_of_touch (h : tree.touch path = .ok later) :
    ∃ names, tree.appendTarget path = .ok names ∧ later.appendTarget path = .ok names ∧
      ∀ other, later.file? other =
        if other = names then some ((tree.file? names).getD .empty) else tree.file? other := by
  rw [touch] at h
  cases htarget : tree.appendTarget path with
  | error e => rw [htarget] at h; cases h
  | ok names =>
    refine ⟨names, rfl, ?_⟩
    cases hfile : tree.file? names with
    | some content =>
      obtain rfl : tree = later := by
        simpa [htarget, hfile, bind, Except.bind, pure, Except.pure] using h
      refine ⟨htarget, fun other => ?_⟩
      split <;> simp_all
    | none =>
      obtain rfl : tree.write names .empty = later := by
        simpa [htarget, hfile, bind, Except.bind, pure, Except.pure] using h
      exact ⟨appendTarget_write htarget _, fun other => file?_write tree names other _⟩

/-- Opening a file and then appending a line to it adds the line and nothing else. -/
theorem appended_of_touch (h : tree.touch path = .ok later) (line : String) :
    ∃ names, tree.appendTarget path = .ok names ∧
      (later.appendLine path line).appendTarget path = .ok names ∧
      Appended tree names line (later.appendLine path line) := by
  obtain ⟨names, htarget, hlater, hfiles⟩ := exists_of_touch h
  have hline : later.appendLine path line =
      later.write names ((tree.file? names).getD .empty ++ (line ++ "\n").toUTF8) := by
    simp only [appendLine, hlater, hfiles, if_true, Option.getD_some]
  refine ⟨names, htarget, ?_, ?_, fun other hother => ?_⟩
  · rw [hline]
    exact appendTarget_write hlater _
  · rw [hline, file?_write, if_pos rfl]
  · rw [hline, file?_write, if_neg hother, hfiles, if_neg hother]

end SeedLogic.FileTree
