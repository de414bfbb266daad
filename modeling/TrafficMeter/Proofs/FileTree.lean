import Mathlib.Data.List.DropRight
import Mathlib.Tactic.Common
import TrafficMeter.Proofs.Outcome
import TrafficMeter.Tool.FileTree

/-!
# Replacing files

A file is replaced in two steps: its new text is written to a file beside it, which is then moved into its
place. No folder comes or goes by this, so paths lead to the same locations as before
(`SameBut.locate_eq_ok_iff`). Hence a file that was replaced once can be replaced again with any other text
(`SameBut.exists_replaceFile`), what is read at its path is the new text (`readFile_replaceFile`), and files
that lie elsewhere are left alone (`SameBut.readFile_eq`).
-/

namespace TrafficMeter.Tool

namespace Path

/-- `splitSlash text` always has a segment. -/
theorem splitSlash_ne_nil (text : List Char) : splitSlash text ≠ [] := by
  fun_cases splitSlash text <;> simp

/-- Only an empty `text` or one that ends in a slash ends in an empty segment. -/
theorem eq_nil_or_suffix_of_getLast?_splitSlash {text : List Char}
    (h : (splitSlash text).getLast? = some []) : text = [] ∨ ['/'] <:+ text := by
  fun_induction splitSlash text with
  | case1 => exact .inl rfl
  | case2 rest ih =>
    right
    rw [List.getLast?_cons, List.getLast?_eq_some_getLast (splitSlash_ne_nil rest)] at h
    rcases ih (by rw [List.getLast?_eq_some_getLast (splitSlash_ne_nil rest)]; exact h) with rfl | hsuffix
    · exact List.suffix_rfl
    · exact hsuffix.trans (List.suffix_cons _ _)
  | case3 c rest _ hrest => exact absurd hrest (splitSlash_ne_nil rest)
  | case4 c rest _ segment segments hrest ih =>
    right
    rw [hrest] at ih
    cases segments with
    | nil => simp at h
    | cons second others =>
      rcases ih (by simpa using h) with rfl | hsuffix
      · simp [splitSlash] at hrest
      · exact hsuffix.trans (List.suffix_cons _ _)

/-- `path` ends in a slash if its last character is one. -/
theorem endsWith_slash_iff {path : String} : path.endsWith "/" ↔ ['/'] <:+ path.toList := by
  rw [← String.endsWith_toSlice, String.Slice.endsWith_string_iff, String.copy_toSlice]
  rfl

/-- If `path` is not empty and does not end in a slash, then `trimEmpty` keeps all of its segments. -/
theorem trimEmpty_segments {path : String} (hempty : path.isEmpty = false)
    (hslash : path.endsWith "/" = false) : trimEmpty (segments path) = segments path := by
  refine List.rdropWhile_eq_self_iff.mpr fun hsegments hlast => ?_
  have hchars : (splitSlash path.toList).getLast? = some [] := by
    have hlast := (List.getLast?_eq_some_getLast hsegments).trans (congrArg some (beq_iff_eq.mp hlast))
    simpa [segments, List.getLast?_map] using hlast
  rcases eq_nil_or_suffix_of_getLast?_splitSlash hchars with hnil | hsuffix
  · simp_all
  · rw [← endsWith_slash_iff, hslash] at hsuffix
    cases hsuffix

end Path

namespace FileTree

variable {tree other next : FileTree} {location place : Location} {node : FileNode String} {path text : String}

/-- What is listed in `nodes` without `location` is listed under all other locations. -/
theorem lookup_filter_ne (nodes : List (Location × FileNode String)) (location place : Location) :
    (nodes.filter fun entry => entry.1 ≠ location).lookup place =
      if place = location then none else nodes.lookup place := by
  induction nodes with
  | nil => simp
  | cons entry rest ih =>
    by_cases hentry : entry.1 = location
    · rw [List.filter_cons_of_neg (by simpa using hentry), ih]
      split
      next => rfl
      next hne => rw [List.lookup_cons, beq_eq_false_iff_ne.mpr (hentry ▸ hne)]
    · rw [List.filter_cons_of_pos (by simpa using hentry), List.lookup_cons, List.lookup_cons, ih]
      cases hplace : place == entry.1 with
      | false => rfl
      | true =>
        have hne : place ≠ location := beq_iff_eq.mp hplace ▸ hentry
        exact (if_neg hne).symm

@[simp]
theorem here_put (tree : FileTree) (location : Location) (node : FileNode String) :
    (tree.put location node).here = tree.here := rfl

@[simp]
theorem here_remove (tree : FileTree) (location : Location) : (tree.remove location).here = tree.here := rfl

/-- Removing what is at `location` leaves what is at any other `place`. -/
theorem node?_remove_of_ne (h : place ≠ location) :
    (tree.remove location).node? place = tree.node? place := by
  rw [node?, node?, here_remove, remove, lookup_filter_ne, if_neg h]

/-- Putting something at `location` leaves what is at any other `place`. -/
theorem node?_put_of_ne (h : place ≠ location) :
    (tree.put location node).node? place = tree.node? place := by
  have hlookup : (tree.put location node).nodes.lookup place = tree.nodes.lookup place := by
    rw [put, List.lookup_cons, beq_eq_false_iff_ne.mpr h]
    exact (lookup_filter_ne tree.nodes location place).trans (if_neg h)
  rw [node?, node?, here_put, hlookup]

/-- What is no folder is not on the way to `tree.here`, from which relative paths start. -/
theorem not_isPrefix_here (h : tree.node? location ≠ some .folder) : ¬ location <+: tree.here :=
  fun hused => h (by rw [node?, if_pos hused])

/-- What was put at `location` is there, if no folder was there before. -/
theorem node?_put_self (h : tree.node? location ≠ some .folder) :
    (tree.put location node).node? location = some node := by
  rw [node?, here_put, if_neg (not_isPrefix_here h), put, List.lookup_cons_self]

/-- Nothing is left at `location` after a removal, if it was no folder. -/
theorem node?_remove_self (h : tree.node? location ≠ some .folder) :
    (tree.remove location).node? location = none := by
  rw [node?, here_remove, if_neg (not_isPrefix_here h), remove, lookup_filter_ne, if_pos rfl]

/-- What was put at `location` is gone when it is removed. -/
theorem remove_put_self (tree : FileTree) (location : Location) (node : FileNode String) :
    (tree.put location node).remove location = tree.remove location := by
  simp [put, remove]

/-- `tree` and `other` have the same folders and, but for the locations `changed`, the same files. -/
structure SameBut (changed : Location → Prop) (tree other : FileTree) : Prop where
  /-- Relative paths start from the same folder. -/
  here_eq : other.here = tree.here
  /-- The same locations are folders. -/
  folder_iff : ∀ location, other.node? location = some .folder ↔ tree.node? location = some .folder
  /-- All other locations have the same. -/
  node?_eq : ∀ location, ¬ changed location → other.node? location = tree.node? location

variable {changed : Location → Prop}

theorem SameBut.refl (changed : Location → Prop) (tree : FileTree) : SameBut changed tree tree :=
  ⟨rfl, fun _ => .rfl, fun _ _ => rfl⟩

theorem SameBut.symm (h : SameBut changed tree other) : SameBut changed other tree :=
  ⟨h.here_eq.symm, fun location => (h.folder_iff location).symm, fun location hsame =>
    (h.node?_eq location hsame).symm⟩

theorem SameBut.trans (h : SameBut changed tree other) (hnext : SameBut changed other next) :
    SameBut changed tree next :=
  ⟨hnext.here_eq.trans h.here_eq, fun location => (hnext.folder_iff location).trans (h.folder_iff location),
    fun location hsame => (hnext.node?_eq location hsame).trans (h.node?_eq location hsame)⟩

/-- A `location` that is no folder in `tree` is none in `other`. -/
theorem SameBut.ne_folder (h : SameBut changed tree other) (hfree : tree.node? location ≠ some .folder) :
    other.node? location ≠ some .folder :=
  fun hfolder => hfree ((h.folder_iff location).mp hfolder)

/-- Putting a file at a `location` that is no folder changes nothing else. -/
theorem sameBut_put (hfree : tree.node? location ≠ some .folder) (hchanged : changed location)
    (text : String) : SameBut changed tree (tree.put location (.file text)) := by
  refine ⟨rfl, fun place => ?_, fun place hplace => node?_put_of_ne fun heq => hplace (heq ▸ hchanged)⟩
  by_cases hplace : place = location
  · subst hplace
    simp [node?_put_self hfree, hfree]
  · rw [node?_put_of_ne hplace]

/-- Removing what is at a `location` that is no folder changes nothing else. -/
theorem sameBut_remove (hfree : tree.node? location ≠ some .folder) (hchanged : changed location) :
    SameBut changed tree (tree.remove location) := by
  refine ⟨rfl, fun place => ?_, fun place hplace => node?_remove_of_ne fun heq => hplace (heq ▸ hchanged)⟩
  by_cases hplace : place = location
  · subst hplace
    simp [node?_remove_self hfree, hfree]
  · rw [node?_remove_of_ne hplace]

/-- Segments that can be followed in `tree` can be followed in `other`, which has the same folders, to the same
`goal`. -/
theorem SameBut.follow_eq_ok (h : SameBut changed tree other) {start goal : Location}
    {segments : List String} (hfollow : tree.follow start segments = .ok goal) :
    other.follow start segments = .ok goal := by
  induction segments generalizing start with
  | nil => exact hfollow
  | cons segment rest ih =>
    cases hstart : tree.node? start with
    | none => simp [follow, hstart] at hfollow
    | some node =>
      cases node with
      | file text => simp [follow, hstart] at hfollow
      | folder =>
        -- Only folders are passed through, and these are the same in both trees.
        simp only [follow, hstart, (h.folder_iff start).mpr hstart] at hfollow ⊢
        split_ifs at hfollow ⊢ with hidle hparent hlong
        all_goals exact ih hfollow

theorem SameBut.walk_eq_ok (h : SameBut changed tree other) {segments : List String}
    (hwalk : tree.walk path segments = .ok location) : other.walk path segments = .ok location := by
  rw [walk] at hwalk ⊢
  split_ifs at hwalk ⊢ with hnul hempty hlong hroot
  · exact h.follow_eq_ok hwalk
  · rw [h.here_eq]
    exact h.follow_eq_ok hwalk

/-- A `path` leads to the same `location` in trees with the same folders. -/
theorem SameBut.locate_eq_ok_iff (h : SameBut changed tree other) :
    other.locate path = .ok location ↔ tree.locate path = .ok location :=
  ⟨h.symm.walk_eq_ok, h.walk_eq_ok⟩

/-- The checks that `walk` makes on a `path`, in terms of its characters. -/
theorem walk_eq (tree : FileTree) (path : String) (segments : List String) :
    tree.walk path segments =
      if '\x00' ∈ path.toList then .error .nulCharacter
      else if path.toList = [] then .error .notFound
      else if Path.maxLength < path.utf8ByteSize then .error .nameTooLong
      else tree.follow (if ['/'] <+: path.toList then [] else tree.here) segments := by
  have hstart : path.startsWith "/" ↔ ['/'] <+: path.toList := String.startsWith_string_iff
  have hempty : path.isEmpty ↔ path.toList = [] := by simp
  simp only [walk, String.contains_char_eq, decide_eq_true_eq, hstart, hempty]

/-- The empty path leads nowhere. -/
theorem isEmpty_eq_false_of_walk {segments : List String} (h : tree.walk path segments = .ok location) :
    path.isEmpty = false := by
  rw [walk] at h
  split_ifs at h with hnul hempty
  all_goals simpa using hempty

/-- `path` names a file exactly if it can be followed, ends in a name and does not end in a slash. -/
theorem locateFile_eq_ok_iff :
    tree.locateFile path = .ok location ↔
      tree.locate path = .ok location ∧ Path.endsInNoName path = false ∧ path.endsWith "/" = false := by
  have hchecks : tree.locateFile path = .ok location ↔
      tree.walk path (Path.trimEmpty (Path.segments path)) = .ok location ∧
        Path.endsInNoName path = false ∧ path.endsWith "/" = false := by
    rw [locateFile]
    cases tree.walk path (Path.trimEmpty (Path.segments path)) <;> cases Path.endsInNoName path <;>
      cases path.endsWith "/" <;> simp
  rw [hchecks, locate]
  -- Empty segments at the end are cut off only if there is a slash, and then the path was refused.
  refine and_congr_left fun ⟨_, hslash⟩ => ⟨fun hwalk => ?_, fun hwalk => ?_⟩
  · rwa [Path.trimEmpty_segments (isEmpty_eq_false_of_walk hwalk) hslash] at hwalk
  · rwa [Path.trimEmpty_segments (isEmpty_eq_false_of_walk hwalk) hslash]

/-- A file is read exactly if `path` leads to it. -/
theorem readFile_eq_ok_iff :
    tree.readFile path = .ok text ↔
      ∃ location, tree.locate path = .ok location ∧ tree.node? location = some (.file text) := by
  rw [readFile, bind_eq_ok_iff]
  refine exists_congr fun location => and_congr_right fun _ => ?_
  split
  next found hfound => simp [hfound]
  next hfound => simp [hfound]
  next hfound => simp [hfound]

/-- A file is written exactly if `path` leads to no folder. -/
theorem writeFile_eq_ok_iff :
    tree.writeFile path text = .ok next ↔
      ∃ location, tree.locate path = .ok location ∧ tree.node? location ≠ some .folder ∧
        next = tree.put location (.file text) := by
  rw [writeFile, bind_eq_ok_iff]
  refine exists_congr fun location => and_congr_right fun _ => ?_
  split
  next hfolder => simp [hfolder]
  next hfree => exact ⟨fun hput => ⟨hfree, by cases hput; rfl⟩, fun ⟨_, hput⟩ => hput ▸ rfl⟩

/-- Writing a file changes only the location to which `path` leads. -/
theorem sameBut_writeFile (h : tree.writeFile path text = .ok next)
    (hchanged : ∀ location, tree.locate path = .ok location → changed location) :
    SameBut changed tree next := by
  obtain ⟨location, hlocation, hfree, rfl⟩ := writeFile_eq_ok_iff.mp h
  exact sameBut_put hfree (hchanged location hlocation) text

/-- The `text` that was written at `path` is read back there. -/
theorem readFile_writeFile (h : tree.writeFile path text = .ok next) : next.readFile path = .ok text := by
  have hsame := sameBut_writeFile h fun _ => id
  obtain ⟨location, hlocation, hfree, rfl⟩ := writeFile_eq_ok_iff.mp h
  exact readFile_eq_ok_iff.mpr ⟨location, hsame.locate_eq_ok_iff.mpr hlocation, node?_put_self hfree⟩

/-- A file is moved exactly if it can be read at `source`, and `path` names a file that is no folder. -/
theorem renameFile_eq_ok_iff {source : String} :
    tree.renameFile source path = .ok next ↔
      ∃ text start location, tree.readFile source = .ok text ∧ tree.locate source = .ok start ∧
        tree.locateFile path = .ok location ∧ tree.node? location ≠ some .folder ∧
          next = (tree.remove start).put location (.file text) := by
  rw [renameFile]
  simp only [bind_eq_ok_iff]
  constructor
  · rintro ⟨text, htext, start, hstart, location, hlocation, hput⟩
    split at hput
    next => cases hput
    next hfree =>
      cases hput
      exact ⟨text, start, location, htext, hstart, hlocation, hfree, rfl⟩
  · rintro ⟨text, start, location, htext, hstart, hlocation, hfree, rfl⟩
    refine ⟨text, htext, start, hstart, location, hlocation, ?_⟩
    split
    next hfolder => exact absurd hfolder hfree
    next => rfl

/-- Moving a file changes only the locations to which `source` and `path` lead. -/
theorem sameBut_renameFile {source : String} (h : tree.renameFile source path = .ok next)
    (hchanged : ∀ location, tree.locate source = .ok location ∨ tree.locate path = .ok location →
      changed location) :
    SameBut changed tree next := by
  obtain ⟨text, start, location, htext, hstart, hlocation, hplace, rfl⟩ := renameFile_eq_ok_iff.mp h
  obtain ⟨found, hfound, hfile⟩ := readFile_eq_ok_iff.mp htext
  cases hfound.symm.trans hstart
  -- What is moved was read as a file, so no folder goes with it.
  have hremove : SameBut changed tree (tree.remove start) :=
    sameBut_remove (by simp [hfile]) (hchanged start (.inl hstart))
  exact hremove.trans (sameBut_put (hremove.ne_folder hplace)
    (hchanged location (.inr (locateFile_eq_ok_iff.mp hlocation).1)) text)

/-- A file is read as before if its `path` leads to none of the locations `changed`. -/
theorem SameBut.readFile_eq (h : SameBut changed tree other) (hplace : tree.locate path = .ok place)
    (hsame : ¬ changed place) : other.readFile path = tree.readFile path := by
  rw [readFile, readFile, h.locate_eq_ok_iff.mpr hplace, hplace, ok_bind, ok_bind, h.node?_eq place hsame]

/-- `tree` after the file at `path` was replaced by one with `text` that was written beside it and then moved. -/
def replaceFile (tree : FileTree) (path text : String) : Except FileError FileTree := do
  let prepared ← tree.writeFile (Path.temporary path) text
  prepared.renameFile (Path.temporary path) path

/-- The locations that are changed when the file at `path` is replaced. -/
def Replaced (tree : FileTree) (path : String) (location : Location) : Prop :=
  tree.locate path = .ok location ∨ tree.locate (Path.temporary path) = .ok location

/-- In trees with the same folders, the same locations are changed when the file at `path` is replaced. -/
theorem SameBut.replaced_eq (h : SameBut changed tree other) (path : String) :
    other.Replaced path = tree.Replaced path := by
  funext location
  simp only [Replaced, h.locate_eq_ok_iff]

/-- The file at `path` is replaced exactly if neither `path` nor `Path.temporary path` leads to a folder. -/
theorem replaceFile_eq_ok_iff :
    tree.replaceFile path text = .ok next ↔
      ∃ beside location, tree.locate (Path.temporary path) = .ok beside ∧
        tree.node? beside ≠ some .folder ∧ tree.locateFile path = .ok location ∧
          tree.node? location ≠ some .folder ∧
            next = (tree.remove beside).put location (.file text) := by
  -- The prepared file is found where it was written, because writing it changes no folder.
  rw [replaceFile, bind_eq_ok_iff]
  constructor
  · rintro ⟨prepared, hwrite, hrename⟩
    have hsame := sameBut_writeFile hwrite fun _ => id
    have hread := readFile_writeFile hwrite
    obtain ⟨beside, hbeside, hfree, rfl⟩ := writeFile_eq_ok_iff.mp hwrite
    obtain ⟨found, start, location, hfound, hstart, hlocation, hplace, rfl⟩ := renameFile_eq_ok_iff.mp hrename
    cases hfound.symm.trans hread
    cases (hsame.locate_eq_ok_iff.mp hstart).symm.trans hbeside
    rw [locateFile_eq_ok_iff, hsame.locate_eq_ok_iff] at hlocation
    exact ⟨beside, location, hbeside, hfree, locateFile_eq_ok_iff.mpr hlocation,
      hsame.symm.ne_folder hplace, by rw [remove_put_self]⟩
  · rintro ⟨beside, location, hbeside, hfree, hlocation, hplace, rfl⟩
    have hwrite : tree.writeFile (Path.temporary path) text = _ :=
      writeFile_eq_ok_iff.mpr ⟨beside, hbeside, hfree, rfl⟩
    have hsame := sameBut_writeFile hwrite fun _ => id
    refine ⟨_, hwrite, renameFile_eq_ok_iff.mpr ?_⟩
    rw [locateFile_eq_ok_iff, ← hsame.locate_eq_ok_iff] at hlocation
    exact ⟨text, beside, location, readFile_writeFile hwrite, hsame.locate_eq_ok_iff.mpr hbeside,
      locateFile_eq_ok_iff.mpr hlocation, hsame.ne_folder hplace, by rw [remove_put_self]⟩

/-- Replacing the file at `path` leaves the folders as they were, and all files but those at `tree.Replaced
path`. -/
theorem sameBut_replaceFile (h : tree.replaceFile path text = .ok next) :
    SameBut (tree.Replaced path) tree next := by
  obtain ⟨prepared, hwrite, hrename⟩ := bind_eq_ok_iff.mp h
  have hsame : SameBut (tree.Replaced path) tree prepared := sameBut_writeFile hwrite fun _ => .inr
  refine hsame.trans (sameBut_renameFile hrename fun location hlocation => ?_)
  rw [hsame.locate_eq_ok_iff, hsame.locate_eq_ok_iff] at hlocation
  exact hlocation.symm

/-- A file that was replaced can be replaced again by any `text'`, also after changes of other files. -/
theorem SameBut.exists_replaceFile (hsame : SameBut changed tree other)
    (h : tree.replaceFile path text = .ok next) (text' : String) :
    ∃ next', other.replaceFile path text' = .ok next' := by
  obtain ⟨beside, location, hbeside, hfree, hlocation, hplace, -⟩ := replaceFile_eq_ok_iff.mp h
  rw [locateFile_eq_ok_iff, ← hsame.locate_eq_ok_iff] at hlocation
  exact ⟨_, replaceFile_eq_ok_iff.mpr
    ⟨beside, location, hsame.locate_eq_ok_iff.mpr hbeside, hsame.ne_folder hfree,
      locateFile_eq_ok_iff.mpr hlocation, hsame.ne_folder hplace, rfl⟩⟩

/-- The `text` by which the file at `path` was replaced is read there. -/
theorem readFile_replaceFile (h : tree.replaceFile path text = .ok next) : next.readFile path = .ok text := by
  have hsame := sameBut_replaceFile h
  obtain ⟨beside, location, hbeside, hfree, hlocation, hplace, rfl⟩ := replaceFile_eq_ok_iff.mp h
  -- Nothing is a folder now at the location that was none before the prepared file was taken away.
  have hremove : SameBut (tree.Replaced path) tree (tree.remove beside) := sameBut_remove hfree (.inr hbeside)
  exact readFile_eq_ok_iff.mpr
    ⟨location, hsame.locate_eq_ok_iff.mpr (locateFile_eq_ok_iff.mp hlocation).1,
      node?_put_self (hremove.ne_folder hplace)⟩

end FileTree

end TrafficMeter.Tool
