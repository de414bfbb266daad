import TrafficMeter.Proofs.Confined

/-!
# What is assumed of files

A tool that replaces a file relies on its host. `FileSystem σ` says what of, for any host whose states are of type
`σ`: a rename replaces its target whole, or fails and leaves the target alone. Reading and writing may fail for
any reason, a write that fails may leave anything in its own place, and files may hold what is no text.

No file is reached by two names, so a file is not touched by what is done to a path with another last name. This is
why a file can be prepared at `Path.temporary path` without touching the one at `path`: these paths never end in
the same name, in whatever way `path` is written, with idle segments, steps up and slashes at the end.

## Main definitions

* `FileSystem σ`: what is assumed of the files of a host with states of type `σ`;
* `Machine.fileSystem`: a `Machine` meets these assumptions.

## Main results

* `Path.fileName?_temporary_ne`: `path` and `Path.temporary path` do not end in the same name;
* `FileSystem.found_of_save_error` and `FileSystem.found_of_save_ok`: a state that is not saved leaves what is at
  its path as it was, and one that is saved is there as a whole, with nothing left beside it.
-/

namespace TrafficMeter.Tool

/-! ## The path of the prepared file -/

namespace Path

theorem splitSlash_eq_splitOn (text : List Char) : splitSlash text = text.splitOn '/' := by
  fun_induction splitSlash text with
  | case1 => rfl
  | case2 rest ih => rw [ih, List.splitOn, List.splitOn, List.splitOnP_cons_eq_if_modifyHead]; rfl
  | case3 c rest _ hrest => exact absurd hrest (splitSlash_ne_nil rest)
  | case4 c rest hslash segment segments hrest ih =>
    have hne : (c == '/') = false := beq_eq_false_iff_ne.mpr fun heq => hslash heq
    rw [hrest] at ih
    rw [List.splitOn, List.splitOnP_cons_eq_if_modifyHead, hne, ← List.splitOn, ← ih]
    rfl

/-- No `segment` of a text has a slash in it. -/
theorem slash_notMem_of_mem_splitSlash {text segment : List Char} (h : segment ∈ splitSlash text) :
    '/' ∉ segment := by
  fun_induction splitSlash text generalizing segment with
  | case1 => simp_all
  | case2 rest ih =>
    rcases List.mem_cons.mp h with rfl | hrest
    · simp
    · exact ih hrest
  | case3 c rest _ hrest => exact absurd hrest (splitSlash_ne_nil rest)
  | case4 c rest hslash first others hrest ih =>
    rw [hrest] at ih
    rcases List.mem_cons.mp h with rfl | hothers
    · rw [List.mem_cons, not_or]
      exact ⟨fun heq => hslash heq.symm, ih List.mem_cons_self⟩
    · exact ih (List.mem_cons_of_mem _ hothers)

theorem slash_notMem_of_mem_segments {path segment : String} (h : segment ∈ segments path) :
    '/' ∉ segment.toList := by
  obtain ⟨characters, hmem, rfl⟩ := List.mem_map.mp h
  rw [String.toList_ofList]
  exact slash_notMem_of_mem_splitSlash hmem

/-- A path that is put together from the segments of `folder` and `name` has these segments. -/
theorem segments_joinName {folder : List String} {name : String}
    (h : ∀ segment ∈ folder ++ [name], '/' ∉ segment.toList) :
    segments (joinName folder name) = folder ++ [name] := by
  have hslash : "/".toList = ['/'] := rfl
  rw [segments, joinName, splitSlash_eq_splitOn, String.toList_intercalate, hslash,
    List.splitOn_intercalate _ (List.forall_mem_map.mpr h) (by simp), List.map_map]
  simp

theorem mem_of_mem_trimIdle {segments : List String} {segment : String} (h : segment ∈ trimIdle segments) :
    segment ∈ segments := by
  cases segments with
  | nil => exact h
  | cons first rest =>
    rcases List.mem_cons.mp h with rfl | hrest
    · exact List.mem_cons_self
    · have hkept := (List.dropWhile_sublist _).mem (List.mem_reverse.mp hrest)
      exact List.mem_cons_of_mem _ (List.mem_reverse.mp hkept)

theorem trimIdle_append_singleton {folder : List String} {name : String} (h : isIdle name = false) :
    trimIdle (folder ++ [name]) = folder ++ [name] := by
  cases folder with
  | nil => rfl
  | cons first rest => simp [trimIdle, h]

/-- The name of `path` is the last of its segments that are not idle at the end, if it is the name of something. -/
theorem fileName?_eq_some_iff {path name : String} :
    fileName? path = some name ↔
      ∃ folder, trimIdle (segments path) = folder ++ [name] ∧ isIdle name = false ∧ name ≠ ".." := by
  rw [fileName?, Option.filter_eq_some_iff, List.getLast?_eq_some_iff]
  simp

theorem fileName?_joinName {folder : List String} {name : String}
    (h : ∀ segment ∈ folder ++ [name], '/' ∉ segment.toList) (hidle : isIdle name = false)
    (hup : name ≠ "..") : fileName? (joinName folder name) = some name := by
  rw [fileName?_eq_some_iff, segments_joinName h, trimIdle_append_singleton hidle]
  exact ⟨folder, rfl, hidle, hup⟩

theorem ne_of_append_tmp {name short : String} (h : short.length < 4) : name ++ ".tmp" ≠ short := by
  rintro rfl
  have hlength : (name ++ ".tmp").length = name.length + 4 := String.length_append name ".tmp"
  omega

theorem isIdle_append_tmp (name : String) : isIdle (name ++ ".tmp") = false := by
  rw [isIdle, Bool.or_eq_false_iff, beq_eq_false_iff_ne, beq_eq_false_iff_ne]
  exact ⟨ne_of_append_tmp (by decide), ne_of_append_tmp (by decide)⟩

theorem fileName?_temporary_of_some {path name : String} (h : fileName? path = some name) :
    fileName? (temporary path) = some (name ++ ".tmp") := by
  obtain ⟨folder, hpath, -⟩ := fileName?_eq_some_iff.mp h
  have htemporary : temporary path = joinName (trimIdle folder) (name ++ ".tmp") := by
    simp [temporary, h, hpath]
  have hslash {segment : String} (hmem : segment ∈ folder ++ [name]) : '/' ∉ segment.toList :=
    slash_notMem_of_mem_segments (mem_of_mem_trimIdle (hpath ▸ hmem))
  rw [htemporary, fileName?_joinName _ (isIdle_append_tmp name) (ne_of_append_tmp (by decide))]
  intro segment hsegment
  rcases List.mem_append.mp hsegment with hfolder | hlast
  · exact hslash (List.mem_append_left _ (mem_of_mem_trimIdle hfolder))
  · rw [List.mem_singleton.mp hlast, String.toList_append, List.mem_append, not_or]
    exact ⟨hslash (List.mem_append_right _ (List.mem_singleton_self _)), by decide⟩

theorem splitSlash_append_slash (text rest : List Char) :
    splitSlash (text ++ '/' :: rest) = splitSlash text ++ splitSlash rest := by
  fun_induction splitSlash text with
  | case1 => rfl
  | case2 text ih => rw [List.cons_append, splitSlash, ih, List.cons_append]
  | case3 c text _ htext => exact absurd htext (splitSlash_ne_nil text)
  | case4 c text hslash segment segments htext ih =>
    rw [List.cons_append, splitSlash, ih, htext]
    · rfl
    · exact hslash

/-- If `path` goes on with `name` after a slash, then it ends in `name`. -/
theorem fileName?_of_toList {path : String} {folder name : List Char} (h : path.toList = folder ++ '/' :: name)
    (hname : splitSlash name = [name]) (hidle : isIdle (.ofList name) = false)
    (hup : String.ofList name ≠ "..") : fileName? path = some (.ofList name) := by
  have hsegments : segments path = (splitSlash folder).map String.ofList ++ [String.ofList name] := by
    rw [segments, h, splitSlash_append_slash, hname, List.map_append, List.map_singleton]
  rw [fileName?_eq_some_iff, hsegments, trimIdle_append_singleton hidle]
  exact ⟨_, rfl, hidle, hup⟩

theorem fileName?_temporary_of_none {path : String} (h : fileName? path = none) :
    fileName? (temporary path) = some ".tmp" := by
  rw [temporary, h]
  dsimp only
  split
  -- The path is empty or ends in a slash.
  next hslash =>
    rw [Bool.or_eq_true, endsWith_slash_iff] at hslash
    rcases hslash with hempty | ⟨folder, hfolder⟩
    · rw [String.isEmpty_iff.mp hempty]
      decide +kernel
    · have htext : (path ++ ".tmp").toList = folder ++ '/' :: ['.', 't', 'm', 'p'] := by
        rw [String.toList_append, ← hfolder, List.append_assoc]
        rfl
      exact fileName?_of_toList htext rfl (by decide) (by decide)
  next =>
    have htext : (path ++ "/.tmp").toList = path.toList ++ '/' :: ['.', 't', 'm', 'p'] :=
      String.toList_append
    exact fileName?_of_toList htext rfl (by decide) (by decide)

/-- A file is never prepared under the name of the file at `path` that it is going to replace. -/
theorem fileName?_temporary_ne (path : String) : fileName? (temporary path) ≠ fileName? path := by
  cases h : fileName? path with
  | none => simp [fileName?_temporary_of_none h]
  | some name =>
    rw [fileName?_temporary_of_some h, ne_eq, Option.some_inj]
    intro heq
    have hlength : (name ++ ".tmp").length = name.length + 4 := String.length_append name ".tmp"
    rw [heq] at hlength
    omega

end Path

/-! ## Files of a host -/

/-- What is assumed of the files of a host whose states are of type `σ`. -/
structure FileSystem (σ : Type) [Host (StateM σ)] where
  /-- What a file can hold, which need not be a text. -/
  Content : Type
  /-- What a file with `text` holds. -/
  ofText (text : String) : Content
  /-- What `path` leads to in `world`, if there is anything. -/
  found (world : σ) (path : String) : Option (FileNode Content)
  /-- No file is changed by looking at files and clocks. -/
  observing : Observing found
  /-- A file is seen to be there. -/
  exists?_of_file : ∀ world path content, found world path = some (.file content) →
    ((Host.exists? path : StateM σ _) world).1 = true
  /-- Writing at `path`, whether or not it succeeds, changes nothing at paths that end in another name. -/
  writeFile_apart : ∀ world path text other, Path.fileName? other ≠ Path.fileName? path →
    found ((Host.writeFile path text : StateM σ _) world).2 other = found world other
  /-- A text that was written is there. -/
  writeFile_ok : ∀ world path text, ((Host.writeFile path text : StateM σ _) world).1 = .ok () →
    found ((Host.writeFile path text : StateM σ _) world).2 path = some (.file (ofText text))
  /-- A rename that fails leaves its target. -/
  renameFile_error : ∀ world source target error,
    ((Host.renameFile source target : StateM σ _) world).1 = .error error →
      found ((Host.renameFile source target : StateM σ _) world).2 target = found world target
  /-- A rename that succeeds replaces its target by the whole of what was at its source. -/
  renameFile_ok : ∀ world source target,
    ((Host.renameFile source target : StateM σ _) world).1 = .ok () →
      found ((Host.renameFile source target : StateM σ _) world).2 target = found world source
  /-- A rename that succeeds leaves nothing at its source, if that has another name than its target. -/
  renameFile_source : ∀ world source target, Path.fileName? source ≠ Path.fileName? target →
    ((Host.renameFile source target : StateM σ _) world).1 = .ok () →
      found ((Host.renameFile source target : StateM σ _) world).2 source = none

namespace FileSystem

variable {σ : Type} [Host (StateM σ)] (files : FileSystem σ) {world after : σ} {path : String}
  {state : StateFile}

/-- The two steps of `StateFile.save path state`, of which either can fail. -/
theorem save_cases (path : String) (state : StateFile) (world : σ) :
    let written := (Host.writeFile (Path.temporary path) state.format : StateM σ _) world
    let moved := (Host.renameFile (Path.temporary path) path : StateM σ _) written.2
    let saved := (StateFile.save path state : StateM σ _) world
    (∃ failure, saved = (.error failure, written.2)) ∨
    (∃ failure error, moved.1 = .error error ∧ saved = (.error failure, moved.2)) ∨
    (written.1 = .ok () ∧ moved.1 = .ok () ∧ saved = (.ok (), moved.2)) := by
  intro written moved saved
  have hsaved : saved = (StateFile.save path state : StateM σ _) world := rfl
  rw [StateFile.save, bind_apply] at hsaved
  cases hwritten : written.1 with
  | error error =>
    rw [hwritten] at hsaved
    exact .inl ⟨_, hsaved⟩
  | ok =>
    rw [hwritten] at hsaved
    dsimp only at hsaved
    rw [bind_apply] at hsaved
    cases hmoved : moved.1 with
    | error error =>
      rw [hmoved] at hsaved
      exact .inr (.inl ⟨_, error, rfl, hsaved⟩)
    | ok =>
      rw [hmoved] at hsaved
      exact .inr (.inr ⟨rfl, rfl, hsaved⟩)

/-- A `state` that is not saved leaves what is at `path` as it was. -/
theorem found_of_save_error {failure : Failure}
    (h : (StateFile.save path state : StateM σ _) world = (.error failure, after)) :
    files.found after path = files.found world path := by
  have hprepared := files.writeFile_apart world (Path.temporary path) state.format path
    (Path.fileName?_temporary_ne path).symm
  rcases save_cases path state world with ⟨_, hsaved⟩ | ⟨_, error, hmoved, hsaved⟩ | ⟨-, -, hsaved⟩
  · cases h.symm.trans hsaved
    exact hprepared
  · cases h.symm.trans hsaved
    exact (files.renameFile_error _ _ _ error hmoved).trans hprepared
  · cases h.symm.trans hsaved

/-- A `state` that is saved is at `path` as a whole, and the file in which it was prepared is gone. -/
theorem found_of_save_ok (h : (StateFile.save path state : StateM σ _) world = (.ok (), after)) :
    files.found after path = some (.file (files.ofText state.format)) ∧
      files.found after (Path.temporary path) = none := by
  rcases save_cases path state world with ⟨_, hsaved⟩ | ⟨_, _, -, hsaved⟩ | ⟨hwritten, hmoved, hsaved⟩
  · cases h.symm.trans hsaved
  · cases h.symm.trans hsaved
  · cases h.symm.trans hsaved
    exact ⟨(files.renameFile_ok _ _ _ hmoved).trans (files.writeFile_ok _ _ _ hwritten),
      files.renameFile_source _ _ _ (Path.fileName?_temporary_ne path) hmoved⟩

end FileSystem

/-! ## Where paths lead -/

namespace FileTree

variable {tree next other : FileTree} {start goal location place beside : Location} {path text : String}

/-- Everything above `location` is a folder. -/
def Rooted (tree : FileTree) (location : Location) : Prop :=
  ∀ above, above <+: location → above ≠ location → tree.node? above = some .folder

theorem rooted_of_isPrefix_here (h : location <+: tree.here) : tree.Rooted location := by
  intro above habove _
  rw [node?, if_pos (habove.trans h)]

/-- Above a folder that was reached there are only folders, itself included. -/
theorem Rooted.node?_of_isPrefix (h : tree.Rooted location) (hfolder : tree.node? location = some .folder)
    (habove : place <+: location) : tree.node? place = some .folder := by
  by_cases heq : place = location
  · rw [heq, hfolder]
  · exact h place habove heq

/-- What one `segment` of a path does: it stays in a folder, goes up to the folder above it, or goes down to a
name. -/
theorem follow_cons_eq_ok_iff {segment : String} {rest : List String} :
    tree.follow start (segment :: rest) = .ok goal ↔
      tree.node? start = some .folder ∧ ∃ reached, tree.follow reached rest = .ok goal ∧
        (Path.isIdle segment = true ∧ reached = start ∨
          Path.isIdle segment = false ∧ segment = ".." ∧ reached = start.dropLast ∨
          Path.isIdle segment = false ∧ segment ≠ ".." ∧ segment.utf8ByteSize ≤ Path.maxNameLength ∧
            reached = start ++ [segment]) := by
  rw [follow]
  cases hstart : tree.node? start with
  | none => simp
  | some node =>
    cases node with
    | file text => simp
    | folder =>
      dsimp only
      split_ifs with hidle hup hlong <;> simp_all

/-- Segments that are followed pass through folders only. -/
theorem Rooted.follow {segments : List String} (h : tree.Rooted start)
    (hfollow : tree.follow start segments = .ok goal) : tree.Rooted goal := by
  induction segments generalizing start with
  | nil =>
    cases hfollow
    exact h
  | cons segment rest ih =>
    obtain ⟨hfolder, reached, hrest, hstep⟩ := follow_cons_eq_ok_iff.mp hfollow
    refine ih ?_ hrest
    rcases hstep with ⟨-, rfl⟩ | ⟨-, -, rfl⟩ | ⟨-, -, -, rfl⟩
    · exact h
    · -- From the folder above, what lies above is above the start as well.
      intro above habove _
      exact h.node?_of_isPrefix hfolder (habove.trans (List.dropLast_prefix _))
    · intro above habove hne
      rcases List.prefix_concat_iff.mp habove with heq | hprefix
      · exact absurd heq hne
      · exact h.node?_of_isPrefix hfolder hprefix

theorem follow_append (segments more : List String) :
    tree.follow start (segments ++ more) = .ok goal ↔
      ∃ reached, tree.follow start segments = .ok reached ∧ tree.follow reached more = .ok goal := by
  induction segments generalizing start with
  | nil => simp [FileTree.follow]
  | cons segment rest ih =>
    simp only [List.cons_append, follow_cons_eq_ok_iff, ih]
    constructor
    · rintro ⟨hfolder, reached, ⟨middle, hrest, hmore⟩, hstep⟩
      exact ⟨middle, ⟨hfolder, reached, hrest, hstep⟩, hmore⟩
    · rintro ⟨middle, ⟨hfolder, reached, hrest, hstep⟩, hmore⟩
      exact ⟨hfolder, reached, ⟨middle, hrest, hmore⟩, hstep⟩

/-- A `path` is followed from the root or from the folder that relative paths start from. -/
theorem exists_follow_of_locate (h : tree.locate path = .ok location) :
    ∃ start, tree.Rooted start ∧ tree.follow start (Path.segments path) = .ok location := by
  rw [locate, walk] at h
  split_ifs at h with hnul hempty hlong hroot
  · exact ⟨[], rooted_of_isPrefix_here List.nil_prefix, h⟩
  · exact ⟨tree.here, rooted_of_isPrefix_here List.prefix_rfl, h⟩

/-- A `path` that leads to no folder ends in the name of what it leads to. -/
theorem exists_name_of_locate (h : tree.locate path = .ok place) (hfree : tree.node? place ≠ some .folder) :
    ∃ folder name, Path.segments path = folder ++ [name] ∧ Path.isIdle name = false ∧ name ≠ ".." ∧
      place.getLast? = some name := by
  obtain ⟨start, hrooted, hfollow⟩ := exists_follow_of_locate h
  have hsegments : Path.segments path ≠ [] := by simpa [Path.segments] using Path.splitSlash_ne_nil _
  obtain ⟨folder, name, hpath⟩ := (List.eq_nil_or_concat' _).resolve_left hsegments
  refine ⟨folder, name, hpath, ?_⟩
  rw [hpath, follow_append] at hfollow
  obtain ⟨above, habove, hlast⟩ := hfollow
  obtain ⟨hfolder, reached, hreached, hstep⟩ := follow_cons_eq_ok_iff.mp hlast
  cases hreached
  -- An idle segment or a step up would have led to a folder.
  rcases hstep with ⟨-, rfl⟩ | ⟨-, -, rfl⟩ | ⟨hidle, hup, -, rfl⟩
  · exact absurd hfolder hfree
  · exact absurd ((hrooted.follow habove).node?_of_isPrefix hfolder (List.dropLast_prefix _)) hfree
  · exact ⟨hidle, hup, List.getLast?_concat⟩

/-- `fileName?` is the name of the `place` that `path` leads to, if this is no folder. -/
theorem fileName?_of_locate (h : tree.locate path = .ok place) (hfree : tree.node? place ≠ some .folder) :
    Path.fileName? path = place.getLast? := by
  obtain ⟨folder, name, hpath, hidle, hup, hname⟩ := exists_name_of_locate h hfree
  rw [hname, Path.fileName?_eq_some_iff, hpath, Path.trimIdle_append_singleton hidle]
  exact ⟨folder, rfl, hidle, hup⟩

/-- What `path` leads to, if there is anything. -/
def found (tree : FileTree) (path : String) : Option (FileNode String) :=
  (tree.locate path).toOption.bind tree.node?

theorem found_of_locate (h : tree.locate path = .ok place) : tree.found path = tree.node? place := by
  rw [found, h]
  rfl

theorem found_eq_file_iff : tree.found path = some (.file text) ↔ tree.readFile path = .ok text := by
  rw [readFile_eq_ok_iff, found]
  cases tree.locate path with
  | ok place => simp [Except.toOption]
  | error error => simp [Except.toOption]

theorem contains_of_found {node : FileNode String} (h : tree.found path = some node) :
    tree.contains path = true := by
  rw [found] at h
  rw [contains]
  cases hplace : tree.locate path with
  | ok place =>
    rw [hplace] at h
    exact Option.isSome_of_mem h
  | error error =>
    rw [hplace] at h
    cases h

variable {changed : Location → Prop}

/-- A `path` leads to the same as before if it leads to none of the `changed` locations. -/
theorem SameBut.found_eq (h : SameBut changed tree other)
    (hsame : ∀ place, tree.locate path = .ok place → ¬ changed place) :
    other.found path = tree.found path := by
  cases hplace : tree.locate path with
  | ok place =>
    rw [found_of_locate hplace, found_of_locate (h.locate_eq_ok_iff.mpr hplace),
      h.node?_eq place (hsame place hplace)]
  | error error =>
    cases hother : other.locate path with
    | ok place => exact absurd (h.locate_eq_ok_iff.mp hother) (by simp [hplace])
    | error error' => rw [found, found, hplace, hother]; rfl

/-- Writing at `path` changes nothing at paths that end in another name. -/
theorem found_writeFile_of_ne (h : tree.writeFile path text = .ok next) {elsewhere : String}
    (hname : Path.fileName? elsewhere ≠ Path.fileName? path) :
    next.found elsewhere = tree.found elsewhere := by
  obtain ⟨written, hwritten, hfree, -⟩ := writeFile_eq_ok_iff.mp h
  refine (sameBut_writeFile h fun _ => id).found_eq fun place hplace hchanged => hname ?_
  cases hwritten.symm.trans hchanged
  rw [fileName?_of_locate hplace hfree, fileName?_of_locate hwritten hfree]

/-- A file that was moved is found at its new `path`, and no longer at `source` if that has another name. -/
theorem found_renameFile {source : String} (h : tree.renameFile source path = .ok next) :
    next.found path = tree.found source ∧
      (Path.fileName? source ≠ Path.fileName? path → next.found source = none) := by
  have hsame := sameBut_renameFile h fun _ => id
  obtain ⟨text, start, place, htext, hstart, hfile, hfree, rfl⟩ := renameFile_eq_ok_iff.mp h
  have hplace := (locateFile_eq_ok_iff.mp hfile).1
  have hmoved : tree.node? start = some (.file text) := by
    rw [← found_of_locate hstart, found_eq_file_iff.mpr htext]
  have hstartFree : tree.node? start ≠ some .folder := by simp [hmoved]
  have hremove : SameBut (· = start) tree (tree.remove start) := sameBut_remove hstartFree rfl
  constructor
  · rw [found_of_locate (hsame.locate_eq_ok_iff.mpr hplace), node?_put_self (hremove.ne_folder hfree),
      found_of_locate hstart, hmoved]
  · -- The file was moved to another place, since the two places have different names.
    intro hname
    have hne : start ≠ place := by
      rintro rfl
      exact hname (by rw [fileName?_of_locate hstart hfree, fileName?_of_locate hplace hfree])
    rw [found_of_locate (hsame.locate_eq_ok_iff.mpr hstart), node?_put_of_ne hne,
      node?_remove_self hstartFree]

end FileTree

namespace Machine

variable {machine : Machine} {result : Except FileError FileTree}

theorem eq_ok_of_change (h : (machine.change result).1 = .ok ()) :
    result = .ok (machine.change result).2.files := by
  cases result with
  | error error => cases h
  | ok files => rfl

theorem change_of_error {error : FileError} (h : (machine.change result).1 = .error error) :
    (machine.change result).2 = machine := by
  cases result with
  | error error => rfl
  | ok files => cases h

/-- The files of a machine hold texts, and a change of them that fails leaves everything as it is. -/
def fileSystem : FileSystem Machine where
  Content := String
  ofText := id
  found machine path := machine.files.found path
  observing := ⟨fun _ _ => rfl, fun _ _ => rfl, fun _ => rfl, fun _ => rfl⟩
  exists?_of_file _ _ _ h := FileTree.contains_of_found h
  writeFile_apart machine path text other hname := by
    cases hwrite : (machine.change (machine.files.writeFile path text)).1 with
    | error error => exact congrArg (·.files.found other) (change_of_error hwrite)
    | ok => exact FileTree.found_writeFile_of_ne (eq_ok_of_change hwrite) hname
  writeFile_ok _ _ _ h := FileTree.found_eq_file_iff.mpr (FileTree.readFile_writeFile (eq_ok_of_change h))
  renameFile_error _ _ target _ h := congrArg (·.files.found target) (change_of_error h)
  renameFile_ok _ _ _ h := (FileTree.found_renameFile (eq_ok_of_change h)).1
  renameFile_source _ _ _ hname h := (FileTree.found_renameFile (eq_ok_of_change h)).2 hname

end Machine

end TrafficMeter.Tool
