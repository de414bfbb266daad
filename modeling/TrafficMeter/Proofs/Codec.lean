import TrafficMeter.Proofs.Json
import TrafficMeter.Proofs.OrderedMap
import TrafficMeter.Tool.StateFile

/-!
# Saved states are read back

What is written into a state file is read from it again, whatever the names, records, entries and tallies are
(`StateFile.parse?_format`). `ReadsBack write read` says so of one kind of value. Each kind has a lemma
`readsBack`, and those of collections follow from those of their parts (`ReadsBack.list`,
`ReadsBack.orderedMap`).
-/

namespace TrafficMeter

/-- What `write` makes of a value is plain JSON, and `read` makes the same value of it again. -/
structure ReadsBack {α : Type} (write : α → Json) (read : Json → Option α) : Prop where
  /-- Everything that is written can be read. -/
  plain : ∀ a, (write a).Plain
  /-- What is read is what was written. -/
  read_write : ∀ a, read (write a) = some a

/-- If `g` undoes `f` up to `h` on all of `list`, then `mapM g` does so on `list.map f`. -/
theorem mapM_map_eq_some {α β γ : Type} {f : α → β} {g : β → Option γ} {h : α → γ} {list : List α}
    (hinverse : ∀ a ∈ list, g (f a) = some (h a)) : (list.map f).mapM g = some (list.map h) := by
  induction list with
  | nil => rfl
  | cons head rest ih =>
    obtain ⟨hhead, hrest⟩ := List.forall_mem_cons.mp hinverse
    simp [List.mapM_cons, hhead, ih hrest]

namespace Json

/-- The items of an array are plain exactly if each of them is. -/
theorem plainItems_iff {items : List Json} : PlainItems items ↔ ∀ item ∈ items, item.Plain := by
  induction items with
  | nil => simp [PlainItems]
  | cons item items ih => simp [PlainItems, ih]

/-- An object is plain if all of its `members` are. -/
theorem plain_ofMembers {members : List (String × Json)} (h : ∀ member ∈ members, member.2.Plain) :
    (ofMembers members).Plain := by
  rw [ofMembers, Plain]
  induction members with
  | nil => simp [PlainMembers]
  | cons member members ih =>
    obtain ⟨hmember, hmembers⟩ := List.forall_mem_cons.mp h
    exact ⟨rfl, hmember, ih hmembers⟩

/-- An object with named `members` looks like a mapping whose keys are texts. -/
theorem view_ofMembers (members : List (String × Json)) :
    Document.view (ofMembers members) = .mapping (members.map fun member => (text member.1, member.2)) := by
  simp [Document.view, ofMembers, view, text]

/-- The named `members` of an object are found again by `members?`. -/
theorem members?_ofMembers (members : List (String × Json)) :
    Document.members? (ofMembers members) = some members := by
  rw [Document.members?, view_ofMembers]
  show (members.map _).mapM _ = _
  rw [mapM_map_eq_some (h := id), List.map_id]
  intro member _
  rfl

/-- If no name occurs twice, then `field?` finds each of `members` by its name. -/
theorem field?_of_mem {members : List (String × Json)} (hnodup : (members.map Prod.fst).Nodup)
    {member : String × Json} (hmem : member ∈ members) :
    Document.field? members member.1 = some (some member.2) := by
  -- A name that occurs twice is an error, so it has to be shown that the member stands alone.
  have hfilter : members.filter (fun other => other.1 = member.1) = [member] := by
    induction members with
    | nil => cases hmem
    | cons head rest ih =>
      obtain ⟨hhead, hrest⟩ := List.nodup_cons.mp hnodup
      rcases List.mem_cons.mp hmem with rfl | hmem
      · have hnone : rest.filter (fun other => other.1 = member.1) = [] := by
          refine List.filter_eq_nil_iff.mpr fun other hother heq => hhead ?_
          exact List.mem_map.mpr ⟨other, hother, by simpa using heq⟩
        rw [List.filter_cons_of_pos (by simp), hnone]
      · have hne : head.1 ≠ member.1 := fun heq => hhead (heq ▸ List.mem_map_of_mem hmem)
        rw [List.filter_cons_of_neg (by simpa using hne), ih hrest hmem]
  rw [Document.field?, hfilter]

/-- The members of an object are found by their `names`, which are distinct. -/
theorem fields?_ofMembers (members : List (String × Json)) {names : List String}
    (hnames : members.map Prod.fst = names) (hnodup : names.Nodup) :
    Document.fields? names (ofMembers members) = some (members.map fun member => some member.2) := by
  subst hnames
  rw [Document.fields?, view_ofMembers]
  show (Document.members? (ofMembers members)).bind _ = _
  rw [members?_ofMembers, Option.bind_some]
  exact mapM_map_eq_some fun member hmem => field?_of_mem hnodup hmem

end Json

/-- A word of 64 bits is read back by `uint64?`. -/
theorem readsBack_word : ReadsBack Json.word Document.uint64? := by
  refine ⟨fun word => trivial, fun word => ?_⟩
  have hlt : word.toNat < UInt64.size := word.toNat_lt
  simp [Json.word, Document.uint64?, Document.below?, Document.scalar?, Document.view, Json.view,
    Option.filter, hlt]

theorem readsBack_text : ReadsBack Json.text Document.text? :=
  ⟨fun _ => rfl, fun _ => rfl⟩

/-- Lists are read back if their items are read back. -/
theorem ReadsBack.list {α : Type} {write : α → Json} {read : Json → Option α} (h : ReadsBack write read) :
    ReadsBack (fun list => .array (list.map write)) (Document.list? read) := by
  refine ⟨fun list => ?_, fun list => ?_⟩
  · rw [Json.Plain, Json.plainItems_iff]
    intro item hitem
    obtain ⟨a, -, rfl⟩ := List.mem_map.mp hitem
    exact h.plain a
  · show (list.map write).mapM read = some list
    rw [mapM_map_eq_some (h := id) fun a _ => h.read_write a, List.map_id]

/-- Maps from names are read back if their values are read back. -/
theorem ReadsBack.orderedMap {α : Type} {write : α → Json} {read : Json → Option α} (h : ReadsBack write read) :
    ReadsBack (OrderedMap.toJson write) (OrderedMap.ofJson? read) := by
  refine ⟨fun m => ?_, fun m => ?_⟩
  · refine Json.plain_ofMembers fun member hmember => ?_
    obtain ⟨binding, -, rfl⟩ := List.mem_map.mp hmember
    exact h.plain binding.2
  · have hbindings : (m.toList.map fun binding => (binding.1, write binding.2)).mapM
        (fun member => (read member.2).map fun value => (member.1, value)) = some m.toList := by
      rw [mapM_map_eq_some (h := id), List.map_id]
      intro binding _
      rw [h.read_write]
      rfl
    refine Option.bind_eq_some_iff.mpr ⟨_, Json.members?_ofMembers _, ?_⟩
    refine Option.bind_eq_some_iff.mpr ⟨_, hbindings, ?_⟩
    -- The bindings come in the order of the map, from which the same map is built again.
    rw [OrderedMap.ofList_toList]
    rfl

/-- The words in an object are found by their `names`, which are distinct. -/
theorem Json.words?_ofMembers (members : List (String × UInt64)) {names : List String}
    (hnames : members.map Prod.fst = names) (hnodup : names.Nodup) :
    (ofMembers (members.map fun member => (member.1, word member.2))).words? names =
      some (members.map Prod.snd) := by
  have hnames' : (members.map fun member => (member.1, word member.2)).map Prod.fst = names := by
    rw [← hnames, List.map_map]
    rfl
  refine Option.bind_eq_some_iff.mpr ⟨_, fields?_ofMembers _ hnames' hnodup, ?_⟩
  rw [List.map_map]
  exact mapM_map_eq_some fun member _ => readsBack_word.read_write member.2

/-- An object whose `members` are words is plain. -/
theorem Json.plain_words (members : List (String × UInt64)) :
    (ofMembers (members.map fun member => (member.1, word member.2))).Plain := by
  refine plain_ofMembers fun member hmember => ?_
  obtain ⟨source, -, rfl⟩ := List.mem_map.mp hmember
  exact readsBack_word.plain source.2

/-- What `Record.toJson` writes is read back by `Record.ofJson?`. -/
theorem Record.readsBack : ReadsBack toJson ofJson? := by
  refine ⟨fun record => Json.plain_words (fieldNames.zip record.words), fun record => ?_⟩
  have hwords : record.toJson.words? fieldNames = some record.words :=
    Json.words?_ofMembers (fieldNames.zip record.words) rfl (by decide)
  rw [ofJson?, hwords]
  exact ofWords?_words record

/-- What `Tally.toJson` writes is read back by `Tally.ofJson?`. -/
theorem Tally.readsBack : ReadsBack toJson ofJson? := by
  let members (tally : Tally) := [("green", tally.green), ("yellow", tally.yellow), ("red", tally.red)]
  refine ⟨fun tally => Json.plain_words (members tally), fun tally => ?_⟩
  have hwords : tally.toJson.words? fieldNames = some [tally.green, tally.yellow, tally.red] :=
    Json.words?_ofMembers (members tally) rfl (by decide)
  rw [ofJson?, hwords]
  rfl

/-- What `SavedEntry.toJson` writes is read back by `SavedEntry.ofJson?`. -/
theorem SavedEntry.readsBack : ReadsBack toJson ofJson? := by
  refine ⟨fun entry => ?_, fun entry => ?_⟩
  · exact ⟨rfl, readsBack_text.plain _, rfl, readsBack_text.plain _, trivial⟩
  · have hfields : Document.fields? ["key", "value"] entry.toJson =
        some [some (.text entry.key), some (.text entry.value)] :=
      Json.fields?_ofMembers _ rfl (by decide)
    rw [ofJson?, hfields]
    rfl

/-- What `Snapshot.toJson` writes is read back by `Snapshot.ofJson?`. -/
theorem Snapshot.readsBack : ReadsBack toJson ofJson? := by
  have hstores := Record.readsBack.list.orderedMap
  have htables := SavedEntry.readsBack.list.orderedMap
  have htallies := Tally.readsBack.orderedMap
  refine ⟨fun snapshot => ?_, fun snapshot => ?_⟩
  · exact ⟨rfl, hstores.plain _, rfl, htables.plain _, rfl, htallies.plain _, trivial⟩
  · have hfields : Document.fields? ["meters", "tables", "stats"] snapshot.toJson =
        some [some (snapshot.stores.toJson fun records => .array (records.map Record.toJson)),
          some (snapshot.tables.toJson fun entries => .array (entries.map SavedEntry.toJson)),
          some (snapshot.tallies.toJson Tally.toJson)] :=
      Json.fields?_ofMembers _ rfl (by decide)
    rw [ofJson?, hfields]
    simp [Document.orDefault, hstores.read_write, htables.read_write, htallies.read_write]

/-- What `StateFile.toJson` writes is read back by `StateFile.ofJson?`. -/
theorem Tool.StateFile.readsBack : ReadsBack toJson ofJson? := by
  refine ⟨fun state => ?_, fun state => ?_⟩
  · exact ⟨rfl, readsBack_word.plain _, rfl, readsBack_word.plain _, rfl, Snapshot.readsBack.plain _,
      trivial⟩
  · have hfields : Document.fields? ["clock_ns", "saved_at_unix_ns", "pipeline"] state.toJson =
        some [some (.word state.clock), some (.word state.savedAt), some state.snapshot.toJson] :=
      Json.fields?_ofMembers _ rfl (by decide)
    rw [ofJson?, hfields]
    simp [readsBack_word.read_write, Snapshot.readsBack.read_write]

/-- The text `state.format` of a state file is read back as `state`. -/
theorem Tool.StateFile.parse?_format (state : StateFile) : parse? state.format = some state := by
  rw [parse?, format, Json.parse?_render _ (readsBack.plain state), Option.bind_some, readsBack.read_write]

end TrafficMeter
