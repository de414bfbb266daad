import TrafficMeter.Codec.Description
import TrafficMeter.Proofs.Codec

/-!
# Texts of states and descriptions

A state file and a description are written as JSON texts and read from them again, and nothing is lost on the
way: not a character of a name, not a bit of a word, not a field of a layout (`texts_are_read_back`). It
follows that writing what was read changes a text at most once, since what it is changed into is what is
written for it ever after.

The fields of a layout stand among those of its table and are read in another way than the rest, since the
reader keeps them until it knows what they are. `TableDescription.readsBack` is where this is dealt with.
-/

namespace TrafficMeter

/-! ## Scalars of a description -/

/-- A word of 64 bits that was kept is read back by `keptUInt64?`, since it is never too large to be kept as a
number. -/
theorem readsBack_keptWord : ReadsBack Json.word Document.keptUInt64? := by
  refine ⟨fun word => trivial, fun word => ?_⟩
  have hlt : word.toNat < UInt64.size := word.toNat_lt
  have hkept : Document.kept? (Json.word word) = some (.natural word.toNat) := by
    simp [Document.kept?, Document.scalar?, Document.view, Json.view, Json.word, Json.keptNatural, hlt]
  simp [Document.keptUInt64?, hkept, hlt]

/-- A `word` can be kept. -/
theorem Json.canKeep_word (word : UInt64) : Document.canKeep (Json.word word) = true := by
  have hlt : word.toNat < UInt64.size := word.toNat_lt
  simp [Document.canKeep, Json.word, Json.keptDepth, Json.canKeepWithin, Json.keptNatural, hlt]

/-- The capacity of a store is read back by `uint32?`. -/
theorem readsBack_capacity :
    ReadsBack (fun capacity : UInt32 => Json.natural capacity.toNat) Document.uint32? := by
  refine ⟨fun capacity => trivial, fun capacity => ?_⟩
  have hlt : capacity.toNat < UInt32.size := capacity.toNat_lt
  simp [Document.uint32?, Document.below?, Document.scalar?, Document.view, Json.view, Option.filter, hlt]

/-- Units are read back by their names. -/
theorem MeasureUnit.readsBack : ReadsBack (fun unit => Json.text unit.name) (ofDocument? (α := Json)) := by
  refine ⟨fun unit => rfl, fun unit => ?_⟩
  cases unit with
  | bytes => rfl
  | packets => rfl

/-- The kind of a counter is written by its name, and a table without counters by `null`. -/
def CounterKind.toJson (counter : Option CounterKind) : Json :=
  (counter.map fun kind => Json.text kind.name).getD .null

/-- What `CounterKind.toJson` writes is read back, also `null` for no counter. -/
theorem CounterKind.readsBack : ReadsBack toJson (ofDocument? (α := Json)) := by
  refine ⟨fun counter => ?_, fun counter => ?_⟩
  · cases counter with
    | none => trivial
    | some kind => rfl
  · cases counter with
    | none => rfl
    | some kind => cases kind <;> rfl

/-- What `CounterKind.toJson` writes can be kept. -/
theorem CounterKind.canKeep_toJson (counter : Option CounterKind) :
    Document.canKeep (toJson counter) = true := by
  cases counter with
  | none => rfl
  | some kind => rfl

/-! ## Stores, tables and whole descriptions -/

/-- What `StoreDescription.toJson` writes is read back. -/
theorem StoreDescription.readsBack : ReadsBack toJson (ofDocument? (α := Json)) := by
  refine ⟨fun store => ?_, fun store => ?_⟩
  · exact ⟨rfl, readsBack_text.plain _, rfl, readsBack_capacity.plain _, rfl, MeasureUnit.readsBack.plain _,
      trivial⟩
  · have hfields : Document.fields? ["name", "capacity", "unit"] store.toJson =
        some [some (.text store.name), some (.natural store.capacity.toNat), some (.text store.unit.name)] :=
      Json.fields?_ofMembers _ rfl (by decide)
    have hcapacity := readsBack_capacity.read_write store.capacity
    rw [ofDocument?, hfields]
    simp [Document.orDefault, readsBack_text.read_write, hcapacity, MeasureUnit.readsBack.read_write]

namespace TableDescription

/-- The members of the description of `table`: its own, and between them those of its layout. -/
def jsonMembers (table : TableDescription) : List (String × Json) :=
  [("name", .text table.name), ("action_data_len", .word table.layout.actionDataLength),
    ("counter", CounterKind.toJson table.layout.counter), ("meters", .word table.layout.meters),
    ("unit", .text table.unit.name)]

theorem toJson_eq (table : TableDescription) : table.toJson = .ofMembers table.jsonMembers := rfl

/-- Each of `table.jsonMembers` is found by its `name`. -/
theorem field?_jsonMembers {table : TableDescription} {name : String} {value : Json}
    (h : (name, value) ∈ table.jsonMembers) : Document.field? table.jsonMembers name = some (some value) := by
  have hnodup : (table.jsonMembers.map Prod.fst).Nodup := by
    show ["name", "action_data_len", "counter", "meters", "unit"].Nodup
    decide
  exact Json.field?_of_mem hnodup h

/-- The layout of `table` is read from among its members. -/
theorem ofMembers?_jsonMembers (table : TableDescription) :
    Layout.ofMembers? table.jsonMembers = some table.layout := by
  have hdata : Document.field? table.jsonMembers "action_data_len" =
      some (some (.word table.layout.actionDataLength)) := field?_jsonMembers (by simp [jsonMembers])
  have hcounter : Document.field? table.jsonMembers "counter" =
      some (some (CounterKind.toJson table.layout.counter)) := field?_jsonMembers (by simp [jsonMembers])
  have hmeters : Document.field? table.jsonMembers "meters" = some (some (.word table.layout.meters)) :=
    field?_jsonMembers (by simp [jsonMembers])
  simp [Layout.ofMembers?, hdata, hcounter, hmeters, Document.orDefault, readsBack_keptWord.read_write,
    CounterKind.readsBack.read_write]

/-- What `TableDescription.toJson` writes is read back. -/
theorem readsBack : ReadsBack toJson (ofDocument? (α := Json)) := by
  refine ⟨fun table => ?_, fun table => ?_⟩
  · rw [toJson_eq]
    exact ⟨rfl, readsBack_text.plain _, rfl, readsBack_word.plain _, rfl, CounterKind.readsBack.plain _, rfl,
      readsBack_word.plain _, rfl, MeasureUnit.readsBack.plain _, trivial⟩
  · have hname : Document.field? table.jsonMembers "name" = some (some (.text table.name)) :=
      field?_jsonMembers (by simp [jsonMembers])
    have hunit : Document.field? table.jsonMembers "unit" = some (some (.text table.unit.name)) :=
      field?_jsonMembers (by simp [jsonMembers])
    -- Whatever is neither the name nor the unit must be fit to be kept.
    have hkept : (table.jsonMembers.all fun member =>
        member.1 = "name" || member.1 = "unit" || Document.canKeep member.2) = true := by
      simp [jsonMembers, Json.canKeep_word, CounterKind.canKeep_toJson]
    simp only [ofDocument?, toJson_eq, Json.members?_ofMembers, Option.bind_eq_bind, Option.bind_some,
      hname, hunit, hkept, guard, if_true, ofMembers?_jsonMembers]
    simp [Document.orDefault, readsBack_text.read_write, MeasureUnit.readsBack.read_write]

end TableDescription

namespace Description

/-- What `Description.toJson` writes is read back, whether or not it is acceptable. -/
theorem readsBack : ReadsBack toJson (ofDocument? (α := Json)) := by
  have hstores := StoreDescription.readsBack.list
  have htables := TableDescription.readsBack.list
  refine ⟨fun description => ?_, fun description => ?_⟩
  · exact ⟨rfl, readsBack_word.plain _, rfl, hstores.plain _, rfl, htables.plain _, trivial⟩
  · have hfields : Document.fields? ["timer_resolution_ns", "meters", "tables"] description.toJson =
        some [some (.word description.resolution),
          some (.array (description.stores.map StoreDescription.toJson)),
          some (.array (description.tables.map TableDescription.toJson))] :=
      Json.fields?_ofMembers _ rfl (by decide)
    rw [ofDocument?, hfields]
    simp [Document.orDefault, readsBack_word.read_write, hstores.read_write, htables.read_write]

/-- The text of `description`. -/
def format (description : Description) : String :=
  description.toJson.render .compact

/-- The description that `text` stands for. -/
def parse? (text : String) : Option Description :=
  (Json.parse? text).bind ofDocument?

/-- The text of `description` is read back. -/
theorem parse?_format (description : Description) : parse? description.format = some description := by
  rw [parse?, format, Json.parse?_render _ (readsBack.plain description), Option.bind_some]
  exact readsBack.read_write description

end Description

/-- If `path` ends as those of JSON files do, then an acceptable `description` is loaded from its text. -/
theorem Tool.parseDescription_format {path : String} {description : Description}
    (hpath : Path.isJson path = true) (hvalid : description.validate = .ok ()) :
    parseDescription path description.format = .ok description := by
  have hparse : (Json.parse? description.format).bind Description.ofDocument? = some description :=
    description.parse?_format
  simp only [parseDescription, hpath, if_true, hparse, ok_bind, hvalid]
  rfl

/-! ## Writing what was read -/

/-- Reads `text` and writes what was read. -/
def rewrite? {α : Type} (read : String → Option α) (write : α → String) (text : String) : Option String :=
  (read text).map write

/-- If all that `write` writes is read back by `read`, then a `text` that was rewritten once is not changed by
rewriting it again. -/
theorem rewrite?_bind_rewrite? {α : Type} {read : String → Option α} {write : α → String}
    (h : ∀ a, read (write a) = some a) (text : String) :
    (rewrite? read write text).bind (rewrite? read write) = rewrite? read write text := by
  cases hread : read text with
  | none => simp [rewrite?, hread]
  | some a => simp [rewrite?, hread, h]

/-- Whatever a state file or a description says, in whatever names, it is read back from the text that is written
for it, and an acceptable description is also loaded from it. Rewriting a text that can be read, in whatever way
it was laid out and whatever it left to defaults, gives a text that rewriting does not change any more. -/
theorem texts_are_read_back :
    (∀ state : Tool.StateFile, Tool.StateFile.parse? state.format = some state) ∧
    (∀ description : Description, Description.parse? description.format = some description) ∧
    (∀ path description, Tool.Path.isJson path = true → description.validate = .ok () →
      Tool.parseDescription path description.format = .ok description) ∧
    (∀ text, (rewrite? Tool.StateFile.parse? Tool.StateFile.format text).bind
        (rewrite? Tool.StateFile.parse? Tool.StateFile.format) =
      rewrite? Tool.StateFile.parse? Tool.StateFile.format text) ∧
    (∀ text, (rewrite? Description.parse? Description.format text).bind
        (rewrite? Description.parse? Description.format) =
      rewrite? Description.parse? Description.format text) :=
  ⟨Tool.StateFile.parse?_format, Description.parse?_format, fun _ _ => Tool.parseDescription_format,
    rewrite?_bind_rewrite? Tool.StateFile.parse?_format, rewrite?_bind_rewrite? Description.parse?_format⟩

/-- A description with the greatest resolution and with names that cannot be written as they are is loaded from
its text. -/
theorem texts_are_read_back_escaped :
    let description : Description :=
      { resolution := 18446744073709551615, stores := [⟨"say \"\\\"\n", 2, .packets⟩]
        tables := [⟨"tab\t\x7f", ⟨2, some .packetsAndBytes, 1⟩, .bytes⟩] }
    Tool.Path.isJson "pipeline.json" = true ∧ description.validate = .ok () ∧
      Tool.parseDescription "pipeline.json" description.format = .ok description := by
  intro description
  have hpath : Tool.Path.isJson "pipeline.json" = true := by decide +kernel
  have hvalid : description.validate = .ok () := by decide +kernel
  exact ⟨hpath, hvalid, texts_are_read_back.2.2.1 "pipeline.json" description hpath hvalid⟩

end TrafficMeter
