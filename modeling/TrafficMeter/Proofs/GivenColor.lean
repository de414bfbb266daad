import TrafficMeter.Proofs.Plan
import TrafficMeter.Proofs.Response
import TrafficMeter.Proofs.Restore

/-!
# Packets with a given colour

An operator may give the colour with which a packet arrives. Where one meter is asked, at an index of a store or
in a slot of an entry, a packet that is given as green is treated like one without a colour. An entry without
a slot is different. Without a colour the packet hits the entry, which counts it and marks it on all of its
meters. With a colour, whichever it is, the first meter alone marks the packet and nothing is counted.

A given green is therefore told from no colour exactly at an entry without a slot that has more than one meter
or a counter that the packet moves (`Tool.Session.given_green_eq_no_color_iff`). Of the pipeline an operator sees
the snapshot only, so this rests on what snapshots show: those of two pipelines of one description are the same
exactly if the pipelines are similar (`Pipeline.Intact.snapshot_eq_iff`).
-/

namespace TrafficMeter

/-! ### Colours and counters -/

namespace Tally

theorem total_add (tally : Tally) (color : Color) : (tally.add color).total = tally.total + 1 := by
  cases color <;> simp only [add, total] <;> ac_rfl

/-- All of `colors` are counted, modulo the size of a word. -/
theorem total_addAll (tally : Tally) (colors : List Color) :
    (tally.addAll colors).total = tally.total + UInt64.ofNat colors.length := by
  induction colors generalizing tally with
  | nil => simp [addAll]
  | cons color rest ih =>
    show ((tally.add color).addAll rest).total = _
    rw [ih, total_add, List.length_cons, UInt64.ofNat_add]
    ac_rfl

/-- A tally tells how many colours were counted, as long as there are fewer than `2 ^ 64`. -/
theorem length_eq_of_addAll_eq {tally : Tally} {colors others : List Color}
    (h : tally.addAll colors = tally.addAll others) (hcolors : colors.length < 2 ^ 64)
    (hothers : others.length < 2 ^ 64) : colors.length = others.length := by
  have htotal := congrArg total h
  rw [total_addAll, total_addAll, UInt64.add_right_inj] at htotal
  have hlength := congrArg UInt64.toNat htotal
  rwa [UInt64.toNat_ofNat_of_lt' hcolors, UInt64.toNat_ofNat_of_lt' hothers] at hlength

end Tally

/-- Counting a packet of this `length` leaves what is stored of `counter` only if nothing but bytes is stored and
the packet has none. -/
theorem Counter.stored_add_eq_iff (counter : Counter) (length : UInt32) (kind : CounterKind) :
    (counter.add length).stored kind = counter.stored kind ↔ kind = .bytes ∧ length = 0 := by
  cases kind with
  | packets => simp [add, stored]
  | bytes =>
    have hzero : length.toUInt64 = 0 ↔ length = 0 := UInt32.toUInt64_inj (b := 0)
    simp [add, stored, hzero]
  | packetsAndBytes =>
    -- The packets are stored as well, and they move with every packet.
    refine iff_of_false (fun h => ?_) (by simp)
    simpa [add, stored] using congrArg Counter.packets h

namespace Entry

variable {layout : Layout} {entry : Entry} {length : UInt32}

/-- The same is stored of `entry` and `other` if they differ at most in what is not stored of their counters. -/
theorem stored_eq_iff {other : Entry} :
    entry.stored layout = other.stored layout ↔
      entry.action = other.action ∧ (entry.stored layout).counter = (other.stored layout).counter ∧
        entry.meters = other.meters := by
  -- The layout decides about the counter only, so the other parts can be compared as they are.
  have heta (entry : Entry) : entry = ⟨entry.action, entry.counter, entry.meters⟩ := rfl
  conv_lhs => rw [heta (entry.stored layout), heta (other.stored layout)]
  rw [Entry.mk.injEq, action_stored, action_stored, meters_stored, meters_stored]

/-- Counting a packet of this `length` leaves what is stored of `entry` only if it has no counter, or one that
stores nothing but bytes while the packet has none. -/
theorem counter_stored_count_eq_iff (h : entry.Fits layout) :
    ((entry.count length).stored layout).counter = (entry.stored layout).counter ↔
      layout.counter = none ∨ layout.counter = some .bytes ∧ length = 0 := by
  have hsome := h.isSome_counter
  cases hlayout : layout.counter with
  | none =>
    -- An entry of a table without counters has none that could move.
    have hnone : entry.counter = none := by simpa [hlayout] using hsome
    simp [stored, count, hlayout, hnone]
  | some kind =>
    obtain ⟨counter, hcounter⟩ := Option.isSome_iff_exists.mp (hsome.trans (by rw [hlayout]; rfl))
    simp [stored, count, hlayout, hcounter, Counter.stored_add_eq_iff]

end Entry

/-! ### What snapshots show -/

namespace Table

variable {timer : Timer} {description : TableDescription} {table : Table} {key : Bytes}

/-- Two responses of the entry under `key` leave similar tables exactly if they store the same and the tallies
agree. -/
theorem Intact.similar_after_iff (h : table.Intact timer description) {response response' : Response} :
    (table.after key response).Similar (table.after key response') ↔
      response.entry.stored table.layout = response'.entry.stored table.layout ∧
        table.tally.addAll response.colors = table.tally.addAll response'.colors := by
  constructor
  · intro hsimilar
    have hstored : (table.write key response.entry).stored? key =
        (table.write key response'.entry).stored? key := hsimilar.stored_eq key
    rw [h.stored?_write, h.stored?_write, if_pos rfl, if_pos rfl] at hstored
    exact ⟨Option.some.inj hstored, hsimilar.tally_eq⟩
  · rintro ⟨hentry, htally⟩
    rw [after, after, htally]
    exact ((Similar.refl table).write h h key hentry).withTally _

end Table

namespace Pipeline

variable {description : Description} {pipeline start left right : Pipeline} {name : String}

/-- The snapshots of two pipelines of one `description` are equal exactly if the pipelines are similar. -/
theorem Intact.snapshot_eq_iff (hleft : left.Intact description) (hright : right.Intact description)
    (hstart : ofDescription description = .ok start) : left.snapshot = right.snapshot ↔ left.Similar right := by
  refine ⟨fun hsnapshot => ?_, Similar.snapshot_eq⟩
  -- Both are similar to what their common snapshot makes of a new pipeline.
  obtain ⟨restored, hrestored, hsimilar, -⟩ := hleft.exists_restore hstart
  obtain ⟨restored', hrestored', hsimilar', -⟩ := hright.exists_restore hstart
  rw [hsnapshot, hrestored'] at hrestored
  cases hrestored
  exact hsimilar.trans hsimilar'.symm

/-- Every `entry` of an intact pipeline fits its table and has a first meter, since no description without meters
is accepted. -/
theorem Intact.exists_meters_eq_cons (h : pipeline.Intact description)
    (hstart : ofDescription description = .ok start) {table : Table} {key : Bytes} {entry : Entry}
    (htable : pipeline.tables.find? name = some table) (hentry : table.entryAt? key = some entry) :
    entry.Fits table.layout ∧ ∃ record rest, entry.meters = record :: rest := by
  obtain ⟨described, hdescribed, hintact⟩ := h.exists_table htable
  rw [Table.entryAt?_eq_map_find?] at hentry
  obtain ⟨⟨id, _⟩, hfind, rfl⟩ := Option.map_eq_some_iff.mp hentry
  have hfits := hintact.fits_found hfind
  rw [← hintact.layout_eq] at hfits
  refine ⟨hfits, List.exists_cons_of_length_pos ?_⟩
  have hvalid := Description.validate_eq_ok_iff.mp (ofDescription_eq_ok_iff.mp hstart).1
  have hmeters := hvalid.2.2.2 described (List.mem_of_find?_eq_some hdescribed)
  rw [hfits.length_meters, hintact.layout_eq, Nat.pos_iff_ne_zero]
  exact fun hzero => hmeters (UInt64.toNat_inj.mp hzero)

end Pipeline

/-! ### An entry without a slot -/

namespace Table.Response

/-- What `entry` does with a packet that hits it. -/
def ofHit (entry : Entry) (length : UInt32) (size now : UInt64) : Response :=
  let marked := (entry.count length).markAll size now
  { answer := .hit ⟨entry.action, marked.1⟩, entry := marked.2, colors := marked.1 }

/-- What `entry` does with a packet that its first meter `record` marks. -/
def ofFirst (entry : Entry) (record : Record) (incoming : Color) (size now : UInt64) : Response :=
  let marked := record.markFrom incoming size now
  { answer := .color marked.1, entry := entry.putMeter 0 marked.2, colors := [marked.1] }

variable {layout : Layout} {entry : Entry} {record : Record} {rest : List Record} {length : UInt32}
  {size now : UInt64}

/-- The same is stored after a hit and after the first meter marked a green packet exactly if the meters in
`rest` do not change by their marks and the packet does not move the counter. -/
theorem stored_ofHit_eq_iff (hfits : entry.Fits layout) (hmeters : entry.meters = record :: rest) :
    (ofHit entry length size now).entry.stored layout =
        (ofFirst entry record .green size now).entry.stored layout ↔
      (layout.counter = none ∨ layout.counter = some .bytes ∧ length = 0) ∧
        rest.map (fun record => (record.mark size now).2) = rest := by
  have hhit : ((ofHit entry length size now).entry.stored layout).counter =
      ((entry.count length).stored layout).counter :=
    (congrArg Entry.counter (Entry.stored_markAll (entry.count length) layout size now) :)
  have hfirst : ((ofFirst entry record .green size now).entry.stored layout).counter =
      (entry.stored layout).counter :=
    (congrArg Entry.counter (Entry.stored_putMeter entry layout 0 _) :)
  rw [Entry.stored_eq_iff, hhit, hfirst, Entry.counter_stored_count_eq_iff hfits]
  simp [ofHit, ofFirst, Entry.markAll, Entry.count, Entry.putMeter, hmeters, Record.mark, Function.comp_def]

/-- A hit counts as many colours as `entry` has meters. -/
theorem length_colors_ofHit : (ofHit entry length size now).colors.length = entry.meters.length := by
  simp [ofHit, Entry.markAll, Entry.count]

/-- A hit on an `entry` with one meter counts the colour that this meter gives to a green packet. -/
theorem colors_ofHit_of_single (hmeters : entry.meters = [record]) :
    (ofHit entry length size now).colors = (ofFirst entry record .green size now).colors := by
  simp [ofHit, ofFirst, Entry.markAll, Entry.count, hmeters, Record.mark]

end Table.Response

namespace Tool

variable {description : Description} {session : Session} {start : Pipeline} {address : MeterTarget}
  {table : Table} {key : Bytes} {entry : Entry} {length : UInt32} {now : UInt64}

/-- Unless `target` is an entry without a slot, a given green is no colour. -/
theorem Target.execute_green_eq {target : Target} (h : ∀ table key, target ≠ .direct table key none)
    (pipeline : Pipeline) (length : UInt32) (now : UInt64) :
    target.execute pipeline length now (some .green) = target.execute pipeline length now none := by
  cases target with
  | indirect store index => rfl
  | direct table key slot =>
    cases slot with
    | none => exact absurd rfl (h table key)
    | some slot => rfl

namespace Session

/-- `session` can be open: it was started from a description, or resumed from a state that was saved for one, or
a command left it. -/
inductive Open : Session → Prop
  /-- A session that starts. -/
  | start (description : Description) (timer : Nat) {session : Session}
      (h : Session.start description timer = .ok session) : Open session
  /-- A session that goes on from a saved state. -/
  | resume {description : Description} {built : Pipeline} {path : String} {state : StateFile}
      {wallTime : UInt64} {timer : Nat} {session : Session}
      (hbuilt : Pipeline.ofDescription description = .ok built)
      (h : Session.resume path built state wallTime timer = .ok session) : Open session
  /-- A session after a command. -/
  | execute {session : Session} (h : Open session) (timer : Nat) (command : Command) :
      Open (session.execute timer command).2

/-- The pipeline of an open `session` is intact for a description that was accepted. -/
theorem Open.exists_intact (h : session.Open) :
    ∃ description start, Pipeline.ofDescription description = .ok start ∧
      session.pipeline.Intact description := by
  induction h with
  | start description timer h =>
    have hstart := ofDescription_of_start h
    exact ⟨description, _, hstart, Pipeline.intact_of_ofDescription hstart⟩
  | @resume description built path state wallTime timer session hbuilt h =>
    have hreached := (Pipeline.intact_of_ofDescription hbuilt).restore state.snapshot
    rw [Session.resume] at h
    refine ⟨description, built, hbuilt, ?_⟩
    -- Items that were applied before a refusal do not matter, as no session comes of them.
    split at h
    next restored hrestored =>
      cases h
      rwa [hrestored] at hreached
    next => cases h
  | execute _ timer command ih =>
    obtain ⟨description, start, hstart, hintact⟩ := ih
    exact ⟨description, start, hstart, intact_execute hintact timer command⟩

/-- A packet at an entry without a slot is shown by the colours of the entry's response, and leaves the table
with this response. -/
theorem execute_of_respond (h : session.pipeline.Intact description)
    (hresolve : Target.resolve session.pipeline address = .ok (.direct table key none)) (length : UInt32)
    (now : UInt64) (color : Option Color) {operation : Table.Operation} {call : Table.Call}
    (hoperation : (Target.direct table key none).operation (.execute length now color) =
      .table table.name operation)
    (hcall : operation.call? = some (key, call)) (timer : Nat) :
    let metered := session.execute timer (.execute address length (some now) color)
    (metered.1, metered.2.pipeline) =
      match table.respond key (table.entryAt? key) call with
      | .ok response =>
        (.ok ((Target.direct table key none).shown (.execute length now color) response.answer),
          session.pipeline.putTable table.name (table.after key response))
      | .error error => (.error (Failure.ofError error), session.pipeline) := by
  intro metered
  have hfound := Target.found_of_resolve h hresolve
  rw [execute_eq_carryOut h, Command.plan, hresolve, ok_bind, pure_eq_ok,
    Plan.carryOut_of_table hoperation hfound, Table.attempt_eq_respond hcall]
  cases table.respond key (table.entryAt? key) call <;> rfl

/-- Without a colour the packet hits `entry`. -/
theorem execute_none_of_entryAt? (h : session.pipeline.Intact description)
    (hresolve : Target.resolve session.pipeline address = .ok (.direct table key none))
    (hentry : table.entryAt? key = some entry) (length : UInt32) (now : UInt64) (timer : Nat) :
    let metered := session.execute timer (.execute address length (some now) none)
    let response := Table.Response.ofHit entry length (table.unit.size length) now
    (metered.1, metered.2.pipeline) =
      (.ok (describeColors (.direct table key none) now response.colors),
        session.pipeline.putTable table.name (table.after key response)) := by
  intro metered response
  have hmetered := execute_of_respond h hresolve length now none rfl rfl timer
  rw [hentry] at hmetered
  exact hmetered

/-- With a `color` the first meter of `entry` marks the packet. -/
theorem execute_some_of_entryAt? (h : session.pipeline.Intact description)
    (hresolve : Target.resolve session.pipeline address = .ok (.direct table key none))
    (hentry : table.entryAt? key = some entry) {record : Record} {rest : List Record}
    (hmeters : entry.meters = record :: rest) (length : UInt32) (now : UInt64) (color : Color) (timer : Nat) :
    let metered := session.execute timer (.execute address length (some now) (some color))
    let response := Table.Response.ofFirst entry record color (table.unit.size length) now
    (metered.1, metered.2.pipeline) =
      (.ok (describeColors (.direct table key none) now response.colors),
        session.pipeline.putTable table.name (table.after key response)) := by
  intro metered response
  have hmetered := execute_of_respond h hresolve length now (some color) rfl rfl timer
  have hrespond : table.respond key (some entry) (.meter 0 (.execute color length now)) = .ok response := by
    simp only [Table.respond, hmeters]
    rfl
  rw [hentry, Option.getD_none, hrespond] at hmetered
  exact hmetered

/-- Unless `address` leads to an entry without a slot, a given green is no colour. -/
theorem metered_green_eq_of_one_meter
    (h : ∀ table key, Target.resolve session.pipeline address ≠ .ok (.direct table key none)) (timer : Nat) :
    session.execute timer (.execute address length (some now) (some .green)) =
      session.execute timer (.execute address length (some now) none) := by
  simp only [execute, meterPacket]
  -- The clock moves alike in both, since the time is given.
  cases hresolve : Target.resolve session.pipeline address with
  | error failure => rfl
  | ok target =>
    have hslot (table : Table) (key : Bytes) : target ≠ .direct table key none :=
      fun heq => h table key (heq ▸ hresolve)
    simp only [Target.execute_green_eq hslot]

/-- Where there is no entry under `key`, a packet is refused with a given green as it is without a colour. -/
theorem metered_green_eq_of_no_entry (h : session.pipeline.Intact description)
    (hresolve : Target.resolve session.pipeline address = .ok (.direct table key none))
    (hentry : table.entryAt? key = none) (timer : Nat) :
    let metered (color : Option Color) := session.execute timer (.execute address length (some now) color)
    (metered (some .green)).1 = (metered none).1 ∧
      (metered (some .green)).2.pipeline.snapshot = (metered none).2.pipeline.snapshot := by
  intro metered
  have hgreen := execute_of_respond h hresolve length now (some .green) rfl rfl timer
  have hnone := execute_of_respond h hresolve length now none rfl rfl timer
  -- The entry is looked for before anything else, so both responses are the same refusal.
  rw [hentry] at hgreen hnone
  obtain ⟨hshown, hleft⟩ := Prod.mk.inj (hgreen.trans hnone.symm)
  exact ⟨hshown, congrArg Pipeline.snapshot hleft⟩

/-- At an entry without a slot, a given green is no colour exactly if the entry has one meter and the packet does
not move the counter. -/
theorem metered_green_eq_iff (h : session.pipeline.Intact description)
    (hstart : Pipeline.ofDescription description = .ok start)
    (hresolve : Target.resolve session.pipeline address = .ok (.direct table key none))
    (hentry : table.entryAt? key = some entry) (timer : Nat) :
    let metered (color : Option Color) := session.execute timer (.execute address length (some now) color)
    ((metered (some .green)).1 = (metered none).1 ∧
        (metered (some .green)).2.pipeline.snapshot = (metered none).2.pipeline.snapshot) ↔
      table.layout.meters = 1 ∧
        (table.layout.counter = none ∨ table.layout.counter = some .bytes ∧ length = 0) := by
  intro metered
  have htable : session.pipeline.tables.find? table.name = some table := Target.found_of_resolve h hresolve
  obtain ⟨hfits, record, rest, hmeters⟩ := h.exists_meters_eq_cons hstart htable hentry
  obtain ⟨_, -, hintact⟩ := h.exists_table htable
  obtain ⟨hshown, hleft⟩ := Prod.mk.inj (execute_none_of_entryAt? h hresolve hentry length now timer)
  obtain ⟨hshown', hleft'⟩ :=
    Prod.mk.inj (execute_some_of_entryAt? h hresolve hentry hmeters length now .green timer)
  set hit := Table.Response.ofHit entry length (table.unit.size length) now
  set first := Table.Response.ofFirst entry record .green (table.unit.size length) now
  -- The snapshots agree as far as the two responses of the entry do.
  have hsnapshot : (metered (some .green)).2.pipeline.snapshot = (metered none).2.pipeline.snapshot ↔
      first.entry.stored table.layout = hit.entry.stored table.layout ∧
        table.tally.addAll first.colors = table.tally.addAll hit.colors := by
    rw [(intact_execute h timer _).snapshot_eq_iff (intact_execute h timer _) hstart, hleft, hleft',
      Pipeline.similar_putTable_iff htable, hintact.similar_after_iff]
  have hcount : entry.meters.length = table.layout.meters.toNat := hfits.length_meters
  constructor
  · rintro ⟨-, hsame⟩
    obtain ⟨hstored, htally⟩ := hsnapshot.mp hsame
    -- The tally has one more colour on one side and as many as there are meters on the other.
    have hlength : hit.colors.length = entry.meters.length := Table.Response.length_colors_ofHit
    have hfew : hit.colors.length < 2 ^ 64 := by
      rw [hlength, hcount]
      exact UInt64.toNat_lt _
    have hone : 1 = hit.colors.length :=
      Tally.length_eq_of_addAll_eq htally (Nat.one_lt_two_pow (by decide)) hfew
    refine ⟨UInt64.toNat_inj.mp ?_, ((Table.Response.stored_ofHit_eq_iff hfits hmeters).mp hstored.symm).1⟩
    rw [← hcount, ← hlength, ← hone]
    rfl
  · rintro ⟨hsingle, hcounter⟩
    have hrest : rest = [] := by
      rw [hsingle, hmeters] at hcount
      exact List.length_eq_zero_iff.mp (Nat.succ.inj hcount)
    subst hrest
    have hcolors : hit.colors = first.colors := Table.Response.colors_ofHit_of_single hmeters
    have hstored : hit.entry.stored table.layout = first.entry.stored table.layout :=
      (Table.Response.stored_ofHit_eq_iff hfits hmeters).mpr ⟨hcounter, rfl⟩
    refine ⟨?_, hsnapshot.mpr ⟨hstored.symm, by rw [hcolors]⟩⟩
    rw [hshown, hshown', hcolors]

theorem parseHex_one : parseHex "key" "01" = .ok [1] := by decide +kernel

/-- A session on one table `t` with one `entry`, under the key of the byte 1. -/
def ofEntry (layout : Layout) (entry : Entry) : Session where
  pipeline := { tables := .ofList [("t", (Table.create "t" layout .bytes (.ofResolution 1)).write [1] entry)] }
  clock := { origin := 0 }

/-- A session on one `entry` is open: it starts without the entry, whose raw value is then written. -/
theorem open_ofEntry (layout : Layout) (entry : Entry) (hmeters : layout.meters ≠ 0)
    (hfits : entry.Fits layout) : (ofEntry layout (entry.stored layout)).Open := by
  -- The session starts with an empty table, into which the raw value of the entry is written by a command.
  set table := Table.create "t" layout .bytes (.ofResolution 1)
  let started : Session := { pipeline := { tables := .ofList [("t", table)] }, clock := { origin := 0 } }
  have hstart : Session.start { tables := [{ name := "t", layout }] } 0 = .ok started := by
    have hvalid : Description.validate { tables := [{ name := "t", layout }] } = .ok () := by
      rw [Description.validate_eq_ok_iff]
      exact ⟨by simp [Description.names], by simp [Description.names], by simp, by simpa using hmeters⟩
    rw [Session.start, Pipeline.ofDescription, hvalid]
    rfl
  have hvalue : parseHex "value" (Hex.format (entry.toBytes layout)) = .ok (entry.toBytes layout) := by
    rw [parseHex, Hex.parse_format]
    rfl
  have hupdate : table.update [1] (entry.toBytes layout) = .ok (table.write [1] (entry.stored layout)) :=
    Table.update_eq_ok_iff.mpr ⟨_, Entry.ofBytes_toBytes hfits, rfl⟩
  let write : Command := .entryUpdate { table := "t", key := "01" } (Hex.format (entry.toBytes layout))
  have hwritten : ofEntry layout (entry.stored layout) = (started.execute 0 write).2 := by
    have htable : findTable started.pipeline "t" = .ok table := rfl
    simp only [write, execute, entryUpdate, htable, parseHex_one, hvalue, hupdate, ok_bind]
    rfl
  rw [hwritten]
  exact .execute (.start _ 0 hstart) 0 write

/-- The entry of a session on one `entry` is addressed without a slot. -/
theorem resolve_ofEntry (layout : Layout) (entry : Entry) :
    Target.resolve (ofEntry layout entry).pipeline { meter := "t", key := some "01" } =
      .ok (.direct ((Table.create "t" layout .bytes (.ofResolution 1)).write [1] entry) [1] none) := by
  have hstore : (ofEntry layout entry).pipeline.stores.find? "t" = none := rfl
  have htable : findTable (ofEntry layout entry).pipeline "t" =
      .ok ((Table.create "t" layout .bytes (.ofResolution 1)).write [1] entry) := rfl
  simp only [Target.resolve, hstore, htable, parseHex_one, ok_bind, pure_eq_ok]

/-- A given green is no colour except at an entry without a slot. There, a packet without a colour is counted
once and marked on every meter, and shown with all colours. With a colour, whichever it is, only the first meter
marks the packet, its colour alone is shown and nothing is counted. The output, or the failure, and the snapshot
are then the same for a given green as for no colour exactly if the entry has one meter, and either no counter or
one of bytes while the packet is empty. -/
theorem given_green_eq_no_color_iff (session : Session) (hopen : session.Open) (timer : Nat)
    (address : MeterTarget) (length : UInt32) (now : UInt64) :
    let metered (color : Option Color) := session.execute timer (.execute address length (some now) color)
    (((metered (some .green)).1 = (metered none).1 ∧
        (metered (some .green)).2.pipeline.snapshot = (metered none).2.pipeline.snapshot) ↔
      ∀ table key entry, Target.resolve session.pipeline address = .ok (.direct table key none) →
        table.entryAt? key = some entry →
          table.layout.meters = 1 ∧
            (table.layout.counter = none ∨ table.layout.counter = some .bytes ∧ length = 0)) ∧
    ∀ table key entry, Target.resolve session.pipeline address = .ok (.direct table key none) →
      table.entryAt? key = some entry →
        let shown (colors : List Color) := Except.ok (describeColors (.direct table key none) now colors)
        let size := table.unit.size length
        let counted := entry.count length
        (∃ next, (metered none).2.pipeline.table table.name = .ok next ∧
          (metered none).1 = shown (entry.meters.map fun record => (record.mark size now).1) ∧
          next.entryAt? key =
            some { counted with meters := entry.meters.map fun record => (record.mark size now).2 }) ∧
        ∀ color, ∃ record rest next, entry.meters = record :: rest ∧
          (metered (some color)).2.pipeline.table table.name = .ok next ∧
          (metered (some color)).1 = shown [(record.markFrom color size now).1] ∧
          next.entryAt? key =
            some { entry with meters := (record.markFrom color size now).2 :: rest } := by
  intro metered
  obtain ⟨description, start, hstart, hintact⟩ := hopen.exists_intact
  constructor
  · -- The address leads to an entry without a slot, which is there or not, or it leads to one meter or nowhere.
    by_cases hslotless : ∃ table key, Target.resolve session.pipeline address = .ok (.direct table key none)
    · obtain ⟨table, key, hresolve⟩ := hslotless
      rw [hresolve]
      cases hentry : table.entryAt? key with
      | some entry =>
        refine Iff.trans (metered_green_eq_iff hintact hstart hresolve hentry timer) ?_
        constructor
        · rintro h table' key' entry' ⟨⟩ -
          exact h
        · exact fun h => h table key entry rfl hentry
      | none =>
        refine iff_of_true (metered_green_eq_of_no_entry hintact hresolve hentry timer) ?_
        rintro table' key' entry' ⟨⟩ hentry'
        rw [hentry] at hentry'
        cases hentry'
    · have hsame : metered (some .green) = metered none :=
        metered_green_eq_of_one_meter (fun table key hresolve => hslotless ⟨table, key, hresolve⟩) timer
      rw [hsame]
      exact iff_of_true ⟨rfl, rfl⟩ fun table key _ hresolve => absurd ⟨table, key, hresolve⟩ hslotless
  · intro table key entry hresolve hentry shown size counted
    have htable : session.pipeline.tables.find? table.name = some table :=
      Target.found_of_resolve hintact hresolve
    obtain ⟨-, record, rest, hmeters⟩ := hintact.exists_meters_eq_cons hstart htable hentry
    obtain ⟨_, -, hkept⟩ := hintact.exists_table htable
    -- What the entry responds is found under its key afterwards.
    have hwritten (response : Table.Response) :
        (table.after key response).entryAt? key = some response.entry := by
      rw [hkept.entryAt?_after, if_pos rfl]
    constructor
    · obtain ⟨hshown, hleft⟩ := Prod.mk.inj (execute_none_of_entryAt? hintact hresolve hentry length now timer)
      refine ⟨_, hleft ▸ Pipeline.table_putTable_self htable _, hshown.trans ?_, (hwritten _).trans ?_⟩
      · simp [shown, size, Table.Response.ofHit, Entry.markAll, Entry.count, Function.comp_def]
      · simp [counted, size, Table.Response.ofHit, Entry.markAll, Entry.count, Function.comp_def]
    · intro color
      obtain ⟨hshown, hleft⟩ :=
        Prod.mk.inj (execute_some_of_entryAt? hintact hresolve hentry hmeters length now color timer)
      refine ⟨record, rest, _, hmeters, hleft ▸ Pipeline.table_putTable_self htable _, hshown,
        (hwritten _).trans ?_⟩
      simp [size, Table.Response.ofFirst, Entry.putMeter, hmeters]

/-- A given green and no colour cannot be told apart when an empty packet arrives at an entry with one meter and
a counter of bytes. -/
theorem given_green_eq_no_color_empty_packet :
    let session := ofEntry ⟨0, some .bytes, 1⟩ ⟨{}, some {}, [{}]⟩
    let address : MeterTarget := { meter := "t", key := some "01" }
    let metered (color : Option Color) := session.execute 0 (.execute address 0 (some 5) color)
    session.Open ∧
      (∃ table entry, Target.resolve session.pipeline address = .ok (.direct table [1] none) ∧
        table.entryAt? [1] = some entry) ∧
      (metered (some .green)).1 = (metered none).1 ∧
      (metered (some .green)).2.pipeline.snapshot = (metered none).2.pipeline.snapshot := by
  intro session address metered
  have hopen : session.Open :=
    open_ofEntry ⟨0, some .bytes, 1⟩ ⟨{}, some {}, [{}]⟩ (by decide) ⟨rfl, by decide, rfl, rfl⟩
  have hresolve := resolve_ofEntry ⟨0, some .bytes, 1⟩ ⟨{}, some {}, [{}]⟩
  refine ⟨hopen, ⟨_, _, hresolve, rfl⟩, (given_green_eq_no_color_iff session hopen 0 address 0 5).1.mpr ?_⟩
  intro table key entry hother _
  cases hresolve.symm.trans hother
  exact ⟨rfl, .inr ⟨rfl, rfl⟩⟩

/-- A given green is told from no colour at an entry with two meters and a counter of packets. The packet gets
one colour instead of two and is not counted. -/
theorem given_green_ne_no_color_two_meters :
    let session := ofEntry ⟨0, some .packets, 2⟩ ⟨{}, some {}, [{}, {}]⟩
    let address : MeterTarget := { meter := "t", key := some "01" }
    let metered (color : Option Color) := session.execute 0 (.execute address 100 (some 5) color)
    let value (session : Session) := (session.pipeline.table "t").bind (·.entryValue [1])
    session.Open ∧ (metered (some .green)).1 ≠ (metered none).1 ∧
      (metered (some .green)).2.pipeline.snapshot ≠ (metered none).2.pipeline.snapshot ∧
      value (metered (some .green)).2 = .ok (Bytes.zeros 192) ∧
      value (metered none).2 = .ok (Bytes.zeros 8 ++ [1] ++ Bytes.zeros 183) := by
  intro session address metered value
  have hopen : session.Open :=
    open_ofEntry ⟨0, some .packets, 2⟩ ⟨{}, some {}, [{}, {}]⟩ (by decide) ⟨rfl, by decide, rfl, rfl⟩
  exact ⟨hopen, by decide +kernel⟩

end Session

end Tool

end TrafficMeter
