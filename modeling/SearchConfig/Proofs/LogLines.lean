import SearchConfig.Log.Setup
import SearchConfig.Proofs.OrderedEntries
import SearchConfig.Proofs.PrintableJson

/-!
# What is written to the log

Setting up the log puts both filters to the same rank, so what is made is also taken
(`LogSetup.entry_setup`). A record whose event and fields are texts is always written, unless one of
its fields has a name that is not for it; in JSON it is one line that tells the record
(`Note.exists_line`). So of any records just those that the given level admits are written, in their
order (`log_levels`). A name that is none of a level leaves the log as it was.
-/

namespace SearchConfig

/-- A record all of whose values are texts. -/
structure Note where
  level : Level
  logger : Text
  event : Text
  fields : List (Text × Text)

namespace Note

def record (n : Note) : LogRecord where
  level := n.level
  logger := n.logger
  event := .text n.event
  fields := Entries.mapValues .text n.fields

/-- The names that are not for fields of texts. -/
def namesReserved : List Text :=
  LogRecord.namesTaken ++ LogRecord.ownNames
    ++ [LogRecord.handledField, LogRecord.nameTakenLater, LogRecord.otherRecordField]

/-- Are the texts of a note Unicode, and no field named as none may be? -/
structure IsProper (n : Note) : Prop where
  logger : n.logger.IsScalar
  event : n.event.IsScalar
  fields : ∀ field ∈ n.fields, field.1.IsScalar ∧ field.2.IsScalar
  unreserved : ∀ name ∈ Entries.keys n.fields, name ∉ namesReserved

/-- What a line tells of every note. -/
def own (timestamp : Text) (n : Note) : List (Text × Text) :=
  [("event", n.event), ("logger", n.logger), ("level", n.level.name), ("timestamp", timestamp)]

/-- What a line of JSON tells of a note. -/
def told (timestamp : Text) (n : Note) : List (Text × Text) := n.fields ++ n.own timestamp

/-- Is a text one line of ASCII that reads back as what is told of a note? -/
def IsTold (timestamp : Text) (n : Note) (line : Text) : Prop :=
  line.IsPrintable
    ∧ ∃ bytes, line.encode = .ok bytes ∧ Json.ofBytes? bytes = some (.ofTexts (n.told timestamp))

section Fields

variable {n : Note} (hn : n.IsProper)
include hn

theorem not_mem_keys {name : Text} (hname : name ∈ namesReserved) :
    name ∉ Entries.keys n.fields := fun hmem => hn.unreserved name hmem hname

theorem field?_record {name : Text} (hname : name ∈ namesReserved) :
    n.record.field? name = none := by
  rw [LogRecord.field?, record, Entries.get?_mapValues,
    Entries.get?_eq_none_iff.2 (not_mem_keys hn hname)]
  rfl

theorem nameTaken?_record (admitted : Bool) : n.record.nameTaken? admitted = none := by
  have hnames : n.record.fields.map Prod.fst = Entries.keys n.fields :=
    Entries.keys_mapValues Value.text n.fields
  have hcall : (Entries.keys n.fields).find? LogRecord.namesTaken.contains = none := by
    refine List.find?_eq_none.2 fun name hname htaken => hn.unreserved name hname ?_
    exact List.mem_append_left _ (List.mem_append_left _ (List.contains_iff_mem.1 htaken))
  have hlater : (Entries.keys n.fields).contains LogRecord.nameTakenLater = false := by
    simpa using not_mem_keys hn (by decide : LogRecord.nameTakenLater ∈ namesReserved)
  rw [LogRecord.nameTaken?, hnames, hcall, hlater, Bool.and_false]
  rfl

theorem otherRecord?_record : n.record.otherRecord? = none := by
  rw [LogRecord.otherRecord?, field?_record hn (by decide)]

theorem allFields_record (timestamp : Text) :
    n.record.allFields timestamp = Entries.mapValues Value.text (n.told timestamp) := by
  have hfields : n.record.fields.filter (·.1 != LogRecord.handledField) = n.record.fields := by
    refine List.filter_eq_self.2 fun field hfield => bne_iff_ne.2 fun heq => ?_
    obtain ⟨told, htold, rfl⟩ := List.mem_map.1 hfield
    exact hn.unreserved told.1 (List.mem_map_of_mem htold) (heq ▸ by decide)
  have hnew : ∀ name ∈ LogRecord.ownNames, name ∉ Entries.keys n.record.fields := by
    intro name hname
    rw [record, Entries.keys_mapValues]
    exact not_mem_keys hn (List.mem_append_left _ (List.mem_append_right _ hname))
  rw [LogRecord.allFields, hfields, told, Entries.mapValues, List.map_append]
  have hown : (Entries.keys (Entries.mapValues Value.text (n.own timestamp))).Nodup := by
    rw [Entries.keys_mapValues]
    exact (by decide : LogRecord.ownNames.Nodup)
  exact Entries.foldl_put hown hnew

theorem isScalar_told {timestamp : Text} (htime : timestamp.IsScalar) :
    ∀ entry ∈ n.told timestamp, entry.1.IsScalar ∧ entry.2.IsScalar := by
  have hword : ∀ s : String, (Text.ofString s).IsScalar := fun s => ⟨s.toList, rfl⟩
  have hlevel : n.level.name.IsScalar := by
    cases n.level <;> exact hword _
  intro entry hentry
  rcases List.mem_append.1 hentry with hentry | hentry
  · exact hn.fields entry hentry
  · simp only [own, List.mem_cons, List.not_mem_nil, or_false] at hentry
    rcases hentry with rfl | rfl | rfl | rfl
    · exact ⟨hword _, hn.event⟩
    · exact ⟨hword _, hn.logger⟩
    · exact ⟨hword _, hlevel⟩
    · exact ⟨hword _, htime⟩

theorem exists_jsonLine {timestamp : Text} (htime : timestamp.IsScalar) :
    ∃ line, n.record.jsonLine timestamp = .ok line ∧ n.IsTold timestamp line := by
  obtain ⟨line, hline, htold⟩ := Value.exists_line (isScalar_told hn htime)
  refine ⟨line, ?_, htold⟩
  rw [LogRecord.jsonLine, allFields_record hn, Entries.mapValues, List.map_map]
  exact congrArg (Except.mapError LogFault.unserializable) hline

theorem exists_consoleLine (timestamp : Text) :
    ∃ line, n.record.consoleLine timestamp = .ok line := by
  have hshown : ∀ keep, (n.record.event :: (n.record.fields.filter keep).map Prod.snd).all
      Value.isDisplayable = true := by
    intro keep
    refine List.all_eq_true.2 fun v hv => ?_
    rcases List.mem_cons.1 hv with rfl | hv
    · rfl
    · obtain ⟨field, hfield, rfl⟩ := List.mem_map.1 hv
      obtain ⟨told, -, rfl⟩ := List.mem_map.1 (List.mem_filter.1 hfield).1
      rfl
  have hbelow : ∀ name, ∃ t, n.record.below name = .ok t := by
    intro name
    rw [LogRecord.below, LogRecord.field?, record, Entries.get?_mapValues]
    cases Entries.get? name n.fields with
    | none => exact ⟨_, rfl⟩
    | some t => exact ⟨_, rfl⟩
  have hhandles : n.record.handles = .ok false := by
    rw [LogRecord.handles, field?_record hn (by decide)]
    rfl
  obtain ⟨stack, hstack⟩ := hbelow LogRecord.stackField
  obtain ⟨exception, hexception⟩ := hbelow LogRecord.exceptionField
  refine ⟨n.record.consoleHead timestamp ++ LogRecord.consoleTail stack exception false, ?_⟩
  simp only [LogRecord.consoleLine, hshown, hstack, hexception, hhandles]
  rfl

/-- A note has a line, and in JSON one that tells it. -/
theorem exists_line (logging : Logging) {timestamp : Text} (htime : timestamp.IsScalar) :
    ∃ line, logging.line timestamp n.record = .ok line
      ∧ (logging.renderer = .json → n.IsTold timestamp line) := by
  obtain ⟨threshold, renderer⟩ := logging
  simp only [Logging.line, otherRecord?_record hn]
  cases renderer with
  | console =>
    obtain ⟨line, hline⟩ := exists_consoleLine hn timestamp
    exact ⟨line, hline, fun h => Renderer.noConfusion h⟩
  | json =>
    obtain ⟨line, hline, htold⟩ := exists_jsonLine hn htime
    exact ⟨line, hline, fun _ => htold⟩

theorem entry_record {logging : Logging} {timestamp line : Text}
    (hline : logging.line timestamp n.record = .ok line) :
    logging.entry timestamp n.record
      = .ok (if logging.threshold ≤ n.level.rank then line ++ "\n" else []) := by
  have hadmits : logging.admits n.record = decide (logging.threshold ≤ n.level.rank) := rfl
  simp only [Logging.entry, nameTaken?_record hn, hline, hadmits, decide_eq_true_iff]
  split <;> rfl

end Fields

end Note

/-- The log as it is set up for a rank and a renderer. -/
def Logging.setup (logging : Logging) : LogSetup := ⟨logging, logging.threshold, 1⟩

namespace LogSetup

theorem run_configure (s : LogSetup) (name : Text) (json : Bool) :
    (configure name json).run.run s = match Logging.ofName? name json with
      | none => (.error (Threshold.unknownMessage name), s)
      | some logging => (.ok (), logging.setup) := by
  rw [configure]
  cases Logging.ofName? name json with
  | none => rfl
  | some logging => rfl

/-- What is made is taken as well, and once. -/
theorem entry_setup (logging : Logging) : logging.setup.entry = logging.entry := by
  funext timestamp r
  have hmade : logging.setup.made = logging := rfl
  have htaken : logging.setup.taken.admits r.level = logging.admits r := rfl
  have honce : ∀ line : Text, (List.replicate logging.setup.outlets line).flatten = line :=
    fun line => List.flatten_singleton
  rw [entry, hmade, htaken, Logging.entry]
  simp only [honce]
  cases r.nameTaken? (logging.admits r) with
  | some name => rfl
  | none =>
    cases logging.admits r with
    | false => rfl
    | true => rcases logging.line timestamp r with fault | line <;> rfl

theorem flatMap_filter_eq_ite {α β : Type} (p : α → Prop) [DecidablePred p] (f : α → List β)
    (xs : List α) : (xs.filter p).flatMap f = xs.flatMap fun x => if p x then f x else [] := by
  induction xs with
  | nil => rfl
  | cons x xs ih => by_cases h : p x <;> simp [h, ih]

section Entries

variable {s : LogSetup} {timestamp : Text} {f : Note → Text}

theorem mapM_entry : ∀ {notes : List Note},
    (∀ n ∈ notes, s.entry timestamp n.record = .ok (f n)) →
      (notes.map Note.record).mapM (s.entry timestamp) = .ok (notes.map f)
  | [], _ => rfl
  | n :: notes, h => by
    rw [List.map_cons, List.mapM_cons, h n List.mem_cons_self,
      mapM_entry fun m hm => h m (List.mem_cons_of_mem n hm)]
    rfl

/-- Notes each of which can be written are written one after the other. -/
theorem entries_of_entry {notes : List Note}
    (h : ∀ n ∈ notes, s.entry timestamp n.record = .ok (f n)) :
    s.entries timestamp (notes.map Note.record) = .ok (notes.flatMap f) := by
  rw [entries, mapM_entry h, List.flatMap_def]
  rfl

end Entries

/-- Of notes just those that are admitted are written, each as its line. -/
theorem exists_lines (logging : Logging) {timestamp : Text} (htime : timestamp.IsScalar)
    {notes : List Note} (hnotes : ∀ n ∈ notes, n.IsProper) :
    ∃ line : Note → Text,
      logging.setup.entries timestamp (notes.map Note.record)
        = .ok ((notes.filter fun n => logging.threshold ≤ n.level.rank).flatMap
          fun n => line n ++ "\n")
      ∧ ∀ n ∈ notes, logging.line timestamp n.record = .ok (line n)
        ∧ (logging.renderer = .json → n.IsTold timestamp (line n)) := by
  let line (n : Note) : Text := (logging.line timestamp n.record).toOption.getD []
  have hline : ∀ n ∈ notes, logging.line timestamp n.record = .ok (line n)
      ∧ (logging.renderer = .json → n.IsTold timestamp (line n)) := by
    intro n hn
    obtain ⟨t, ht, htold⟩ := Note.exists_line (hnotes n hn) logging htime
    have heq : line n = t := by simp only [line, ht, Except.toOption, Option.getD_some]
    rw [heq]
    exact ⟨ht, htold⟩
  refine ⟨line, ?_, hline⟩
  rw [flatMap_filter_eq_ite, entries_of_entry fun n hn => by
    rw [entry_setup]
    exact Note.entry_record (hnotes n hn) (hline n hn).1]

end LogSetup

/-- Setting up the log fails just for a name that is none of a level, and then nothing is changed.
Otherwise, of any records of texts, just those that are at the level or above it are written, in
their order; in JSON each is one line of ASCII, which reads back as what the record tells. -/
theorem log_levels (s : LogSetup) (name : Text) (json : Bool) :
    ((LogSetup.configure name json).run.run s = (.error (Threshold.unknownMessage name), s)
      ↔ name.upper ∉ Entries.keys Threshold.names)
    ∧ ∀ threshold, (name.upper, threshold) ∈ Threshold.names →
      ∃ setup, (LogSetup.configure name json).run.run s = (.ok (), setup)
        ∧ ∀ (timestamp : Text) (notes : List Note), timestamp.IsScalar →
          (∀ n ∈ notes, n.IsProper) → ∃ line : Note → Text,
          setup.entries timestamp (notes.map Note.record)
            = .ok ((notes.filter fun n => threshold ≤ n.level.rank).flatMap
              fun n => line n ++ "\n")
          ∧ ∀ n ∈ notes, setup.made.line timestamp n.record = .ok (line n)
            ∧ (json = true → n.IsTold timestamp (line n)) := by
  have hunknown : Logging.ofName? name json = none ↔ name.upper ∉ Entries.keys Threshold.names := by
    rw [Logging.ofName?, Option.map_eq_none_iff, Threshold.ofName?, Entries.get?_eq_none_iff]
  refine ⟨?_, fun threshold hthreshold => ?_⟩
  · rw [LogSetup.run_configure, ← hunknown]
    cases Logging.ofName? name json with
    | none => exact iff_of_true rfl rfl
    | some logging => exact iff_of_false (fun h => nomatch h) (fun h => nomatch h)
  · have hdistinct : (Entries.keys Threshold.names).Nodup := by decide
    have hknown : Threshold.ofName? name = some threshold :=
      Entries.get?_of_mem hdistinct hthreshold
    refine ⟨Logging.setup ⟨threshold, if json then .json else .console⟩, ?_,
      fun timestamp notes htime hnotes => ?_⟩
    · rw [LogSetup.run_configure, Logging.ofName?, hknown]
      rfl
    · obtain ⟨line, hentries, hline⟩ := LogSetup.exists_lines
        ⟨threshold, if json then .json else .console⟩ htime hnotes
      refine ⟨line, hentries, fun n hn => ⟨(hline n hn).1, fun hjson => (hline n hn).2 ?_⟩⟩
      rw [hjson]
      rfl

/-- A note of two that is written although line ends, quotes and control characters stand in it. -/
theorem log_levels_warn :
    let s : LogSetup := ⟨⟨0, .console⟩, 30, 0⟩
    let notes : List Note := [⟨.info, "l", "e", []⟩, ⟨.error, "l", "a\n\"b", [("k\n", "\u0000é")]⟩]
    (Text.upper "Warn", 30) ∈ Threshold.names ∧ Text.IsScalar "t" ∧ (∀ n ∈ notes, n.IsProper)
    ∧ ∃ setup, (LogSetup.configure "Warn" true).run.run s = (.ok (), setup)
      ∧ ∃ line : Note → Text,
        setup.entries "t" (notes.map Note.record)
          = .ok (line ⟨.error, "l", "a\n\"b", [("k\n", "\u0000é")]⟩ ++ "\n")
        ∧ Note.IsTold "t" ⟨.error, "l", "a\n\"b", [("k\n", "\u0000é")]⟩
          (line ⟨.error, "l", "a\n\"b", [("k\n", "\u0000é")]⟩) := by
  intro s notes
  have hscalar : ∀ t : String, (Text.ofString t).IsScalar := fun t => ⟨t.toList, rfl⟩
  have hnotes : ∀ n ∈ notes, n.IsProper := by
    refine List.forall_mem_cons.2 ⟨⟨hscalar _, hscalar _, ?_, by decide⟩,
      List.forall_mem_singleton.2 ⟨hscalar _, hscalar _, ?_, by decide⟩⟩
    · exact fun _ hmem => absurd hmem List.not_mem_nil
    · exact List.forall_mem_singleton.2 ⟨hscalar _, hscalar _⟩
  obtain ⟨setup, hsetup, hlines⟩ := (log_levels s "Warn" true).2 30 (by decide)
  obtain ⟨line, hentries, hline⟩ := hlines "t" notes (hscalar _) hnotes
  refine ⟨by decide, hscalar _, hnotes, setup, hsetup, line, hentries.trans ?_,
    (hline _ (List.mem_cons_of_mem _ List.mem_cons_self)).2 rfl⟩
  exact congrArg Except.ok (List.append_nil _)

/-- Two more names are not for fields: one is that of a parameter of the call that hands a record
on, and a text under the other one lacks what a record has. -/
theorem log_fails_for_parameter_names :
    let s : LogSetup := ⟨⟨0, .console⟩, 30, 0⟩
    ∃ setup, (LogSetup.configure "error" true).run.run s = (.ok (), setup)
      ∧ setup.entries "t" [Note.record ⟨.error, "l", "e", [("method_name", "x")]⟩]
        = .error (.nameTaken "method_name" true)
      ∧ setup.entries "t" [Note.record ⟨.error, "l", "e", [("_record", "x")]⟩]
        = .error (.misused (.noMember "str" "name")) :=
  ⟨_, rfl, rfl, rfl⟩

end SearchConfig
