import Barline.CommandLine.Session
import Barline.Proofs.Snapshot.Fields

/-!
# Precedence — the command line before the snapshot before the option file

The output options of a session come from three places, and under any one name the command line is heard first, then
the snapshot, then the option file: `find?_merged` says so of the mapping that they are merged into.

The instrument and the compression have one spelling each, so for them this is the whole rule. The loop count has two,
and the second is tried only when the merged mapping has none of the first. So a snapshot with the second spelling is
outvoted by an option file with the first.
-/

namespace Barline

/-! ## Merged mappings -/

namespace Mapping

theorem find?_put_other (entries : Mapping) {key : Key} {name : Text} (value : Value) (h : key ≠ .text name) :
    find? (put entries key value) name = find? entries name := by
  induction entries with
  | nil => rw [put, find?_cons, if_neg h]
  | cons entry rest ih =>
    obtain ⟨k, v⟩ := entry
    rw [put]
    split
    case isTrue hsame =>
      -- a text is the same key as itself alone, so this entry is not the one of that name
      have hk : k ≠ .text name := by
        rintro rfl
        cases key <;> simp_all [Key.same, Key.number?]
      rw [find?_cons, find?_cons, if_neg hk, if_neg hk]
    case isFalse => rw [find?_cons, find?_cons, ih]

/-- In a merge, what is written overrules what was there, name by name. -/
theorem find?_merge {updates : Mapping} (entries : Mapping) (name : Text) (h : (updates.map Prod.fst).Nodup) :
    find? (merge entries updates) name = (find? updates name).or (find? entries name) := by
  induction updates generalizing entries with
  | nil => rfl
  | cons entry rest ih =>
    obtain ⟨k, v⟩ := entry
    obtain ⟨hk, hrest⟩ := List.nodup_cons.1 h
    have hmerge : find? (merge entries ((k, v) :: rest)) name =
        (find? rest name).or (find? (put entries k v) name) := ih (put entries k v) hrest
    rw [hmerge, find?_cons]
    split
    case isTrue hname =>
      -- its key stands nowhere else, so nothing overrules it
      subst hname
      have hnone : find? rest name = none := by
        refine List.lookup_eq_none_iff.2 fun e he => ?_
        have hne : Key.text name ≠ e.1 := fun heq => hk (List.mem_map.2 ⟨e, he, heq.symm⟩)
        simpa using hne
      rw [hnone, find?_put, if_pos rfl]
      rfl
    case isFalse hname => rw [find?_put_other entries v hname]

/-- Writes an entry if there is a value for it. -/
def putIfGiven (entries : Mapping) (name : Text) : Option Value → Mapping
  | none => entries
  | some v => put entries (.text name) v

theorem find?_putIfGiven (entries : Mapping) (written name : Text) (v? : Option Value) :
    find? (putIfGiven entries written v?) name =
      if written = name then v?.or (find? entries name) else find? entries name := by
  cases v? with
  | none =>
    rw [putIfGiven, Option.none_or]
    exact (ite_self _).symm
  | some v => exact find?_put entries written name v

end Mapping

/-! ## Options that are read -/

theorem Snapshot.options_of_read {sections output : Mapping} {s : Snapshot}
    (h : (read (.mapping (sections.put (.text "output") (.mapping output)))).outcome = .ok s) :
    (Program.Options.read (.mapping output)).outcome = .ok s.options := by
  -- the parts are read one after the other, and the options last
  obtain ⟨merged, hmerged, h⟩ := Reading.outcome_bind_eq_ok h
  obtain ⟨raw, _, h⟩ := Reading.outcome_bind_eq_ok h
  obtain ⟨settings, _, h⟩ := Reading.outcome_bind_eq_ok h
  obtain ⟨points, _, h⟩ := Reading.outcome_bind_eq_ok h
  obtain ⟨options, hoptions, h⟩ := Reading.outcome_bind_eq_ok h
  obtain rfl := Except.ok.inj h
  obtain rfl : sections.put (.text "output") (.mapping output) = merged :=
    Except.ok.inj ((entries_mapping _).symm.trans hmerged)
  rwa [Mapping.field, Spelling.output, Mapping.findAny?_singleton, Mapping.find?_put, if_pos rfl] at hoptions

namespace Program.Options

theorem of_read {entries : Mapping} {o : Options} (h : (read (.mapping entries)).outcome = .ok o) :
    o.instrument = entries.field Spelling.instrument ∧
      (readLoopCount (entries.field Spelling.loopCount)).outcome = .ok o.loopCount ∧
      ∃ b, Field.flag ((Path.top "output").field "compress") true (entries.field Spelling.compress) = .ok b ∧
        o.compress = .bool b := by
  obtain ⟨_, hentries, h⟩ := Reading.outcome_bind_eq_ok h
  obtain ⟨loopCount, hloop, h⟩ := Reading.outcome_bind_eq_ok h
  obtain ⟨compress, hcompress, h⟩ := Reading.outcome_bind_eq_ok h
  obtain rfl := Except.ok.inj hentries
  obtain rfl := Except.ok.inj h
  exact ⟨rfl, hloop, compress, hcompress, rfl⟩

end Program.Options

/-! ## Three sources -/

/-- The value that the first of several sources gives, or nothing if none does. -/
def firstGiven (sources : List (Option Value)) : Value :=
  (sources.findSome? id).getD .null

namespace CommandLine

/-- What the command line gives for the compression. -/
def Arguments.compress? (request : Arguments) : Option Value :=
  if request.noCompress then some (.bool false) else none

/-- What the command line gives under the name of an output option. -/
def Arguments.given (request : Arguments) (name : Text) : Option Value :=
  if name = "instrument" then request.instrument
  else if name = "loop_count" then request.loopCount
  else if name = "compress" then request.compress?
  else none

namespace Session

theorem overrule_eq (request : Arguments) (output : Mapping) :
    overrule request output = ((output.putIfGiven "instrument" request.instrument).putIfGiven "loop_count"
      request.loopCount).putIfGiven "compress" request.compress? := by
  unfold overrule Arguments.compress?
  cases request.instrument <;> cases request.loopCount <;> cases request.noCompress <;> rfl

theorem find?_overrule (request : Arguments) (output : Mapping) (name : Text) :
    (overrule request output).find? name = (request.given name).or (output.find? name) := by
  rw [overrule_eq, Mapping.find?_putIfGiven, Mapping.find?_putIfGiven, Mapping.find?_putIfGiven, Arguments.given]
  by_cases hinstrument : name = "instrument"
  · subst hinstrument
    rfl
  · by_cases hloop : name = "loop_count"
    · subst hloop
      rfl
    · rw [if_neg (Ne.symm hinstrument), if_neg (Ne.symm hloop), if_neg hinstrument, if_neg hloop]
      by_cases hcompress : name = "compress"
      · rw [if_pos hcompress, if_pos hcompress.symm]
      · rw [if_neg hcompress, if_neg (Ne.symm hcompress)]
        rfl

variable {request : Arguments} {config sections defaults chosen output : Mapping}

theorem exists_sources (h : mergeOutput request config sections = .ok output) :
    ∃ defaults chosen, Field.mapping (.top "config output") (config.field Spelling.output) = .ok defaults ∧
      Field.mapping (.top "output") (sections.field Spelling.output) = .ok chosen ∧
      output = overrule request (defaults.merge chosen) := by
  obtain ⟨defaults, hdefaults, h⟩ := exists_of_bind_eq_ok h
  obtain ⟨chosen, hchosen, h⟩ := exists_of_bind_eq_ok h
  exact ⟨defaults, chosen, hdefaults, hchosen, (Except.ok.inj h).symm⟩

/-- An output section that is left out has no keys at all. -/
theorem nodup_keys {path : Path} {v : Value} (h : Field.mapping path v = .ok chosen)
    (hv : ∀ entries, v = .mapping entries → (entries.map Prod.fst).Nodup) : (chosen.map Prod.fst).Nodup := by
  cases v with
  | null =>
    obtain rfl := Except.ok.inj h
    exact List.nodup_nil
  | mapping entries =>
    obtain rfl := Except.ok.inj h
    exact hv entries rfl
  | _ => cases h

/-- Name by name, the command line is heard before the snapshot, and the snapshot before the option file. -/
theorem find?_merged (hchosen : (chosen.map Prod.fst).Nodup) (name : Text) :
    (overrule request (defaults.merge chosen)).find? name =
      (request.given name).or ((chosen.find? name).or (defaults.find? name)) := by
  rw [find?_overrule, Mapping.find?_merge defaults name hchosen]

theorem field_merged (hchosen : (chosen.map Prod.fst).Nodup) (name : Text) :
    (overrule request (defaults.merge chosen)).field [name] =
      firstGiven [request.given name, chosen.findAny? [name], defaults.findAny? [name]] := by
  rw [Mapping.field, Mapping.findAny?_singleton, Mapping.findAny?_singleton, Mapping.findAny?_singleton,
    find?_merged hchosen]
  cases request.given name <;> cases chosen.find? name <;> cases defaults.find? name <;> rfl

/-- Without the command line, the option file gives a loop count in the first spelling and the snapshot one in the
second only. -/
structure Outvoted (request : Arguments) (chosen defaults : Mapping) : Prop where
  request : request.loopCount = none
  first : chosen.find? "loop_count" = none
  second : chosen.find? "loopCount" ≠ none
  default : defaults.find? "loop_count" ≠ none

theorem loopCount_merged (hchosen : (chosen.map Prod.fst).Nodup) :
    (overrule request (defaults.merge chosen)).field Spelling.loopCount =
      ((request.loopCount.or ((chosen.find? "loop_count").or (defaults.find? "loop_count"))).or
        ((chosen.find? "loopCount").or (defaults.find? "loopCount"))).getD .null := by
  rw [Mapping.field, Spelling.loopCount, Mapping.findAny?_pair, find?_merged hchosen, find?_merged hchosen]
  rfl

theorem loopCount_eq_firstGiven (hchosen : (chosen.map Prod.fst).Nodup) (h : ¬ Outvoted request chosen defaults) :
    (overrule request (defaults.merge chosen)).field Spelling.loopCount =
      firstGiven [request.loopCount, chosen.findAny? Spelling.loopCount, defaults.findAny? Spelling.loopCount] := by
  rw [loopCount_merged hchosen, Spelling.loopCount, Mapping.findAny?_pair, Mapping.findAny?_pair]
  cases hrequest : request.loopCount with
  | some v => rfl
  | none =>
    cases hfirst : chosen.find? "loop_count" with
    | some v => rfl
    | none =>
      cases hsecond : chosen.find? "loopCount" with
      | none => cases defaults.find? "loop_count" <;> cases defaults.find? "loopCount" <;> rfl
      | some v =>
        -- the option file would come between the two spellings of the snapshot
        cases hdefault : defaults.find? "loop_count" with
        | none => rfl
        | some w => exact absurd ⟨hrequest, hfirst, by simp [hsecond], by simp [hdefault]⟩ h

theorem loopCount_of_outvoted (hchosen : (chosen.map Prod.fst).Nodup) (h : Outvoted request chosen defaults) :
    defaults.find? "loop_count" = some ((overrule request (defaults.merge chosen)).field Spelling.loopCount) := by
  rw [loopCount_merged hchosen, h.request, h.first]
  cases hdefault : defaults.find? "loop_count" with
  | none => exact absurd hdefault h.default
  | some v => rfl

/-! ## Sessions -/

theorem program_of_conclude {console : Console} {verbose : Bool} {log shown : List Notice} {reading : Reading Snapshot}
    {text : Text} (h : conclude console verbose log reading = .finished 0 text shown) :
    ∃ s score, reading.outcome = .ok s ∧ s.build = .ok score ∧ text = score.program ++ "\n" := by
  unfold conclude at h
  cases hwritten : reading.written with
  | error e => simp [hwritten] at h
  | ok s =>
    cases hscore : s.write with
    | error e => simp [hwritten, hscore] at h
    | ok score =>
      refine ⟨s, score, Reading.outcome_of_written hwritten, Score.build_of_write hscore, ?_⟩
      simp only [hwritten, hscore] at h
      split at h
      · cases hconsole : console score.program with
        | some reason => simp [hconsole] at h
        | none =>
          simp only [hconsole] at h
          exact (Ending.finished.inj h).2.1.symm
      · cases h

end Session

open Session in
/-- Of the command line, the snapshot and the option file, the first that gives an option decides it, and the program
is made of the options so decided. There is one exception: the loop count of a snapshot that is outvoted is that of the
option file. -/
theorem options_by_precedence {request : Arguments} {config sections : Mapping} {s : Snapshot}
    (h : (mergedSnapshot request config sections).outcome = .ok s)
    (hkeys : ∀ entries, sections.field Spelling.output = .mapping entries → (entries.map Prod.fst).Nodup) :
    ∃ defaults chosen, Field.mapping (.top "config output") (config.field Spelling.output) = .ok defaults ∧
      Field.mapping (.top "output") (sections.field Spelling.output) = .ok chosen ∧
      s.options.instrument = firstGiven [request.instrument, chosen.findAny? Spelling.instrument,
        defaults.findAny? Spelling.instrument] ∧
      (∃ b, s.options.compress = .bool b ∧ Field.flag ((Path.top "output").field "compress") true
        (firstGiven [request.compress?, chosen.findAny? Spelling.compress,
          defaults.findAny? Spelling.compress]) = .ok b) ∧
      (¬ Outvoted request chosen defaults → (Program.Options.readLoopCount (firstGiven [request.loopCount,
        chosen.findAny? Spelling.loopCount, defaults.findAny? Spelling.loopCount])).outcome =
          .ok s.options.loopCount) ∧
      (Outvoted request chosen defaults → ∃ v, defaults.find? "loop_count" = some v ∧
        (Program.Options.readLoopCount v).outcome = .ok s.options.loopCount) ∧
      ∀ files loader console name log noticed text shown, request.config = some name →
        readConfig files loader name = .ok (log, config) →
        readSections files loader request.snapshot = .entries noticed sections →
        act files loader console request = .finished 0 text shown →
          ∃ score, s.build = .ok score ∧ text = score.program ++ "\n" := by
  obtain ⟨output, houtput, hread⟩ := Reading.outcome_bind_eq_ok h
  obtain ⟨defaults, chosen, hdefaults, hsection, rfl⟩ := exists_sources houtput
  obtain ⟨hinstrument, hloop, b, hflag, hcompress⟩ := Program.Options.of_read (Snapshot.options_of_read hread)
  have hchosen : (chosen.map Prod.fst).Nodup := nodup_keys hsection hkeys
  refine ⟨defaults, chosen, hdefaults, hsection, ?_, ⟨b, hcompress, ?_⟩, ?_, ?_, ?_⟩
  · exact hinstrument.trans (field_merged hchosen "instrument")
  · rwa [Spelling.compress, field_merged hchosen "compress"] at hflag
  · intro hvoted
    rwa [loopCount_eq_firstGiven hchosen hvoted] at hloop
  · intro hvoted
    exact ⟨_, loopCount_of_outvoted hchosen hvoted, hloop⟩
  · intro files loader console name log noticed text shown hname hconfig hsections hact
    rw [act, hname] at hact
    simp only [actWith, hconfig, hsections] at hact
    -- a session that ends with zero has read the one snapshot that the merged sections give
    rcases program_of_conclude hact with ⟨t, score, ht, hbuild, htext⟩
    obtain rfl : s = t := Except.ok.inj (h.symm.trans ht)
    exact ⟨score, hbuild, htext⟩

/-- With the loop count of an option file in the second spelling and that of a snapshot in the first, the snapshot
decides; the instrument it leaves to the option file, and the compression to the command line. -/
theorem snapshot_overrules_option_file :
    ∃ s, (Session.mergedSnapshot { snapshot := "piece.yaml", noCompress := true }
        [(.text "output", .mapping [(.text "instrument", .text "lead"), (.text "loopCount", .int 2)])]
        [(.text "output", .mapping [(.text "loop_count", .int 3)])]).outcome = .ok s ∧
      s.options.instrument = .text "lead" ∧ s.options.loopCount = .int 3 ∧ s.options.compress = .bool false := by
  obtain ⟨s, hread⟩ : ∃ s, (Session.mergedSnapshot { snapshot := "piece.yaml", noCompress := true }
      [(.text "output", .mapping [(.text "instrument", .text "lead"), (.text "loopCount", .int 2)])]
      [(.text "output", .mapping [(.text "loop_count", .int 3)])]).outcome = .ok s := ⟨_, rfl⟩
  have hkeys : ∀ entries, Mapping.field [(.text "output", .mapping [(.text "loop_count", .int 3)])] Spelling.output =
      .mapping entries → (entries.map Prod.fst).Nodup := by
    intro entries hentries
    obtain rfl := Value.mapping.inj hentries
    decide
  rcases options_by_precedence hread hkeys with
    ⟨defaults, chosen, hdefaults, hchosen, hinstrument, ⟨b, hcompress, hflag⟩, hloop, _, _⟩
  obtain rfl := Except.ok.inj hdefaults
  obtain rfl := Except.ok.inj hchosen
  have hcount := hloop fun hvoted => Option.some_ne_none _ hvoted.first
  obtain rfl := Except.ok.inj hflag
  exact ⟨s, hread, hinstrument, (Except.ok.inj hcount).symm, hcompress⟩

/-- A snapshot that gives three repetitions in the second spelling is outvoted by an option file that gives two in the
first. -/
theorem option_file_overrules_second_spelling :
    (Session.mergedSnapshot { snapshot := "piece.yaml" }
        [(.text "output", .mapping [(.text "loop_count", .int 2)])]
        [(.text "output", .mapping [(.text "loopCount", .int 3)])]).outcome =
      .ok ⟨{}, [], { loopCount := .int 2 }⟩ ∧
    firstGiven [none, Mapping.findAny? [(.text "loopCount", .int 3)] Spelling.loopCount,
      Mapping.findAny? [(.text "loop_count", .int 2)] Spelling.loopCount] = .int 3 :=
  ⟨rfl, rfl⟩

end CommandLine

end Barline
