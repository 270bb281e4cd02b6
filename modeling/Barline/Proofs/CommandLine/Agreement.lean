import Barline.Proofs.CommandLine.Arguments
import Barline.Proofs.CommandLine.Ending

/-!
# Agreement — the command line and the library read the same snapshot

A session does not load its snapshot as the library does. It takes the sections out of the file, merges the output
options by itself, writes the merged section back and decodes the whole only then. Without an option file and without
options on the command line there is nothing to merge, and the detour makes no difference:

* `mergedSnapshot_of_alone` says that the same is read, once the output section is a mapping.
* `written_merged_iff` says that the same is read in any case.
* `session_agrees_with_loading` says that the session ends as the library does, but for two things that it does on top
  of it: it reports the number of bars, which may be too long to be written, and it prints the program on a console,
  which may not take it.
-/

namespace Barline

/-! ## Results and readings -/

theorem exists_of_isOk {ε α : Type} {x : Except ε α} (h : x.isOk = true) : ∃ a, x = .ok a := by
  cases x with
  | error e => cases h
  | ok a => exact ⟨a, rfl⟩

namespace Snapshot

variable {sections : Mapping} {s : Snapshot}

/-- The output section of a snapshot that is read is a mapping, or it is left out. -/
theorem exists_output_of_read (h : (read (.mapping sections)).outcome = .ok s) :
    ∃ chosen, Field.mapping (.top "output") (sections.field Spelling.output) = .ok chosen := by
  obtain ⟨entries, hentries, h⟩ := Reading.outcome_bind_eq_ok h
  obtain rfl := Except.ok.inj ((entries_mapping _).symm.trans hentries)
  obtain ⟨raw, _, h⟩ := Reading.outcome_bind_eq_ok h
  obtain ⟨settings, _, h⟩ := Reading.outcome_bind_eq_ok h
  obtain ⟨points, _, h⟩ := Reading.outcome_bind_eq_ok h
  obtain ⟨options, hoptions, _⟩ := Reading.outcome_bind_eq_ok h
  obtain ⟨chosen, hchosen, _⟩ := Reading.outcome_bind_eq_ok hoptions
  exact ⟨chosen, hchosen⟩

end Snapshot

namespace CommandLine

namespace Session

/-! ## Nothing to merge -/

/-- A session that goes by its snapshot alone: the option file is not there, and the command line sets no output
options. -/
structure Alone (files : Files) (request : Arguments) : Prop where
  optionFile : ∃ name e, request.config = some name ∧ files name = .error e ∧ e.isThere = false
  instrument : request.instrument = none
  loopCount : request.loopCount = none
  compress : request.noCompress = false

variable {files : Files} {loader : Loader} {console : Console} {request : Arguments} {s : Snapshot}
  {sections chosen output : Mapping}

theorem Alone.overrule_eq (h : Alone files request) (output : Mapping) : overrule request output = output := by
  rw [overrule, h.instrument, h.loopCount, h.compress]
  rfl

theorem Alone.readConfig_eq (h : Alone files request) (loader : Loader) :
    ∃ name, request.config = some name ∧ readConfig files loader name = .ok ([.missingConfig name], []) := by
  obtain ⟨name, e, hname, hfile, he⟩ := h.optionFile
  refine ⟨name, hname, ?_⟩
  simp only [readConfig, hfile, he]
  rfl

/-- A mapping that is copied entry by entry into an empty one has the same fields. -/
theorem field_merge_nil (h : (chosen.map Prod.fst).Nodup) (spellings : List Text) :
    (Mapping.merge [] chosen).field spellings = chosen.field spellings := by
  have hfind : Mapping.find? (Mapping.merge [] chosen) = Mapping.find? chosen := by
    funext name
    rw [Mapping.find?_merge [] name h, Mapping.find?_nil, Option.or_none]
  rw [Mapping.field, Mapping.field, Mapping.findAny?, Mapping.findAny?, hfind]

theorem mergeOutput_of_alone (h : Alone files request)
    (hchosen : Field.mapping (.top "output") (sections.field Spelling.output) = .ok chosen) :
    mergeOutput request [] sections = .ok (Mapping.merge [] chosen) := by
  rw [mergeOutput, hchosen]
  exact congrArg Except.ok (h.overrule_eq _)

theorem mergedSnapshot_of_alone (h : Alone files request)
    (hchosen : Field.mapping (.top "output") (sections.field Spelling.output) = .ok chosen)
    (hkeys : (chosen.map Prod.fst).Nodup) :
    mergedSnapshot request [] sections = Snapshot.read (.mapping sections) := by
  -- points and settings are where they were, and the output section is as good as the one that was there
  have houtput : Program.Options.read (.mapping (Mapping.merge [] chosen)) =
      Program.Options.read (sections.field Spelling.output) := by
    rw [Program.Options.read_of_mapping hchosen]
    exact Program.Options.read_congr fun names _ => field_merge_nil hkeys names
  have hpoints := Mapping.field_put_of_notMem (show Text.ofString "output" ∉ Spelling.points by decide) sections
  have hsettings := Mapping.field_put_of_notMem (show Text.ofString "output" ∉ Spelling.settings by decide) sections
  rw [mergedSnapshot, Reading.bind_of_ok (mergeOutput_of_alone h hchosen), Snapshot.read_mapping,
    Snapshot.read_mapping, ← houtput, hpoints, hsettings, Spelling.output, Mapping.field_put_self]

/-- The session reads what the library reads. Where the output section is no mapping, neither of them reads anything. -/
theorem written_merged_iff (h : Alone files request)
    (hkeys : ∀ entries, sections.field Spelling.output = .mapping entries → (entries.map Prod.fst).Nodup) :
    (mergedSnapshot request [] sections).written = .ok s ↔ (Snapshot.read (.mapping sections)).written = .ok s := by
  -- whichever of the two succeeds has found a mapping in the output section, and then they are the same
  constructor
  · intro hwritten
    obtain ⟨output, houtput, _⟩ := Reading.outcome_bind_eq_ok (Reading.outcome_of_written hwritten)
    have hmerge : mergeOutput request [] sections = .ok output := houtput
    obtain ⟨_, chosen, _, hchosen, _⟩ := exists_sources hmerge
    rwa [mergedSnapshot_of_alone h hchosen (nodup_keys hchosen hkeys)] at hwritten
  · intro hwritten
    obtain ⟨chosen, hchosen⟩ := Snapshot.exists_output_of_read (Reading.outcome_of_written hwritten)
    rwa [mergedSnapshot_of_alone h hchosen (nodup_keys hchosen hkeys)]

/-! ## The file of the snapshot -/

theorem writable_of_sections (file : Text) (document : Value) :
    (Snapshot.sections file document).notices.all Notice.isWritable = true := by
  cases document <;> rfl

theorem loadFile_of_text {file : Text} {text : String} (hfile : files file = .ok text) :
    Snapshot.loadFile files loader file =
      ((loader text).mapError .document >>= fun document =>
        (Snapshot.sections file document >>= fun entries => Snapshot.read (.mapping entries)).written.mapError
          .content) := by
  unfold Snapshot.loadFile Snapshot.load
  rw [hfile]
  cases hload : loader text with
  | error e => simp [hload, bind, Except.bind]
  | ok document => simp [hload, bind, Except.bind, pure, Except.pure]

theorem document_of_entries {file : Text} {noticed : List Notice}
    (h : readSections files loader file = .entries noticed sections) :
    ∃ text document, files file = .ok text ∧ loader text = .ok document ∧
      (Snapshot.sections file document).outcome = .ok sections := by
  unfold readSections at h
  cases hfile : files file with
  | error e => simp [hfile] at h
  | ok text =>
    cases hload : loader text with
    | error e => cases e <;> simp [hfile, hload] at h
    | ok document =>
      cases houtcome : (Snapshot.sections file document).outcome with
      | error e => simp [hfile, hload, houtcome] at h
      | ok entries =>
        simp only [hfile, hload, houtcome, SnapshotFile.entries.injEq] at h
        exact ⟨text, document, rfl, hload, houtcome.trans (congrArg Except.ok h.2)⟩

theorem loadFile_of_entries {file : Text} {noticed : List Notice}
    (h : readSections files loader file = .entries noticed sections) :
    Snapshot.loadFile files loader file = (Snapshot.read (.mapping sections)).written.mapError .content := by
  obtain ⟨text, document, hfile, hload, houtcome⟩ := document_of_entries h
  have hsections : (Snapshot.sections file document).written = .ok sections :=
    Reading.written_of_outcome houtcome (writable_of_sections file document)
  have hread : (Snapshot.sections file document >>= fun entries => Snapshot.read (.mapping entries)).written =
      (Snapshot.read (.mapping sections)).written := by
    rw [Reading.written_bind, hsections]
    rfl
  rw [loadFile_of_text hfile, hload]
  exact congrArg (Except.mapError _) hread

/-- What a session reports of a file is why the library does not load it. -/
theorem loadFile_of_unreadable {file reason : Text} (h : readSections files loader file = .unreadable reason) :
    ∃ e, Snapshot.loadFile files loader file = .error e ∧ e.message file = reason := by
  unfold readSections at h
  cases hfile : files file with
  | error e =>
    simp only [hfile, SnapshotFile.unreadable.injEq] at h
    refine ⟨.file e, ?_, h⟩
    rw [Snapshot.loadFile, hfile]
    rfl
  | ok text =>
    cases hload : loader text with
    | error e =>
      have hreason : (e.message : Text) = reason := by
        cases e with
        | outOfRange _ => simp [hfile, hload] at h
        | _ => simpa only [hfile, hload, SnapshotFile.unreadable.injEq] using h
      refine ⟨.document e, ?_, hreason⟩
      rw [loadFile_of_text hfile, hload]
      rfl
    | ok document =>
      -- a document is refused here only if it is no mapping
      rw [loadFile_of_text hfile, hload]
      simp only [hfile, hload] at h
      cases document with
      | null => cases h
      | mapping entries => cases h
      | _ => exact ⟨_, rfl, SnapshotFile.unreadable.inj h⟩

/-! ## Endings -/

/-- How a session that goes by its snapshot alone ends, once the snapshot is loaded or refused. -/
inductive EndsAs (console : Console) : Except Snapshot.LoadError Snapshot → Ending → Prop where
  | refused {e : Snapshot.LoadError} {log : List Notice} (reports : ReportsError log) :
      EndsAs console (.error e) (.finished 1 [] log)
  | unbuilt {s : Snapshot} {e : WritingError BuildError} (write : s.write = .error e) :
      EndsAs console (.ok s) (.failed (.ofBuild e))
  | printed {s : Snapshot} {score : Score} {log : List Notice} (write : s.write = .ok score)
      (bars : Numeral.isWritable s.settings.bars = true) (taken : console score.program = none) :
      EndsAs console (.ok s) (.finished 0 (score.program ++ "\n") log)
  /-- The program is there, but the report of the bars is too long. -/
  | unreported {s : Snapshot} {score : Score} (write : s.write = .ok score)
      (bars : Numeral.isWritable s.settings.bars = false) : EndsAs console (.ok s) (.failed .tooLong)
  /-- The program is there, but the console does not take it. -/
  | unprinted {s : Snapshot} {score : Score} {reason : String} (write : s.write = .ok score)
      (bars : Numeral.isWritable s.settings.bars = true) (untaken : console score.program = some reason) :
      EndsAs console (.ok s) (.failed (.unprintable reason))

theorem conclude_endsAs {loaded : Except Snapshot.LoadError Snapshot} {reading : Reading Snapshot} (verbose : Bool)
    (log : List Notice) (h : ∀ s, reading.written = .ok s ↔ loaded = .ok s) :
    EndsAs console loaded (conclude console verbose log reading) := by
  cases hwritten : reading.written with
  | error e =>
    -- both refuse the snapshot, perhaps for different errors: the session looks at the output section first
    obtain ⟨log', hconclude, hreports⟩ : ∃ log', conclude console verbose log reading = .finished 1 [] log' ∧
        ReportsError log' := exists_log_of_error hwritten
    rw [hconclude]
    cases loaded with
    | error e => exact .refused hreports
    | ok s => cases hwritten.symm.trans ((h s).2 rfl)
  | ok s =>
    rw [(h s).1 hwritten]
    unfold conclude
    simp only [hwritten]
    cases hwrite : s.write with
    | error e => exact .unbuilt hwrite
    | ok score =>
      cases hbars : Numeral.isWritable s.settings.bars with
      | false =>
        simp only [Notice.isWritable, hbars]
        exact .unreported hwrite hbars
      | true =>
        simp only [Notice.isWritable, hbars, if_true]
        cases hconsole : console score.program with
        | none => exact .printed hwrite hbars hconsole
        | some reason => exact .unprinted hwrite hbars hconsole

/-- What a loader may give for the file of a snapshot: no number out of range, and an output section in which no key
stands twice. -/
structure Loads (files : Files) (loader : Loader) (file : Text) : Prop where
  inRange : ∀ text reason, files file = .ok text → loader text ≠ .error (.outOfRange reason)
  keys : ∀ (text : String) (sections output : Mapping), files file = .ok text →
    loader text = .ok (.mapping sections) → sections.field Spelling.output = .mapping output →
      (output.map Prod.fst).Nodup

theorem Loads.nodup {file : Text} {noticed : List Notice} (h : Loads files loader file)
    (hsections : readSections files loader file = .entries noticed sections) :
    ∀ output, sections.field Spelling.output = .mapping output → (output.map Prod.fst).Nodup := by
  intro output houtput
  obtain ⟨text, document, hfile, hload, houtcome⟩ := document_of_entries hsections
  cases document with
  | null =>
    obtain rfl := Except.ok.inj houtcome
    cases houtput
  | mapping entries =>
    obtain rfl := Except.ok.inj houtcome
    exact h.keys text entries output hfile hload houtput
  | _ => cases houtcome

/-- A document without output options has no keys in them. -/
theorem Loads.of_no_output {file : Text} {text : String} (hfile : files file = .ok text)
    (hload : loader text = .ok (.mapping sections)) (houtput : sections.field Spelling.output = .null) :
    Loads files loader file := by
  constructor
  · intro text' reason hfile'
    obtain rfl := Except.ok.inj (hfile.symm.trans hfile')
    rw [hload]
    exact fun h => nomatch h
  · intro text' sections' output hfile' hload' houtput'
    obtain rfl := Except.ok.inj (hfile.symm.trans hfile')
    obtain rfl := Value.mapping.inj (Except.ok.inj (hload.symm.trans hload'))
    cases houtput.symm.trans houtput'

/-- Stage by stage, the session goes on where loading goes on and stops where it stops. -/
theorem act_endsAs (halone : Alone files request) (hloads : Loads files loader request.snapshot) :
    EndsAs console (Snapshot.loadFile files loader request.snapshot) (act files loader console request) := by
  obtain ⟨name, hname, hconfig⟩ := halone.readConfig_eq loader
  rcases readSections_cases files loader request.snapshot with ⟨noticed, sections, hsections⟩ | ⟨reason, hsections⟩ |
    ⟨text, reason, hfile, hload, _⟩
  · -- the sections are at hand on both sides, and what is left is to read them
    simp only [act, hname, actWith, hconfig, hsections]
    refine conclude_endsAs _ _ ?_
    intro s
    rw [written_merged_iff halone (hloads.nodup hsections), loadFile_of_entries hsections]
    cases (Snapshot.read (.mapping sections)).written <;> simp
  · obtain ⟨e, hload, _⟩ := loadFile_of_unreadable hsections
    rw [hload]
    simp only [act, hname, actWith, hconfig, hsections]
    exact .refused (reportsError_shown _ _ rfl)
  · exact absurd hload (hloads.inRange text reason hfile)

namespace EndsAs

variable {loaded : Except Snapshot.LoadError Snapshot} {ending : Ending}

theorem printed_iff (h : EndsAs console loaded ending) (output : Text) :
    (∃ log, ending = .finished 0 output log) ↔
      ∃ s score, loaded = .ok s ∧ s.write = .ok score ∧ Numeral.isWritable s.settings.bars = true ∧
        console score.program = none ∧ output = score.program ++ "\n" := by
  constructor
  · rintro ⟨log, rfl⟩
    cases h with
    | printed write bars taken => exact ⟨_, _, rfl, write, bars, taken, rfl⟩
  · rintro ⟨s, score, rfl, hwrite, hbars, htaken, rfl⟩
    cases h with
    | unbuilt write => cases write.symm.trans hwrite
    | printed write _ _ =>
      obtain rfl := Except.ok.inj (write.symm.trans hwrite)
      exact ⟨_, rfl⟩
    | unreported _ bars => cases bars.symm.trans hbars
    | unprinted write _ untaken =>
      obtain rfl := Except.ok.inj (write.symm.trans hwrite)
      cases untaken.symm.trans htaken

theorem refused_iff (h : EndsAs console loaded ending) :
    (∃ output log, ending = .finished 1 output log) ↔ ∃ e, loaded = .error e := by
  constructor
  · rintro ⟨output, log, rfl⟩
    cases h with
    | refused _ => exact ⟨_, rfl⟩
  · rintro ⟨e, rfl⟩
    cases h with
    | refused _ => exact ⟨_, _, rfl⟩

theorem quiet_of_refused {output : Text} {log : List Notice} (h : EndsAs console loaded (.finished 1 output log)) :
    output = [] ∧ ReportsError log := by
  cases h with
  | refused reports => exact ⟨rfl, reports⟩

theorem failed_iff (h : EndsAs console loaded ending) (cause : Failure) :
    ending = .failed cause ↔
      ∃ s, loaded = .ok s ∧ ((∃ e, s.write = .error e ∧ cause = .ofBuild e) ∨
        ∃ score, s.write = .ok score ∧
          (Numeral.isWritable s.settings.bars = false ∧ cause = .tooLong ∨
            Numeral.isWritable s.settings.bars = true ∧
              ∃ reason, console score.program = some reason ∧ cause = .unprintable reason)) := by
  constructor
  · rintro rfl
    cases h with
    | unbuilt write => exact ⟨_, rfl, .inl ⟨_, write, rfl⟩⟩
    | unreported write bars => exact ⟨_, rfl, .inr ⟨_, write, .inl ⟨bars, rfl⟩⟩⟩
    | unprinted write bars untaken => exact ⟨_, rfl, .inr ⟨_, write, .inr ⟨bars, _, untaken, rfl⟩⟩⟩
  -- what is written, the number of bars and the console tell the ways to end apart
  · rintro ⟨s, rfl, ⟨e, hwrite, rfl⟩ | ⟨score, hwrite, ⟨hbars, rfl⟩ | ⟨hbars, reason, huntaken, rfl⟩⟩⟩
    · cases h with
      | unbuilt write =>
        obtain rfl := Except.error.inj (write.symm.trans hwrite)
        rfl
      | printed write _ _ => cases write.symm.trans hwrite
      | unreported write _ => cases write.symm.trans hwrite
      | unprinted write _ _ => cases write.symm.trans hwrite
    · cases h with
      | unbuilt write => cases write.symm.trans hwrite
      | printed _ bars _ => cases bars.symm.trans hbars
      | unreported _ _ => rfl
      | unprinted _ bars _ => cases bars.symm.trans hbars
    · cases h with
      | unbuilt write => cases write.symm.trans hwrite
      | printed write _ taken =>
        obtain rfl := Except.ok.inj (write.symm.trans hwrite)
        cases taken.symm.trans huntaken
      | unreported _ bars => cases bars.symm.trans hbars
      | unprinted write _ untaken =>
        obtain rfl := Except.ok.inj (write.symm.trans hwrite)
        obtain rfl := Option.some.inj (untaken.symm.trans huntaken)
        rfl

end EndsAs

end Session

open Session

/-- A session that goes by its snapshot alone does what is done by loading the snapshot and writing its score. It prints
the program with a line break if both succeed; it reports an error and prints nothing exactly if loading fails; it fails
exactly if writing does, for the same cause. There are two exceptions: with a program at hand, it also fails if the
number of bars is too long for the report of it, and else if the console does not take the program. -/
theorem session_agrees_with_loading {files : Files} {loader : Loader} {console : Console} {arguments : List Text}
    {request : Arguments} (hparse : Arguments.parse arguments = .ok request) (halone : Alone files request)
    (hloads : Loads files loader request.snapshot) :
    (∀ path, arguments = [path] → request.snapshot = path) ∧
      (∀ output, (∃ log, run files loader console arguments = .finished 0 output log) ↔
        ∃ s score, Snapshot.loadFile files loader request.snapshot = .ok s ∧ s.write = .ok score ∧
          Numeral.isWritable s.settings.bars = true ∧ console score.program = none ∧
          output = score.program ++ "\n") ∧
      ((∃ output log, run files loader console arguments = .finished 1 output log) ↔
        ∃ e, Snapshot.loadFile files loader request.snapshot = .error e) ∧
      (∀ output log, run files loader console arguments = .finished 1 output log → output = [] ∧ ReportsError log) ∧
      ∀ cause, run files loader console arguments = .failed cause ↔
        ∃ s, Snapshot.loadFile files loader request.snapshot = .ok s ∧
          ((∃ e, s.write = .error e ∧ cause = .ofBuild e) ∨
            ∃ score, s.write = .ok score ∧
              (Numeral.isWritable s.settings.bars = false ∧ cause = .tooLong ∨
                Numeral.isWritable s.settings.bars = true ∧
                  ∃ reason, console score.program = some reason ∧ cause = .unprintable reason)) := by
  -- the session ends by what is loaded alone, and all parts are read off that
  have hends : EndsAs console (Snapshot.loadFile files loader request.snapshot)
      (run files loader console arguments) := by
    simp only [run, hparse]
    exact act_endsAs halone hloads
  refine ⟨?_, hends.printed_iff, hends.refused_iff, ?_, hends.failed_iff⟩
  · rintro path rfl
    rw [Arguments.eq_of_parse_singleton hparse]
  · intro output log hrun
    rw [hrun] at hends
    exact hends.quiet_of_refused

/-- A piece of one note is loaded, and the session prints its program. -/
theorem single_note_is_printed :
    ∃ s score log,
      Snapshot.loadFile (Directory.read [("piece.yaml", "points:\n- duration: 1\n")]) Yaml.loader "piece.yaml" =
        .ok s ∧ s.write = .ok score ∧
      run (Directory.read [("piece.yaml", "points:\n- duration: 1\n")]) Yaml.loader Console.utf8 ["piece.yaml"] =
        .finished 0 (score.program ++ "\n") log := by
  let files : Files := Directory.read [("piece.yaml", "points:\n- duration: 1\n")]
  let s : Snapshot := ⟨{}, [{ start := 0, duration := 1, notes := [{}] }], { compress := .bool true }⟩
  have hparse : Arguments.parse [("piece.yaml" : Text)] = .ok { snapshot := "piece.yaml" } := rfl
  have halone : Alone files { snapshot := "piece.yaml" } :=
    ⟨⟨"config.yaml", .missing, rfl, rfl, rfl⟩, rfl, rfl, rfl⟩
  have hdocument : Yaml.loader "points:\n- duration: 1\n" =
      .ok (.mapping [(.text "points", .list [.mapping [(.text "duration", .int 1)]])]) := by decide +kernel
  have hloads : Loads files Yaml.loader "piece.yaml" := .of_no_output rfl hdocument rfl
  have hload : Snapshot.loadFile files Yaml.loader "piece.yaml" = .ok s := by decide +kernel
  let score : Score := .ofTimeline ⟨4, placements 4 0 (s.points.flatMap Point.occurrences)⟩ (Program.symbol [])
    Program.endless true
  have hwrite : s.write = .ok score := Score.write_of_sorted (by decide) (by decide +kernel) (by decide +kernel) rfl
    rfl (by decide +kernel) (by decide +kernel)
  have htaken : Console.utf8 score.program = none := by decide +kernel
  obtain ⟨log, hrun⟩ := ((session_agrees_with_loading hparse halone hloads).2.1 _).2
    ⟨s, score, hload, hwrite, by decide +kernel, htaken, rfl⟩
  exact ⟨s, score, log, hload, hwrite, hrun⟩

/-- A note that fills one half of a grid with more bars than can be written. -/
def longPiece : Mapping :=
  [(.text "settings", .mapping [(.text "beats_per_bar", .int 1), (.text "bars", .int (10 ^ 4300))]),
    (.text "points", .list [.mapping [(.text "duration", .text "5e4299")]])]

/-- Such a piece is loaded and its program is written, but the session fails to print it. -/
theorem long_piece_is_not_printed :
    ∃ s score,
      Snapshot.loadFile (Directory.read [("piece.yaml", "")]) (fun _ => .ok (.mapping longPiece)) "piece.yaml" =
        .ok s ∧ s.write = .ok score ∧
      run (Directory.read [("piece.yaml", "")]) (fun _ => .ok (.mapping longPiece)) Console.any ["piece.yaml"] =
        .failed .tooLong := by
  let files : Files := Directory.read [("piece.yaml", "")]
  let loader : Loader := fun _ => .ok (.mapping longPiece)
  let s : Snapshot := ⟨{ beatsPerBar := 1, bars := 10 ^ 4300 },
    [{ start := 0, duration := 5 * 10 ^ 4299, notes := [{}] }], { compress := .bool true }⟩
  have halone : Alone files { snapshot := "piece.yaml" } :=
    ⟨⟨"config.yaml", .missing, rfl, rfl, rfl⟩, rfl, rfl, rfl⟩
  have hloads : Loads files loader "piece.yaml" := .of_no_output rfl rfl rfl
  have hload : Snapshot.loadFile files loader "piece.yaml" = .ok s := by decide +kernel
  have hbars : Numeral.isWritable s.settings.bars = false := by decide +kernel
  obtain ⟨score, hwrite⟩ := exists_of_isOk (show s.write.isOk = true by decide +kernel)
  refine ⟨s, score, hload, hwrite, ?_⟩
  have hends := @act_endsAs files loader Console.any { snapshot := "piece.yaml" } halone hloads
  exact (hends.failed_iff .tooLong).2 ⟨s, hload, .inr ⟨score, hwrite, .inl ⟨hbars, rfl⟩⟩⟩

end CommandLine

end Barline
