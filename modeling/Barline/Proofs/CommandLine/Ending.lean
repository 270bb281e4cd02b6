import Barline.CommandLine.Directory
import Barline.Proofs.CommandLine.Precedence
import Barline.Proofs.Snapshot.Soundness
import Barline.Yaml.Loading

/-!
# Endings — how a session ends

A session that is acted on should end with a program and the status zero, or with an error in its log, nothing printed
and the status one. It does so unless something comes up that it does not expect, and `Session.Unexpected` lists what
that can be: an option file that is there and cannot be read, or is no document, an instrument that is no text, a number
that is too long to be written, or a program that the console does not take.

Stage by stage:

* `Snapshot.KeepsLimit` says that no number of a snapshot is too long to be written.
* `Session.conclude_cases` says how a session ends once the two files are read.
* `ends_cleanly_unless_unexpected` is about whole sessions.
-/

namespace Barline

/-! ## Snapshots that keep to the limit -/

/-- All that a session writes of a snapshot keeps to the limit: its score and the report of the number of bars. -/
def Snapshot.KeepsLimit (s : Snapshot) : Prop :=
  Numeral.isWritable s.settings.bars = true ∧
    ∀ timeline, Timeline.ofPoints s.points s.settings = .ok timeline →
      Score.KeepsLimit s.points s.settings s.options (Voices.ofChunks timeline.chunks)

namespace Snapshot.WellFormed

variable {s : Snapshot}

/-- Within the limit, only an odd instrument keeps a snapshot from being written. -/
theorem write_of_keepsLimit (hs : s.WellFormed) (hlimit : s.KeepsLimit) :
    s.write = s.build.mapError .cause := by
  rcases Timeline.exists_ofPoints (fun p hp => (hs.points p hp).repeats) hs.settings.beatsPerBar
    hs.settings.bars with ⟨timeline, htimeline, _⟩
  exact Score.write_eq_build htimeline (hlimit.2 timeline htimeline)

/-- What a snapshot is written as, and what keeps it from that. -/
theorem write_cases (hs : s.WellFormed) :
    (∃ score, s.write = .ok score ∧ s.build = .ok score ∧ ¬ Program.IsOddInstrument s.options.instrument ∧
        ∀ timeline, Timeline.ofPoints s.points s.settings = .ok timeline →
          Score.KeepsLimit s.points s.settings s.options (Voices.ofChunks timeline.chunks)) ∨
      (s.write = .error (.cause (.instrumentNotText s.options.instrument.typeName)) ∧
        Program.IsOddInstrument s.options.instrument) ∨
      (s.write = .error .tooLong ∧ ¬ s.KeepsLimit) := by
  cases hwrite : s.write with
  | ok score =>
    have hbuild : s.build = .ok score := Score.build_of_write hwrite
    refine Or.inl ⟨score, rfl, hbuild, ?_, ?_⟩
    · intro hodd
      rw [hs.build_of_odd hodd] at hbuild
      cases hbuild
    · intro timeline htimeline
      obtain ⟨hpoints, hvoices, _⟩ := Score.ofPoints_of_build hbuild
      obtain rfl := Except.ok.inj (htimeline.symm.trans hpoints)
      rw [← hvoices]
      exact Score.keepsLimit_of_write hwrite
  | error e =>
    cases e with
    | cause e =>
      -- what is written is what was built, so the build has failed for this cause
      have hbuild : s.build = .error e := by
        rcases Score.writesOut s.points s.settings s.options with hsame | hlong
        · have hsame : s.build.mapError WritingError.cause = .error (.cause e) := hsame.symm.trans hwrite
          cases hbuild : s.build with
          | ok score => simp [hbuild] at hsame
          | error e' =>
            have hcause : e' = e := by simpa [hbuild] using hsame
            exact congrArg Except.error hcause
        · cases hlong.symm.trans hwrite
      have hodd := hs.odd_of_build_eq_error hbuild
      have hcause := hbuild.symm.trans (hs.build_of_odd hodd)
      obtain rfl := Except.error.inj hcause
      exact Or.inr (Or.inl ⟨rfl, hodd⟩)
    | tooLong =>
      refine Or.inr (Or.inr ⟨rfl, ?_⟩)
      intro hlimit
      have hsame := (hs.write_of_keepsLimit hlimit).symm.trans hwrite
      cases hbuild : s.build with
      | ok score => simp [hbuild] at hsame
      | error e => simp [hbuild] at hsame

end Snapshot.WellFormed

namespace CommandLine

namespace Session

/-! ## The log -/

/-- An error is in the log. -/
def ReportsError (log : List Notice) : Prop :=
  ∃ n ∈ log, n.level = .error

/-- Errors are shown at any level of detail. -/
theorem reportsError_shown (verbose : Bool) (log : List Notice) {n : Notice} (h : n.level = .error) :
    ReportsError (shown verbose (log ++ [n])) := by
  refine ⟨n, ?_, h⟩
  refine List.mem_filter.2 ⟨List.mem_append_right _ (List.mem_singleton.2 rfl), ?_⟩
  simp [h]

/-! ## The last stage -/

/-- How a session may end that has read a snapshot: it is printed, or its instrument is odd, something in it is too long
or the console does not take its program. -/
inductive Concludes (console : Console) (s : Snapshot) : Ending → Prop where
  | printed {score : Score} {log : List Notice} (built : s.build = .ok score)
      (plain : ¬ Program.IsOddInstrument s.options.instrument) (short : s.KeepsLimit)
      (taken : console score.program = none) : Concludes console s (.finished 0 (score.program ++ "\n") log)
  | oddInstrument (odd : Program.IsOddInstrument s.options.instrument) :
      Concludes console s (.failed (.build (.instrumentNotText s.options.instrument.typeName)))
  | tooLong (long : ¬ s.KeepsLimit) : Concludes console s (.failed .tooLong)
  | unprintable {score : Score} {reason : String} (built : s.build = .ok score) (short : s.KeepsLimit)
      (untaken : console score.program = some reason) : Concludes console s (.failed (.unprintable reason))

section Conclude

variable {console : Console} {verbose : Bool} {log : List Notice} {reading : Reading Snapshot} {s : Snapshot}

theorem exists_log_of_error {e : WritingError SnapshotError} (h : reading.written = .error e) :
    ∃ log', conclude console verbose log reading = .finished 1 [] log' ∧ ReportsError log' := by
  let refusal : Notice := .invalidSnapshot (e.message SnapshotError.message)
  refine ⟨shown verbose (log ++ reading.writtenNotices ++ [refusal]), ?_, reportsError_shown verbose _ rfl⟩
  unfold conclude
  simp only [h]
  rfl

theorem concludes_of_written (hs : s.WellFormed) (h : reading.written = .ok s) :
    Concludes console s (conclude console verbose log reading) := by
  unfold conclude
  simp only [h]
  rcases hs.write_cases with ⟨score, hwrite, hbuild, hplain, hlimit⟩ | ⟨hwrite, hodd⟩ | ⟨hwrite, hlong⟩
  · simp only [hwrite]
    split
    case isTrue hbars =>
      cases hconsole : console score.program with
      | none => exact .printed hbuild hplain ⟨hbars, hlimit⟩ hconsole
      | some reason => exact .unprintable hbuild ⟨hbars, hlimit⟩ hconsole
    case isFalse hbars => exact .tooLong fun hkeeps => hbars hkeeps.1
  · simp only [hwrite]
    exact .oddInstrument hodd
  · simp only [hwrite]
    exact .tooLong hlong

end Conclude

/-! ## What is read -/

/-- A session gets as far as a snapshot: both files are read, the options are merged and the whole is decoded. -/
inductive Reads (files : Files) (loader : Loader) (request : Arguments) (s : Snapshot) : Prop where
  | read {name : Text} {log noticed : List Notice} {config sections : Mapping}
      (named : request.config = some name) (options : readConfig files loader name = .ok (log, config))
      (snapshot : readSections files loader request.snapshot = .entries noticed sections)
      (merged : (mergedSnapshot request config sections).written = .ok s)

/-- What a session does not expect, and the failure in which it ends then. -/
inductive Unexpected (files : Files) (loader : Loader) (console : Console) (request : Arguments) : Failure → Prop where
  /-- The option for the option file is left with no value. -/
  | unnamed (h : request.config = none) : Unexpected files loader console request .noConfigName
  /-- The option file is there and has no text: it is a directory, it cannot be opened or its bytes are none. -/
  | configFile {name : Text} {e : FileError} (named : request.config = some name) (h : files name = .error e)
      (there : e.isThere = true) : Unexpected files loader console request (.configFile name e)
  /-- The option file is no document. -/
  | noDocument {name : Text} {text : String} {e : DocumentError} (named : request.config = some name)
      (found : files name = .ok text) (h : loader text = .error e) :
      Unexpected files loader console request (.document e)
  /-- In the file of the snapshot there is a number out of range. -/
  | outOfRange {name : Text} {text reason : String} {options : List Notice × Mapping}
      (named : request.config = some name) (read : readConfig files loader name = .ok options)
      (found : files request.snapshot = .ok text) (h : loader text = .error (.outOfRange reason)) :
      Unexpected files loader console request (.document (.outOfRange reason))
  /-- The instrument of the snapshot is given as something other than a text. -/
  | oddInstrument {s : Snapshot} (read : Reads files loader request s)
      (h : Program.IsOddInstrument s.options.instrument) :
      Unexpected files loader console request (.build (.instrumentNotText s.options.instrument.typeName))
  /-- What is to be written of the snapshot does not keep to the limit on numerals. -/
  | tooLong {s : Snapshot} (read : Reads files loader request s) (h : ¬ s.KeepsLimit) :
      Unexpected files loader console request .tooLong
  /-- The console does not take the program of the snapshot. -/
  | unprintable {s : Snapshot} {score : Score} {reason : String} (read : Reads files loader request s)
      (built : s.build = .ok score) (short : s.KeepsLimit) (h : console score.program = some reason) :
      Unexpected files loader console request (.unprintable reason)

section Stages

variable {files : Files} {loader : Loader} {console : Console} {request : Arguments} {s : Snapshot} {name : Text}

/-- Whatever a session reads has been decoded, so it is well-formed. -/
theorem wellFormed_of_merged {config sections : Mapping}
    (h : (mergedSnapshot request config sections).written = .ok s) : s.WellFormed := by
  obtain ⟨output, _, hread⟩ := Reading.outcome_bind_eq_ok (Reading.outcome_of_written h)
  exact Snapshot.gives_wellFormed _ s hread

/-- An option file is read, or it is there and has no text, or it is no document. -/
theorem readConfig_cases (files : Files) (loader : Loader) (name : Text) :
    (∃ options, readConfig files loader name = .ok options) ∨
      (∃ e, files name = .error e ∧ e.isThere = true ∧
        readConfig files loader name = .error (.configFile name e)) ∨
      ∃ text e, files name = .ok text ∧ loader text = .error e ∧
        readConfig files loader name = .error (.document e) := by
  unfold readConfig
  cases hfile : files name with
  | error e =>
    cases hthere : e.isThere with
    | true => exact Or.inr (Or.inl ⟨e, rfl, hthere, by simp only [hthere, if_true]⟩)
    | false => exact Or.inl ⟨_, by simp only [hthere]; rfl⟩
  | ok text =>
    cases hload : loader text with
    | error e => exact Or.inr (Or.inr ⟨text, e, rfl, hload, by simp only [hload]⟩)
    | ok document =>
      -- a document that is no mapping is as good as none
      refine Or.inl ?_
      simp only [hload]
      split
      · exact ⟨_, rfl⟩
      · cases document with
        | mapping entries => exact ⟨_, rfl⟩
        | _ => exact ⟨_, rfl⟩

/-- The file of a snapshot has sections, or there is a reason that is reported, or a number is out of range. -/
theorem readSections_cases (files : Files) (loader : Loader) (name : Text) :
    (∃ noticed sections, readSections files loader name = .entries noticed sections) ∨
      (∃ reason, readSections files loader name = .unreadable reason) ∨
      ∃ text reason, files name = .ok text ∧ loader text = .error (.outOfRange reason) ∧
        readSections files loader name = .failed (.document (.outOfRange reason)) := by
  unfold readSections
  cases hfile : files name with
  | error e => exact Or.inr (Or.inl ⟨_, rfl⟩)
  | ok text =>
    cases hload : loader text with
    | error e =>
      cases e with
      | outOfRange reason => exact Or.inr (Or.inr ⟨text, reason, rfl, hload, by simp only [hload]⟩)
      | _ => exact Or.inr (Or.inl ⟨_, by simp only [hload]; rfl⟩)
    | ok document =>
      simp only [hload]
      cases houtcome : (Snapshot.sections name document).outcome with
      | error e => exact Or.inr (Or.inl ⟨_, rfl⟩)
      | ok entries => exact Or.inl ⟨_, _, rfl⟩

/-- With a snapshot at hand, only the last stage is left. -/
theorem concludes_of_reads (h : Reads files loader request s) :
    Concludes console s (act files loader console request) := by
  rcases h with ⟨named, options, snapshot, merged⟩
  simp only [act, named, actWith, options, snapshot]
  exact concludes_of_written (wellFormed_of_merged merged) merged

/-- Whatever the files are, a session fails for a reason that is listed, reports an error or prints a program. -/
theorem act_cases (files : Files) (loader : Loader) (console : Console) (request : Arguments) :
    (∃ cause, act files loader console request = .failed cause ∧ Unexpected files loader console request cause) ∨
      (∃ log, act files loader console request = .finished 1 [] log ∧ ReportsError log) ∨
      ∃ s score log, act files loader console request = .finished 0 (score.program ++ "\n") log ∧
        Reads files loader request s ∧ s.build = .ok score := by
  cases hname : request.config with
  | none => exact Or.inl ⟨_, by simp only [act, hname], .unnamed hname⟩
  | some name =>
    rcases readConfig_cases files loader name with ⟨⟨log, config⟩, hconfig⟩ | ⟨e, hfile, hthere, hconfig⟩ |
      ⟨text, e, hfile, hload, hconfig⟩
    · rcases readSections_cases files loader request.snapshot with ⟨noticed, sections, hsections⟩ |
        ⟨reason, hsections⟩ | ⟨text, reason, hfile, hload, hsections⟩
      · cases hmerged : (mergedSnapshot request config sections).written with
        | error e =>
          obtain ⟨log', hconclude, hreports⟩ :=
            @exists_log_of_error console request.verbose (log ++ noticed) _ e hmerged
          refine Or.inr (Or.inl ⟨log', ?_, hreports⟩)
          simpa only [act, hname, actWith, hconfig, hsections] using hconclude
        | ok s =>
          -- from here on the snapshot decides
          have hreads : Reads files loader request s := .read hname hconfig hsections hmerged
          generalize hact : act files loader console request = ending
          have hends : Concludes console s ending := hact ▸ concludes_of_reads hreads
          cases hends with
          | printed built _ _ _ => exact Or.inr (Or.inr ⟨s, _, _, rfl, hreads, built⟩)
          | oddInstrument odd => exact Or.inl ⟨_, rfl, .oddInstrument hreads odd⟩
          | tooLong long => exact Or.inl ⟨_, rfl, .tooLong hreads long⟩
          | unprintable built short untaken => exact Or.inl ⟨_, rfl, .unprintable hreads built short untaken⟩
      · let report : Notice := .unreadableSnapshot request.snapshot reason
        refine Or.inr (Or.inl ⟨shown request.verbose (log ++ [report]), ?_, reportsError_shown _ log rfl⟩)
        simp only [act, hname, actWith, hconfig, hsections, report]
      · refine Or.inl ⟨_, ?_, .outOfRange hname hconfig hfile hload⟩
        simp only [act, hname, actWith, hconfig, hsections]
    · refine Or.inl ⟨_, ?_, .configFile hname hfile hthere⟩
      simp only [act, hname, actWith, hconfig]
    · refine Or.inl ⟨_, ?_, .noDocument hname hfile hload⟩
      simp only [act, hname, actWith, hconfig]

/-- What is not expected is not dealt with either. -/
theorem failed_of_unexpected {cause : Failure} (h : Unexpected files loader console request cause) :
    ∃ cause, act files loader console request = .failed cause := by
  cases h with
  | unnamed hname =>
    refine ⟨.noConfigName, ?_⟩
    simp only [act, hname]
  | @configFile name e named hfile hthere =>
    refine ⟨.configFile name e, ?_⟩
    simp only [act, named, actWith, readConfig, hfile, hthere, if_true]
  | @noDocument _ _ e named found hload =>
    refine ⟨.document e, ?_⟩
    simp only [act, named, actWith, readConfig, found, hload]
  | @outOfRange _ _ reason _ named read found hload =>
    refine ⟨.document (.outOfRange reason), ?_⟩
    simp only [act, named, actWith, read, readSections, found, hload]
  -- in the other cases a snapshot has been read, and it is not printed
  | oddInstrument read hodd =>
    generalize hact : act files loader console request = ending
    have hends := hact ▸ @concludes_of_reads _ _ console _ _ read
    cases hends with
    | printed _ plain _ _ => exact absurd hodd plain
    | _ => exact ⟨_, rfl⟩
  | tooLong read hlong =>
    generalize hact : act files loader console request = ending
    have hends := hact ▸ @concludes_of_reads _ _ console _ _ read
    cases hends with
    | printed _ _ short _ => exact absurd short hlong
    | _ => exact ⟨_, rfl⟩
  | unprintable read hbuilt _ huntaken =>
    generalize hact : act files loader console request = ending
    have hends := hact ▸ @concludes_of_reads _ _ console _ _ read
    cases hends with
    | printed built _ _ taken =>
      obtain rfl := Except.ok.inj (built.symm.trans hbuilt)
      cases taken.symm.trans huntaken
    | _ => exact ⟨_, rfl⟩

end Stages

end Session

open Session

/-- A program whose instrument is a surrogate is written, and the console does not take it. -/
example : run (Directory.read [("piece.yaml", "output: \x7binstrument: \"\\uD800\"\x7d")]) Yaml.loader Console.utf8
    ["piece.yaml"] = .failed (.unprintable
      "'utf-8' codec can't encode character '\\ud800' in position 25: surrogates not allowed") := by
  decide +kernel

end CommandLine

end Barline
