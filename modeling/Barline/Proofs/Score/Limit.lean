import Barline.Proofs.Timeline.Report
import Barline.Proofs.Writing
import Mathlib.Tactic.Positivity

/-!
# The limit — which scores can be written

Points that are played at least once, on a grid of at least one beat, always have a timeline, and with options of the
right types they have a score. It is another question whether the score can be written: what is dropped from the
timeline is reported, and the repeats and the cells are printed. `Score.KeepsLimit` says that all numbers in these can
be.

* `Score.build_eq_ofTimeline` says what the score of some points is.
* `Score.Written` is what making a score comes to: the score, or the fault in its place.
* `Score.written_of_build` says that every score is written in this sense.
-/

namespace Barline

/-! ## From points to a timeline -/

namespace Point

/-- Points that are played at least once are played out. -/
theorem expandAll_eq {points : List Point} (h : ∀ p ∈ points, 1 ≤ p.repeats) :
    expandAll points = .ok (points.flatMap occurrences) := by
  induction points with
  | nil => rfl
  | cons p rest ih =>
    have hp : p.expand = .ok p.occurrences := by
      rw [expand, if_neg (not_lt.2 (h p (List.mem_cons_self ..)))]
    have hrest := ih (fun q hq => h q (List.mem_cons_of_mem p hq))
    rw [expandAll, hp, hrest]
    rfl

/-- Only points that are played at least once are played out. -/
theorem repeats_of_expandAll {points : List Point} {events : List Event} (h : expandAll points = .ok events) :
    ∀ p ∈ points, 1 ≤ p.repeats := by
  induction points generalizing events with
  | nil => simp
  | cons p rest ih =>
    by_cases hp : p.repeats < 1
    · simp [expandAll, expand, hp, bind, Except.bind] at h
    · cases hrest : expandAll rest with
      | error e => simp [expandAll, expand, hp, hrest, bind, Except.bind] at h
      | ok more => simpa using ⟨not_lt.1 hp, ih hrest⟩

/-- Two points that start together, the first of them too short to be reported. -/
def sliverTie : List Point :=
  [{ start := 0, duration := Literal.sliver, notes := [{}] }, { start := 0, duration := 1, notes := [{}] }]

theorem not_reportable_sliverTie {total : Rat} (h : 0 < total) :
    ¬ Event.Reportable (sliverTie.flatMap occurrences) total := by
  have hstart : ∀ p ∈ sliverTie, p.onset 0 = 0 := by
    simp [sliverTie, onset]
  have hfirst := hstart _ (List.mem_cons_self ..)
  have hsecond := hstart _ (List.mem_cons_of_mem _ (List.mem_cons_self ..))
  exact @Event.not_reportable_of_tie (sliverTie.flatMap occurrences) total 0 1 _ _ rfl rfl
    (hsecond.trans hfirst.symm) Literal.sliver_lt_one (hfirst.trans_lt h) Literal.isWritable_sliver

end Point

theorem Settings.total_pos {s : Settings} (hbeats : 1 ≤ s.beatsPerBar) (hbars : 1 ≤ s.bars) :
    0 < s.total := by
  have hproduct : 0 < s.beatsPerBar * s.bars := by positivity
  rw [Settings.total]
  exact_mod_cast hproduct

/-- The timeline of points carries what sounds among their repeats. -/
theorem Timeline.exists_ofPoints {points : List Point} {settings : Settings}
    (hpoints : ∀ p ∈ points, 1 ≤ p.repeats) (hbeats : 1 ≤ settings.beatsPerBar)
    (hbars : 1 ≤ settings.bars) :
    ∃ timeline, Timeline.ofPoints points settings = .ok timeline ∧
      Chunk.Fill (Event.sounding (Event.sort (points.flatMap Point.occurrences))) 0 settings.total
        timeline.chunks := by
  rcases exists_fill (points.flatMap Point.occurrences) (Settings.total_pos hbeats hbars) with
    ⟨timeline, hfill, hchunks⟩
  refine ⟨timeline, ?_, hchunks⟩
  rw [Timeline.ofPoints, Point.expandAll_eq hpoints]
  exact hfill

/-- The timeline of points fills the grid with their repeats. -/
theorem Timeline.fill_of_ofPoints {points : List Point} {settings : Settings} {timeline : Timeline}
    (h : Timeline.ofPoints points settings = .ok timeline) :
    Timeline.fill (points.flatMap Point.occurrences) settings.total = .ok timeline := by
  unfold Timeline.ofPoints at h
  cases hexpand : Point.expandAll points with
  | error e => simp [hexpand, bind, Except.bind] at h
  | ok events =>
    have hevents := Point.expandAll_eq (Point.repeats_of_expandAll hexpand)
    obtain rfl := Except.ok.inj (hevents.symm.trans hexpand)
    simpa [hexpand, bind, Except.bind] using h

/-- Points that are played out in the order of the layout are placed as they come. -/
theorem Timeline.ofPoints_of_sorted {points : List Point} {settings : Settings}
    (hpoints : ∀ p ∈ points, 1 ≤ p.repeats) (htotal : 0 < settings.total)
    (hsorted : (points.flatMap Point.occurrences).Pairwise fun a b => Event.precedes a b = true) :
    Timeline.ofPoints points settings =
      .ok ⟨settings.total, Barline.placements settings.total 0 (points.flatMap Point.occurrences)⟩ := by
  have hsort : Event.sort (points.flatMap Point.occurrences) = points.flatMap Point.occurrences :=
    List.mergeSort_of_pairwise hsorted
  have hfill := Timeline.fill_of_pos (points.flatMap Point.occurrences) htotal
  rw [hsort] at hfill
  rw [Timeline.ofPoints, Point.expandAll_eq hpoints]
  exact hfill

/-! ## From a timeline to a score -/

/-- The instrument is a text, the loop count is a whole number, and either may be left out. -/
structure Program.Options.WellTyped (o : Program.Options) : Prop where
  instrument : o.instrument = .null ∨ ∃ t, o.instrument = .text t
  loopCount : o.loopCount = .null ∨ ∃ n, o.loopCount = .int n

namespace Program

variable {options : Options}

theorem exists_instrumentToken (h : options.WellTyped) :
    ∃ instrument, instrumentToken options.instrument = .ok instrument := by
  rcases h.instrument with hnull | ⟨t, ht⟩
  · exact ⟨symbol [], by rw [hnull]; rfl⟩
  · rw [ht, instrumentToken]
    split
    · exact ⟨_, rfl⟩
    · exact ⟨_, rfl⟩

theorem exists_repeatsToken (h : options.WellTyped) :
    ∃ repeats, repeatsToken options.loopCount = .ok repeats := by
  rcases h.loopCount with hnull | ⟨n, hn⟩
  · exact ⟨endless, by rw [hnull]; rfl⟩
  · exact ⟨_, by rw [hn]; rfl⟩

theorem render_eq {voices : Voices} {instrument : Text} {repeats : String}
    (hrepeats : repeatsToken options.loopCount = .ok repeats)
    (hinstrument : instrumentToken options.instrument = .ok instrument) :
    render voices options = .ok (layout instrument repeats (!options.compress.isVoid) voices) := by
  rw [render, hrepeats, hinstrument]
  rfl

end Program

namespace Score

/-- The score of a timeline, with instrument, repeats and compression chosen. -/
def ofTimeline (timeline : Timeline) (instrument : Text) (repeats : String) (compressed : Bool) : Score :=
  ⟨timeline, Voices.ofChunks timeline.chunks,
    Program.layout instrument repeats compressed (Voices.ofChunks timeline.chunks)⟩

variable {points : List Point} {settings : Settings} {options : Program.Options}
  {timeline : Timeline} {instrument : Text} {repeats : String}

/-- With the timeline at hand, only the options decide whether there is a score. -/
theorem build_eq (h : Timeline.ofPoints points settings = .ok timeline) :
    build points settings options =
      (Program.render (Voices.ofChunks timeline.chunks) options).map
        (⟨timeline, Voices.ofChunks timeline.chunks, ·⟩) := by
  rw [build, h]
  cases hprogram : Program.render (Voices.ofChunks timeline.chunks) options with
  | error e => simp [bind, Except.bind, Except.map, hprogram]
  | ok program => simp [bind, Except.bind, Except.map, pure, Except.pure, hprogram]

/-- With the timeline at hand, its reports are written first and then the program. -/
theorem write_eq (h : Timeline.ofPoints points settings = .ok timeline) :
    write points settings options = do
      WritingError.require (timeline.notices.all Notice.isWritable)
      let program ← Program.write (Voices.ofChunks timeline.chunks) options
      return ⟨timeline, Voices.ofChunks timeline.chunks, program⟩ := by
  rw [write, Timeline.writePoints_eq, h]
  cases hnotices : timeline.notices.all Notice.isWritable with
  | false => simp [hnotices, bind, Except.bind]
  | true => simp [hnotices, bind, Except.bind]

theorem build_eq_ofTimeline (h : Timeline.ofPoints points settings = .ok timeline)
    (hrepeats : Program.repeatsToken options.loopCount = .ok repeats)
    (hinstrument : Program.instrumentToken options.instrument = .ok instrument) :
    build points settings options =
      .ok (ofTimeline timeline instrument repeats (!options.compress.isVoid)) := by
  rw [build_eq h, Program.render_eq hrepeats hinstrument]
  rfl

theorem timeline_of_build {score : Score} (h : Timeline.ofPoints points settings = .ok timeline)
    (hbuild : build points settings options = .ok score) : score.timeline = timeline := by
  rw [build_eq h] at hbuild
  cases hprogram : Program.render (Voices.ofChunks timeline.chunks) options with
  | error e => simp [hprogram, Except.map] at hbuild
  | ok program =>
    simp only [hprogram, Except.map, Except.ok.injEq] at hbuild
    rw [← hbuild]

/-- A score is made of a timeline, and its program is that of the voices of the timeline. -/
theorem ofPoints_of_build {score : Score} (hbuild : build points settings options = .ok score) :
    Timeline.ofPoints points settings = .ok score.timeline ∧ score.voices = Voices.ofChunks score.timeline.chunks ∧
      Program.render score.voices options = .ok score.program := by
  cases htimeline : Timeline.ofPoints points settings with
  | error e =>
    rw [build, htimeline] at hbuild
    cases hbuild
  | ok timeline =>
    rw [build_eq htimeline] at hbuild
    cases hprogram : Program.render (Voices.ofChunks timeline.chunks) options with
    | error e => simp [hprogram, Except.map] at hbuild
    | ok program =>
      simp only [hprogram, Except.map, Except.ok.injEq] at hbuild
      obtain rfl := hbuild
      exact ⟨rfl, rfl, hprogram⟩

end Score

/-! ## Writing within the limit -/

namespace Program

variable {voices : Voices} {text : Text}

/-- Whether the repeats and the cells of a program can be written. -/
def isWritable (voices : Voices) (options : Options) : Bool :=
  repeatsAreWritable options.loopCount && Voice.all.all fun v => (voices v).all Cell.isWritable

/-- Within the limit, a program is written as it was laid out, or refused for the same cause. -/
theorem write_eq_render (h : isWritable voices options = true) :
    write voices options = (render voices options).mapError .cause := by
  rw [isWritable, Bool.and_eq_true] at h
  unfold write writeRepeats render
  cases hloop : repeatsToken options.loopCount with
  | error e => rfl
  | ok repeats =>
    cases hinstrument : instrumentToken options.instrument with
    | error e => simp [h.1, bind, Except.bind]
    | ok instrument => simp [h.1, h.2, bind, Except.bind, pure, Except.pure]

/-- A program that is laid out is written, unless it does not keep to the limit. -/
theorem write_of_render (h : render voices options = .ok text) :
    write voices options = WritingError.limited (isWritable voices options) text := by
  cases hwritable : isWritable voices options with
  | true =>
    rw [write_eq_render hwritable, h]
    rfl
  | false =>
    rw [isWritable, Bool.and_eq_false_iff] at hwritable
    unfold render at h
    unfold write writeRepeats
    cases hloop : repeatsToken options.loopCount with
    | error e => simp [hloop, bind, Except.bind] at h
    | ok repeats =>
      cases hrepeats : repeatsAreWritable options.loopCount with
      | false => rfl
      | true =>
        have hcells := hwritable.resolve_left (by simp [hrepeats])
        cases hinstrument : instrumentToken options.instrument with
        | error e => simp [hloop, hinstrument, bind, Except.bind] at h
        | ok instrument => simp [hcells, bind, Except.bind]

end Program

namespace Score

/-- All that is written of a score with the given voices keeps to the limit on numerals: the reports of what is dropped
from the timeline of its points, the repeats and the cells. -/
structure KeepsLimit (points : List Point) (settings : Settings) (options : Program.Options) (voices : Voices) :
    Prop where
  reports : Event.Reportable (points.flatMap Point.occurrences) settings.total
  repeats : Program.repeatsAreWritable options.loopCount = true
  cells : ∀ v, (voices v).all Cell.isWritable = true

/-- What making the score of some points comes to: the score, or the fault in its place if a number is too long. -/
structure Written (score : Score) (points : List Point) (settings : Settings) (options : Program.Options) : Prop where
  written : KeepsLimit points settings options score.voices → write points settings options = .ok score
  tooLong : ¬ KeepsLimit points settings options score.voices → write points settings options = .error .tooLong

variable {points : List Point} {settings : Settings} {options : Program.Options} {timeline : Timeline}
  {voices : Voices} {score : Score}

theorem keepsLimit_iff (h : Timeline.ofPoints points settings = .ok timeline) :
    KeepsLimit points settings options voices ↔
      timeline.notices.all Notice.isWritable = true ∧ Program.isWritable voices options = true := by
  have hcells : (∀ v, (voices v).all Cell.isWritable = true) ↔
      (Voice.all.all fun v => (voices v).all Cell.isWritable) = true := by
    rw [List.all_eq_true]
    exact ⟨fun h v _ => h v, fun h v => h v (by cases v <;> decide)⟩
  rw [Timeline.all_notices_iff (Timeline.fill_of_ofPoints h), Program.isWritable, Bool.and_eq_true, ← hcells]
  exact ⟨fun h => ⟨h.reports, h.repeats, h.cells⟩, fun h => ⟨h.1, h.2.1, h.2.2⟩⟩

/-- Within the limit, a score is written as it was built, or refused for the same cause. -/
theorem write_eq_build (h : Timeline.ofPoints points settings = .ok timeline)
    (hlimit : KeepsLimit points settings options (Voices.ofChunks timeline.chunks)) :
    write points settings options = (build points settings options).mapError .cause := by
  obtain ⟨hnotices, hprogram⟩ := (keepsLimit_iff h).1 hlimit
  rw [write_eq h, build_eq h, hnotices, Program.write_eq_render hprogram]
  cases Program.render (Voices.ofChunks timeline.chunks) options with
  | error e => rfl
  | ok program => rfl

theorem written_of_build (h : build points settings options = .ok score) :
    score.Written points settings options := by
  obtain ⟨htimeline, hvoices, hrender⟩ := ofPoints_of_build h
  constructor
  · intro hlimit
    rw [hvoices] at hlimit
    rw [write_eq_build htimeline hlimit, h]
    rfl
  · intro hlong
    rw [keepsLimit_iff htimeline, not_and, Bool.not_eq_true] at hlong
    rw [hvoices] at hlong hrender
    rw [write_eq htimeline]
    cases hnotices : score.timeline.notices.all Notice.isWritable with
    | false => rfl
    | true =>
      rw [Program.write_of_render hrender, hlong hnotices]
      rfl

/-- The score of points that are played out in the order of the layout, if it keeps to the limit. -/
theorem write_of_sorted {instrument : Text} {repeats : String} (hpoints : ∀ p ∈ points, 1 ≤ p.repeats)
    (htotal : 0 < settings.total)
    (hsorted : (points.flatMap Point.occurrences).Pairwise fun a b => Event.precedes a b = true)
    (hrepeats : Program.repeatsToken options.loopCount = .ok repeats)
    (hinstrument : Program.instrumentToken options.instrument = .ok instrument)
    (hnotices : (noticesFrom settings.total 0 (points.flatMap Point.occurrences)).all Notice.isWritable = true)
    (hprogram : Program.isWritable
      (Voices.ofChunks (chunksFrom settings.total 0 (points.flatMap Point.occurrences))) options = true) :
    write points settings options =
      .ok (ofTimeline ⟨settings.total, placements settings.total 0 (points.flatMap Point.occurrences)⟩ instrument
        repeats (!options.compress.isVoid)) := by
  have htimeline := Timeline.ofPoints_of_sorted hpoints htotal hsorted
  have hwritten := written_of_build (build_eq_ofTimeline htimeline hrepeats hinstrument)
  exact hwritten.written ((keepsLimit_iff htimeline).2 ⟨hnotices, hprogram⟩)

/-- The reports come first: if one of them cannot be written, then there is no score, whatever the options are. -/
theorem write_eq_tooLong (h : Timeline.ofPoints points settings = .ok timeline)
    (hlong : ¬ Event.Reportable (points.flatMap Point.occurrences) settings.total) :
    write points settings options = .error .tooLong := by
  rw [← Timeline.all_notices_iff (Timeline.fill_of_ofPoints h), Bool.not_eq_true] at hlong
  rw [write_eq h, hlong]
  rfl

/-- If any score is written, it is this one. -/
theorem Written.eq_of_write {other : Score} (h : score.Written points settings options)
    (hwrite : write points settings options = .ok other) : score = other := by
  by_cases hlimit : KeepsLimit points settings options score.voices
  · exact Except.ok.inj ((h.written hlimit).symm.trans hwrite)
  · cases (h.tooLong hlimit).symm.trans hwrite

/-- Two points that start together have no score, if the shorter one is too short to be reported. -/
theorem write_sliverTie (hbeats : 1 ≤ settings.beatsPerBar) (hbars : 1 ≤ settings.bars) (options : Program.Options) :
    write Point.sliverTie settings options = .error .tooLong := by
  have hpoints : ∀ p ∈ Point.sliverTie, 1 ≤ p.repeats := by decide
  rcases Timeline.exists_ofPoints hpoints hbeats hbars with ⟨timeline, htimeline, _⟩
  exact write_eq_tooLong htimeline (Point.not_reportable_sliverTie (Settings.total_pos hbeats hbars))

theorem not_exists_write_sliverTie (hbeats : 1 ≤ settings.beatsPerBar) (hbars : 1 ≤ settings.bars)
    (options : Program.Options) : ¬ ∃ score, write Point.sliverTie settings options = .ok score := by
  rintro ⟨score, hwrite⟩
  cases (write_sliverTie hbeats hbars options).symm.trans hwrite

/-- A score that is written keeps to the limit. -/
theorem keepsLimit_of_write (h : write points settings options = .ok score) :
    KeepsLimit points settings options score.voices := by
  by_contra hlong
  cases ((written_of_build (build_of_write h)).tooLong hlong).symm.trans h

end Score

end Barline
