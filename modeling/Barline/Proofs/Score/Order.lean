import Barline.Proofs.Score.Limit
import Barline.Proofs.Voice.Related

/-!
# Order — points may come in any order

Points are played out one after the other, so permuted points give permuted events, and of these only ties can tell the
order in which they came. Where tied events are equal, so is everything that is built of them, cell by cell. The program
is the same text only if they are also written alike, as equal numbers need not be: a half has one text as a double and
another as a quotient.

* `Program.write_congr` and `Score.write_of_perm` say that both orders have a score or neither has one.
* `input_order_matters_for_ties_only` is about timelines and scores.
* `half_as_double_and_quotient_change_places` is the program that is not the same.
-/

namespace Barline

/-- Permuted points are played out as permuted events. -/
theorem Point.exists_expandAll_perm {points points' : List Point} {events : List Event} (h : points.Perm points')
    (hexpand : expandAll points = .ok events) :
    ∃ events', expandAll points' = .ok events' ∧ events.Perm events' := by
  have hrepeats := repeats_of_expandAll hexpand
  have hrepeats' : ∀ p ∈ points', 1 ≤ p.repeats := fun p hp => hrepeats p (h.mem_iff.2 hp)
  obtain rfl : points.flatMap occurrences = events :=
    Except.ok.inj ((expandAll_eq hrepeats).symm.trans hexpand)
  exact ⟨points'.flatMap occurrences, expandAll_eq hrepeats', h.flatMap_right occurrences⟩

/-- Voices of which the cells can be written alike are written or refused together, by the options and the limit
alone. -/
theorem Program.write_congr {voices voices' : Voices} {options : Options}
    (h : ∀ v, (voices v).all Cell.isWritable = (voices' v).all Cell.isWritable) :
    (∃ e, write voices options = .error e ∧ write voices' options = .error e) ∨
      ∃ instrument repeats compressed, write voices options = .ok (layout instrument repeats compressed voices) ∧
        write voices' options = .ok (layout instrument repeats compressed voices') := by
  have hcells : (Voice.all.all fun v => (voices v).all Cell.isWritable) =
      Voice.all.all fun v => (voices' v).all Cell.isWritable := by simp only [h]
  unfold write
  cases hrepeats : writeRepeats options.loopCount with
  | error e => exact Or.inl ⟨e, rfl, rfl⟩
  | ok repeats =>
    cases hinstrument : (instrumentToken options.instrument).mapError WritingError.cause with
    | error e => exact Or.inl ⟨e, rfl, rfl⟩
    | ok instrument =>
      rw [hcells]
      cases Voice.all.all fun v => (voices' v).all Cell.isWritable with
      | false => exact Or.inl ⟨.tooLong, rfl, rfl⟩
      | true => exact Or.inr ⟨instrument, repeats, _, rfl, rfl⟩

/-- Permuted points of which tied events are equal have a score together or not at all, and then the scores have
corresponding timelines and programs of one layout. -/
theorem Score.write_of_perm {points points' : List Point} {events : List Event} (h : points.Perm points')
    (hexpand : Point.expandAll points = .ok events) (hties : Event.TiesAgree Event.Equal events) (settings : Settings)
    (options : Program.Options) :
    (∃ e, write points settings options = .error e ∧ write points' settings options = .error e) ∨
      ∃ timeline timeline' instrument repeats compressed,
        write points settings options = .ok (ofTimeline timeline instrument repeats compressed) ∧
        write points' settings options = .ok (ofTimeline timeline' instrument repeats compressed) ∧
        ∀ agree, Event.TiesAgree agree events →
          List.Forall₂ (Chunk.Corresponds agree) timeline.chunks timeline'.chunks := by
  rcases Point.exists_expandAll_perm h hexpand with ⟨events', hexpand', hperm⟩
  have hpoints : Timeline.ofPoints points settings = Timeline.fill events settings.total := by
    rw [Timeline.ofPoints, hexpand]
    rfl
  have hpoints' : Timeline.ofPoints points' settings = Timeline.fill events' settings.total := by
    rw [Timeline.ofPoints, hexpand']
    rfl
  by_cases htotal : settings.total ≤ 0
  · rw [write, write, Timeline.writePoints_eq, Timeline.writePoints_eq, hpoints, hpoints', Timeline.fill, Timeline.fill,
      if_pos htotal, if_pos htotal]
    exact Or.inl ⟨_, rfl, rfl⟩
  rcases exists_fill events (not_le.1 htotal) with ⟨timeline, hfill, _⟩
  rcases exists_fill events' (not_le.1 htotal) with ⟨timeline', hfill', _⟩
  have hchunks : ∀ agree, Event.TiesAgree agree events →
      List.Forall₂ (Chunk.Corresponds agree) timeline.chunks timeline'.chunks :=
    fun agree hagree => Timeline.forall₂_chunks_of_perm hperm hagree hfill hfill'
  -- the reports are the same, and equal cells can be written together or not at all
  have hnotices := Timeline.notices_of_perm hperm hfill hfill'
  have hcells : ∀ v, (Voices.ofChunks timeline.chunks v).all Cell.isWritable =
      (Voices.ofChunks timeline'.chunks v).all Cell.isWritable := by
    intro v
    have hvoice := Voices.forall₂_ofChunks Value.Equal.same (hchunks _ hties) v
    rw [Voice.related_self] at hvoice
    exact Cell.all_isWritable_eq hvoice
  rw [write_eq (hpoints.trans hfill), write_eq (hpoints'.trans hfill'), hnotices]
  cases timeline'.notices.all Notice.isWritable with
  | false => exact Or.inl ⟨.tooLong, rfl, rfl⟩
  | true =>
    rcases @Program.write_congr _ _ options hcells with
      ⟨e, he, he'⟩ | ⟨instrument, repeats, compressed, hwrite, hwrite'⟩
    · rw [he, he']
      exact Or.inl ⟨e, rfl, rfl⟩
    · rw [hwrite, hwrite']
      exact Or.inr ⟨timeline, timeline', instrument, repeats, compressed, rfl, rfl, hchunks⟩

/-- Where tied events are the same, so are the scores. -/
theorem Score.write_congr {points points' : List Point} {events : List Event} (h : points.Perm points')
    (hexpand : Point.expandAll points = .ok events) (hties : Event.TiesAgree Eq events) (settings : Settings)
    (options : Program.Options) : write points settings options = write points' settings options := by
  rcases Point.exists_expandAll_perm h hexpand with ⟨events', hexpand', hperm⟩
  have htimeline : Timeline.writePoints points settings = Timeline.writePoints points' settings := by
    simpa only [Timeline.writePoints, hexpand, hexpand', WritingError.mapError_ok, bind, Except.bind] using
      Timeline.write_congr hperm hties
  rw [write, write, htimeline]

/-- The order of the input matters for ties only. Permuted events are laid out in as many chunks, of the same lengths
and the same kinds, whatever the ties are, or neither of the two can be reported. If tied events agree in any respect,
the chunks of the two timelines agree in it one by one, and if they are the same, so are the timelines. The scores of
permuted points of which tied events are equal have equal voices, for all settings and options, or there is neither of
the two. If tied events are written alike, then the scores have the same program. -/
theorem input_order_matters_for_ties_only :
    (∀ {events events' : List Event} {total : Rat}, events.Perm events' → 0 < total →
      ∃ timeline timeline', Timeline.LaidOut timeline events total ∧ Timeline.LaidOut timeline' events' total ∧
        (Event.Reportable events total ↔ Event.Reportable events' total) ∧
        timeline.notices = timeline'.notices ∧
        timeline.chunks.length = timeline'.chunks.length ∧
        timeline.durations = timeline'.durations ∧
        (timeline.chunks.map fun c => c.event?.isSome) = (timeline'.chunks.map fun c => c.event?.isSome) ∧
        (∀ agree, Event.TiesAgree agree events →
          List.Forall₂ (Chunk.Corresponds agree) timeline.chunks timeline'.chunks) ∧
        (Event.TiesAgree Eq events → timeline = timeline')) ∧
      ∀ {points points' : List Point} {events : List Event}, points.Perm points' →
        Point.expandAll points = .ok events → Event.TiesAgree Event.Equal events →
          ∀ (settings : Settings) (options : Program.Options),
            (∃ e, Score.write points settings options = .error e ∧ Score.write points' settings options = .error e) ∨
              ∃ score score', Score.write points settings options = .ok score ∧
                Score.write points' settings options = .ok score' ∧
                (∀ v, List.Forall₂ Cell.Equal (score.voices v) (score'.voices v)) ∧
                (Event.TiesAgree Event.WrittenAlike events → score.program = score'.program) ∧
                (Event.TiesAgree Eq events → score = score') := by
  refine ⟨?_, ?_⟩
  · intro events events' total hperm htotal
    rcases exists_fill events htotal with ⟨timeline, hfill, _⟩
    rcases exists_fill events' htotal with ⟨timeline', hfill', _⟩
    have hchunks : ∀ agree, Event.TiesAgree agree events →
        List.Forall₂ (Chunk.Corresponds agree) timeline.chunks timeline'.chunks := by
      intro agree hties
      exact Timeline.forall₂_chunks_of_perm hperm hties hfill hfill'
    have hnotices := Timeline.notices_of_perm hperm hfill hfill'
    -- all ties agree in nothing at all, which is enough for the shape
    have hshape := hchunks (fun _ _ => True) fun _ _ _ _ _ _ => trivial
    refine ⟨timeline, timeline', Timeline.laidOut_of_fill hfill, Timeline.laidOut_of_fill hfill', ?_, hnotices,
      hshape.length_eq, ?_, ?_, hchunks, ?_⟩
    · rw [← Timeline.all_notices_iff hfill, ← Timeline.all_notices_iff hfill', hnotices]
    · exact Chunk.map_eq_of_forall₂ (fun _ _ => Chunk.Corresponds.duration_eq) hshape
    · exact Chunk.map_eq_of_forall₂ (fun _ _ => Chunk.Corresponds.isSome_event?) hshape
    · intro hties
      obtain ⟨_, rfl⟩ := Timeline.eq_of_fill hfill
      obtain ⟨_, rfl⟩ := Timeline.eq_of_fill hfill'
      rw [Event.sort_congr hperm hties]
  · intro points points' events hperm hexpand hties settings options
    rcases Score.write_of_perm hperm hexpand hties settings options with
      hfailed | ⟨timeline, timeline', instrument, repeats, compressed, hwrite, hwrite', hchunks⟩
    · exact Or.inl hfailed
    · refine Or.inr ⟨_, _, hwrite, hwrite', ?_, ?_, ?_⟩
      · intro v
        have hvoice := Voices.forall₂_ofChunks Value.Equal.same (hchunks _ hties) v
        rwa [Voice.related_self] at hvoice
      · intro halike
        have hvoices := Voices.forall₂_ofChunks Value.WrittenAlike.same (hchunks _ halike)
        exact Program.layout_eq hvoices instrument repeats compressed
      · intro hsame
        have hcongr := Score.write_congr hperm hexpand hsame settings options
        exact Except.ok.inj (hwrite.symm.trans (hcongr.trans hwrite'))

/-- A note at zero that is spread by the given strum. -/
def Point.strummed (strum : Number) : Point :=
  { start := 0, duration := 1, notes := [{}], strum := some (.number strum) }

/-- Two such notes are tied, and they agree as much as their strums do. -/
theorem Point.tiesAgree_strummed {name number : Value → Value → Prop} (hname : ∀ v, name v v)
    (hnumber : ∀ v, number v v) {x y : Number} (h : number (.number x) (.number y))
    (h' : number (.number y) (.number x)) :
    Event.TiesAgree (Event.Related name number) ([strummed x, strummed y].flatMap occurrences) := by
  have hevent : ∀ {x y : Number}, number (.number x) (.number y) → ∀ a ∈ (strummed x).occurrences,
      ∀ b ∈ (strummed y).occurrences, Event.Related name number a b := by
    intro x y hxy a ha b hb
    obtain rfl := List.mem_singleton.1 ha
    obtain rfl := List.mem_singleton.1 hb
    have hsame := Event.Related.refl hname hnumber (strummed x).event
    exact ⟨rfl, rfl, hsame.scale, hsame.root, hsame.degree, hsame.octave, hsame.legato, hsame.amp, .some hxy⟩
  intro a ha b hb _ _
  simp only [List.flatMap_cons, List.flatMap_nil, List.append_nil, List.mem_append] at ha hb
  rcases ha with ha | ha <;> rcases hb with hb | hb
  · exact hevent (hnumber _) a ha b hb
  · exact hevent h a ha b hb
  · exact hevent h' a ha b hb
  · exact hevent (hnumber _) a ha b hb

/-- Two events of a tie change places and leave the shape as it was; two points of which one has a whole number and the
other the equal double leave the program as it was. -/
theorem swapped_input_keeps_shape :
    (∃ timeline timeline',
      Timeline.write [{ start := 0, duration := 1, strum := some (.int 1) },
        { start := 1 / 2, duration := 1 }, { start := 0, duration := 1 }] 2 = .ok timeline ∧
      Timeline.write [{ start := 0, duration := 1 },
        { start := 0, duration := 1, strum := some (.int 1) }, { start := 1 / 2, duration := 1 }] 2 =
          .ok timeline' ∧
      timeline.durations = timeline'.durations) ∧
      ∃ score score', Score.write [Point.strummed (.whole 1), Point.strummed (.double (.nearest 1))] {} {} = .ok score ∧
        Score.write [Point.strummed (.double (.nearest 1)), Point.strummed (.whole 1)] {} {} = .ok score' ∧
        score.program = score'.program := by
  constructor
  · let a : Event := { start := 0, duration := 1, strum := some (.int 1) }
    let b : Event := { start := 1 / 2, duration := 1 }
    let c : Event := { start := 0, duration := 1 }
    have hperm : [a, b, c].Perm [c, a, b] := @List.perm_append_comm _ [a, b] [c]
    rcases input_order_matters_for_ties_only.1 hperm two_pos with
      ⟨timeline, timeline', hlaid, hlaid', hreportable, _, _, hdurations, _⟩
    have hshort : Event.Reportable [a, b, c] 2 := .of_writable (by decide +kernel) (by decide +kernel)
    exact ⟨timeline, timeline', hlaid.written hshort, hlaid'.written (hreportable.1 hshort), hdurations⟩
  · let points := [Point.strummed (.whole 1), Point.strummed (.double (.nearest 1))]
    have hpoints : ∀ p ∈ points, 1 ≤ p.repeats := by decide
    have hperm : points.Perm [Point.strummed (.double (.nearest 1)), Point.strummed (.whole 1)] := .swap _ _ []
    have hone : (Number.double (.nearest 1)).toInt? = some 1 := by decide +kernel
    have halike : Event.TiesAgree Event.WrittenAlike (points.flatMap Point.occurrences) :=
      Point.tiesAgree_strummed (fun _ => rfl) Value.WrittenAlike.same (.whole rfl hone) (.whole hone rfl)
    have hequal := fun a ha b hb hs hd => Event.WrittenAlike.equal (halike a ha b hb hs hd)
    rcases input_order_matters_for_ties_only.2 hperm (Point.expandAll_eq hpoints) hequal {} {} with
      ⟨e, he, _⟩ | ⟨score, score', hwrite, hwrite', _, hprogram, _⟩
    · -- there is a score, as no number is long
      have hwrite := @Score.write_of_sorted points {} {} _ _ hpoints (Settings.total_pos (by decide) (by decide))
        (by decide +kernel) rfl rfl (by decide +kernel) (by decide +kernel)
      cases he.symm.trans hwrite
    · exact ⟨score, score', hwrite, hwrite', hprogram halike⟩

/-- One half as a double and as a quotient are equal, and when the points change places, so do they in the program. -/
theorem half_as_double_and_quotient_change_places :
    Event.TiesAgree Event.Equal
        ([Point.strummed (.double (.nearest (1 / 2))), Point.strummed (.ratio (1 / 2))].flatMap Point.occurrences) ∧
      ∃ score score',
        Score.write [Point.strummed (.double (.nearest (1 / 2))), Point.strummed (.ratio (1 / 2))] {} {} = .ok score ∧
        Score.write [Point.strummed (.ratio (1 / 2)), Point.strummed (.double (.nearest (1 / 2)))] {} {} = .ok score' ∧
        score.program ≠ score'.program := by
  constructor
  · have hsame : ∀ x y : Number, x.sameValue y = true → (Value.number x).Equal (.number y) :=
      fun x y hxy => .number ⟨x, y, rfl, rfl, hxy⟩
    exact Point.tiesAgree_strummed Value.Equal.same Value.Equal.same (hsame _ _ (by decide +kernel))
      (hsame _ _ (by decide +kernel))
  · have htotal : 0 < ({} : Settings).total := Settings.total_pos (by decide) (by decide)
    refine ⟨_, _, Score.write_of_sorted (by decide) htotal (by decide +kernel) rfl rfl (by decide +kernel)
      (by decide +kernel), Score.write_of_sorted (by decide) htotal (by decide +kernel) rfl rfl (by decide +kernel)
      (by decide +kernel), ?_⟩
    decide +kernel

end Barline
