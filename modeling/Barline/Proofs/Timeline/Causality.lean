import Barline.Proofs.Timeline.Report

/-!
# Causality — later events change nothing before they start

The walk looks ahead: where an event is cut off depends on the start of the next one and on the end of the grid. Still
nothing of this is heard earlier. If a timeline is cut off at a time, the part before it is the timeline of the events
that start before, on a grid that ends there.

* `Event.sort_filter` says that some of the events are sorted as they are among all of them.
* `cut_chunksFrom` says that a walk with more events to come, on a longer grid, does the same until the cut.
* `timelines_agree_until_cut` puts the two together.
-/

namespace Barline

/-! ## Cutting chunks off -/

namespace Chunk

/-- A chunk of the same kind and with the same event, of another length. -/
def resize (d : Rat) : Chunk → Chunk
  | rest _ => rest d
  | note _ e => note d e

/-- The first beats of a sequence of chunks; the chunk that goes on beyond them is shortened. -/
def cut : Rat → List Chunk → List Chunk
  | _, [] => []
  | beats, c :: later =>
    if beats ≤ 0 then []
    else if beats < c.duration then [c.resize beats]
    else c :: cut (beats - c.duration) later

variable {beats : Rat} {c : Chunk} {cs : List Chunk}

theorem resize_duration : c.resize c.duration = c := by
  cases c <;> rfl

theorem cut_of_nonpos (h : beats ≤ 0) : cut beats cs = [] := by
  cases cs with
  | nil => rfl
  | cons c later => rw [cut, if_pos h]

theorem cut_cons_of_le (hpos : 0 < c.duration) (h : c.duration ≤ beats) :
    cut beats (c :: cs) = c :: cut (beats - c.duration) cs := by
  rw [cut, if_neg (not_le.2 (hpos.trans_le h)), if_neg (not_lt.2 h)]

theorem cut_cons_of_ge (hpos : 0 < beats) (h : beats ≤ c.duration) :
    cut beats (c :: cs) = [c.resize beats] := by
  rcases h.lt_or_eq with hlt | rfl
  · rw [cut, if_neg (not_le.2 hpos), if_pos hlt]
  · -- nothing of what comes after it is left
    rw [cut_cons_of_le hpos le_rfl, sub_self, cut_of_nonpos le_rfl, resize_duration]

/-! ## Stretches -/

/-- The chunk between two times that is made for its length, if the second time is later. -/
def stretch (make : Rat → Chunk) (t u : Rat) : List Chunk :=
  if t < u then [make (u - t)] else []

/-- Chunks of all lengths that have the same kind and event. -/
structure Resizable (make : Rat → Chunk) : Prop where
  duration (d : Rat) : (make d).duration = d
  resize (d d' : Rat) : (make d).resize d' = make d'

theorem resizable_rest : Resizable rest :=
  ⟨fun _ => rfl, fun _ _ => rfl⟩

theorem resizable_note (e : Event) : Resizable (note · e) :=
  ⟨fun _ => rfl, fun _ _ => rfl⟩

variable {make : Rat → Chunk} {t u cutTime : Rat}

theorem cut_stretch_append (hmake : Resizable make) (h : u ≤ cutTime) :
    cut (cutTime - t) (stretch make t u ++ cs) = stretch make t u ++ cut (cutTime - max t u) cs := by
  unfold stretch
  split
  case isTrue hlt =>
    have hduration : (make (u - t)).duration = u - t := hmake.duration _
    have hleft : cutTime - t - (u - t) = cutTime - max t u := by
      rw [max_eq_right hlt.le, sub_sub_sub_cancel_right]
    rw [List.singleton_append, cut_cons_of_le, hduration, hleft]
    · rfl
    · rw [hduration]
      exact sub_pos.2 hlt
    · rw [hduration]
      exact sub_le_sub_right h t
  case isFalse hnot =>
    -- an empty stretch takes nothing off the beats that are left
    rw [max_eq_left (not_lt.1 hnot)]
    rfl

theorem cut_stretch_append_of_ge (hmake : Resizable make) (ht : t < cutTime) (h : cutTime ≤ u) :
    cut (cutTime - t) (stretch make t u ++ cs) = stretch make t cutTime := by
  have hreaches : cutTime - t ≤ (make (u - t)).duration := by
    rw [hmake.duration]
    exact sub_le_sub_right h t
  rw [stretch, if_pos (ht.trans_le h), List.singleton_append, cut_cons_of_ge (sub_pos.2 ht) hreaches,
    hmake.resize, stretch, if_pos ht]

end Chunk

theorem silentChunk_eq_stretch (t u : Rat) : silentChunk t u = Chunk.stretch .rest t u := rfl

theorem soundingChunk_eq_stretch (t u : Rat) (e : Event) :
    soundingChunk t u e = Chunk.stretch (.note · e) t u := rfl

/-! ## Order -/

namespace Event

/-- The first of some events stands behind those that it does not precede and before those that it precedes. -/
theorem sort_cons (e : Event) (events : List Event) :
    sort (e :: events) = (sort events).filter (!precedes e ·) ++ e :: (sort events).filter (precedes e ·) ∧
      sort events = (sort events).filter (!precedes e ·) ++ (sort events).filter (precedes e ·) := by
  have hcons := @List.mergeSort_cons Event precedes
  rcases hcons (fun _ _ _ => precedes_trans) precedes_total e events with
    ⟨before, after, hsort, hevents, hbefore⟩
  have hafter : ∀ f ∈ after, precedes e f = true := by
    have hpairwise := sort_pairwise (e :: events)
    rw [sort, hsort] at hpairwise
    exact (List.pairwise_cons.1 (List.pairwise_append.1 hpairwise).2.1).1
  -- so the two tests tell the two parts apart
  have hfront : (sort events).filter (!precedes e ·) = before := by
    rw [sort, hevents, List.filter_append, List.filter_eq_self.2 hbefore, List.filter_eq_nil_iff.2,
      List.append_nil]
    intro f hf
    simp [hafter f hf]
  have hback : (sort events).filter (precedes e ·) = after := by
    rw [sort, hevents, List.filter_append, List.filter_eq_self.2 hafter, List.filter_eq_nil_iff.2,
      List.nil_append]
    intro f hf
    simpa using hbefore f hf
  rw [hfront, hback]
  exact ⟨hsort, hevents⟩

theorem sort_filter (p : Event → Bool) (events : List Event) :
    sort (events.filter p) = (sort events).filter p := by
  induction events with
  | nil => simp [sort]
  | cons e events ih =>
    have hcomm : ∀ q : Event → Bool, ((sort events).filter p).filter q = ((sort events).filter q).filter p := by
      intro q
      rw [List.filter_filter, List.filter_filter]
      exact List.filter_congr fun _ _ => Bool.and_comm _ _
    rw [(sort_cons e events).1, List.filter_append]
    by_cases he : p e = true
    · rw [List.filter_cons_of_pos he, List.filter_cons_of_pos he, (sort_cons e _).1, ih, hcomm, hcomm]
    · -- without the event the two parts are the whole again
      rw [List.filter_cons_of_neg he, List.filter_cons_of_neg he, ih, ← List.filter_append,
        ← (sort_cons e events).2]

theorem mem_sort_filter {p : Event → Bool} {e : Event} {events : List Event} :
    e ∈ sort (events.filter p) ↔ e ∈ events ∧ p e = true := by
  rw [(sort_perm _).mem_iff, List.mem_filter]

theorem start_lt_of_mem_sort_filter (events : List Event) (time : Rat) :
    ∀ f ∈ sort (events.filter (·.start < time)), f.start < time := by
  intro f hf
  simpa using (mem_sort_filter.1 hf).2

theorem le_start_of_mem_sort_filter (events : List Event) (time : Rat) :
    ∀ f ∈ sort (events.filter (time ≤ ·.start)), time ≤ f.start := by
  intro f hf
  simpa using (mem_sort_filter.1 hf).2

theorem sort_eq_append (events : List Event) (time : Rat) :
    sort events = sort (events.filter (·.start < time)) ++ sort (events.filter (time ≤ ·.start)) := by
  rw [sort_filter, sort_filter]
  -- only the order of the starts matters from here on
  have hsorted := sort_starts events
  generalize sort events = es at hsorted
  induction es with
  | nil => rfl
  | cons e es ih =>
    rcases List.pairwise_cons.1 hsorted with ⟨hfirst, hsorted⟩
    by_cases he : e.start < time
    · rw [List.filter_cons_of_pos (by simpa using he), List.filter_cons_of_neg (by simpa using he),
        List.cons_append, ← ih hsorted]
    · -- nor does any other event start before the time then
      have hle : ∀ f ∈ e :: es, time ≤ f.start := by
        intro f hf
        rcases List.mem_cons.1 hf with rfl | hf
        · exact not_lt.1 he
        · exact (not_lt.1 he).trans (hfirst f hf)
      have hnone : (e :: es).filter (·.start < time) = [] := by
        rw [List.filter_eq_nil_iff]
        intro f hf
        simpa using hle f hf
      rw [hnone, List.nil_append, List.filter_eq_self.2]
      intro f hf
      simpa using hle f hf

end Event

/-! ## The walk until the cut -/

section Walk

variable {total t cutTime : Rat} {e : Event} {early late : List Event}

/-- The events behind the cut, and the grid behind it, matter to no event before the cut. -/
theorem min_cutOff_append (htotal : cutTime ≤ total) (hlate : ∀ f ∈ late, cutTime ≤ f.start) :
    min (cutOff total e (early ++ late)) cutTime = cutOff cutTime e early := by
  cases early with
  | nil =>
    cases late with
    | nil =>
      simp only [cutOff, earlier_eq_min, List.nil_append]
      rw [min_assoc, min_eq_right htotal, min_right_comm, min_eq_right htotal, min_right_comm, min_self]
    | cons f late =>
      have hf : cutTime ≤ f.start := hlate f (List.mem_cons_self ..)
      simp only [cutOff, earlier_eq_min, List.nil_append]
      rw [min_assoc, min_eq_right htotal, min_right_comm, min_eq_right hf, min_right_comm, min_self]
  | cons g early =>
    simp only [cutOff, earlier_eq_min, List.cons_append]
    rw [min_assoc, min_eq_right htotal]

theorem cut_chunksFrom (htotal : cutTime ≤ total) (hearly : ∀ f ∈ early, f.start < cutTime)
    (hlate : ∀ f ∈ late, cutTime ≤ f.start) (ht : t < cutTime) :
    Chunk.cut (cutTime - t) (chunksFrom total t (early ++ late)) = chunksFrom cutTime t early := by
  -- the cursor of the one walk is the cursor of the other as long as both are before the cut
  induction early generalizing t with
  | nil =>
    -- silence until the first late event, or until the end of the grid, is silence until the cut
    rw [List.nil_append, chunksFrom_nil]
    cases late with
    | nil =>
      rw [chunksFrom_nil, ← List.append_nil (silentChunk t total)]
      exact Chunk.cut_stretch_append_of_ge Chunk.resizable_rest ht htotal
    | cons f late =>
      have hf : cutTime ≤ f.start := hlate f (List.mem_cons_self ..)
      by_cases hend : total ≤ f.start
      · rw [chunksFrom_of_total_le hend, ← List.append_nil (silentChunk t total)]
        exact Chunk.cut_stretch_append_of_ge Chunk.resizable_rest ht htotal
      · rw [chunksFrom_cons (not_le.1 hend)]
        exact Chunk.cut_stretch_append_of_ge Chunk.resizable_rest ht hf
  | cons e early ih =>
    have he : e.start < cutTime := hearly e (List.mem_cons_self ..)
    have honset : max t e.start < cutTime := max_lt ht he
    have hcutOff := @min_cutOff_append total cutTime e early late htotal hlate
    rw [List.cons_append, chunksFrom_cons (he.trans_le htotal), chunksFrom_cons he,
      silentChunk_eq_stretch, Chunk.cut_stretch_append Chunk.resizable_rest he.le]
    congr 1
    rw [soundingChunk_eq_stretch, soundingChunk_eq_stretch]
    by_cases hreaches : cutTime ≤ cutOff total e (early ++ late)
    · -- the event goes on until the cut, and there both walks are at their end
      rw [min_eq_right hreaches] at hcutOff
      rw [← hcutOff, max_eq_right honset.le, if_pos le_rfl, List.append_nil]
      exact Chunk.cut_stretch_append_of_ge (Chunk.resizable_note e) honset hreaches
    · -- the event is over before the cut, so both walks go on from the same place
      rw [min_eq_left (not_le.1 hreaches).le] at hcutOff
      have hcursor : max (max t e.start) (cutOff cutTime e early) < cutTime := by
        rw [← hcutOff]
        exact max_lt honset (not_le.1 hreaches)
      rw [hcutOff, Chunk.cut_stretch_append (Chunk.resizable_note e), if_neg (not_le.2 hcursor),
        if_neg (not_le.2 (hcursor.trans_le htotal)), ih _ hcursor]
      · intro f hf
        exact hearly f (List.mem_cons_of_mem e hf)
      · exact (le_max_right _ _).trans hcursor.le

end Walk

/-! ## Timelines -/

section Timelines

variable {events events₁ events₂ : List Event} {cutTime total total₁ total₂ x : Rat}

/-- A timeline that is cut off is the timeline of what starts before, on a grid that ends at the cut. -/
theorem cut_chunks_of_fill {timeline early : Timeline} (hcut : 0 < cutTime) (htotal : cutTime ≤ total)
    (hfill : Timeline.fill events total = .ok timeline)
    (hearly : Timeline.fill (events.filter (·.start < cutTime)) cutTime = .ok early) :
    Chunk.cut cutTime timeline.chunks = early.chunks := by
  rw [Timeline.fill_of_pos events (hcut.trans_le htotal), Except.ok.injEq] at hfill
  rw [Timeline.fill_of_pos _ hcut, Except.ok.injEq] at hearly
  obtain rfl := hfill
  obtain rfl := hearly
  have hwalk := cut_chunksFrom htotal (Event.start_lt_of_mem_sort_filter events cutTime)
    (Event.le_start_of_mem_sort_filter events cutTime) hcut
  -- both walks begin at zero, the one with all events in order
  rw [sub_zero, ← Event.sort_eq_append] at hwalk
  exact hwalk

theorem sounding_sort_congr
    (hearly : events₁.filter (·.start < cutTime) = events₂.filter (·.start < cutTime)) (hx : x < cutTime) :
    Event.sounding (Event.sort events₁) x = Event.sounding (Event.sort events₂) x := by
  have hstarted : ∀ events : List Event, events.filter (·.start ≤ x) =
      (events.filter (·.start < cutTime)).filter (·.start ≤ x) := by
    intro events
    rw [List.filter_filter]
    refine List.filter_congr ?_
    intro e _
    by_cases he : e.start ≤ x
    · simp [he, he.trans_lt hx]
    · simp [he]
  rw [Event.sounding, Event.sounding, Event.lastStarted, Event.lastStarted, ← Event.sort_filter,
    ← Event.sort_filter, hstarted events₁, hstarted events₂, hearly]

theorem event?_eq_sounding {timeline : Timeline} {i : Nat} {c : Chunk} (htotal : 0 < total)
    (hfill : Timeline.fill events total = .ok timeline) (hc : timeline.chunks[i]? = some c)
    (hi : Spans timeline.durations i x) (hx : x < total) :
    c.event? = Event.sounding (Event.sort events) x := by
  -- chunks have lengths, so only one of them covers the instant
  rcases exists_fill events htotal with ⟨timeline', hfill', hchunks⟩
  obtain rfl : timeline = timeline' := Except.ok.inj (hfill.symm.trans hfill')
  have hnonneg : 0 ≤ x := hi.nonneg hchunks.positive_durations
  rcases hchunks.exists_spans hnonneg hx with ⟨j, d, hd, hj, hsound⟩
  rw [sub_zero] at hj
  obtain rfl : i = j := hi.unique hchunks.positive_durations hj
  obtain rfl : c = d := Option.some.inj (hc.symm.trans hd)
  exact hsound

end Timelines

/-- Two timelines whose events before a time are the same are the same until then: cut off at that time, both are
the timeline of these events on a grid that ends there. Whatever starts later, and however long the grid is, at every
instant before that time they carry the same event. Only whether what is dropped later can be reported may differ. -/
theorem timelines_agree_until_cut {events₁ events₂ : List Event} {cutTime total₁ total₂ : Rat}
    (hcut : 0 < cutTime) (htotal₁ : cutTime ≤ total₁) (htotal₂ : cutTime ≤ total₂)
    (hearly : events₁.filter (·.start < cutTime) = events₂.filter (·.start < cutTime)) :
    ∃ timeline₁ timeline₂ early, Timeline.LaidOut timeline₁ events₁ total₁ ∧
      Timeline.LaidOut timeline₂ events₂ total₂ ∧
      Timeline.LaidOut early (events₁.filter (·.start < cutTime)) cutTime ∧
      Chunk.cut cutTime timeline₁.chunks = early.chunks ∧
      Chunk.cut cutTime timeline₂.chunks = early.chunks ∧
      ∀ x i j c d, x < cutTime → timeline₁.chunks[i]? = some c → Spans timeline₁.durations i x →
        timeline₂.chunks[j]? = some d → Spans timeline₂.durations j x → c.event? = d.event? := by
  have hpos₁ : 0 < total₁ := hcut.trans_le htotal₁
  have hpos₂ : 0 < total₂ := hcut.trans_le htotal₂
  rcases exists_fill events₁ hpos₁ with ⟨timeline₁, hfill₁, _⟩
  rcases exists_fill events₂ hpos₂ with ⟨timeline₂, hfill₂, _⟩
  rcases exists_fill (events₁.filter (·.start < cutTime)) hcut with ⟨early, hfill, _⟩
  refine ⟨timeline₁, timeline₂, early, Timeline.laidOut_of_fill hfill₁, Timeline.laidOut_of_fill hfill₂,
    Timeline.laidOut_of_fill hfill, cut_chunks_of_fill hcut htotal₁ hfill₁ hfill, ?_, ?_⟩
  -- the second list has the same events before the cut, so the same timeline until then
  · rw [hearly] at hfill
    exact cut_chunks_of_fill hcut htotal₂ hfill₂ hfill
  · intro x i j c d hx hc hi hd hj
    calc c.event? = Event.sounding (Event.sort events₁) x :=
          event?_eq_sounding hpos₁ hfill₁ hc hi (hx.trans_le htotal₁)
      _ = Event.sounding (Event.sort events₂) x := sounding_sort_congr hearly hx
      _ = d.event? := (event?_eq_sounding hpos₂ hfill₂ hd hj (hx.trans_le htotal₂)).symm

/-- A note that the next event cuts off in one timeline, and the end of the grid in another, is the same until two,
whether it is followed by an event at two, an event beyond two or none. -/
theorem moved_events_change_nothing_before :
    ∃ timeline₁ timeline₂,
      Timeline.write [{ start := 2, duration := 1 }, { start := 1, duration := 5 },
        { start := -1, duration := 3 / 2 }] 8 = .ok timeline₁ ∧
      Timeline.write [{ start := 1, duration := 5 }, { start := -1, duration := 3 / 2 },
        { start := 5 / 2, duration := -1 }] 3 = .ok timeline₂ ∧
      Chunk.cut 2 timeline₁.chunks = Chunk.cut 2 timeline₂.chunks := by
  let events₁ : List Event :=
    [{ start := 2, duration := 1 }, { start := 1, duration := 5 }, { start := -1, duration := 3 / 2 }]
  let events₂ : List Event :=
    [{ start := 1, duration := 5 }, { start := -1, duration := 3 / 2 }, { start := 5 / 2, duration := -1 }]
  have hreportable₁ : Event.Reportable events₁ 8 := .of_writable (by decide +kernel) (by decide +kernel)
  have hreportable₂ : Event.Reportable events₂ 3 := .of_writable (by decide +kernel) (by decide +kernel)
  have hcut := @timelines_agree_until_cut events₁ events₂ 2 8 3 (by norm_num) (by norm_num) (by norm_num)
    (by norm_num [events₁, events₂, List.filter])
  rcases hcut with ⟨timeline₁, timeline₂, early, hlaid₁, hlaid₂, _, hcut₁, hcut₂, _⟩
  exact ⟨timeline₁, timeline₂, hlaid₁.written hreportable₁, hlaid₂.written hreportable₂, hcut₁.trans hcut₂.symm⟩

/-- With a note before two, a tie at two of which one event is too short to be reported takes the whole timeline
away. -/
theorem unreportable_tie_takes_earlier_note :
    (∃ timeline, Timeline.write [{ start := 0, duration := 1 }] 4 = .ok timeline) ∧
      ¬ ∃ timeline, Timeline.write [{ start := 0, duration := 1 }, { start := 2, duration := Literal.sliver },
        { start := 2, duration := 1 }] 4 = .ok timeline := by
  have hreportable : Event.Reportable [{ start := 0, duration := 1 }] 4 :=
    .of_writable (by decide +kernel) (by decide +kernel)
  have hfill := Timeline.fill_of_pos [{ start := 0, duration := 1 }] (show (0 : Rat) < 4 by norm_num)
  refine ⟨⟨_, (Timeline.laidOut_of_fill hfill).written hreportable⟩, ?_⟩
  exact Timeline.not_exists_write_sliverTie (by norm_num) (by norm_num) [_]

end Barline
