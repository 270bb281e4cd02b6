import Barline.Proofs.Timeline.Report

/-!
# Instants — which event sounds at a given time

The rule of a timeline, said of one instant and of the events as they are given: of the events that have started,
the one that started last sounds until its own end; the longest of those that started together counts as the last,
and of equally long ones the last in the list. `chunk_at_instant` says that the chunk that covers an instant carries it.
-/

namespace Barline

/-- At every instant of a grid exactly one chunk is passed. It carries the event that started last, if one has
started and has not come to its own end, and else it is a rest. -/
theorem chunk_at_instant (events : List Event) {total x : Rat} (htotal : 0 < total) (hx : 0 ≤ x)
    (hxt : x < total) :
    ∃ timeline i c, Timeline.LaidOut timeline events total ∧ timeline.chunks[i]? = some c ∧
      (∀ j, Spans timeline.durations j x ↔ j = i) ∧
      ((∃ n e, Event.Latest events x n e ∧ Event.lastStarted (Event.sort events) x = some e ∧
          c.event? = if x < e.start + e.duration then some e else none) ∨
        ((∀ e ∈ events, x < e.start) ∧ c.event? = none)) := by
  rcases exists_fill events htotal with ⟨timeline, hfill, hchunks⟩
  rcases hchunks.exists_spans hx hxt with ⟨i, c, hc, hi, hsound⟩
  rw [sub_zero] at hi
  refine ⟨timeline, i, c, Timeline.laidOut_of_fill hfill, hc, ?_, ?_⟩
  · intro j
    constructor
    · intro hj
      exact Spans.unique hchunks.positive_durations hj hi
    · rintro rfl
      exact hi
  · rw [Event.sounding] at hsound
    -- what sounds is the event that started last, as long as it lasts
    cases hlast : Event.lastStarted (Event.sort events) x with
    | none =>
      refine Or.inr ⟨?_, ?_⟩
      · intro e he
        exact Event.lastStarted_eq_none_iff.1 hlast e ((Event.sort_perm events).mem_iff.2 he)
      · rw [hsound, hlast]
        rfl
    | some e =>
      rcases Event.lastStarted_sort_eq_some_iff.1 hlast with ⟨n, hlatest⟩
      refine Or.inl ⟨n, e, hlatest, rfl, ?_⟩
      rw [hsound, hlast]
      by_cases hstop : x < e.start + e.duration
      · simp [hstop, Event.stop]
      · simp [hstop, Event.stop]

/-- The longer of two events that start together sounds, and neither the shorter one nor an earlier one. -/
theorem longer_of_tie_sounds :
    ∃ timeline i c,
      Timeline.write [{ start := -1, duration := 5 / 2 }, { start := 1, duration := 2 },
        { start := 1, duration := 1 / 2 }] 4 = .ok timeline ∧
      timeline.chunks[i]? = some c ∧ Spans timeline.durations i (5 / 4) ∧
      c.event? = some { start := 1, duration := 2 } := by
  let early : Event := { start := -1, duration := 5 / 2 }
  let long : Event := { start := 1, duration := 2 }
  let short : Event := { start := 1, duration := 1 / 2 }
  have hlatest : Event.Latest [early, long, short] (5 / 4) 1 long := by
    refine ⟨rfl, by norm_num [long], ?_⟩
    intro m f hf _
    match m with
    | 0 =>
      obtain rfl : early = f := Option.some.inj hf
      exact Or.inl (by norm_num [early, long])
    | 1 =>
      obtain rfl : long = f := Option.some.inj hf
      exact Or.inr ⟨rfl, Or.inr ⟨rfl, le_refl 1⟩⟩
    | 2 =>
      obtain rfl : short = f := Option.some.inj hf
      exact Or.inr ⟨rfl, Or.inl (by norm_num [short, long])⟩
    | m + 3 => simp at hf
  have hinstant := @chunk_at_instant [early, long, short] 4 (5 / 4) (by norm_num) (by norm_num)
    (by norm_num)
  rcases hinstant with ⟨timeline, i, c, hlaid, hc, hi, hsound⟩
  have hreportable : Event.Reportable [early, long, short] 4 :=
    .of_writable (by decide +kernel) (by decide +kernel)
  refine ⟨timeline, i, c, hlaid.written hreportable, hc, (hi i).2 rfl, ?_⟩
  rcases hsound with ⟨n, e, he, _, hevent⟩ | ⟨hnone, _⟩
  · rw [hevent, (he.unique hlatest).2, if_pos (by norm_num [long])]
  · have hearly := hnone early (List.mem_cons_self ..)
    norm_num [early] at hearly

/-- Where the shorter event of a tie is too short to be reported, no chunk is passed at any instant. -/
theorem unreportable_tie_has_no_chunk :
    ¬ ∃ timeline, Timeline.write [{ start := 1, duration := Literal.sliver }, { start := 1, duration := 1 }] 4 =
      .ok timeline :=
  Timeline.not_exists_write_sliverTie (by norm_num) (by norm_num) []

end Barline
