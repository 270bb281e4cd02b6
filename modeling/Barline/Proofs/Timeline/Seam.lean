import Barline.Proofs.Timeline.Causality
import Barline.Proofs.Timeline.Order

/-!
# Seams — a timeline falls apart where an event starts

Whatever sounds is cut off by the next start. So where an event starts on the grid, the walk is as if it began there:
what comes before is the timeline of a grid that ends at that time, and what comes behind is the timeline of the events
from then on, on the rest of the grid, counted from that time.

* `chunksFrom_append_of_start` takes one walk apart at a start that is still ahead.
* `chunksFrom_moved` says that the second part is a walk of its own, which begins at zero.
* `onset_is_seam` is about whole timelines.
-/

namespace Barline

/-! ## Later events -/

namespace Event

/-- The same event so many beats later. -/
def moved (beats : Rat) (e : Event) : Event :=
  { e with start := e.start + beats }

variable {beats : Rat} {events : List Event}

theorem moved_moved_neg (beats : Rat) (e : Event) : (e.moved (-beats)).moved beats = e := by
  simp [moved]

/-- Events that are all so much later are in the same order. -/
theorem sort_map_moved : sort (events.map (moved beats)) = (sort events).map (moved beats) := by
  refine (List.map_mergeSort ?_).symm
  intro a _ b _
  rw [Bool.eq_iff_iff, precedes_iff, precedes_iff]
  simp [moved]

end Event

namespace Chunk

/-- The same chunk; what it carries is so many beats later. -/
def moved (beats : Rat) : Chunk → Chunk
  | rest d => rest d
  | note d e => note d (e.moved beats)

theorem Corresponds.eq_moved {beats : Rat} {c d : Chunk}
    (h : Corresponds (fun e f => e.moved beats = f) c d) : c.moved beats = d := by
  cases h with
  | rest d => rfl
  | note d h => rw [moved, h]

end Chunk

/-! ## The two parts of a walk -/

section Walk

variable {onset total t : Rat} {e f : Event} {early late later : List Event}

/-- A walk from some time on is a walk from zero over events that are so much earlier. -/
theorem chunksFrom_moved (total onset : Rat) (later : List Event) :
    chunksFrom total onset later =
      (chunksFrom (total - onset) 0 (later.map (Event.moved (-onset)))).map (Chunk.moved onset) := by
  have hmoved : ∀ e f : Event, e.moved onset = f → f.start = e.start + onset ∧ f.duration = e.duration := by
    rintro e f rfl
    exact ⟨rfl, rfl⟩
  have hevents : List.Forall₂ (fun e f => e.moved onset = f) (later.map (Event.moved (-onset))) later := by
    rw [List.forall₂_map_left_iff, List.forall₂_same]
    intro e _
    exact Event.moved_moved_neg onset e
  have hwalks := @forall₂_chunksFrom _ onset (total - onset) 0 _ _ hmoved hevents
  rw [sub_add_cancel, zero_add] at hwalks
  have hchunks := hwalks.imp fun _ _ h => h.eq_moved
  rw [← List.forall₂_map_left_iff (f := Chunk.moved onset), List.forall₂_eq_eq_eq] at hchunks
  exact hchunks.symm

/-- With a start on the grid ahead, it makes no difference how far the grid goes on behind that. -/
theorem cutOff_eq_of_next (hnext : later.head? = some f) (hf : f.start ≤ onset) (htotal : onset ≤ total) :
    cutOff total e later = cutOff onset e later := by
  cases later with
  | nil => simp at hnext
  | cons g later =>
    obtain rfl : g = f := by simpa using hnext
    simp only [cutOff, earlier_eq_min]
    rw [min_eq_left ((min_le_left _ _).trans (hf.trans htotal)), min_eq_left ((min_le_left _ _).trans hf)]

theorem chunksFrom_append_of_start (htotal : f.start < total) (hearly : ∀ g ∈ early, g.start < f.start)
    (ht : t < f.start) :
    chunksFrom total t (early ++ f :: late) =
      chunksFrom f.start t (early ++ f :: late) ++ chunksFrom total f.start (f :: late) := by
  induction early generalizing t with
  | nil =>
    -- silence until the start is all that the shorter grid has room for
    rw [List.nil_append, chunksFrom_of_le_start ht.le htotal, chunksFrom_of_total_le le_rfl]
  | cons e early ih =>
    have he : e.start < f.start := hearly e (List.mem_cons_self ..)
    have honset : max t e.start < f.start := max_lt ht he
    have hearly' : ∀ g ∈ early, g.start < f.start := fun g hg => hearly g (List.mem_cons_of_mem e hg)
    obtain ⟨g, hnext, hg⟩ : ∃ g, (early ++ f :: late).head? = some g ∧ g.start ≤ f.start := by
      cases early with
      | nil => exact ⟨f, rfl, le_rfl⟩
      | cons g early => exact ⟨g, rfl, (hearly' g (List.mem_cons_self ..)).le⟩
    rw [List.cons_append, chunksFrom_cons (he.trans htotal), chunksFrom_cons he,
      cutOff_eq_of_next hnext hg htotal.le]
    simp only [List.append_assoc]
    congr 2
    -- the cursor is not past the next start, so it is still on the longer grid
    have hcursor : max (max t e.start) (cutOff f.start e (early ++ f :: late)) ≤ f.start :=
      max_le honset.le cutOff_le_total
    rw [if_neg (not_le.2 (hcursor.trans_lt htotal))]
    split
    case isFalse hleft => exact ih hearly' (not_le.1 hleft)
    case isTrue hfull =>
      -- only the last event before the start can go on until then
      cases early with
      | nil => rw [le_antisymm hcursor hfull, List.nil_append, List.nil_append]
      | cons g early =>
        have hbefore : cutOff f.start e (g :: early ++ f :: late) < f.start :=
          (cutOff_le_start rfl).trans_lt (hearly' g (List.mem_cons_self ..))
        exact absurd (max_lt honset hbefore) (not_lt.2 hfull)

end Walk

/-! ## Timelines -/

/-- The first of the events from some time on starts at that time, if any of them does. -/
theorem exists_sort_eq_cons {events : List Event} {onset : Rat} (hstarts : ∃ e ∈ events, e.start = onset) :
    ∃ f late, Event.sort (events.filter (onset ≤ ·.start)) = f :: late ∧ f.start = onset := by
  rcases hstarts with ⟨e, he, hstart⟩
  have hsorted := sort_starts (events.filter (onset ≤ ·.start))
  have hfrom := Event.le_start_of_mem_sort_filter events onset
  have hmem : e ∈ Event.sort (events.filter (onset ≤ ·.start)) :=
    Event.mem_sort_filter.2 ⟨he, by simpa using hstart.ge⟩
  cases hsort : Event.sort (events.filter (onset ≤ ·.start)) with
  | nil => simp [hsort] at hmem
  | cons f late =>
    rw [hsort] at hsorted hfrom hmem
    refine ⟨f, late, rfl, le_antisymm ?_ ?_⟩
    · -- no event comes before the first one in the order of starts
      rcases List.mem_cons.1 hmem with rfl | hmem
      · exact hstart.le
      · exact ((List.pairwise_cons.1 hsorted).1 e hmem).trans hstart.le
    · exact hfrom f (List.mem_cons_self ..)

/-- Where an event starts on a grid, its timeline falls apart. The chunks before are those of a grid that ends at this
time, and the chunks behind are those of the events from then on, all of them so much earlier, on the rest of the grid;
what these chunks carry is at its old place. Each of the three is laid out if what it drops can be reported. -/
theorem onset_is_seam {events : List Event} {onset total : Rat} (hpos : 0 < onset) (htotal : onset < total)
    (hstarts : ∃ e ∈ events, e.start = onset) :
    ∃ timeline before behind, Timeline.LaidOut timeline events total ∧ Timeline.LaidOut before events onset ∧
      Timeline.LaidOut behind ((events.filter (onset ≤ ·.start)).map (Event.moved (-onset))) (total - onset) ∧
      timeline.chunks = before.chunks ++ behind.chunks.map (Chunk.moved onset) := by
  rcases exists_sort_eq_cons hstarts with ⟨f, late, hsort, rfl⟩
  have hparts : chunksFrom total 0 (Event.sort events) =
      chunksFrom f.start 0 (Event.sort events) ++ chunksFrom total f.start (f :: late) := by
    rw [Event.sort_eq_append events f.start, hsort]
    exact chunksFrom_append_of_start htotal (Event.start_lt_of_mem_sort_filter events f.start) hpos
  -- the second walk, from zero, is that of the earlier events in their own order
  have hbehind : chunksFrom total f.start (f :: late) =
      (chunksFrom (total - f.start) 0
        (Event.sort ((events.filter (f.start ≤ ·.start)).map (Event.moved (-f.start))))).map
          (Chunk.moved f.start) := by
    rw [chunksFrom_moved total f.start, Event.sort_map_moved, hsort]
  have hlaid := Timeline.laidOut_of_fill (Timeline.fill_of_pos events (hpos.trans htotal))
  have hbefore := Timeline.laidOut_of_fill (Timeline.fill_of_pos events hpos)
  exact ⟨_, _, _, hlaid, hbefore, Timeline.laidOut_of_fill (Timeline.fill_of_pos _ (sub_pos.2 htotal)),
    hparts.trans (congrArg _ hbehind)⟩

/-- A note that goes on beyond the next start is cut off there, and of the two events that start there the longer one
opens the second part. -/
theorem overrunning_note_ends_at_seam :
    ∃ timeline before behind,
      Timeline.write [{ start := 1, duration := 2 }, { start := -1, duration := 5 },
        { start := 1, duration := 1 / 2 }] 4 = .ok timeline ∧
      Timeline.write [{ start := 1, duration := 2 }, { start := -1, duration := 5 },
        { start := 1, duration := 1 / 2 }] 1 = .ok before ∧
      Timeline.write [{ start := 0, duration := 2 }, { start := 0, duration := 1 / 2 }] 3 = .ok behind ∧
      timeline.chunks = before.chunks ++ behind.chunks.map (Chunk.moved 1) := by
  let events : List Event :=
    [{ start := 1, duration := 2 }, { start := -1, duration := 5 }, { start := 1, duration := 1 / 2 }]
  have hlater : (events.filter ((1 : Rat) ≤ ·.start)).map (Event.moved (-1)) =
      [{ start := 0, duration := 2 }, { start := 0, duration := 1 / 2 }] := by
    norm_num [events, List.filter, Event.moved]
  rcases @onset_is_seam events 1 4 (by norm_num) (by norm_num) ⟨_, List.mem_cons_self .., rfl⟩ with
    ⟨timeline, before, behind, hlaid, hbefore, hbehind, hchunks⟩
  have hrest : (4 : Rat) - 1 = 3 := by norm_num
  rw [hlater, hrest] at hbehind
  have hevents : ∀ e ∈ events, Literal.isWritable e.start = true ∧ Literal.isWritable e.duration = true := by
    decide +kernel
  exact ⟨timeline, before, behind, hlaid.written (.of_writable (by decide +kernel) hevents),
    hbefore.written (.of_writable (by decide +kernel) hevents),
    hbehind.written (.of_writable (by decide +kernel) (by decide +kernel)), hchunks⟩

/-- Until two there is a timeline, but the whole grid has none if of the two events that start at two the shorter one is
too short to be reported. -/
theorem unreportable_tie_has_no_seam :
    (∃ before, Timeline.write (Event.sliverTie 2) 2 = .ok before) ∧
      ¬ ∃ timeline, Timeline.write (Event.sliverTie 2) 4 = .ok timeline := by
  constructor
  · -- both events start beyond a grid that ends at two, so nothing is said of their durations
    have hreportable : Event.Reportable (Event.sliverTie 2) 2 := by
      refine ⟨fun _ _ _ => by decide +kernel, ?_⟩
      intro n e he hstart
      have hmem := List.mem_of_getElem? he
      simp only [Event.sliverTie, List.mem_cons, List.not_mem_nil, or_false] at hmem
      rcases hmem with rfl | rfl <;> exact absurd hstart (lt_irrefl 2)
    exact ⟨_, (Timeline.laidOut_of_fill (Timeline.fill_of_pos _ two_pos)).written hreportable⟩
  · exact Timeline.not_exists_write_sliverTie (by norm_num) (by norm_num) []

end Barline
