import Barline.Proofs.Timeline.Order
import Barline.Proofs.Timeline.Shape

/-!
# Replays — a timeline is laid out as itself

The chunks of a timeline may be taken for events again: every event from where it is heard, for as long as it is heard.
Laid out on the same grid, they come out as they were. They are in order and do not overlap, so nothing is cut off, and
since a gap is one silence in the timeline already, it becomes the same silence again.

* `Chunk.playedFrom` is a sequence of chunks whose events are as they are heard, `Timeline.heard` are these events.
* `le_start_of_heard` and `cutOff_heard` say that what is heard leaves the rest alone.
* `chunksFrom_heard` is about the walk over what is heard, `timeline_replays_itself` about whole timelines.
-/

namespace Barline

/-! ## What is heard -/

/-- An event as it is heard from a time on, for so many beats. -/
def Event.playedAt (t d : Rat) (e : Event) : Event :=
  { e with start := t, duration := d }

namespace Chunk

/-- A chunk at a time; its event is as it is heard there. -/
def playedAt (t : Rat) : Chunk → Chunk
  | rest d => rest d
  | note d e => note d (e.playedAt t d)

/-- Chunks that follow each other from a time on, with their events as they are heard. -/
def playedFrom : Rat → List Chunk → List Chunk
  | _, [] => []
  | t, c :: later => c.playedAt t :: playedFrom (t + c.duration) later

/-- The events of chunks that follow each other from a time on, as they are heard. -/
def heardFrom (t : Rat) (cs : List Chunk) : List Event :=
  (playedFrom t cs).filterMap event?

variable {sound : Rat → Option Event} {t u d : Rat} {c : Chunk} {cs later : List Chunk} {e f : Event}

@[simp] theorem duration_playedAt : (c.playedAt t).duration = c.duration := by
  cases c <;> rfl

@[simp] theorem length_playedFrom : (playedFrom t cs).length = cs.length := by
  induction cs generalizing t with
  | nil => rfl
  | cons c later ih => rw [playedFrom, List.length_cons, List.length_cons, ih]

@[simp] theorem map_duration_playedFrom : (playedFrom t cs).map duration = cs.map duration := by
  induction cs generalizing t with
  | nil => rfl
  | cons c later ih => rw [playedFrom, List.map_cons, List.map_cons, ih, duration_playedAt]

/-- The chunk at a position is played when those before it are over. -/
theorem getElem?_playedFrom (i : Nat) :
    (playedFrom t cs)[i]? = cs[i]?.map fun c => c.playedAt (t + ((cs.map duration).take i).sum) := by
  -- behind the first chunk, the sum is short of its duration and the time is ahead by it
  induction cs generalizing t i with
  | nil => rfl
  | cons c later ih =>
    cases i with
    | zero => simp [playedFrom]
    | succ i => simp [playedFrom, ih, add_assoc]

theorem heardFrom_rest : heardFrom t (rest d :: later) = heardFrom (t + d) later := rfl

theorem heardFrom_note :
    heardFrom t (note d e :: later) = e.playedAt t d :: heardFrom (t + d) later := rfl

/-! ## Chunks that fill a stretch -/

theorem Fill.le (h : Fill sound t u cs) : t ≤ u := by
  induction h with
  | done t => exact le_rfl
  | step positive _ _ ih => linarith

theorem Fill.eq_nil (h : Fill sound t u cs) (hut : u ≤ t) : cs = [] := by
  cases h with
  | done t => rfl
  | step positive _ rest =>
    have hle := rest.le
    linarith

/-- Nothing is heard before the chunks begin. -/
theorem le_start_of_heard (h : Fill sound t u cs) : ∀ f ∈ heardFrom t cs, t ≤ f.start := by
  induction h with
  | done t => simp [heardFrom, playedFrom]
  | @step t u c later positive _ _ ih =>
    intro f hf
    cases c with
    | rest d =>
      have hle := ih f hf
      simp only [duration] at positive hle
      linarith
    | note d e =>
      rcases List.mem_cons.1 hf with rfl | hf
      · exact le_rfl
      · have hle := ih f hf
        simp only [duration] at positive hle
        linarith

/-- What is heard later starts later. -/
theorem heardFrom_pairwise (h : Fill sound t u cs) : (heardFrom t cs).Pairwise (·.start < ·.start) := by
  induction h with
  | done t => exact .nil
  | @step t u c later positive _ hrest ih =>
    cases c with
    | rest d => exact ih
    | note d e =>
      refine List.pairwise_cons.2 ⟨?_, ih⟩
      intro f hf
      have hle := le_start_of_heard hrest f hf
      have hstart : (e.playedAt t d).start = t := rfl
      simp only [duration] at positive hle
      linarith

theorem sort_heardFrom (h : Fill sound t u cs) : Event.sort (heardFrom t cs) = heardFrom t cs := by
  refine List.mergeSort_of_pairwise ((heardFrom_pairwise h).imp ?_)
  intro a b hab
  exact Event.precedes_iff.2 (Or.inl hab)

end Chunk

/-! ## The walk over what is heard -/

section Walk

variable {sound : Rat → Option Event} {t d total : Rat} {e : Event} {cs : List Chunk}

/-- What is heard is not cut off before its end. -/
theorem cutOff_heard (e : Event) (h : Chunk.Fill sound (t + d) total cs) :
    cutOff total (e.playedAt t d) (Chunk.heardFrom (t + d) cs) = t + d := by
  have hstop : (e.playedAt t d).stop = t + d := rfl
  have hle := Chunk.le_start_of_heard h
  simp only [cutOff, earlier_eq_min, hstop]
  cases hheard : Chunk.heardFrom (t + d) cs with
  | nil => simp [h.le]
  | cons f later =>
    rw [hheard] at hle
    simp [hle f (List.mem_cons_self ..), h.le]

/-- A chunk with an event is laid out again as it is played, if those behind it are. -/
theorem chunksFrom_heard_note (hd : 0 < d) (hrest : Chunk.Fill sound (t + d) total cs)
    (hlater : chunksFrom total (t + d) (Chunk.heardFrom (t + d) cs) = Chunk.playedFrom (t + d) cs) :
    chunksFrom total t (Chunk.heardFrom t (.note d e :: cs)) = Chunk.playedFrom t (.note d e :: cs) := by
  have hend : t < t + d := lt_add_of_pos_right t hd
  have honset : (e.playedAt t d).start = t := rfl
  have hcutOff := cutOff_heard e hrest
  have hsounds : max t (e.playedAt t d).start < cutOff total (e.playedAt t d) (Chunk.heardFrom (t + d) cs) := by
    rwa [hcutOff, honset, max_self]
  have hgap : silentChunk t t = [] := if_neg (lt_irrefl t)
  rw [Chunk.heardFrom_note, chunksFrom_of_sounds (hend.trans_le hrest.le) hsounds, hcutOff, honset, max_self, hgap,
    add_sub_cancel_left, List.nil_append, Chunk.playedFrom]
  congr 1
  by_cases hfull : total ≤ t + d
  · -- there is no room for a chunk behind the end of the grid
    rw [if_pos hfull, hrest.eq_nil hfull, Chunk.playedFrom]
  · rw [if_neg hfull]
    exact hlater

/-- A silence is laid out again, if what is behind it is and it is not a silence too. -/
theorem chunksFrom_heard_rest (hd : 0 < d) (hrest : Chunk.Fill sound (t + d) total cs)
    (hapart : Chunk.SilencesApart (.rest d :: cs))
    (hlater : chunksFrom total (t + d) (Chunk.heardFrom (t + d) cs) = Chunk.playedFrom (t + d) cs) :
    chunksFrom total t (Chunk.heardFrom t (.rest d :: cs)) = Chunk.playedFrom t (.rest d :: cs) := by
  have hsilence : silentChunk t (t + d) = [.rest d] := by
    rw [silentChunk, if_pos (lt_add_of_pos_right t hd), add_sub_cancel_left]
  cases cs with
  | nil =>
    -- it goes on until the end of the grid
    obtain rfl : t + d = total := le_antisymm hrest.le (not_lt.1 fun hlt => hrest.ne_nil hlt rfl)
    exact (chunksFrom_nil (t + d) t).trans hsilence
  | cons c cs =>
    cases c with
    | rest d' => simp [Chunk.SilencesApart, Chunk.event?] at hapart
    | note d' e =>
      -- it goes on until the event, and there the walk might as well begin
      have honset : (e.playedAt (t + d) d').start = t + d := rfl
      have hstart : t + d < total := not_le.1 fun hle => List.cons_ne_nil _ _ (hrest.eq_nil hle)
      have hstep := @chunksFrom_of_le_start total t (e.playedAt (t + d) d') (Chunk.heardFrom (t + d + d') cs)
        (lt_add_of_pos_right t hd).le hstart
      rw [Chunk.heardFrom_note] at hlater
      rw [Chunk.heardFrom_rest, Chunk.heardFrom_note, hstep, honset, hsilence, hlater]
      rfl

/-- A walk over what is heard in some chunks lays these chunks out, if no two silences are neighbours. -/
theorem chunksFrom_heard (h : Chunk.Fill sound t total cs) (hapart : Chunk.SilencesApart cs) :
    chunksFrom total t (Chunk.heardFrom t cs) = Chunk.playedFrom t cs := by
  induction h with
  | done t => exact (chunksFrom_nil t t).trans (if_neg (lt_irrefl t))
  | @step t total c later positive _ hrest ih =>
    have hlater := ih hapart.tail
    cases c with
    | rest d => exact chunksFrom_heard_rest positive hrest hapart hlater
    | note d e => exact chunksFrom_heard_note positive hrest hlater

/-- A walk over what is heard in some chunks has nothing to report, wherever it begins. -/
theorem noticesFrom_heard {s : Rat} (h : Chunk.Fill sound t total cs) (hst : s ≤ t) :
    noticesFrom total s (Chunk.heardFrom t cs) = [] := by
  -- in a silence the cursor stays behind, so it is any cursor that has not passed the next event
  induction h generalizing s with
  | done t => exact noticesFrom_nil
  | @step t total c later positive _ hrest ih =>
    cases c with
    | rest d => exact ih (hst.trans (lt_add_of_pos_right t positive).le)
    | note d e =>
      simp only [Chunk.duration] at positive hrest ih
      have hend : t < t + d := lt_add_of_pos_right t positive
      have honset : max s (e.playedAt t d).start = t := max_eq_right hst
      rw [Chunk.heardFrom_note, noticesFrom_cons (hend.trans_le hrest.le), honset, cutOff_heard e hrest, if_pos hend,
        max_eq_right hend.le, List.nil_append]
      split
      case isTrue hfull =>
        rw [hrest.eq_nil hfull]
        rfl
      case isFalse => exact ih le_rfl

end Walk

/-! ## Timelines -/

/-- The events of a timeline, each from where it is heard and for as long as it is heard. -/
def Timeline.heard (timeline : Timeline) : List Event :=
  Chunk.heardFrom 0 timeline.chunks

/-- A timeline is laid out as itself. If all events have a duration, then the events of their timeline, each from where
it is heard and for as long as it is heard, are laid out on the same grid in as many chunks: at every position there is
a chunk of the same kind and length, and it carries the event as it is heard there. The second time nothing is dropped,
so there is nothing to report. -/
theorem timeline_replays_itself {events : List Event} {total : Rat} (htotal : 0 < total)
    (hpos : ∀ e ∈ events, 0 < e.duration) :
    ∃ timeline again, Timeline.LaidOut timeline events total ∧
      Timeline.write timeline.heard total = .ok again ∧
      again.chunks.length = timeline.chunks.length ∧
      again.durations = timeline.durations ∧
      ∀ i (c : Chunk), timeline.chunks[i]? = some c →
        again.chunks[i]? = some (c.playedAt (timeline.durations.take i).sum) := by
  rcases exists_fill events htotal with ⟨timeline, hfill, hchunks⟩
  have hapart : Chunk.SilencesApart timeline.chunks := by
    rw [(Timeline.eq_of_fill hfill).2]
    refine silencesApart_chunksFrom ?_ (sort_starts events) htotal
    intro e he
    exact hpos e ((Event.sort_perm events).mem_iff.1 he)
  let again : Timeline := ⟨total, placements total 0 timeline.heard⟩
  -- what is heard comes in order and does not overlap, so the second walk places all of it and drops nothing
  have hagain : again.chunks = Chunk.playedFrom 0 timeline.chunks := chunksFrom_heard hchunks hapart
  have hsilent : again.notices = [] := noticesFrom_heard hchunks le_rfl
  have hsort : Event.sort timeline.heard = timeline.heard := Chunk.sort_heardFrom hchunks
  have hwrite : Timeline.write timeline.heard total = .ok again := by
    have hfillAgain := Timeline.fill_of_pos timeline.heard htotal
    rw [hsort] at hfillAgain
    rw [Timeline.write_of_fill hfillAgain, hsilent]
    rfl
  refine ⟨timeline, again, Timeline.laidOut_of_fill hfill, hwrite, ?_, ?_, ?_⟩
  · rw [hagain, Chunk.length_playedFrom]
  · rw [Timeline.durations, hagain, Chunk.map_duration_playedFrom, Timeline.durations]
  · intro i c hc
    rw [hagain, Chunk.getElem?_playedFrom, hc, zero_add]
    rfl

/-- An event that is cut off, a tie that is dropped and an event that starts before the grid are gone the second time,
and what is heard of the others is laid out with the same two silences. -/
theorem trimmed_events_replay :
    ∃ again, Timeline.write [{ start := 0, duration := 1 }, { start := 1, duration := 2 },
        { start := 5, duration := 1 }] 8 = .ok again ∧
      again.durations = [1, 2, 2, 1, 2] := by
  let events : List Event := [{ start := -1, duration := 5 }, { start := 1, duration := 1 / 2 },
    { start := 1, duration := 2 }, { start := 5, duration := 1 }]
  have hsort : Event.sort events = events :=
    List.mergeSort_of_pairwise (by decide +kernel)
  have hreportable : Event.Reportable events 8 := .of_writable (by decide +kernel) (by decide +kernel)
  rcases @timeline_replays_itself events 8 (by norm_num) (by norm_num [events]) with
    ⟨timeline, again, hlaid, hagain, _, hdurations, _⟩
  have htimeline : timeline = ⟨8, placements 8 0 events⟩ := by
    rw [(Timeline.eq_of_fill (Timeline.fill_of_write (hlaid.written hreportable))).2, hsort]
  subst htimeline
  have hheard : (⟨8, placements 8 0 events⟩ : Timeline).heard =
      [{ start := 0, duration := 1 }, { start := 1, duration := 2 }, { start := 5, duration := 1 }] := by
    decide +kernel
  rw [hheard] at hagain
  refine ⟨again, hagain, hdurations.trans ?_⟩
  decide +kernel

/-- A tie with a note too short to be reported is never laid out a first time. -/
theorem unreportable_tie_never_plays :
    (∀ e ∈ Event.sliverTie 0, 0 < e.duration) ∧
      ¬ ∃ timeline again, Timeline.write (Event.sliverTie 0) 8 = .ok timeline ∧
        Timeline.write timeline.heard 8 = .ok again := by
  refine ⟨by simp [Event.sliverTie, Literal.sliver_pos], ?_⟩
  rintro ⟨timeline, _, h, _⟩
  exact Timeline.not_exists_write_sliverTie (by norm_num) (by norm_num) [] ⟨timeline, h⟩

end Barline
