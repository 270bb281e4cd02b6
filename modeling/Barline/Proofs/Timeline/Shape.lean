import Barline.Proofs.Timeline.Report
import Mathlib.Data.List.Chain

/-!
# Shape — timelines are in canonical form

A walk puts no more into a timeline than it has to: one silence for a gap, and one chunk for an event that is heard, at
the place of the event. Events that start together make this less plain than it seems, as all but the last of them are
dropped where the cursor stands: what is dropped right after a silence must not be followed by a second silence.

* `Chunk.Placed` says that every chunk of an event begins with the event and is over in time.
* `exists_note_of_start` says that the walk goes on with a chunk of an event where one is about to start.
* `timeline_is_canonical` is about whole timelines.
-/

namespace Barline

/-! ## Events in their places -/

/-- From time `t` on, every event begins at its start, or at zero if it starts before, and ends in time. -/
inductive Chunk.Placed (total : Rat) : Rat → List Chunk → Prop where
  | done (t : Rat) : Placed total t []
  | rest {t d : Rat} {later : List Chunk} (h : Placed total (t + d) later) : Placed total t (.rest d :: later)
  | note {t d : Rat} {e : Event} {later : List Chunk} (onset : t = max 0 e.start) (stop : t + d ≤ e.stop)
      (fits : t + d ≤ total) (h : Placed total (t + d) later) : Placed total t (.note d e :: later)

namespace Chunk.Placed

variable {total t u d : Rat} {e : Event} {cs : List Chunk}

/-- The chunk at position `i` begins when those before it are over. -/
theorem of_getElem? (h : Placed total t cs) {i : Nat} (hi : cs[i]? = some (.note d e)) :
    t + ((cs.map Chunk.duration).take i).sum = max 0 e.start ∧
      t + ((cs.map Chunk.duration).take i).sum + d ≤ e.stop ∧
      t + ((cs.map Chunk.duration).take i).sum + d ≤ total := by
  -- behind the first chunk, the sum is short of its duration and the time is ahead by it
  induction h generalizing i with
  | done t => simp at hi
  | rest h ih =>
    cases i with
    | zero => simp at hi
    | succ i => simpa [Chunk.duration, add_assoc] using ih (by simpa using hi)
  | note onset stop fits h ih =>
    cases i with
    | zero =>
      simp only [List.getElem?_cons_zero, Option.some.injEq, Chunk.note.injEq] at hi
      obtain ⟨rfl, rfl⟩ := hi
      simpa using ⟨onset, stop, fits⟩
    | succ i => simpa [Chunk.duration, add_assoc] using ih (by simpa using hi)

theorem silentChunk_append (h : Placed total (max t u) cs) : Placed total t (silentChunk t u ++ cs) := by
  unfold silentChunk
  split
  case isTrue hlt =>
    rw [max_eq_right hlt.le, ← add_sub_cancel t u] at h
    exact .rest h
  case isFalse hnot =>
    rw [max_eq_left (not_lt.1 hnot)] at h
    exact h

theorem soundingChunk_append (onset : t = max 0 e.start) (stop : u ≤ e.stop) (fits : u ≤ total)
    (h : Placed total (max t u) cs) : Placed total t (soundingChunk t u e ++ cs) := by
  unfold soundingChunk
  split
  case isTrue hlt =>
    have hu : t + (u - t) = u := add_sub_cancel t u
    rw [max_eq_right hlt.le, ← hu] at h
    exact .note onset (hu.le.trans stop) (hu.le.trans fits) h
  case isFalse hnot =>
    rw [max_eq_left (not_lt.1 hnot)] at h
    exact h

end Chunk.Placed

section Walk

variable {total t : Rat} {e : Event} {later : List Event}

theorem placed_silentChunk (t u : Rat) : Chunk.Placed total t (silentChunk t u) := by
  simpa using Chunk.Placed.silentChunk_append (.done (max t u))

theorem placed_chunksFrom (hsorted : later.Pairwise (·.start ≤ ·.start)) (h : Prompt t later) :
    Chunk.Placed total t (chunksFrom total t later) := by
  induction later generalizing t with
  | nil => simpa only [chunksFrom_nil] using placed_silentChunk t total
  | cons e later ih =>
    by_cases hend : total ≤ e.start
    · simpa only [chunksFrom_of_total_le hend] using placed_silentChunk t total
    · rw [chunksFrom_cons (not_le.1 hend)]
      -- the event begins where the silence before it ends, and the next one where this one is cut off
      refine .silentChunk_append (.soundingChunk_append h.onset_eq cutOff_le_stop cutOff_le_total ?_)
      split
      · exact .done _
      · exact ih (List.pairwise_cons.1 hsorted).2 (h.step hsorted)

/-! ## Events in their order -/

theorem filterMap_silentChunk (t u : Rat) : (silentChunk t u).filterMap Chunk.event? = [] := by
  unfold silentChunk
  split <;> rfl

theorem filterMap_soundingChunk_sublist (t u : Rat) (e : Event) :
    ((soundingChunk t u e).filterMap Chunk.event?).Sublist [e] := by
  unfold soundingChunk
  split
  · exact List.Sublist.refl [e]
  · exact List.nil_sublist [e]

/-- Events come in their order, and each of them at most once. -/
theorem events_chunksFrom_sublist (total t : Rat) (later : List Event) :
    ((chunksFrom total t later).filterMap Chunk.event?).Sublist later := by
  induction later generalizing t with
  | nil => simp [chunksFrom_nil, filterMap_silentChunk]
  | cons e later ih =>
    by_cases hend : total ≤ e.start
    · simp [chunksFrom_of_total_le hend, filterMap_silentChunk]
    · simp only [chunksFrom_cons (not_le.1 hend), List.filterMap_append, filterMap_silentChunk, List.nil_append]
      refine (filterMap_soundingChunk_sublist _ _ e).append ?_
      split
      · exact List.nil_sublist later
      · exact ih _

theorem length_silentChunk_le (t u : Rat) : (silentChunk t u).length ≤ 1 := by
  unfold silentChunk
  split <;> simp

theorem length_soundingChunk_le (t u : Rat) (e : Event) : (soundingChunk t u e).length ≤ 1 := by
  unfold soundingChunk
  split <;> simp

theorem length_chunksFrom_le (total t : Rat) (later : List Event) :
    (chunksFrom total t later).length ≤ 2 * later.length + 1 := by
  induction later generalizing t with
  | nil =>
    rw [chunksFrom_nil]
    exact length_silentChunk_le t total
  | cons e later ih =>
    have hrest := length_silentChunk_le t total
    by_cases hend : total ≤ e.start
    · rw [chunksFrom_of_total_le hend]
      omega
    · -- an event adds a silence and a chunk of its own at most
      have hgap := length_silentChunk_le t e.start
      have hnote := length_soundingChunk_le (max t e.start) (cutOff total e later) e
      rw [chunksFrom_cons (not_le.1 hend), List.length_append, List.length_append, List.length_cons]
      split
      · rw [List.length_nil]
        omega
      · have hlater := ih (max (max t e.start) (cutOff total e later))
        omega

/-! ## Silences -/

/-- The walk past an event that is heard. -/
theorem chunksFrom_of_sounds (hstart : e.start < total) (h : max t e.start < cutOff total e later) :
    chunksFrom total t (e :: later) =
      silentChunk t e.start ++ .note (cutOff total e later - max t e.start) e ::
        if total ≤ cutOff total e later then [] else chunksFrom total (cutOff total e later) later := by
  simp only [chunksFrom_cons hstart, soundingChunk, if_pos h, max_eq_right h.le, List.singleton_append]

/-- The walk past an event that is dropped. -/
theorem chunksFrom_of_dropped (ht : t < total) (hstart : e.start < total)
    (h : cutOff total e later ≤ max t e.start) :
    chunksFrom total t (e :: later) = silentChunk t e.start ++ chunksFrom total (max t e.start) later := by
  have hleft : ¬ total ≤ max t e.start := not_le.2 (max_lt ht hstart)
  simp only [chunksFrom_cons hstart, soundingChunk, if_neg (not_lt.2 h), max_eq_left h, if_neg hleft,
    List.nil_append]

/-- An event of some duration that is cut off at its own start makes room for another one that starts there. -/
theorem exists_tied_of_cutOff_le_start (hpos : 0 < e.duration) (hstart : e.start < total)
    (hsorted : (e :: later).Pairwise (·.start ≤ ·.start)) (h : cutOff total e later ≤ e.start) :
    ∃ f rest, later = f :: rest ∧ f.start = e.start := by
  have hstop : e.start < e.stop := lt_add_of_pos_right _ hpos
  cases later with
  | nil =>
    have hcutOff : e.start < cutOff total e [] := by simp [cutOff, hstart, hstop]
    exact absurd hcutOff (not_lt.2 h)
  | cons f rest =>
    -- a later start would leave the event some time
    have hnot : ¬ e.start < f.start := by
      intro hlt
      have hcutOff : e.start < cutOff total e (f :: rest) := by simp [cutOff, hstart, hstop, hlt]
      exact absurd hcutOff (not_lt.2 h)
    exact ⟨f, rest, rfl, le_antisymm (not_lt.1 hnot) ((List.pairwise_cons.1 hsorted).1 f (List.mem_cons_self ..))⟩

/-- Where an event is about to start, the next chunk is that of an event: the last of those that start there. -/
theorem exists_note_of_start (hpos : ∀ f ∈ e :: later, 0 < f.duration) (hstart : e.start < total)
    (hsorted : (e :: later).Pairwise (·.start ≤ ·.start)) :
    ∃ d f cs, chunksFrom total e.start (e :: later) = .note d f :: cs := by
  have hgap : silentChunk e.start e.start = [] := if_neg (lt_irrefl _)
  induction later generalizing e with
  | nil =>
    have hsounds : max e.start e.start < cutOff total e [] := by
      have hstop : e.start < e.stop := lt_add_of_pos_right _ (hpos e (List.mem_cons_self ..))
      simp [cutOff, hstart, hstop]
    exact ⟨_, _, _, by rw [chunksFrom_of_sounds hstart hsounds, hgap, List.nil_append]⟩
  | cons f later ih =>
    rcases lt_or_ge (max e.start e.start) (cutOff total e (f :: later)) with hsounds | hdropped
    · exact ⟨_, _, _, by rw [chunksFrom_of_sounds hstart hsounds, hgap, List.nil_append]⟩
    · -- the event is dropped, and the cursor stays where the next one starts
      have hcutOff : cutOff total e (f :: later) ≤ e.start := by simpa using hdropped
      rcases exists_tied_of_cutOff_le_start (hpos e (List.mem_cons_self ..)) hstart hsorted hcutOff with
        ⟨g, rest, htail, hg⟩
      obtain ⟨rfl, rfl⟩ := List.cons.inj htail
      rw [chunksFrom_of_dropped hstart hstart hdropped, hgap, List.nil_append, max_self, ← hg]
      refine ih ?_ (hg.trans_lt hstart) (List.pairwise_cons.1 hsorted).2 (if_neg (lt_irrefl _))
      intro g' hg'
      exact hpos g' (List.mem_cons_of_mem e hg')

/-- Of any two neighbours, one carries an event. -/
def Chunk.SilencesApart (cs : List Chunk) : Prop :=
  cs.IsChain fun c d => c.event?.isSome ∨ d.event?.isSome

theorem silencesApart_silentChunk_append {u : Rat} {cs : List Chunk} (h : Chunk.SilencesApart cs)
    (hhead : t < u → ∀ c, cs.head? = some c → c.event?.isSome) :
    Chunk.SilencesApart (silentChunk t u ++ cs) := by
  unfold silentChunk
  split
  case isTrue hlt => exact List.isChain_cons.2 ⟨fun c hc => Or.inr (hhead hlt c hc), h⟩
  case isFalse hnot => exact h

theorem silencesApart_silentChunk (t u : Rat) : Chunk.SilencesApart (silentChunk t u) := by
  have hnil : Chunk.SilencesApart [] := List.isChain_nil
  simpa using @silencesApart_silentChunk_append t u [] hnil (by simp)

/-- There is an event between two silences, if all events have a duration. -/
theorem silencesApart_chunksFrom (hpos : ∀ f ∈ later, 0 < f.duration)
    (hsorted : later.Pairwise (·.start ≤ ·.start)) (ht : t < total) :
    Chunk.SilencesApart (chunksFrom total t later) := by
  induction later generalizing t with
  | nil =>
    rw [chunksFrom_nil]
    exact silencesApart_silentChunk t total
  | cons e later ih =>
    have hpos' : ∀ f ∈ later, 0 < f.duration := fun f hf => hpos f (List.mem_cons_of_mem e hf)
    have hsorted' := (List.pairwise_cons.1 hsorted).2
    by_cases hend : total ≤ e.start
    · rw [chunksFrom_of_total_le hend]
      exact silencesApart_silentChunk t total
    have hstart : e.start < total := not_le.1 hend
    rcases lt_or_ge (max t e.start) (cutOff total e later) with hsounds | hdropped
    · -- whatever comes behind the event may begin with a silence
      rw [chunksFrom_of_sounds hstart hsounds]
      refine silencesApart_silentChunk_append (List.isChain_cons.2 ⟨fun _ _ => Or.inl rfl, ?_⟩) ?_
      · split
        case isTrue => exact List.isChain_nil
        case isFalse hleft => exact ih hpos' hsorted' (not_le.1 hleft)
      · rintro _ c ⟨⟩
        rfl
    · rw [chunksFrom_of_dropped ht hstart hdropped]
      refine silencesApart_silentChunk_append (ih hpos' hsorted' (max_lt ht hstart)) ?_
      -- after a silence the cursor is at the start of the event, and so is the next event
      intro hgap c hc
      have honset : max t e.start = e.start := max_eq_right hgap.le
      rw [honset] at hdropped hc
      rcases exists_tied_of_cutOff_le_start (hpos e (List.mem_cons_self ..)) hstart hsorted hdropped with
        ⟨f, rest, rfl, hf⟩
      rcases exists_note_of_start hpos' (hf.trans_lt hstart) hsorted' with ⟨d, g, cs, hnote⟩
      rw [← hf, hnote] at hc
      obtain rfl : Chunk.note d g = c := Option.some.inj hc
      rfl

end Walk

/-- A timeline is in canonical form. If all events have a duration, no two silences are neighbours. Events come in the
order of the layout and each at most once. Every event that is heard begins at its start, or at zero if it starts
before, and ends by its own end and by that of the grid. There are at most two chunks for each event, and one more. -/
theorem timeline_is_canonical (events : List Event) {total : Rat} (htotal : 0 < total) :
    ∃ timeline, Timeline.LaidOut timeline events total ∧
      ((∀ e ∈ events, 0 < e.duration) → Chunk.SilencesApart timeline.chunks) ∧
      (timeline.chunks.filterMap Chunk.event?).Sublist (Event.sort events) ∧
      (∀ i d e, timeline.chunks[i]? = some (.note d e) →
        (timeline.durations.take i).sum = max 0 e.start ∧
          (timeline.durations.take i).sum + d ≤ e.start + e.duration ∧
          (timeline.durations.take i).sum + d ≤ total) ∧
      timeline.chunks.length ≤ 2 * events.length + 1 := by
  have hsorted := sort_starts events
  have hlaid := Timeline.laidOut_of_fill (Timeline.fill_of_pos events htotal)
  refine ⟨_, hlaid, ?_, ?_, ?_, ?_⟩
  · intro hpos
    refine silencesApart_chunksFrom ?_ hsorted htotal
    intro e he
    exact hpos e ((Event.sort_perm events).mem_iff.1 he)
  · exact events_chunksFrom_sublist total 0 (Event.sort events)
  · intro i d e hi
    -- the cursor passes no start, so a note begins where its event does
    have hprompt : Prompt 0 (Event.sort events) := ⟨le_rfl, fun _ _ => le_max_left _ _⟩
    have hplaced := (placed_chunksFrom hsorted hprompt).of_getElem? hi
    simp only [zero_add] at hplaced
    exact hplaced
  · have hlength := length_chunksFrom_le total 0 (Event.sort events)
    rwa [(Event.sort_perm events).length_eq] at hlength

/-- Of three events that start together after a silence, two are dropped and no second silence is left. -/
theorem dropped_ties_leave_one_silence :
    ∃ timeline, Timeline.write [{ start := 1, duration := 3 }, { start := 1, duration := 1 / 2 },
        { start := 1, duration := 2 }] 8 = .ok timeline ∧
      Chunk.SilencesApart timeline.chunks ∧
      timeline.chunks.length ≤ 7 := by
  let events : List Event :=
    [{ start := 1, duration := 3 }, { start := 1, duration := 1 / 2 }, { start := 1, duration := 2 }]
  have htotal : (0 : Rat) < 8 := by norm_num
  have hpos : ∀ e ∈ events, 0 < e.duration := by norm_num [events]
  have hreportable : Event.Reportable events 8 := .of_writable (by decide +kernel) (by decide +kernel)
  rcases timeline_is_canonical events htotal with ⟨timeline, hlaid, hsilences, _, _, hlength⟩
  exact ⟨timeline, hlaid.written hreportable, hsilences hpos, hlength⟩

/-- Two events of some duration that start together after a silence have no timeline at all, in whatever form, if the
shorter one is too short to be reported. -/
theorem unreportable_tie_has_no_shape :
    (∀ e ∈ Event.sliverTie 1, 0 < e.duration) ∧
      ¬ ∃ timeline, Timeline.write (Event.sliverTie 1) 8 = .ok timeline := by
  refine ⟨by simp [Event.sliverTie, Literal.sliver_pos], ?_⟩
  exact Timeline.not_exists_write_sliverTie (by norm_num) (by norm_num) []

end Barline
