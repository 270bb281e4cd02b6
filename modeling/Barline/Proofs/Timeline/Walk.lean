import Barline.Timeline
import Mathlib.Algebra.Order.BigOperators.Group.List
import Mathlib.Algebra.Order.Ring.Rat
import Mathlib.Tactic.Linarith

/-!
# The walk — what a pass along the grid with a cursor lays out

`Timeline.fill` never asks what sounds at an instant: it takes the ordered events one by one and moves a cursor.
This module says what the chunks behind the cursor amount to.

* `Spans` tells which of a sequence of steps covers an instant, and `Spans.unique` that there is one at most.
* `Chunk.Fill` says that chunks follow each other from one time to another, that none of them is empty and that
  each carries what sounds at all of its instants.
* `Walked` is the invariant of the cursor, and `fill_chunksFrom` says what a whole walk lays out: at every
  instant the event that started last, until its own end.
-/

namespace Barline

/-! ## Steps -/

/-- Of steps with the given durations, laid end to end from zero, the one at position `i` covers `x`. -/
def Spans (durations : List Rat) (i : Nat) (x : Rat) : Prop :=
  ∃ d, durations[i]? = some d ∧ (durations.take i).sum ≤ x ∧ x < (durations.take i).sum + d

section Spans

variable {d x : Rat} {ds : List Rat} {i j : Nat}

theorem spans_zero : Spans (d :: ds) 0 x ↔ 0 ≤ x ∧ x < d := by
  simp [Spans]

theorem spans_succ : Spans (d :: ds) (i + 1) x ↔ Spans ds i (x - d) := by
  simp only [Spans, List.getElem?_cons_succ, List.take_succ_cons, List.sum_cons]
  constructor
  · rintro ⟨e, he, hle, hlt⟩
    exact ⟨e, he, by linarith, by linarith⟩
  · rintro ⟨e, he, hle, hlt⟩
    exact ⟨e, he, by linarith, by linarith⟩

theorem Spans.nonneg (hpos : ∀ d ∈ ds, 0 < d) (h : Spans ds i x) : 0 ≤ x := by
  rcases h with ⟨d, _, hle, _⟩
  have hsum : 0 ≤ (ds.take i).sum := by
    refine List.sum_nonneg ?_
    intro e he
    exact (hpos e (List.mem_of_mem_take he)).le
  exact hsum.trans hle

theorem Spans.unique (hpos : ∀ d ∈ ds, 0 < d) (hi : Spans ds i x) (hj : Spans ds j x) : i = j := by
  induction ds generalizing i j x with
  | nil =>
    rcases hi with ⟨d, hd, _⟩
    simp at hd
  | cons d ds ih =>
    have hpos' : ∀ e ∈ ds, 0 < e := by
      intro e he
      exact hpos e (List.mem_cons_of_mem d he)
    -- a step after the first one covers nothing before the first one has ended
    cases i with
    | zero =>
      cases j with
      | zero => rfl
      | succ j =>
        have hlt := (spans_zero.1 hi).2
        have hle := Spans.nonneg hpos' (spans_succ.1 hj)
        linarith
    | succ i =>
      cases j with
      | zero =>
        have hlt := (spans_zero.1 hj).2
        have hle := Spans.nonneg hpos' (spans_succ.1 hi)
        linarith
      | succ j =>
        have h := ih hpos' (spans_succ.1 hi) (spans_succ.1 hj)
        rw [h]

end Spans

/-! ## Chunks that carry what sounds -/

namespace Chunk

/-- Chunks without a gap from one time to another, each carrying what sounds at all of its instants. -/
inductive Fill (sound : Rat → Option Event) : Rat → Rat → List Chunk → Prop where
  | done (t : Rat) : Fill sound t t []
  | step {t u : Rat} {c : Chunk} {later : List Chunk} (positive : 0 < c.duration)
      (carries : ∀ x, t ≤ x → x < t + c.duration → c.event? = sound x)
      (rest : Fill sound (t + c.duration) u later) : Fill sound t u (c :: later)

namespace Fill

variable {sound : Rat → Option Event} {t u x : Rat} {cs : List Chunk}

theorem single {c : Chunk} (htu : t < u) (hc : c.duration = u - t)
    (carries : ∀ x, t ≤ x → x < u → c.event? = sound x) : Fill sound t u [c] := by
  have hu : t + c.duration = u := by rw [hc, add_sub_cancel]
  refine .step ?_ ?_ ?_
  · rw [hc]
    exact sub_pos.2 htu
  · rw [hu]
    exact carries
  · rw [hu]
    exact .done u

theorem positive_durations (h : Fill sound t u cs) : ∀ d ∈ cs.map Chunk.duration, 0 < d := by
  induction h with
  | done t => simp
  | step positive _ _ ih =>
    intro d hd
    rcases List.mem_cons.1 hd with rfl | hd
    · exact positive
    · exact ih d hd

theorem sum_durations (h : Fill sound t u cs) : t + (cs.map Chunk.duration).sum = u := by
  induction h with
  | done t => simp
  | step _ _ _ ih =>
    rw [List.map_cons, List.sum_cons, ← add_assoc]
    exact ih

/-- Every instant between the two times is in a chunk that carries what sounds then. -/
theorem exists_spans (h : Fill sound t u cs) (hx : t ≤ x) (hu : x < u) :
    ∃ i c, cs[i]? = some c ∧ Spans (cs.map Chunk.duration) i (x - t) ∧ c.event? = sound x := by
  induction h with
  | done t => exact absurd hu (not_lt.2 hx)
  | @step t u c later positive carries rest ih =>
    by_cases hc : x < t + c.duration
    · refine ⟨0, c, rfl, ?_, carries x hx hc⟩
      rw [List.map_cons, spans_zero]
      constructor <;> linarith
    · rcases ih (not_lt.1 hc) hu with ⟨i, e, he, hspans, hsound⟩
      refine ⟨i + 1, e, he, ?_, hsound⟩
      rw [List.map_cons, spans_succ, sub_sub]
      exact hspans

/-- What a chunk carries sounds at some instant. -/
theorem exists_instant (h : Fill sound t u cs) : ∀ c ∈ cs, ∃ x, c.event? = sound x := by
  induction h with
  | done t => simp
  | @step t u c later positive carries _ ih =>
    intro e he
    rcases List.mem_cons.1 he with rfl | he
    · exact ⟨t, carries t (le_refl t) (by linarith)⟩
    · exact ih e he

theorem ne_nil (h : Fill sound t u cs) (htu : t < u) : cs ≠ [] := by
  rintro rfl
  have hsum := h.sum_durations
  rw [List.map_nil, List.sum_nil, add_zero] at hsum
  exact htu.ne hsum

theorem append {v : Rat} {ds : List Chunk} (h : Fill sound t u cs) (h' : Fill sound u v ds) :
    Fill sound t v (cs ++ ds) := by
  induction h with
  | done t => exact h'
  | step positive carries _ ih => exact .step positive carries (ih h')

end Fill

end Chunk

/-! ## What sounds -/

namespace Event

/-- The last, in the order of a list, of the events that have started by `x`. -/
def lastStarted (events : List Event) (x : Rat) : Option Event :=
  (events.filter (·.start ≤ x)).getLast?

/-- The event that started last sounds until its own end. -/
def sounding (events : List Event) (x : Rat) : Option Event :=
  (lastStarted events x).filter (x < ·.stop)

theorem mem_of_sounding {events : List Event} {x : Rat} {e : Event} (h : sounding events x = some e) :
    e ∈ events := by
  have hlast : (events.filter (·.start ≤ x)).getLast? = some e := (Option.filter_eq_some_iff.1 h).1
  exact (List.mem_filter.1 (List.mem_of_getLast? hlast)).1

end Event

/-! ## Parts of a step -/

@[simp] theorem earlier_eq_min (a b : Rat) : earlier a b = min a b := by
  unfold earlier
  split
  · rw [min_eq_right (by linarith)]
  · rw [min_eq_left (by linarith)]

section CutOff

variable {total : Rat} {e f : Event} {later : List Event}

theorem cutOff_le_total : cutOff total e later ≤ total := by
  simp [cutOff]

theorem cutOff_le_stop : cutOff total e later ≤ e.stop := by
  simp [cutOff]

theorem cutOff_le_start (h : later.head? = some f) : cutOff total e later ≤ f.start := by
  cases later with
  | nil => simp at h
  | cons g later =>
    obtain rfl : g = f := by simpa using h
    simp [cutOff]

/-- An event that is cut off neither by the end of the grid nor by the next start has come to its own end. -/
theorem stop_le_of_cutOff_le {t : Rat} (h : cutOff total e later ≤ t) (htotal : t < total)
    (hnext : ∀ f, later.head? = some f → t < f.start) : e.stop ≤ t := by
  cases later with
  | nil =>
    simp only [cutOff, earlier_eq_min, min_le_iff] at h
    rcases h with (h | h) | h
    · linarith
    · exact h
    · linarith
  | cons f later =>
    have hf := hnext f rfl
    simp only [cutOff, earlier_eq_min, min_le_iff] at h
    rcases h with (h | h) | h
    · linarith
    · exact h
    · linarith

end CutOff

/-- The chunks that a walk lays out from the cursor on. -/
def chunksFrom (total t : Rat) (later : List Event) : List Chunk :=
  (placements total t later).filterMap Placement.chunk?

/-- The chunk of silence between two times, if the second is later. -/
def silentChunk (t u : Rat) : List Chunk :=
  if t < u then [.rest (u - t)] else []

/-- The chunk of an event that sounds between two times, if the second is later. -/
def soundingChunk (t u : Rat) (e : Event) : List Chunk :=
  if t < u then [.note (u - t) e] else []

theorem chunks_silence (t u : Rat) :
    (silence t u).filterMap Placement.chunk? = silentChunk t u := by
  unfold silence silentChunk
  split <;> rfl

theorem chunksFrom_nil (total t : Rat) : chunksFrom total t [] = silentChunk t total :=
  chunks_silence t total

theorem chunksFrom_of_total_le {total t : Rat} {e : Event} {later : List Event}
    (h : total ≤ e.start) : chunksFrom total t (e :: later) = silentChunk t total := by
  rw [chunksFrom, placements, if_pos h, List.filterMap_cons_none rfl, chunks_silence]

/-- An event comes in at its start, or at the cursor if it should have come in before. -/
theorem onset_eq_max (t : Rat) (e : Event) : (if t < e.start then e.start else t) = max t e.start := by
  split
  · rw [max_eq_right (by linarith)]
  · rw [max_eq_left (by linarith)]

/-- One step of the walk: silence up to the event, the event up to where it is cut off, and the rest of the walk
from there, if anything is left of the grid. -/
theorem chunksFrom_cons {total t : Rat} {e : Event} {later : List Event} (h : e.start < total) :
    chunksFrom total t (e :: later) =
      silentChunk t e.start ++
        (soundingChunk (max t e.start) (cutOff total e later) e ++
          if total ≤ max (max t e.start) (cutOff total e later) then []
          else chunksFrom total (max (max t e.start) (cutOff total e later)) later) := by
  -- whether the event sounds or not, the cursor moves to the later of its onset and its cut-off
  rw [chunksFrom, placements, if_neg (not_le.2 h)]
  simp only [onset_eq_max, List.filterMap_append, chunks_silence]
  congr 1
  by_cases hs : max t e.start < cutOff total e later
  · rw [max_eq_right hs.le, soundingChunk]
    simp only [if_pos hs]
    split
    · split <;> rfl
    · rfl
  · rw [max_eq_left (not_lt.1 hs), soundingChunk]
    simp only [if_neg hs]
    split
    · split <;> rfl
    · rfl

/-- Up to the next start there is silence, and from there on the walk is one that begins there. -/
theorem chunksFrom_of_le_start {total t : Rat} {e : Event} {later : List Event} (h : t ≤ e.start)
    (hstart : e.start < total) :
    chunksFrom total t (e :: later) = silentChunk t e.start ++ chunksFrom total e.start (e :: later) := by
  have hnone : silentChunk e.start e.start = [] := if_neg (lt_irrefl _)
  rw [chunksFrom_cons hstart, chunksFrom_cons hstart, max_eq_right h, max_self, hnone, List.nil_append]

/-! ## The invariant -/

/-- How a walk stands with the cursor at `t`, events `before` it and events `later`: all events before have
started, and unless the next one has started too, the last of them has come to its end. -/
structure Walked (t : Rat) (before later : List Event) : Prop where
  started : ∀ e ∈ before, e.start ≤ t
  ended : ∀ e, before.getLast? = some e → (∀ f, later.head? = some f → t < f.start) → e.stop ≤ t

namespace Walked

variable {t u x total : Rat} {before later : List Event} {e : Event}

theorem filter_before (w : Walked t before later) (hx : t ≤ x) :
    before.filter (·.start ≤ x) = before := by
  rw [List.filter_eq_self]
  intro e he
  simpa using (w.started e he).trans hx

/-- Nothing sounds between the cursor and the next start. -/
theorem sounding_eq_none (w : Walked t before later) (hx : t ≤ x)
    (hlater : ∀ f ∈ later, x < f.start) : Event.sounding (before ++ later) x = none := by
  have hnot : later.filter (·.start ≤ x) = [] := by
    rw [List.filter_eq_nil_iff]
    intro f hf
    simpa using hlater f hf
  rw [Event.sounding, Event.lastStarted, List.filter_append, w.filter_before hx, hnot, List.append_nil]
  cases hlast : before.getLast? with
  | none => rfl
  | some e =>
    -- the event that started last has ended, as the next one has not started
    have hstop : e.stop ≤ t := by
      refine w.ended e hlast ?_
      intro f hf
      exact hx.trans_lt (hlater f (List.mem_of_mem_head? hf))
    simpa using hstop.trans hx

/-- An event sounds from its onset to where it is cut off. -/
theorem sounding_eq_some (w : Walked t before (e :: later))
    (hsorted : (e :: later).Pairwise (·.start ≤ ·.start)) (hx : max t e.start ≤ x)
    (hcut : x < cutOff total e later) : Event.sounding (before ++ e :: later) x = some e := by
  -- the cut-off is not after the next start, and no other start is before that one
  have hnot : later.filter (·.start ≤ x) = [] := by
    rw [List.filter_eq_nil_iff]
    intro f hf
    cases later with
    | nil => simp at hf
    | cons g later =>
      have hg : x < g.start := hcut.trans_le (cutOff_le_start rfl)
      have hgf : g.start ≤ f.start := by
        rcases List.mem_cons.1 hf with rfl | hf
        · exact le_refl _
        · exact (List.pairwise_cons.1 (List.pairwise_cons.1 hsorted).2).1 f hf
      simpa using hg.trans_le hgf
  have hstart : e.start ≤ x := (le_max_right _ _).trans hx
  have hstop : x < e.stop := hcut.trans_le cutOff_le_stop
  rw [Event.sounding, Event.lastStarted, List.filter_append,
    w.filter_before ((le_max_left _ _).trans hx), List.filter_cons_of_pos (by simpa using hstart), hnot,
    List.getLast?_append]
  simpa using hstop

/-- A step keeps the invariant. -/
theorem next (w : Walked t before (e :: later))
    (hleft : max (max t e.start) (cutOff total e later) < total) :
    Walked (max (max t e.start) (cutOff total e later)) (before ++ [e]) later := by
  refine ⟨?_, ?_⟩
  · intro f hf
    rcases List.mem_append.1 hf with hf | hf
    · exact (w.started f hf).trans ((le_max_left _ _).trans (le_max_left _ _))
    · obtain rfl : f = e := by simpa using hf
      exact (le_max_right _ _).trans (le_max_left _ _)
  · intro f hf hnext
    obtain rfl : e = f := by simpa using hf
    exact stop_le_of_cutOff_le (le_max_right _ _) hleft hnext

end Walked

/-! ## A whole walk -/

section Fill

variable {sound : Rat → Option Event} {t u : Rat} {e : Event}

theorem fill_silentChunk (htu : t ≤ u) (h : ∀ x, t ≤ x → x < u → sound x = none) :
    Chunk.Fill sound t u (silentChunk t u) := by
  unfold silentChunk
  split
  case isTrue hlt =>
    refine .single hlt rfl ?_
    intro x hx hxu
    exact (h x hx hxu).symm
  case isFalse hnot =>
    obtain rfl : t = u := le_antisymm htu (not_lt.1 hnot)
    exact .done t

theorem fill_soundingChunk (h : ∀ x, t ≤ x → x < u → sound x = some e) :
    Chunk.Fill sound t (max t u) (soundingChunk t u e) := by
  unfold soundingChunk
  split
  case isTrue hlt =>
    rw [max_eq_right hlt.le]
    refine .single hlt rfl ?_
    intro x hx hxu
    exact (h x hx hxu).symm
  case isFalse hnot =>
    rw [max_eq_left (not_lt.1 hnot)]
    exact .done t

end Fill

/-- From the cursor on, a walk lays out what sounds among all events, those before the cursor included. -/
theorem fill_chunksFrom {total t : Rat} {before later : List Event}
    (hsorted : later.Pairwise (·.start ≤ ·.start)) (ht : t < total) (w : Walked t before later) :
    Chunk.Fill (Event.sounding (before ++ later)) t total (chunksFrom total t later) := by
  -- the events already passed join `before`, so what sounds among all events stays the same
  induction later generalizing t before with
  | nil =>
    rw [chunksFrom_nil]
    refine fill_silentChunk ht.le ?_
    intro x hx _
    exact w.sounding_eq_none hx (by simp)
  | cons e later ih =>
    -- no event of the rest of the walk starts before this one
    have hfrom : ∀ f ∈ e :: later, e.start ≤ f.start := by
      intro f hf
      rcases List.mem_cons.1 hf with rfl | hf
      · exact le_refl _
      · exact (List.pairwise_cons.1 hsorted).1 f hf
    by_cases hend : total ≤ e.start
    · -- nothing starts on the grid any more
      rw [chunksFrom_of_total_le hend]
      refine fill_silentChunk ht.le ?_
      intro x hx hlt
      refine w.sounding_eq_none hx ?_
      intro f hf
      exact (hlt.trans_le hend).trans_le (hfrom f hf)
    · rw [chunksFrom_cons (not_le.1 hend)]
      have honset : max t e.start < total := max_lt ht (not_le.1 hend)
      have hgap : Chunk.Fill (Event.sounding (before ++ e :: later)) t (max t e.start)
          (silentChunk t e.start) := by
        by_cases hlt : t < e.start
        · rw [max_eq_right hlt.le]
          refine fill_silentChunk hlt.le ?_
          intro x hx hxe
          refine w.sounding_eq_none hx ?_
          intro f hf
          exact hxe.trans_le (hfrom f hf)
        · rw [max_eq_left (not_lt.1 hlt), silentChunk, if_neg hlt]
          exact .done t
      have hnote : Chunk.Fill (Event.sounding (before ++ e :: later)) (max t e.start)
          (max (max t e.start) (cutOff total e later))
          (soundingChunk (max t e.start) (cutOff total e later) e) := by
        refine fill_soundingChunk ?_
        intro x hx hlt
        exact w.sounding_eq_some hsorted hx hlt
      refine hgap.append (hnote.append ?_)
      split
      case isTrue hfull =>
        -- the cut-off is not beyond the grid, so a full grid is filled exactly
        have hexact : max (max t e.start) (cutOff total e later) = total :=
          le_antisymm (max_le honset.le cutOff_le_total) hfull
        rw [hexact]
        exact .done total
      case isFalse hleft =>
        have hrest := ih (List.pairwise_cons.1 hsorted).2 (not_le.1 hleft) (w.next (not_le.1 hleft))
        rwa [List.append_assoc] at hrest

theorem sort_starts (events : List Event) : (Event.sort events).Pairwise (·.start ≤ ·.start) := by
  refine (Event.sort_pairwise events).imp ?_
  intro a b h
  rcases Event.precedes_iff.1 h with h | ⟨h, _⟩
  · exact h.le
  · exact h.le

theorem Timeline.fill_of_pos (events : List Event) {total : Rat} (h : 0 < total) :
    Timeline.fill events total = .ok ⟨total, Barline.placements total 0 (Event.sort events)⟩ := by
  rw [Timeline.fill, if_neg (not_le.2 h)]

/-- A grid with a length is filled, and its chunks carry what sounds. -/
theorem exists_fill (events : List Event) {total : Rat} (h : 0 < total) :
    ∃ timeline, Timeline.fill events total = .ok timeline ∧
      Chunk.Fill (Event.sounding (Event.sort events)) 0 total timeline.chunks := by
  have w : Walked 0 [] (Event.sort events) := ⟨by simp, by simp⟩
  exact ⟨_, Timeline.fill_of_pos events h, fill_chunksFrom (sort_starts events) h w⟩

end Barline
