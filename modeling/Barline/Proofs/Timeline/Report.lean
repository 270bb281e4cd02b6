import Barline.Proofs.Timeline.Latest

/-!
# Reports — what is dropped from a timeline, and whether that can be said

A walk reports what it drops: an event that is heard at no instant with its start and its duration, and the events that
start at or beyond the end of the grid together, with the length of the grid. A number that is too long has no report,
and then there is no timeline either.

* `Event.Reportable` says of events and a grid, without a walk, that all there is to report can be written.
* `Prompt` is the invariant of the cursor: it does not pass the start of what comes next, so that no event is delayed.
* `reportsFrom_iff` says when the notices of a walk can be written, step by step.
* `Timeline.LaidOut` is what laying events out comes to: the timeline, or the fault in place of it. Every timeline that
  fills a grid is laid out in this sense (`Timeline.laidOut_of_fill`).
-/

namespace Barline

/-! ## Events that are dropped -/

/-- A length that is too short to be written. -/
@[irreducible]
def Literal.sliver : Rat :=
  mkRat 1 (tenPow Numeral.digitLimit)

theorem Literal.isWritable_sliver : isWritable sliver = false := by decide +kernel

theorem Literal.sliver_pos : 0 < sliver := by decide +kernel

theorem Literal.sliver_lt_one : sliver < 1 := by decide +kernel

namespace Event

/-- The event at position `n` is heard at no instant of a grid: where it is the latest one, it is over. -/
def Unheard (events : List Event) (total : Rat) (n : Nat) (e : Event) : Prop :=
  ∀ x, 0 ≤ x → x < total → Latest events x n e → e.start + e.duration ≤ x

/-- All that there is to report of events on a grid can be written: the length of the grid, if any of them starts at or
beyond its end, and the start and the duration of every other one that is not heard. -/
structure Reportable (events : List Event) (total : Rat) : Prop where
  beyond : ∀ e ∈ events, total ≤ e.start → Literal.isWritable total = true
  unheard : ∀ n e, events[n]? = some e → e.start < total → Unheard events total n e →
    Literal.isWritable e.start = true ∧ Literal.isWritable e.duration = true

variable {events : List Event} {total : Rat} {n m : Nat} {e f : Event}

/-- There are reports of short numbers only if all numbers are short. -/
theorem Reportable.of_writable (htotal : Literal.isWritable total = true)
    (hevents : ∀ e ∈ events, Literal.isWritable e.start = true ∧ Literal.isWritable e.duration = true) :
    Reportable events total :=
  ⟨fun _ _ _ => htotal, fun _ e he _ _ => hevents e (List.mem_of_getElem? he)⟩

/-- Of two events that start together the shorter one is not heard, so its duration has to be reported. -/
theorem not_reportable_of_tie (he : events[n]? = some e) (hf : events[m]? = some f) (htie : f.start = e.start)
    (hlonger : e.duration < f.duration) (hgrid : e.start < total) (hlong : Literal.isWritable e.duration = false) :
    ¬ Reportable events total := by
  intro hreportable
  have hunheard : Unheard events total n e := by
    intro x _ _ hlatest
    rcases hlatest.last m f hf (htie.trans_le hlatest.started) with hearlier | ⟨_, hshorter | ⟨hsame, _⟩⟩
    · exact absurd htie hearlier.ne
    · exact absurd hlonger hshorter.not_gt
    · exact absurd hsame hlonger.ne'
  have hwritable := (hreportable.unheard n e he hgrid hunheard).2
  exact absurd (hlong.symm.trans hwritable) Bool.false_ne_true

end Event

/-! ## The cursor -/

/-- A cursor that is on the grid and has not passed the start of the next event, unless that is before the grid. -/
structure Prompt (t : Rat) (later : List Event) : Prop where
  nonneg : 0 ≤ t
  next : ∀ e, later.head? = some e → t ≤ max 0 e.start

namespace Prompt

variable {total t : Rat} {e : Event} {later : List Event}

theorem onset_eq (h : Prompt t (e :: later)) : max t e.start = max 0 e.start := by
  have hnext := h.next e rfl
  refine le_antisymm (max_le hnext (le_max_right _ _)) ?_
  exact max_le_max_right e.start h.nonneg

/-- Where an event is cut off, the next one has not started yet. -/
theorem step (hsorted : (e :: later).Pairwise (·.start ≤ ·.start)) (h : Prompt t (e :: later)) :
    Prompt (max (max t e.start) (cutOff total e later)) later := by
  refine ⟨?_, ?_⟩
  · exact h.nonneg.trans ((le_max_left _ _).trans (le_max_left _ _))
  · intro f hf
    have hstart : e.start ≤ f.start := (List.pairwise_cons.1 hsorted).1 f (List.mem_of_mem_head? hf)
    -- neither the onset of the event nor its cut-off is after the next start
    rw [h.onset_eq]
    exact max_le (max_le_max_left 0 hstart) ((cutOff_le_start hf).trans (le_max_right _ _))

end Prompt

/-! ## Notices of a walk -/

/-- What there is to report of a walk from the cursor on. -/
def noticesFrom (total t : Rat) (later : List Event) : List Notice :=
  (placements total t later).filterMap (Placement.notice? total)

section Walk

variable {total t u : Rat} {e : Event} {later : List Event}

theorem notices_silence : (silence t u).filterMap (Placement.notice? total) = [] := by
  unfold silence
  split <;> rfl

theorem noticesFrom_nil : noticesFrom total t [] = [] :=
  notices_silence

theorem noticesFrom_of_total_le (h : total ≤ e.start) :
    noticesFrom total t (e :: later) = [.droppedAhead (later.length + 1) total] := by
  rw [noticesFrom, placements, if_pos h, List.filterMap_cons, notices_silence]
  rfl

/-- One step of the walk: the event is reported if it is not heard, and what is left is reported when the grid is
full. -/
theorem noticesFrom_cons (h : e.start < total) :
    noticesFrom total t (e :: later) =
      (if max t e.start < cutOff total e later then [] else [.inaudible e.start e.duration]) ++
        if total ≤ max (max t e.start) (cutOff total e later) then
          if later.isEmpty then [] else [.droppedBehind later.length total]
        else noticesFrom total (max (max t e.start) (cutOff total e later)) later := by
  rw [noticesFrom, placements, if_neg (not_le.2 h)]
  simp only [onset_eq_max, List.filterMap_append, notices_silence, List.nil_append]
  by_cases hs : max t e.start < cutOff total e later
  · rw [max_eq_right hs.le]
    simp only [if_pos hs]
    split
    · split <;> rfl
    · rfl
  · rw [max_eq_left (not_lt.1 hs)]
    simp only [if_neg hs]
    split
    · split <;> rfl
    · rfl

/-- All notices that a walk over the given events has can be written: what starts beyond the end of the grid is reported
with its length, and an event that is cut off at its onset with its start and duration. -/
def ReportsFrom (total : Rat) : List Event → Prop
  | [] => True
  | e :: later =>
    (total ≤ e.start → Literal.isWritable total = true) ∧
      (e.start < total → cutOff total e later ≤ max 0 e.start →
        Literal.isWritable e.start = true ∧ Literal.isWritable e.duration = true) ∧
      ReportsFrom total later

/-- Nothing but the length of the grid is said of events beyond its end. -/
theorem reportsFrom_of_total_le (h : ∀ f ∈ later, total ≤ f.start) (hwritable : Literal.isWritable total = true) :
    ReportsFrom total later := by
  induction later with
  | nil => trivial
  | cons e later ih =>
    rw [List.forall_mem_cons] at h
    exact ⟨fun _ => hwritable, fun hstart => absurd hstart (not_lt.2 h.1), ih h.2⟩

/-- When the grid is full, all that is left starts beyond its end. -/
theorem total_le_start_of_full (hsorted : (e :: later).Pairwise (·.start ≤ ·.start)) (honset : max t e.start < total)
    (hfull : total ≤ max (max t e.start) (cutOff total e later)) : ∀ f ∈ later, total ≤ f.start := by
  have hcutOff : total ≤ cutOff total e later := (le_max_iff.1 hfull).resolve_left (not_le.2 honset)
  intro f hf
  cases later with
  | nil => simp at hf
  | cons g later =>
    have hg : total ≤ g.start := hcutOff.trans (cutOff_le_start rfl)
    rcases List.mem_cons.1 hf with rfl | hf
    · exact hg
    · exact hg.trans ((List.pairwise_cons.1 (List.pairwise_cons.1 hsorted).2).1 f hf)

/-- The notices of a walk can be written exactly if those of its events can. -/
theorem all_noticesFrom_iff (hsorted : later.Pairwise (·.start ≤ ·.start)) (hprompt : Prompt t later) (ht : t < total) :
    (noticesFrom total t later).all Notice.isWritable = true ↔ ReportsFrom total later := by
  induction later generalizing t with
  | nil => simp [noticesFrom_nil, ReportsFrom]
  | cons e later ih =>
    by_cases hend : total ≤ e.start
    · have hlater : ∀ f ∈ later, total ≤ f.start := by
        intro f hf
        exact hend.trans ((List.pairwise_cons.1 hsorted).1 f hf)
      rw [noticesFrom_of_total_le hend]
      simp only [List.all_cons, List.all_nil, Bool.and_true, Notice.isWritable]
      constructor
      · intro hwritable
        exact ⟨fun _ => hwritable, fun hstart => absurd hstart (not_lt.2 hend),
          reportsFrom_of_total_le hlater hwritable⟩
      · exact fun h => h.1 hend
    have hstart : e.start < total := not_le.1 hend
    have honset : max t e.start < total := max_lt ht hstart
    -- the event itself, and what is left behind it
    have hevent : (if max t e.start < cutOff total e later then [] else
        [Notice.inaudible e.start e.duration]).all Notice.isWritable = true ↔
          (cutOff total e later ≤ max 0 e.start →
            Literal.isWritable e.start = true ∧ Literal.isWritable e.duration = true) := by
      rw [hprompt.onset_eq]
      split
      case isTrue hsounds => exact iff_of_true rfl fun hcutOff => absurd hsounds (not_lt.2 hcutOff)
      case isFalse hdropped => simp [not_lt.1 hdropped, Notice.isWritable]
    have hrest : (if total ≤ max (max t e.start) (cutOff total e later) then
        if later.isEmpty then [] else [Notice.droppedBehind later.length total]
        else noticesFrom total (max (max t e.start) (cutOff total e later)) later).all Notice.isWritable = true ↔
          ReportsFrom total later := by
      split
      case isFalse hleft =>
        exact ih (List.pairwise_cons.1 hsorted).2 (hprompt.step hsorted) (not_le.1 hleft)
      case isTrue hfull =>
        have hlater := total_le_start_of_full hsorted honset hfull
        cases later with
        | nil => simp [ReportsFrom]
        | cons f later =>
          simp only [List.isEmpty_cons, Bool.false_eq_true, if_false, List.all_cons, List.all_nil, Bool.and_true,
            Notice.isWritable]
          exact ⟨reportsFrom_of_total_le hlater, fun h => h.1 (hlater f (List.mem_cons_self ..))⟩
    rw [noticesFrom_cons hstart, List.all_append, Bool.and_eq_true, hevent, hrest, ReportsFrom]
    simp [hend, hstart]

end Walk

/-! ## Notices and events -/

namespace Event

variable {events : List Event} {total : Rat} {n : Nat} {e : Event} {before after : List (Event × Nat)}

theorem sort_eq_of_sortPlaced (h : sortPlaced events = before ++ (e, n) :: after) :
    sort events = before.map (·.1) ++ e :: after.map (·.1) := by
  rw [← map_fst_sortPlaced, h, List.map_append, List.map_cons]

/-- An event on the grid is heard at no instant exactly if it is cut off at its onset. -/
theorem unheard_iff_cutOff_le (h : sortPlaced events = before ++ (e, n) :: after) (htotal : 0 < total)
    (hstart : e.start < total) :
    Unheard events total n e ↔ cutOff total e (after.map (·.1)) ≤ max 0 e.start := by
  have honset : max 0 e.start < total := max_lt htotal hstart
  have hsorted : (after.map (·.1)).Pairwise (·.start ≤ ·.start) := by
    have hall := sort_starts events
    rw [sort_eq_of_sortPlaced h] at hall
    exact (List.pairwise_cons.1 (List.pairwise_append.1 hall).2.1).2
  constructor
  · intro hunheard
    by_cases hlatest : Latest events (max 0 e.start) n e
    · exact cutOff_le_stop.trans (hunheard _ (le_max_left _ _) honset hlatest)
    · -- it is not the latest one at its onset, so the next one has started by then
      rw [latest_iff_of_sortPlaced h] at hlatest
      push Not at hlatest
      obtain ⟨f, hf, hfstart⟩ := hlatest (le_max_right _ _)
      cases after with
      | nil => simp at hf
      | cons g after =>
        refine (cutOff_le_start rfl).trans (le_trans ?_ hfstart)
        rcases List.mem_cons.1 hf with rfl | hf
        · exact le_rfl
        · exact (List.pairwise_cons.1 hsorted).1 _ (List.mem_map_of_mem hf)
  · intro hcutOff x hx hxt hlatest
    obtain ⟨hstarted, hnext⟩ := (latest_iff_of_sortPlaced h).1 hlatest
    refine stop_le_of_cutOff_le (hcutOff.trans (max_le hx hstarted)) hxt ?_
    intro f hf
    rcases List.mem_map.1 (List.mem_of_mem_head? hf) with ⟨g, hg, rfl⟩
    exact hnext g hg

/-- In the order of the layout, the events can be reported from any place on exactly if each of them can. -/
theorem reportsFrom_iff (htotal : 0 < total) (h : sortPlaced events = before ++ after) :
    ReportsFrom total (after.map (·.1)) ↔ ∀ placed ∈ after,
      (total ≤ placed.1.start → Literal.isWritable total = true) ∧
        (placed.1.start < total → Unheard events total placed.2 placed.1 →
          Literal.isWritable placed.1.start = true ∧ Literal.isWritable placed.1.duration = true) := by
  induction after generalizing before with
  | nil => simp [ReportsFrom]
  | cons placed after ih =>
    obtain ⟨e, n⟩ := placed
    have hsplit : sortPlaced events = (before ++ [(e, n)]) ++ after := by rw [h, List.append_assoc]; rfl
    rw [List.map_cons, ReportsFrom, List.forall_mem_cons, ih hsplit, and_assoc]
    refine and_congr_right fun _ => and_congr_left fun _ => ?_
    refine forall_congr' fun hstart => ?_
    rw [unheard_iff_cutOff_le h htotal hstart]

theorem reportsFrom_sort_iff (htotal : 0 < total) : ReportsFrom total (sort events) ↔ Reportable events total := by
  rw [← map_fst_sortPlaced, reportsFrom_iff htotal (List.nil_append _).symm]
  constructor
  · intro h
    refine ⟨?_, ?_⟩
    · intro e he
      obtain ⟨n, hn⟩ := List.mem_iff_getElem?.1 he
      exact (h (e, n) (mem_sortPlaced.2 hn)).1
    · intro n e he
      exact (h (e, n) (mem_sortPlaced.2 he)).2
  · rintro h ⟨e, n⟩ hplaced
    have he := mem_sortPlaced.1 hplaced
    exact ⟨h.beyond e (List.mem_of_getElem? he), h.unheard n e he⟩

end Event

/-! ## Timelines -/

/-- A note that is too short to be reported, and another one that starts with it. -/
def Event.sliverTie (start : Rat) : List Event :=
  [{ start, duration := Literal.sliver }, { start, duration := 1 }]

theorem Event.not_reportable_sliverTie {start total : Rat} (h : start < total) (before : List Event) :
    ¬ Reportable (before ++ sliverTie start) total := by
  have hshort : (before ++ sliverTie start)[before.length]? = some { start, duration := Literal.sliver } := by
    simp [sliverTie]
  have hlong : (before ++ sliverTie start)[before.length + 1]? = some { start, duration := 1 } := by
    simp [sliverTie]
  exact not_reportable_of_tie hshort hlong rfl Literal.sliver_lt_one h Literal.isWritable_sliver

namespace Timeline

/-- What events are laid out as on a grid: the timeline, or the fault in its place if there is something to report that
cannot be written. -/
structure LaidOut (timeline : Timeline) (events : List Event) (total : Rat) : Prop where
  written : Event.Reportable events total → write events total = .ok timeline
  tooLong : ¬ Event.Reportable events total → write events total = .error .tooLong

variable {events : List Event} {total : Rat} {timeline : Timeline}

theorem eq_of_fill (h : fill events total = .ok timeline) :
    0 < total ∧ timeline = ⟨total, Barline.placements total 0 (Event.sort events)⟩ := by
  unfold fill at h
  split at h
  case isTrue => cases h
  case isFalse hpos => exact ⟨not_le.1 hpos, (Except.ok.inj h).symm⟩

theorem write_of_fill (h : fill events total = .ok timeline) :
    write events total = WritingError.limited (timeline.notices.all Notice.isWritable) timeline := by
  rw [write, h]
  rfl

/-- The notices of a timeline can be written exactly if all that there is to report of its events can. -/
theorem all_notices_iff (h : fill events total = .ok timeline) :
    timeline.notices.all Notice.isWritable = true ↔ Event.Reportable events total := by
  obtain ⟨hpos, rfl⟩ := eq_of_fill h
  have hprompt : Prompt 0 (Event.sort events) := ⟨le_rfl, fun _ _ => le_max_left _ _⟩
  rw [← Event.reportsFrom_sort_iff hpos]
  exact all_noticesFrom_iff (sort_starts events) hprompt hpos

theorem laidOut_of_fill (h : fill events total = .ok timeline) : timeline.LaidOut events total := by
  have hnotices := all_notices_iff h
  constructor
  · intro hreportable
    rw [write_of_fill h, hnotices.2 hreportable]
    rfl
  · intro hlong
    rw [write_of_fill h, Bool.eq_false_iff.2 (mt hnotices.1 hlong)]
    rfl

/-- With a tie of which one event is too short to be reported, nothing is laid out. -/
theorem write_sliverTie {start : Rat} (h : start < total) (hpos : 0 < total) (before : List Event) :
    write (before ++ Event.sliverTie start) total = .error .tooLong :=
  (laidOut_of_fill (fill_of_pos _ hpos)).tooLong (Event.not_reportable_sliverTie h before)

theorem not_exists_write_sliverTie {start : Rat} (h : start < total) (hpos : 0 < total) (before : List Event) :
    ¬ ∃ timeline, write (before ++ Event.sliverTie start) total = .ok timeline := by
  rintro ⟨timeline, hwrite⟩
  cases (write_sliverTie h hpos before).symm.trans hwrite

/-- What is laid out is the timeline that fills the grid. -/
theorem fill_of_write (h : write events total = .ok timeline) : fill events total = .ok timeline := by
  cases hfill : fill events total with
  | error e =>
    rw [write, hfill] at h
    cases h
  | ok found =>
    rw [write_of_fill hfill] at h
    cases hnotices : found.notices.all Notice.isWritable with
    | false => simp [hnotices] at h
    | true =>
      rw [hnotices] at h
      exact congrArg Except.ok (Except.ok.inj h)

end Timeline

end Barline
