import Barline.Proofs.Program.Word
import Barline.Proofs.Timeline.Report

/-!
# Accounts — every event is heard or reported

A walk ends in three ways for an event: it is heard in a chunk, it is reported as dropped, or it is one of a number of
events that are left when the walk stops and are reported together. `Notice.Drops` is a log of such reports with the
number of events that it tells of, and `accounts_walk` says that a walk leaves none out and tells of none twice.

The account can be taken from the lines of the log alone. `Notice.tellsOfOne` and `Notice.announced?` read a line
without knowing what it was made of, and `every_event_is_accounted_for` is about what they read.
-/

namespace Barline

/-! ## Lines of a log -/

namespace Notice

/-- Whether a line of a log tells of a single event that was dropped. -/
def tellsOfOne (line : Text) : Bool :=
  ("DEBUG Dropped event at " : Text).isPrefixOf line

/-- The number of events that a line of a log announces as dropped together. -/
def announced? (line : Text) : Option Nat := do
  let count ← Program.Reader.between "DEBUG Dropped " " event(s) " line
  Numeral.natural? count.chars

section Lines

variable {n : Nat} {start duration : Rat} {rest : Text}

theorem chars_toString (n : Nat) : Text.chars (toString n : String) = Nat.toDigits 10 n := by
  rw [Text.ofString, Text.chars_ofChars, Nat.toString_eq_repr, Nat.toList_repr]

theorem isDigit_of_mem_toString {c : CodePoint} (h : c ∈ ((toString n : String) : Text)) :
    ∃ d : Char, c = .char d ∧ d.isDigit = true := by
  rcases List.mem_map.1 h with ⟨d, hd, rfl⟩
  rw [Nat.toString_eq_repr, Nat.toList_repr] at hd
  exact ⟨d, rfl, Numeral.isDigit_of_mem_toDigits hd⟩

/-- A count in front of the word for events is announced. -/
theorem announced?_count :
    announced? (("DEBUG Dropped " : Text) ++ ((toString n : String) ++ ((" event(s) " : Text) ++ rest))) =
      some n := by
  have hblank : .char ' ' ∉ ((toString n : String) : Text) := by
    intro h
    rcases isDigit_of_mem_toString h with ⟨d, hd, hdigit⟩
    obtain rfl : ' ' = d := CodePoint.char.inj hd
    exact absurd hdigit (by decide)
  have hbetween : Program.Reader.between "DEBUG Dropped " " event(s) "
      (("DEBUG Dropped " : Text) ++ ((toString n : String) ++ ((" event(s) " : Text) ++ rest))) =
        some ((toString n : String) : Text) := Program.Reader.between_append hblank
  rw [announced?, hbetween, Option.bind_eq_bind, Option.bind_some, chars_toString, Numeral.natural?_toDigits]

/-- The word for a single event begins with no digit. -/
theorem tellsOfOne_count :
    tellsOfOne (("DEBUG Dropped " : Text) ++ ((toString n : String) ++ rest)) = false := by
  rw [Bool.eq_false_iff]
  intro hprefix
  have hword : ("event at " : Text) <+: ((toString n : String) : Text) ++ rest :=
    (List.prefix_append_right_inj ("DEBUG Dropped " : Text)).1 (List.isPrefixOf_iff_prefix.1 hprefix)
  cases hcount : ((toString n : String) : Text) with
  | nil =>
    have hdigits := (chars_toString n).symm.trans (congrArg Text.chars hcount)
    exact Nat.toDigits_ne_nil hdigits
  | cons c cs =>
    have hc : c ∈ ((toString n : String) : Text) := hcount ▸ List.mem_cons_self ..
    rcases isDigit_of_mem_toString hc with ⟨d, rfl, hdigit⟩
    rw [hcount] at hword
    obtain ⟨hhead, _⟩ := List.cons_prefix_cons.1 hword
    obtain rfl : 'e' = d := CodePoint.char.inj hhead
    exact absurd hdigit (by decide)

/-- The line of a notice announces so many events. -/
structure Announces (notice : Notice) (n : Nat) : Prop where
  announced : announced? notice.record = some n
  tellsOfSeveral : tellsOfOne notice.record = false

theorem announces_droppedAhead (n : Nat) (total : Rat) : Announces (droppedAhead n total) n := by
  have hrecord : (droppedAhead n total).record = ("DEBUG Dropped " : Text) ++ ((toString n : String) ++
      ((" event(s) " : Text) ++ (("starting at or beyond the grid end at " : Text) ++ Literal.display total))) := by
    simp only [record, level, message, Level.name, List.append_assoc]
    rfl
  exact ⟨hrecord ▸ announced?_count, hrecord ▸ tellsOfOne_count⟩

theorem announces_droppedBehind (n : Nat) (total : Rat) : Announces (droppedBehind n total) n := by
  have hrecord : (droppedBehind n total).record = ("DEBUG Dropped " : Text) ++ ((toString n : String) ++
      ((" event(s) " : Text) ++ (("beyond the grid end at " : Text) ++ Literal.display total))) := by
    simp only [record, level, message, Level.name, List.append_assoc]
    rfl
  exact ⟨hrecord ▸ announced?_count, hrecord ▸ tellsOfOne_count⟩

theorem tellsOfOne_inaudible : tellsOfOne (inaudible start duration).record = true := by
  simp only [record, level, message, Level.name, List.append_assoc]
  rfl

/-- Of a single event no number is announced: in such a line there is no letter that only the plural has. -/
theorem announced?_inaudible : announced? (inaudible start duration).record = none := by
  have hdisplay : ∀ q : Rat, .char 's' ∉ (Literal.display q : Text) := by
    intro q h
    rcases List.mem_map.1 h with ⟨c, hc, hs⟩
    obtain rfl : c = 's' := CodePoint.char.inj hs
    exact absurd (Program.numberCharacter_display q 's' hc) (by decide)
  obtain ⟨rest, hrecord, hnot⟩ : ∃ rest : Text,
      (inaudible start duration).record = ("DEBUG Dropped " : Text) ++ rest ∧ .char 's' ∉ rest := by
    refine ⟨("event at " : Text) ++ (Literal.display start ++ ((" (duration " : Text) ++
      (Literal.display duration ++ ("): no audible time left" : Text)))), ?_, ?_⟩
    · simp only [record, level, message, Level.name, List.append_assoc]
      rfl
    · simp only [List.mem_append, not_or]
      exact ⟨by decide, hdisplay start, by decide, hdisplay duration, by decide⟩
  have hopening : Program.Reader.cut "DEBUG Dropped " (("DEBUG Dropped " : Text) ++ rest) = some ([], rest) :=
    @Program.Reader.cut_append (.char 'D') ("EBUG Dropped " : Text) [] rest (by simp)
  have hplural : Program.Reader.cut " event(s) " rest = none := Program.Reader.cut_eq_none (by decide) hnot
  simp [hrecord, announced?, Program.Reader.between, hopening, hplural]

end Lines

/-! ## Logs -/

/-- A log of dropped events, one by one and at last maybe of several that are left. The number is that of all events it
tells of. -/
inductive Drops : Nat → List Notice → Prop where
  | done : Drops 0 []
  | one {n : Nat} {later : List Notice} (start duration : Rat) (h : Drops n later) :
      Drops (n + 1) (inaudible start duration :: later)
  | several {n : Nat} {notice : Notice} (h : Announces notice n) (hn : 1 ≤ n) : Drops n [notice]

namespace Drops

variable {n : Nat} {log : List Notice}

/-- The lines that tell of one event, and the numbers that the others announce, make up all events. -/
theorem count_eq (h : Drops n log) :
    (log.map record).countP tellsOfOne + ((log.map record).filterMap announced?).sum = n := by
  induction h with
  | done => rfl
  | one start duration h ih =>
    rw [List.map_cons, List.countP_cons_of_pos tellsOfOne_inaudible, List.filterMap_cons_none announced?_inaudible]
    omega
  | several h hn => simp [h.announced, h.tellsOfSeveral]

/-- A line tells of one event or announces a number, and not both. -/
theorem tellsOfOne_iff (h : Drops n log) : ∀ line ∈ log.map record, tellsOfOne line = (announced? line).isNone := by
  induction h with
  | done => simp
  | one start duration h ih =>
    rw [List.map_cons, List.forall_mem_cons]
    exact ⟨by rw [tellsOfOne_inaudible, announced?_inaudible]; rfl, ih⟩
  | several h hn => simp [h.announced, h.tellsOfSeveral]

/-- A number is announced in the last line only, and it is not zero. -/
theorem last_of_announced (h : Drops n log) {i count : Nat} {line : Text} (hline : (log.map record)[i]? = some line)
    (hcount : announced? line = some count) : i + 1 = log.length ∧ 1 ≤ count := by
  induction h generalizing i with
  | done => simp at hline
  | one start duration h ih =>
    cases i with
    | zero =>
      obtain rfl : (inaudible start duration).record = line := Option.some.inj hline
      rw [announced?_inaudible] at hcount
      exact absurd hcount (by simp)
    | succ i =>
      have hlast := ih hline
      rw [List.length_cons]
      omega
  | @several n notice h hn =>
    cases i with
    | zero =>
      obtain rfl : notice.record = line := Option.some.inj hline
      obtain rfl : n = count := Option.some.inj (h.announced.symm.trans hcount)
      exact ⟨rfl, hn⟩
    | succ i => simp at hline

end Drops

end Notice

/-! ## The walk -/

section Walk

variable {total t u : Rat} {e : Event} {later : List Event}

/-! ### Events that are heard or reported -/

/-- Together, a log and some chunks tell of so many events. -/
def Accounts (log : List Notice) (cs : List Chunk) (count : Nat) : Prop :=
  ∃ n, Notice.Drops n log ∧ cs.countP (·.event?.isSome) + n = count

namespace Accounts

variable {log : List Notice} {cs : List Chunk} {count : Nat}

theorem nil : Accounts [] [] 0 :=
  ⟨0, .done, rfl⟩

theorem several {notice : Notice} (h : Notice.Announces notice count) (hn : 1 ≤ count) :
    Accounts [notice] [] count :=
  ⟨count, .several h hn, Nat.zero_add count⟩

theorem silence_append (t u : Rat) (h : Accounts log cs count) : Accounts log (silentChunk t u ++ cs) count := by
  have hsilent : (silentChunk t u).countP (·.event?.isSome) = 0 := by
    unfold silentChunk
    split <;> rfl
  rcases h with ⟨n, hdrops, hcount⟩
  exact ⟨n, hdrops, by rwa [List.countP_append, hsilent, Nat.zero_add]⟩

/-- An event is heard between two times, or it is reported. -/
theorem event (t u : Rat) (e : Event) (h : Accounts log cs count) :
    Accounts ((if t < u then [] else [.inaudible e.start e.duration]) ++ log) (soundingChunk t u e ++ cs)
      (count + 1) := by
  rcases h with ⟨n, hdrops, rfl⟩
  unfold soundingChunk
  split
  case isTrue =>
    refine ⟨n, hdrops, ?_⟩
    rw [List.singleton_append, List.countP_cons_of_pos rfl, Nat.add_right_comm]
  case isFalse => exact ⟨n + 1, .one e.start e.duration hdrops, rfl⟩

end Accounts

/-- Every event of a walk is heard or reported. -/
theorem accounts_walk (total t : Rat) (later : List Event) :
    Accounts (noticesFrom total t later) (chunksFrom total t later) later.length := by
  induction later generalizing t with
  | nil =>
    rw [noticesFrom_nil, chunksFrom_nil, ← List.append_nil (silentChunk t total)]
    exact Accounts.nil.silence_append t total
  | cons e later ih =>
    by_cases hend : total ≤ e.start
    · rw [noticesFrom_of_total_le hend, chunksFrom_of_total_le hend, ← List.append_nil (silentChunk t total)]
      exact (Accounts.several (Notice.announces_droppedAhead _ total) (Nat.le_add_left 1 _)).silence_append t total
    · rw [noticesFrom_cons (not_le.1 hend), chunksFrom_cons (not_le.1 hend)]
      refine (Accounts.event (max t e.start) (cutOff total e later) e ?_).silence_append t e.start
      -- behind the event the walk goes on, unless the grid is full
      split
      case isFalse => exact ih _
      case isTrue =>
        cases later with
        | nil => exact .nil
        | cons f later => exact .several (Notice.announces_droppedBehind _ total) (Nat.le_add_left 1 _)

end Walk

/-! ## Timelines -/

/-- The log of a timeline, line by line. -/
def Timeline.log (timeline : Timeline) : List Text :=
  timeline.notices.map Notice.record

/-- Every event is accounted for. The chunks that carry an event, the lines of the log that tell of one that was dropped
and the numbers that its other lines announce make up all events. A number is announced in the last line only, and it
is not zero. -/
theorem every_event_is_accounted_for (events : List Event) {total : Rat} (htotal : 0 < total) :
    ∃ timeline, Timeline.LaidOut timeline events total ∧
      timeline.chunks.countP (·.event?.isSome) + timeline.log.countP Notice.tellsOfOne +
        (timeline.log.filterMap Notice.announced?).sum = events.length ∧
      (∀ line ∈ timeline.log, Notice.tellsOfOne line = (Notice.announced? line).isNone) ∧
      ∀ i line n, timeline.log[i]? = some line → Notice.announced? line = some n →
        i + 1 = timeline.log.length ∧ 1 ≤ n := by
  rcases accounts_walk total 0 (Event.sort events) with ⟨n, hdrops, hcount⟩
  refine ⟨_, Timeline.laidOut_of_fill (Timeline.fill_of_pos events htotal), ?_, hdrops.tellsOfOne_iff, ?_⟩
  · rw [(Event.sort_perm events).length_eq] at hcount
    rw [← hcount, ← hdrops.count_eq, ← add_assoc]
    rfl
  · intro i line n hline hn
    rw [Timeline.log, List.length_map]
    exact hdrops.last_of_announced hline hn

/-- Two events are heard, one is dropped by itself and two are left when the grid is full: five in all. -/
theorem five_events_are_accounted_for :
    ∃ timeline, Timeline.write [{ start := 1, duration := 1 / 2 }, { start := 1, duration := 5 },
        { start := 3, duration := 2 }, { start := 4, duration := 1 }, { start := 6, duration := 1 }] 4 =
          .ok timeline ∧
      timeline.log = ["DEBUG Dropped event at 1 (duration 1/2): no audible time left",
        "DEBUG Dropped 2 event(s) beyond the grid end at 4"] ∧
      timeline.chunks.countP (·.event?.isSome) = 2 ∧
      2 + timeline.log.countP Notice.tellsOfOne + (timeline.log.filterMap Notice.announced?).sum = 5 := by
  let events : List Event := [{ start := 1, duration := 1 / 2 }, { start := 1, duration := 5 },
    { start := 3, duration := 2 }, { start := 4, duration := 1 }, { start := 6, duration := 1 }]
  -- the events come in the order of the layout, so their walk can be followed
  have hsort : Event.sort events = events :=
    List.mergeSort_of_pairwise (by decide +kernel)
  have hreportable : Event.Reportable events 4 := .of_writable (by decide +kernel) (by decide +kernel)
  rcases @every_event_is_accounted_for events 4 (by norm_num) with ⟨timeline, hlaid, hcount, _, _⟩
  have hwrite := hlaid.written hreportable
  have htimeline : timeline = ⟨4, placements 4 0 events⟩ := by
    rw [(Timeline.eq_of_fill (Timeline.fill_of_write hwrite)).2, hsort]
  have hheard : timeline.chunks.countP (·.event?.isSome) = 2 := by
    rw [htimeline]
    decide +kernel
  rw [hheard] at hcount
  refine ⟨timeline, hwrite, ?_, hheard, hcount⟩
  rw [htimeline]
  decide +kernel

/-- Of a tie with a note too short to be reported nothing is accounted for: the line that would tell of it cannot be
written, and there is no chunk either. -/
theorem unreportable_tie_has_no_account :
    ¬ ∃ timeline, Timeline.write (Event.sliverTie 3) 4 = .ok timeline ∧
      timeline.chunks.countP (·.event?.isSome) + timeline.log.countP Notice.tellsOfOne = 2 := by
  rintro ⟨timeline, h, _⟩
  exact Timeline.not_exists_write_sliverTie (by norm_num) (by norm_num) [] ⟨timeline, h⟩

end Barline
