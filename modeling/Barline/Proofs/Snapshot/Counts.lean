import Barline.Proofs.Snapshot.Fields
import Barline.Proofs.Writing
import Mathlib.Data.List.TakeWhile
import Mathlib.Data.Rat.Floor

/-!
# Counts — what is lenient about a snapshot

Two values of a snapshot are never refused: how often a point is played and how often the whole piece is. Whatever
stands there, there is a count to go on with (`Value.repeats`, `Value.loops`), and nothing else in the snapshot takes
notice of it. `Reading.Mends` says how two readings go together that differ in such a value: they come to the same
error, or to results that differ in the count alone.

What is mended is reported, and the report quotes the value. So a count that is mended does spoil a snapshot after all
if it is too long to be quoted.
-/

namespace Barline

/-! ## The counts that values stand for -/

/-- A rational number without its fraction. -/
def towardZero (q : Rat) : Int :=
  if 0 ≤ q then ⌊q⌋ else ⌈q⌉

theorem tdiv_num_den (q : Rat) : q.num.tdiv q.den = towardZero q := by
  unfold towardZero
  split
  case isTrue hq => rw [Rat.floor_def', Int.tdiv_eq_ediv_of_nonneg (Rat.num_nonneg.2 hq)]
  case isFalse hq =>
    have hnum : 0 ≤ -q.num := by
      have hneg : q.num < 0 := Rat.num_neg.2 (not_le.1 hq)
      omega
    rw [Rat.ceil_def', ← Int.tdiv_eq_ediv_of_nonneg hnum, Int.neg_tdiv, neg_neg]

theorem towardZero_lt_one_iff {q : Rat} : towardZero q < 1 ↔ q < 1 := by
  unfold towardZero
  split
  case isTrue hq => exact_mod_cast Int.floor_lt (z := 1)
  case isFalse hq =>
    have hceil : ⌈q⌉ ≤ 0 := Int.ceil_le.2 (by push_cast; linarith)
    exact ⟨fun _ => by linarith, fun _ => by omega⟩

namespace Value

/-- The finite number that a value is, or that a text spells with blanks around it. -/
def amount? : Value → Option Rat
  | number x => x.toRat?
  | text s => (Double.read? s.trimmed).bind Double.toRat?
  | _ => none

/-- How often a point is played: the whole part of a number, and once at least. -/
def repeats (v : Value) : Int :=
  match v.amount? with
  | some q => max 1 (towardZero q)
  | none => 1

/-- How often the piece is played: a whole number, or no number. -/
def loops (v : Value) : Value :=
  match v.amount? with
  | some q => if q.den = 1 then .int q.num else .null
  | none => .null

/-- Whether a point can be told how often it is played: a count of one or more is not reported, any other value is
quoted. -/
def RepeatsAreReportable (v : Value) : Prop :=
  v.isWritable = true ∨ ∃ q, v.amount? = some q ∧ 1 ≤ q

/-- Whether the piece can be told how often it is played: a whole number is not reported, any other value is quoted. -/
def LoopsAreReportable (v : Value) : Prop :=
  v.isWritable = true ∨ ∃ q, v.amount? = some q ∧ q.den = 1

theorem trimmed_of_isBlankText {s : Text} (h : Text.isBlankText s = true) : s.trimmed = [] := by
  have hdrop : s.dropWhile (fun p => Text.isBlank p.toChar) = [] :=
    List.dropWhile_eq_nil_iff.2 fun p hp => List.all_eq_true.1 h p hp
  rw [Text.trimmed, Text.trim, Text.trimBoth, hdrop]
  rfl

theorem amount?_of_isBlank {v : Value} (h : v.isBlank = true) : v.amount? = none := by
  cases v with
  | null => rfl
  | text s =>
    rw [amount?, trimmed_of_isBlankText h]
    rfl
  | _ => cases h

end Value

theorem Reading.all_notices_notice {α : Type} (n : Notice) (a : α) :
    (do Reading.notice n; return a : Reading α).notices.all Notice.isWritable = n.isWritable :=
  Bool.and_true _

namespace Field

variable {v : Value}

/-- A number that is read has the value that the field stands for, and a field that is refused stands for none. -/
theorem amount?_eq (path : Path) (v : Value) :
    v.amount? = (number path v).toOption.bind Number.toRat? := by
  cases v with
  | text s =>
    rw [number, Value.amount?]
    cases Double.read? s.trimmed <;> rfl
  | _ => rfl

theorem exists_number_of_amount? {q : Rat} (h : v.amount? = some q) (path : Path) :
    ¬ v.isBlank = true ∧ ∃ x, number path v = .ok x ∧ x.toRat? = some q := by
  refine ⟨fun hblank => ?_, ?_⟩
  · rw [Value.amount?_of_isBlank hblank] at h
    cases h
  · rw [amount?_eq path v] at h
    cases hnumber : number path v with
    | error e => simp [hnumber, Except.toOption] at h
    | ok x => exact ⟨x, rfl, by simpa [hnumber, Except.toOption] using h⟩

theorem outcome_count (path : Path) (v : Value) (n : Int) : (count path v n).outcome = .ok (max 1 n) := by
  unfold count
  split
  case isTrue hn => exact congrArg Except.ok (max_eq_left (by omega)).symm
  case isFalse hn => exact congrArg Except.ok (max_eq_right (by omega)).symm

theorem outcome_lenientCount (path : Path) (v : Value) : (lenientCount path v).outcome = .ok v.repeats := by
  unfold lenientCount Value.repeats
  by_cases hblank : v.isBlank = true
  · rw [if_pos hblank, Value.amount?_of_isBlank hblank]
    rfl
  · rw [if_neg hblank, amount?_eq path v]
    cases number path v with
    | error e => rfl
    | ok x =>
      simp only [Number.truncated?, Except.toOption, Option.bind_some, tdiv_num_den]
      cases x.toRat? with
      | none => rfl
      | some q => exact outcome_count path v _

/-- A lenient count quotes the value or reports nothing. -/
theorem writable_notices_lenientCount (path : Path) (h : v.RepeatsAreReportable) :
    (lenientCount path v).notices.all Notice.isWritable = true := by
  rcases h with hshort | ⟨q, hq, hone⟩
  · have hcount : ∀ n, (count path v n).notices.all Notice.isWritable = true := by
      intro n
      unfold count
      split
      · rwa [Reading.all_notices_notice]
      · rfl
    unfold lenientCount
    split
    · rfl
    · split
      · rwa [Reading.all_notices_notice]
      · split
        · rwa [Reading.all_notices_notice]
        · exact hcount _
  · have hnot : ¬ towardZero q < 1 := fun hlt => absurd (towardZero_lt_one_iff.1 hlt) (not_lt.2 hone)
    obtain ⟨hblank, x, hnumber, hx⟩ := exists_number_of_amount? hq path
    rw [lenientCount, if_neg hblank, hnumber]
    simp only [Number.truncated?, hx, Option.map_some, tdiv_num_den, count, if_neg hnot]
    rfl

end Field

namespace Program.Options

theorem outcome_readLoopCount (v : Value) : (readLoopCount v).outcome = .ok v.loops := by
  unfold readLoopCount Value.loops Field.whole
  by_cases hblank : v.isBlank = true
  · rw [if_pos hblank, Value.amount?_of_isBlank hblank]
    rfl
  · rw [if_neg hblank, Field.amount?_eq ((Path.top "output").field "loop_count") v]
    cases Field.number ((Path.top "output").field "loop_count") v with
    | error e => rfl
    | ok x =>
      simp only [bind, Except.bind, Except.toOption, Option.bind_some]
      cases x.toRat? with
      | none => rfl
      | some q =>
        by_cases hden : q.den = 1
        · simp only [hden, if_true]
          rfl
        · simp only [hden, if_false]
          rfl

theorem writable_notices_readLoopCount {v : Value} (h : v.LoopsAreReportable) :
    (readLoopCount v).notices.all Notice.isWritable = true := by
  unfold readLoopCount
  rcases h with hshort | ⟨q, hq, hden⟩
  · split
    · rfl
    · rfl
    · rwa [Reading.all_notices_notice]
  · obtain ⟨hblank, x, hnumber, hx⟩ := Field.exists_number_of_amount? hq ((Path.top "output").field "loop_count")
    rw [Field.whole, if_neg hblank, hnumber]
    simp only [ok_bind, hx, hden, if_true]
    rfl

end Program.Options

/-! ## Readings that differ in a count -/

/-- The second reading comes to the same error as the first, or to the result that `g` makes of the first one; and
either both have something to report that is too long, or neither has, provided that the counts are `reportable`. -/
structure Reading.Mends {α β : Type} (reportable : Prop) (g : α → β) (x : Reading α) (y : Reading β) : Prop where
  outcome : y.outcome = x.outcome.map g
  notices : reportable → y.notices.all Notice.isWritable = x.notices.all Notice.isWritable

namespace Reading

variable {α β α' β' : Type} {reportable : Prop} {g : α → α'} {h : β → β'} {x : Reading α} {y : Reading α'}

theorem mends_refl (x : Reading α) : Mends reportable id x x := by
  refine ⟨?_, fun _ => rfl⟩
  cases x.outcome <;> rfl

theorem mends_pure (a : α) : Mends reportable g (pure a) (pure (g a)) :=
  ⟨rfl, fun _ => rfl⟩

theorem Mends.next {f : α → Reading β} {f' : α' → Reading β'} (hx : Mends reportable g x y)
    (hf : ∀ a, Mends reportable h (f a) (f' (g a))) : Mends reportable h (x >>= f) (y >>= f') := by
  refine ⟨?_, fun hreportable => ?_⟩
  · rw [outcome_bind, outcome_bind, hx.outcome]
    cases x.outcome with
    | error e => rfl
    | ok a => exact (hf a).outcome
  · rw [notices_bind, notices_bind, List.all_append, List.all_append, hx.notices hreportable, hx.outcome]
    cases x.outcome with
    | error e => rfl
    | ok a => exact congrArg _ ((hf a).notices hreportable)

theorem Mends.written_eq (hx : Mends reportable g x y) (hreportable : reportable) : y.written = x.written.map g := by
  rw [written, written, hx.outcome, hx.notices hreportable]
  cases x.notices.all Notice.isWritable with
  | false => rfl
  | true => cases x.outcome <;> rfl

end Reading

open Reading

theorem Field.mends_lenientCount (path : Path) (v w : Value) :
    Mends (v.RepeatsAreReportable ∧ w.RepeatsAreReportable) (fun _ => w.repeats) (lenientCount path v)
      (lenientCount path w) := by
  refine ⟨?_, fun hreportable => ?_⟩
  · rw [outcome_lenientCount, outcome_lenientCount]
    rfl
  · rw [writable_notices_lenientCount path hreportable.1, writable_notices_lenientCount path hreportable.2]

theorem Program.Options.mends_readLoopCount (v w : Value) :
    Mends (v.LoopsAreReportable ∧ w.LoopsAreReportable) (fun _ => w.loops) (readLoopCount v) (readLoopCount w) := by
  refine ⟨?_, fun hreportable => ?_⟩
  · rw [outcome_readLoopCount, outcome_readLoopCount]
    rfl
  · rw [writable_notices_readLoopCount hreportable.1, writable_notices_readLoopCount hreportable.2]

/-! ## Points -/

namespace Point

/-- The same point, played as often as told. -/
def withCount (n : Int) (p : Point) : Point :=
  { p with repeats := n }

theorem mends_readEntries (path : Path) (entries : Mapping) (v : Value) :
    Mends ((entries.field Spelling.repeats).RepeatsAreReportable ∧ v.RepeatsAreReportable) (withCount v.repeats)
      (readEntries path entries) (readEntries path (entries.put (.text "repeat") v)) := by
  have hother : ∀ names, ("repeat" : Text) ∉ names →
      (entries.put (.text "repeat") v).field names = entries.field names :=
    fun names h => Mapping.field_put_of_notMem h entries v
  have hown : (entries.put (.text "repeat") v).field Spelling.repeats = v := Mapping.field_put_self entries _ _ v
  have htimes : readTimes path (entries.put (.text "repeat") v) = readTimes path entries :=
    readTimes_congr (hother Spelling.start (by decide)) (hother Spelling.duration (by decide))
  have hnotes : Note.readAll path (entries.put (.text "repeat") v) = Note.readAll path entries :=
    Note.readAll_congr (hother Spelling.notes (by decide)) fun _ names hnames =>
      hother names (by revert names; decide)
  unfold readEntries
  rw [htimes, hnotes, hown, hother Spelling.strum (by decide)]
  refine (mends_refl _).next fun times => (mends_refl _).next fun notes => ?_
  refine (Field.mends_lenientCount _ _ v).next fun repeats => ?_
  exact (mends_refl _).next fun strum => mends_pure _

theorem mends_read (index : Int) (entries : Mapping) (v : Value) :
    Mends ((entries.field Spelling.repeats).RepeatsAreReportable ∧ v.RepeatsAreReportable) (withCount v.repeats)
      (read index (.mapping entries)) (read index (.mapping (entries.put (.text "repeat") v))) :=
  mends_readEntries (path index) entries v

theorem mends_readList {reportable : Prop} {g : Point → Point} {v w : Value}
    (hread : ∀ index, Mends reportable g (read index v) (read index w)) {items : List Value} {i : Nat}
    (hi : items[i]? = some v) (index : Int) :
    Mends reportable (fun points => points.modify i g) (readList index items) (readList index (items.set i w)) := by
  induction items generalizing i index with
  | nil => cases hi
  | cons item rest ih =>
    cases i with
    | zero =>
      obtain rfl := Option.some.inj hi
      exact (hread index).next fun point => (mends_refl _).next fun points => mends_pure _
    | succ i => exact (mends_refl _).next fun point => (ih hi (index + 1)).next fun points => mends_pure _

end Point

/-! ## Options -/

/-- The same options with another loop count. -/
def Program.Options.withLoopCount (v : Value) (options : Options) : Options :=
  { options with loopCount := v }

theorem Program.Options.mends_read {output : Value} {entries : Mapping}
    (h : Field.mapping (.top "output") output = .ok entries) (v : Value) :
    Mends ((entries.field Spelling.loopCount).LoopsAreReportable ∧ v.LoopsAreReportable) (withLoopCount v.loops)
      (read output) (read (.mapping (entries.put (.text "loop_count") v))) := by
  have hother : ∀ names, ("loop_count" : Text) ∉ names →
      (entries.put (.text "loop_count") v).field names = entries.field names :=
    fun names h => Mapping.field_put_of_notMem h entries v
  have hown : (entries.put (.text "loop_count") v).field Spelling.loopCount = v := Mapping.field_put_self entries _ _ v
  rw [read_of_mapping h]
  unfold read
  simp only [bind_of_ok (Field.mapping_mapping _ _)]
  rw [hown, hother Spelling.compress (by decide), hother Spelling.instrument (by decide)]
  exact (mends_readLoopCount _ v).next fun loops => (mends_refl _).next fun compress => mends_pure _

/-! ## Snapshots -/

/-- The sections of a snapshot in which the point with these entries, one of the items, is given another count. -/
def Mapping.putRepeats (sections : Mapping) (items : List Value) (i : Nat) (entries : Mapping) (v : Value) : Mapping :=
  sections.put (.text "points") (.list (items.set i (.mapping (entries.put (.text "repeat") v))))

/-- The sections of a snapshot whose output section, which has these entries, is given another loop count. -/
def Mapping.putLoopCount (sections output : Mapping) (v : Value) : Mapping :=
  sections.put (.text "output") (.mapping (output.put (.text "loop_count") v))

namespace Snapshot

/-- The same snapshot, in which one point is played as often as told. -/
def withCount (i : Nat) (n : Int) (s : Snapshot) : Snapshot :=
  { s with points := s.points.modify i (Point.withCount n) }

/-- The same snapshot with another loop count. -/
def withLoopCount (v : Value) (s : Snapshot) : Snapshot :=
  { s with options := s.options.withLoopCount v }

variable {sections entries output : Mapping} {items : List Value} {i : Nat}

theorem mends_read_repeats (hpoints : sections.field Spelling.points = .list items)
    (hi : items[i]? = some (.mapping entries)) (v : Value) :
    Mends ((entries.field Spelling.repeats).RepeatsAreReportable ∧ v.RepeatsAreReportable) (withCount i v.repeats)
      (read (.mapping sections)) (read (.mapping (sections.putRepeats items i entries v))) := by
  have hother : ∀ names, ("points" : Text) ∉ names → ∀ w,
      (sections.put (.text "points") w).field names = sections.field names :=
    fun names h w => Mapping.field_put_of_notMem h sections w
  have hown : ∀ w, (sections.put (.text "points") w).field Spelling.points = w :=
    fun w => Mapping.field_put_self sections _ _ w
  rw [read_mapping, read_mapping, Mapping.putRepeats, hown, hpoints, hother Spelling.settings (by decide),
    hother Spelling.output (by decide)]
  simp only [bind_of_ok (rawPoints_list _)]
  have hlist := Point.mends_readList (fun index => Point.mends_read index entries v) hi 0
  refine (mends_refl _).next fun settings => ?_
  exact hlist.next fun points => (mends_refl _).next fun options => mends_pure _

theorem mends_read_loops (houtput : Field.mapping (.top "output") (sections.field Spelling.output) = .ok output)
    (v : Value) :
    Mends ((output.field Spelling.loopCount).LoopsAreReportable ∧ v.LoopsAreReportable) (withLoopCount v.loops)
      (read (.mapping sections)) (read (.mapping (sections.putLoopCount output v))) := by
  have hother : ∀ names, ("output" : Text) ∉ names → ∀ w,
      (sections.put (.text "output") w).field names = sections.field names :=
    fun names h w => Mapping.field_put_of_notMem h sections w
  have hown : ∀ w, (sections.put (.text "output") w).field Spelling.output = w :=
    fun w => Mapping.field_put_self sections _ _ w
  rw [read_mapping, read_mapping, Mapping.putLoopCount, hown, hother Spelling.settings (by decide),
    hother Spelling.points (by decide)]
  refine (mends_refl _).next fun raw => (mends_refl _).next fun settings => (mends_refl _).next fun points => ?_
  exact (Program.Options.mends_read houtput v).next fun options => mends_pure _

end Snapshot

/-- Whatever value is put in for a repeat count or for the loop count, reading the snapshot comes to the same error as
before, or to the same snapshot but for the count that the value stands for. The same is written out, unless one of the
two values has to be reported and is too long for that. -/
theorem counts_never_spoil (sections : Mapping) (v : Value) :
    (∀ items i entries, sections.field Spelling.points = .list items → items[i]? = some (.mapping entries) →
      let before := Snapshot.read (.mapping sections)
      let after := Snapshot.read (.mapping (sections.putRepeats items i entries v))
      after.outcome = before.outcome.map (Snapshot.withCount i v.repeats) ∧
        ((entries.field Spelling.repeats).RepeatsAreReportable → v.RepeatsAreReportable →
          after.written = before.written.map (Snapshot.withCount i v.repeats))) ∧
    (∀ output, Field.mapping (.top "output") (sections.field Spelling.output) = .ok output →
      let before := Snapshot.read (.mapping sections)
      let after := Snapshot.read (.mapping (sections.putLoopCount output v))
      after.outcome = before.outcome.map (Snapshot.withLoopCount v.loops) ∧
        ((output.field Spelling.loopCount).LoopsAreReportable → v.LoopsAreReportable →
          after.written = before.written.map (Snapshot.withLoopCount v.loops))) := by
  refine ⟨fun items i entries hpoints hi => ?_, fun output houtput => ?_⟩
  · have hmends := Snapshot.mends_read_repeats hpoints hi v
    exact ⟨hmends.outcome, fun hbefore hafter => hmends.written_eq ⟨hbefore, hafter⟩⟩
  · have hmends := Snapshot.mends_read_loops houtput v
    exact ⟨hmends.outcome, fun hbefore hafter => hmends.written_eq ⟨hbefore, hafter⟩⟩

/-- The entries of a point that is a beat long and has a truth value for its count. -/
def beatPlayedTrue : Mapping :=
  [(.text "duration", .int 1), (.text "repeat", .bool true)]

/-- A snapshot of one such point. -/
def piecePlayedTrue : Mapping :=
  [(.text "points", .list [.mapping beatPlayedTrue])]

/-- A text with a fraction is a repeat count but no loop count. -/
theorem fraction_is_repeat_count_only :
    ∃ s, (Snapshot.read (.mapping piecePlayedTrue)).written = .ok s ∧
      (Snapshot.read (.mapping (piecePlayedTrue.putRepeats [.mapping beatPlayedTrue] 0 beatPlayedTrue
        (.text " 2.9 ")))).written = .ok (s.withCount 0 2) ∧
      (Snapshot.read (.mapping (piecePlayedTrue.putLoopCount [] (.text " 2.9 ")))).written =
        .ok (s.withLoopCount .null) := by
  obtain ⟨s, hs⟩ : ∃ s, (Snapshot.read (.mapping piecePlayedTrue)).written = .ok s := ⟨_, rfl⟩
  have hrepeats : (Value.text " 2.9 ").repeats = 2 := by decide +kernel
  have hloops : (Value.text " 2.9 ").loops = .null := by decide +kernel
  have hafter := counts_never_spoil piecePlayedTrue (.text " 2.9 ")
  rw [hrepeats, hloops] at hafter
  refine ⟨s, hs, ?_, ?_⟩
  · rw [(hafter.1 [.mapping beatPlayedTrue] 0 beatPlayedTrue rfl rfl).2 (Or.inl rfl) (Or.inl rfl), hs]
    rfl
  · rw [(hafter.2 [] rfl).2 (Or.inl rfl) (Or.inl rfl), hs]
    rfl

/-- A count far below zero is mended to one, but the notice that says so has a number that is too long. -/
theorem negative_repeat_spoils_piece :
    (∃ s, (Snapshot.read (.mapping piecePlayedTrue)).written = .ok s) ∧
      (Value.int (-tenPow 4300)).repeats = 1 ∧
      (Snapshot.read (.mapping (piecePlayedTrue.putRepeats [.mapping beatPlayedTrue] 0 beatPlayedTrue
        (.int (-tenPow 4300))))).written = .error .tooLong := by
  refine ⟨⟨_, rfl⟩, ?_, ?_⟩
  · decide +kernel
  · decide +kernel

end Barline
