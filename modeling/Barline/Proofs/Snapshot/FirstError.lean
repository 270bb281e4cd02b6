import Barline.Proofs.Snapshot.Counts
import Barline.Proofs.Snapshot.Limit
import Barline.Proofs.Snapshot.Place
import Barline.Proofs.Writing

/-!
# First errors — what part of a snapshot is to blame

A snapshot is read part by part, and each part could be read by itself: that the others are there changes nothing. So
the snapshot is read exactly if all parts are, and otherwise its error is that of the first part that has one
(`firstFault?`). The error of a point begins with the path of the point, and that of a note with the path of the note,
unless a number is too long for there to be a message (`BlamedOn`).
-/

namespace Barline

open WritingError

/-! ## Faults -/

/-- The error of a result, if it is one. -/
def errorOf? {ε α : Type} : Except ε α → Option ε
  | .ok _ => none
  | .error e => some e

/-- The error that a reading is written out with, if there is one. -/
def Reading.fault? {α : Type} (x : Reading α) : Option (WritingError SnapshotError) :=
  errorOf? x.written

/-- The first of the errors that there are. -/
def firstFault? {ε : Type} (faults : List (Option ε)) : Option ε :=
  faults.findSome? id

section firstFault?

variable {ε : Type}

theorem firstFault?_nil : firstFault? ([] : List (Option ε)) = none := rfl

theorem firstFault?_cons (fault : Option ε) (others : List (Option ε)) :
    firstFault? (fault :: others) = fault.or (firstFault? others) := by
  cases fault <;> rfl

theorem firstFault?_append (before after : List (Option ε)) :
    firstFault? (before ++ after) = (firstFault? before).or (firstFault? after) :=
  List.findSome?_append

end firstFault?

namespace Reading

variable {α β : Type} {x : Reading α}

theorem fault?_pure (a : α) : (pure a : Reading α).fault? = none := rfl

/-- If the rest has the same error for every result, it is the error unless there is one before. -/
theorem fault?_bind {f : α → Reading β} {rest : Option (WritingError SnapshotError)}
    (hrest : ∀ a, (f a).fault? = rest) : (x >>= f).fault? = x.fault?.or rest := by
  rw [fault?, fault?, written_bind]
  cases x.written with
  | error e => rfl
  | ok a => exact hrest a

theorem fault?_bind_none {f : α → Reading β} (hrest : ∀ a, (f a).fault? = none) : (x >>= f).fault? = x.fault? := by
  rw [fault?_bind hrest, Option.or_none]

theorem outcome_of_fault? {e : SnapshotError} (h : x.fault? = some (.cause e)) : x.outcome = .error e := by
  rcases writesOut x with hwritten | hwritten
  · rw [fault?, hwritten] at h
    cases houtcome : x.outcome with
    | ok a =>
      rw [houtcome] at h
      cases h
    | error e' =>
      rw [houtcome] at h
      exact congrArg Except.error (WritingError.cause.inj (Option.some.inj h))
  · rw [fault?, hwritten] at h
    cases h

theorem written_of_fault? {e : WritingError SnapshotError} (h : x.fault? = some e) : x.written = .error e := by
  rw [fault?] at h
  cases hwritten : x.written with
  | ok a =>
    rw [hwritten] at h
    cases h
  | error e' =>
    rw [hwritten] at h
    exact congrArg Except.error (Option.some.inj h)

end Reading

/-! ## Readings one after the other -/

namespace Reading

variable {α : Type}

/-- Readings one after the other, until one has an error. -/
def inTurn : List (Reading α) → Reading (List α)
  | [] => return []
  | x :: rest => do
    let a ← x
    let others ← inTurn rest
    return a :: others

/-- The first of them that has an error is to blame. -/
theorem fault?_inTurn (readings : List (Reading α)) : (inTurn readings).fault? = firstFault? (readings.map fault?) := by
  induction readings with
  | nil => rfl
  | cons x rest ih =>
    rw [List.map_cons, firstFault?_cons, ← ih]
    exact fault?_bind fun a => fault?_bind_none fun others => fault?_pure _

/-- They all have a result exactly if each of them has. -/
theorem written_inTurn_eq_ok_iff (readings : List (Reading α)) (results : List α) :
    (inTurn readings).written = .ok results ↔ readings.map written = results.map .ok := by
  induction readings generalizing results with
  | nil =>
    constructor
    · intro h
      obtain rfl := Except.ok.inj h
      rfl
    · intro h
      obtain rfl := List.map_eq_nil_iff.1 h.symm
      rfl
  | cons x rest ih =>
    rw [inTurn, written_bind_eq_ok_iff]
    simp only [written_bind_eq_ok_iff, ih, List.map_cons]
    constructor
    · rintro ⟨a, ha, others, hothers, hresults⟩
      obtain rfl := Except.ok.inj hresults
      rw [ha, hothers, List.map_cons]
    · intro h
      cases results with
      | nil => cases h
      | cons a others =>
        rw [List.map_cons, List.cons.injEq] at h
        exact ⟨a, h.1, others, h.2, rfl⟩

end Reading

open Reading

theorem map_mapIdx {α β γ : Type} (g : β → γ) (f : Nat → α → β) (items : List α) :
    (items.mapIdx f).map g = items.mapIdx fun i a => g (f i a) := by
  simp only [List.mapIdx_eq_zipIdx_map, List.map_map, Function.comp_def]

theorem mapIdx_shift {α β : Type} (f : Int → α → β) (index : Int) (a : α) (rest : List α) :
    (a :: rest).mapIdx (fun i v => f (index + i) v) = f index a :: rest.mapIdx fun i v => f (index + 1 + i) v := by
  rw [List.mapIdx_cons, Int.natCast_zero, Int.add_zero]
  simp only [Int.natCast_add, Int.natCast_one, Int.add_assoc, Int.add_comm 1]

theorem Point.readList_eq_inTurn (index : Int) (items : List Value) :
    readList index items = inTurn (items.mapIdx fun i v => read (index + i) v) := by
  induction items generalizing index with
  | nil => rfl
  | cons v rest ih => rw [readList, ih, mapIdx_shift fun i v => read i v, inTurn]

theorem Note.readList_eq_inTurn (path : Path) (index : Int) (items : List Value) :
    ofExcept (readList path index items) =
      inTurn (items.mapIdx fun j v => ofExcept (read (path.item (index + j)) v)) := by
  induction items generalizing index with
  | nil => rfl
  | cons v rest ih =>
    rw [mapIdx_shift fun j v => ofExcept (read (path.item j) v), inTurn, ← ih, readList]
    cases read (path.item index) v with
    | error e => rfl
    | ok note => cases readList path (index + 1) rest <;> rfl

/-! ## The parts of a snapshot -/

/-- A snapshot is read exactly if its parts are. -/
theorem Snapshot.written_eq_ok_iff {sections : Mapping} {items : List Value}
    (h : sections.field Spelling.points = .list items) (s : Snapshot) :
    (read (.mapping sections)).written = .ok s ↔
      (Settings.read (sections.field Spelling.settings)).written = .ok s.settings ∧
        items.mapIdx (fun i v => (Point.read i v).written) = s.points.map .ok ∧
        (Program.Options.read (sections.field Spelling.output)).written = .ok s.options := by
  have hpoints : ∀ points, (Point.readList 0 items).written = .ok points ↔
      items.mapIdx (fun i v => (Point.read i v).written) = points.map .ok := by
    intro points
    rw [Point.readList_eq_inTurn, written_inTurn_eq_ok_iff, map_mapIdx]
    simp only [Int.zero_add]
  rw [read_mapping, h]
  simp only [bind_of_ok (rawPoints_list items), written_bind_eq_ok_iff, hpoints]
  constructor
  · rintro ⟨settings, hsettings, points, hread, options, hoptions, hs⟩
    obtain rfl := Except.ok.inj hs
    exact ⟨hsettings, hread, hoptions⟩
  · rintro ⟨hsettings, hread, hoptions⟩
    exact ⟨s.settings, hsettings, s.points, hread, s.options, hoptions, rfl⟩

/-- The error of a snapshot is that of its first part that has one. -/
theorem Snapshot.fault?_read {sections : Mapping} {items : List Value}
    (h : sections.field Spelling.points = .list items) :
    (read (.mapping sections)).fault? = firstFault?
      ((Settings.read (sections.field Spelling.settings)).fault? ::
        items.mapIdx (fun i v => (Point.read i v).fault?) ++
          [(Program.Options.read (sections.field Spelling.output)).fault?]) := by
  have hpoints : (Point.readList 0 items).fault? = firstFault? (items.mapIdx fun i v => (Point.read i v).fault?) := by
    rw [Point.readList_eq_inTurn, fault?_inTurn, map_mapIdx]
    simp only [Int.zero_add]
  rw [read_mapping, h, bind_of_ok (rawPoints_list items), List.cons_append, firstFault?_cons, firstFault?_append,
    ← hpoints, firstFault?_cons, firstFault?_nil]
  refine fault?_bind fun settings => fault?_bind fun points => fault?_bind fun options => ?_
  exact fault?_pure _

/-! ## The parts of a point -/

namespace Point

/-- The notes that a point lists are read after its times and before its counts. -/
theorem fault?_read {entries : Mapping} {notes : List Value} (h : entries.field Spelling.notes = .list notes)
    (hnotes : notes ≠ []) (index : Int) :
    (read index (.mapping entries)).fault? = firstFault?
      ((ofExcept (readTimes (path index) entries)).fault? ::
        notes.mapIdx (fun j v => (ofExcept (Note.read (((path index).field "notes").item j) v)).fault?) ++
          [(Field.lenientCount ((path index).field "repeat") (entries.field Spelling.repeats)).fault?,
            (ofExcept (readStrum ((path index).field "strum") (entries.field Spelling.strum))).fault?]) := by
  have hlist : (ofExcept (Note.readList ((path index).field "notes") 0 notes)).fault? = firstFault?
      (notes.mapIdx fun j v => (ofExcept (Note.read (((path index).field "notes").item j) v)).fault?) := by
    rw [Note.readList_eq_inTurn, fault?_inTurn, map_mapIdx]
    simp only [Int.zero_add]
  rw [read, readEntries, Note.readAll_of_list h hnotes, List.cons_append, firstFault?_cons, firstFault?_append, ← hlist,
    firstFault?_cons, firstFault?_cons, firstFault?_nil]
  refine fault?_bind fun times => fault?_bind fun notes => fault?_bind fun repeats => fault?_bind fun strum => ?_
  exact fault?_pure _

end Point

/-! ## Whom an error blames -/

/-- If it fails, it does so at the path or below. -/
def FailsWithin {α : Type} (root : Path) (x : Except SnapshotError α) : Prop :=
  ∀ e, x = .error e → ∃ path, e.path? = some path ∧ root.Within path

section FailsWithin

variable {α β : Type} {root path : Path} {x : Except SnapshotError α}

theorem failsWithin_ok (a : α) : FailsWithin root (.ok a) := by
  intro e h
  cases h

theorem failsWithin_error {e : SnapshotError} (he : e.path? = some path) (h : root.Within path) :
    FailsWithin root (.error e : Except SnapshotError α) := by
  intro e' he'
  obtain rfl := Except.error.inj he'
  exact ⟨path, he, h⟩

theorem ReportsAt.failsWithin {F : Path → Except SnapshotError α} (hF : ReportsAt F) (h : root.Within path) :
    FailsWithin root (F path) :=
  fun e he => ⟨path, hF.place path e he, h⟩

theorem FailsWithin.bind {f : α → Except SnapshotError β} (hx : FailsWithin root x)
    (hf : ∀ a, FailsWithin root (f a)) : FailsWithin root (x >>= f) := by
  cases x with
  | error e =>
    intro e' he'
    obtain rfl := Except.error.inj he'
    exact hx e rfl
  | ok a => exact hf a

end FailsWithin

theorem Note.failsWithin_read {root path : Path} (h : root.Within path) (v : Value) :
    FailsWithin root (read path v) := by
  refine ((Field.reportsAt_mapping v).failsWithin h).bind fun entries => ?_
  refine ((reportsAt_readScale _).failsWithin (h.field (by decide))).bind fun scale => ?_
  refine ((Field.reportsAt_whole _).failsWithin (h.field (by decide))).bind fun rootNote => ?_
  refine ((Field.reportsAt_whole _).failsWithin (h.field (by decide))).bind fun degree => ?_
  refine ((Field.reportsAt_whole _).failsWithin (h.field (by decide))).bind fun octave => ?_
  refine ((Field.reportsAt_nonNegative _ _).failsWithin (h.field (by decide))).bind fun legato => ?_
  refine ((Field.reportsAt_nonNegative _ _).failsWithin (h.field (by decide))).bind fun amp => ?_
  exact failsWithin_ok _

theorem Note.failsWithin_readList (root : Path) (index : Nat) (items : List Value) :
    FailsWithin root (readList (root.field "notes") index items) := by
  induction items generalizing index with
  | nil => exact failsWithin_ok _
  | cons v rest ih =>
    refine (failsWithin_read (Path.Within.here.item (by decide) index) v).bind fun note => ?_
    exact (ih (index + 1)).bind fun notes => failsWithin_ok _

theorem Note.failsWithin_readAll (root : Path) (entries : Mapping) : FailsWithin root (readAll root entries) := by
  unfold readAll
  dsimp only
  split
  · exact (failsWithin_read .here _).bind fun note => failsWithin_ok _
  · split
    · exact failsWithin_readList root 0 _
    · exact failsWithin_error rfl (Path.Within.here.field (by decide))

theorem Point.failsWithin_readTimes (root : Path) (entries : Mapping) : FailsWithin root (readTimes root entries) := by
  have hfield : ∀ {name : String}, name ∈ Path.fieldNames → root.Within (root.field name) :=
    fun hname => Path.Within.here.field hname
  unfold readTimes
  dsimp only
  split
  · exact failsWithin_error rfl (hfield (by decide))
  · refine ((reportsAt_readStart _).failsWithin (hfield (by decide))).bind fun start => ?_
    refine ((Field.reportsAt_time _).failsWithin (hfield (by decide))).bind fun duration => ?_
    split
    · exact failsWithin_error rfl (hfield (by decide))
    · split
      · exact failsWithin_error rfl (hfield (by decide))
      · exact failsWithin_ok _

theorem Point.failsWithin_readEntries (root : Path) (entries : Mapping) :
    FailsWithin root (readEntries root entries).outcome := by
  unfold readEntries
  simp only [outcome_bind]
  refine (failsWithin_readTimes root entries).bind fun times => ?_
  refine (Note.failsWithin_readAll root entries).bind fun notes => ?_
  -- how often a point is played is never refused
  rw [Field.outcome_lenientCount]
  refine ((reportsAt_readStrum _).failsWithin (Path.Within.here.field (by decide))).bind fun strum => ?_
  exact failsWithin_ok _

theorem Point.failsWithin_read (index : Int) (v : Value) : FailsWithin (path index) (read index v).outcome := by
  cases v with
  | mapping entries => exact failsWithin_readEntries (path index) entries
  | _ => exact failsWithin_error rfl .here

/-- What is said of a part of a snapshot that cannot be read: the message begins with the path of the part, or else
there is no message because a number in the part is too long. -/
def BlamedOn (root : Path) (v : Value) : WritingError SnapshotError → Prop
  | .cause e => root.Opens e.message
  | .tooLong => ∃ w, Value.Part w v ∧ w.IsLong

theorem blamedOn_of_fault? {α : Type} {root : Path} {v : Value} {x : Reading α} (hfails : FailsWithin root x.outcome)
    (hshort : v.IsShort → x.Writable) {e : WritingError SnapshotError} (h : x.fault? = some e) : BlamedOn root v e := by
  cases e with
  | cause e =>
    obtain ⟨path, hpath, hwithin⟩ := hfails e (outcome_of_fault? h)
    exact SnapshotError.opens_message hpath hwithin
  | tooLong => exact exists_long_part hshort (written_of_fault? h)

/-! ## Snapshots -/

/-- A snapshot that lists its points is read exactly if its settings, each of its points and its options are, and then
it is made of these. Otherwise its error is that of the first part that has one. The message of a point begins with the
path of the point. A note that a point lists is to blame if the times of the point and the notes before have no error,
and the message begins with the path of the note. -/
theorem first_part_is_blamed {sections : Mapping} {items : List Value}
    (h : sections.field Spelling.points = .list items) :
    (∀ s, (Snapshot.read (.mapping sections)).written = .ok s ↔
      (Settings.read (sections.field Spelling.settings)).written = .ok s.settings ∧
        items.mapIdx (fun i v => (Point.read i v).written) = s.points.map .ok ∧
        (Program.Options.read (sections.field Spelling.output)).written = .ok s.options) ∧
    (Snapshot.read (.mapping sections)).fault? = firstFault?
      ((Settings.read (sections.field Spelling.settings)).fault? ::
        items.mapIdx (fun i v => (Point.read i v).fault?) ++
          [(Program.Options.read (sections.field Spelling.output)).fault?]) ∧
    (∀ (i : Int) v e, (Point.read i v).fault? = some e → BlamedOn (Point.path i) v e) ∧
    (∀ (i : Int) (entries : Mapping) notes, entries.field Spelling.notes = .list notes → notes ≠ [] →
      let path := Point.path i
      (Point.read i (.mapping entries)).fault? = firstFault?
        ((ofExcept (Point.readTimes path entries)).fault? ::
          notes.mapIdx (fun j v => (ofExcept (Note.read ((path.field "notes").item j) v)).fault?) ++
            [(Field.lenientCount (path.field "repeat") (entries.field Spelling.repeats)).fault?,
              (ofExcept (Point.readStrum (path.field "strum") (entries.field Spelling.strum))).fault?])) ∧
    ∀ (i j : Int) v e, (ofExcept (Note.read (((Point.path i).field "notes").item j) v)).fault? = some e →
      BlamedOn (((Point.path i).field "notes").item j) v e := by
  refine ⟨Snapshot.written_eq_ok_iff h, Snapshot.fault?_read h, ?_, ?_, ?_⟩
  · intro i v e he
    exact blamedOn_of_fault? (Point.failsWithin_read i v) (fun hv => Point.writable_read hv i) he
  · intro i entries notes hlist hnotes
    exact Point.fault?_read hlist hnotes i
  · intro i j v e he
    refine blamedOn_of_fault? (Note.failsWithin_read .here v) (fun hv => ?_) he
    exact writable_ofExcept (Note.errorWritable_read hv)

/-- Two points, of which the first lists a note whose degree is a word, and the second has no duration. -/
def twoCulprits : List Value :=
  [.mapping [(.text "dur", .int 1), (.text "notes", .list [.null, .mapping [(.text "degree", .text "low")]])],
    .mapping []]

/-- The first of two points that are wrong is blamed, and the second of its notes. -/
theorem second_note_of_first_point_is_blamed :
    (Snapshot.read (.mapping [(.text "points", .list twoCulprits)])).fault? =
        some (.cause (.notNumber ((((Point.path 0).field "notes").item 1).field "degree") (.text "low"))) ∧
      (Snapshot.read (.mapping [(.text "points", .list (twoCulprits.drop 1))])).fault? =
        some (.cause (.missing ((Point.path 0).field "duration"))) := by
  have hpoints : ∀ items, Mapping.field [(.text "points", .list items)] Spelling.points = .list items := fun _ => rfl
  refine ⟨?_, ?_⟩
  · obtain ⟨_, hfault, _⟩ := first_part_is_blamed (hpoints twoCulprits)
    rw [hfault]
    decide +kernel
  · obtain ⟨_, hfault, _⟩ := first_part_is_blamed (hpoints (twoCulprits.drop 1))
    rw [hfault]
    decide +kernel

/-- The duration of the second point is far below zero, but its number is too long for a message, and what is said
instead names no point. -/
theorem long_duration_blames_no_point :
    (Snapshot.read (.mapping [(.text "points", .list [.mapping [(.text "duration", .int 1)],
        .mapping [(.text "duration", .text "-1e4300")]])])).fault? = some .tooLong ∧
      ¬ (Point.path 1).Opens (WritingError.message SnapshotError.message .tooLong) := by
  refine ⟨by decide +kernel, ?_⟩
  rintro ⟨way, reason, _, hmessage⟩
  have hpath : (Point.path 1).text.head? = some (.char 'p') := by decide +kernel
  have hsaid : (WritingError.message SnapshotError.message .tooLong).head? = some (.char 'E') := by decide +kernel
  rw [hmessage, List.append_assoc, List.append_assoc, List.head?_append, hpath, Option.some_or] at hsaid
  revert hsaid
  decide

end Barline
