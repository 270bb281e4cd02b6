import Barline.Proofs.Snapshot.Counts
import Barline.Proofs.Snapshot.Limit
import Barline.Proofs.Snapshot.Place

/-!
# Own notes — points that are read as notes

A point that lists no notes is its own note. It is read as if it listed one note with the same attributes
(`Mapping.listingOwnNote`): the result is the same, and so is an error, except that an attribute of the note then stands
at a path of the note, where it stood at one of the point (`Path.intoNote`). The readers of the attributes are given
these paths and put them into their errors, so the one reading is the other one with the paths replaced.
-/

namespace Barline

/-! ## The note that a point is -/

namespace Mapping

theorem sameFields_restrict (entries : Mapping) :
    SameFields Spelling.ofNote entries (entries.restrict Spelling.ofNote.flatten) := by
  intro names hnames
  exact field_restrict (fun name hname => List.mem_flatten.2 ⟨names, hnames, hname⟩) entries

/-- The entries of a point that lists as its only note what it is itself. -/
def listingOwnNote (entries : Mapping) : Mapping :=
  entries.put (.text "notes") (.list [.mapping (entries.restrict Spelling.ofNote.flatten)])

theorem field_listingOwnNote (entries : Mapping) :
    entries.listingOwnNote.field Spelling.notes = .list [.mapping (entries.restrict Spelling.ofNote.flatten)] :=
  field_put_self entries _ _ _

theorem field_listingOwnNote_of_notMem {names : List Text} (h : ("notes" : Text) ∉ names) (entries : Mapping) :
    entries.listingOwnNote.field names = entries.field names :=
  field_put_of_notMem h entries _

end Mapping

/-! ## Paths of attributes -/

namespace Path

/-- The names of the fields that are attributes of a note. -/
def attributeNames : List String :=
  ["scale", "root", "degree", "octave", "legato", "amp"]

/-- The path of the first note that a point lists. -/
def firstNote (point : Path) : Path :=
  (point.field "notes").item 0

/-- Takes an attribute of a point to the same attribute of its first note; other paths stay. -/
def intoNote (point : Path) : Path → Path
  | field parent name =>
    if parent = point ∧ name ∈ attributeNames then point.firstNote.field name else field parent name
  | path => path

theorem intoNote_attribute {name : String} (h : name ∈ attributeNames) (point : Path) :
    point.intoNote (point.field name) = point.firstNote.field name :=
  if_pos ⟨rfl, h⟩

theorem intoNote_field {name : String} (h : name ∉ attributeNames) (point : Path) :
    point.intoNote (point.field name) = point.field name :=
  if_neg fun hattribute => h hattribute.2

theorem intoNote_other {point path : Path} (h : ∀ name ∈ attributeNames, path ≠ point.field name) :
    point.intoNote path = path := by
  cases path with
  | field parent name =>
    refine if_neg ?_
    rintro ⟨rfl, hname⟩
    exact h name hname rfl
  | _ => rfl

end Path

open Barline.Path WritingError

/-! ## Readers -/

theorem ReportsAt.attribute {α : Type} {F : Path → Except SnapshotError α} (hF : ReportsAt F) {name : String}
    (h : name ∈ attributeNames) (point : Path) :
    F (point.firstNote.field name) = (F (point.field name)).mapError (SnapshotError.mapPath point.intoNote) := by
  rw [← intoNote_attribute h, hF.natural]

/-- A field of a point that is no attribute of a note has the same errors. -/
theorem ReportsAt.mapError_other {α : Type} {F : Path → Except SnapshotError α} (hF : ReportsAt F) {name : String}
    (h : name ∉ attributeNames) (point : Path) :
    (F (point.field name)).mapError (SnapshotError.mapPath point.intoNote) = F (point.field name) := by
  rw [← hF.natural, intoNote_field h]

theorem Note.read_firstNote (point : Path) (entries : Mapping) :
    read point.firstNote (.mapping entries) =
      (read point (.mapping entries)).mapError (SnapshotError.mapPath point.intoNote) := by
  have hscale := (reportsAt_readScale (entries.field Spelling.scale)).attribute
    (by decide : "scale" ∈ attributeNames) point
  have hroot := (Field.reportsAt_whole (entries.field Spelling.root)).attribute
    (by decide : "root" ∈ attributeNames) point
  have hdegree := (Field.reportsAt_whole (entries.field Spelling.degree)).attribute
    (by decide : "degree" ∈ attributeNames) point
  have hoctave := (Field.reportsAt_whole (entries.field Spelling.octave)).attribute
    (by decide : "octave" ∈ attributeNames) point
  have hlegato := (Field.reportsAt_nonNegative (.whole 1) (entries.field Spelling.legato)).attribute
    (by decide : "legato" ∈ attributeNames) point
  have hamp := (Field.reportsAt_nonNegative (.whole 1) (entries.field Spelling.amp)).attribute
    (by decide : "amp" ∈ attributeNames) point
  unfold read
  simp only [Field.mapping_mapping, ok_bind, mapError_bind, hscale, hroot, hdegree, hoctave, hlegato, hamp]
  rfl

/-! ## Errors with another path -/

/-- The same writing error with another cause. -/
def WritingError.mapCause {ε : Type} (f : ε → ε) : WritingError ε → WritingError ε
  | cause e => cause (f e)
  | tooLong => tooLong

namespace Reading

variable {α β : Type} {f : SnapshotError → SnapshotError}

/-- The same reading with another error. -/
def mapError (f : SnapshotError → SnapshotError) (x : Reading α) : Reading α :=
  ⟨x.notices, x.outcome.mapError f⟩

theorem bind_eq_mapError {x y : Reading α} {g g' : α → Reading β} (hx : y = x.mapError f)
    (hg : ∀ a, g' a = (g a).mapError f) : (y >>= g') = (x >>= g).mapError f := by
  obtain rfl := hx
  obtain rfl : g' = fun a => (g a).mapError f := funext hg
  change next (mapError f x) _ = mapError f (next x g)
  unfold next mapError
  cases x.outcome <;> rfl

theorem mapError_of_outcome {x : Reading α} {a : α} (h : x.outcome = .ok a) : x.mapError f = x := by
  rw [mapError, h, mapError_ok, ← h]

/-- A change that leaves the length of errors alone can as well be made after writing. -/
theorem written_mapError (hf : ∀ e, (f e).isWritable = e.isWritable) (x : Reading α) :
    (x.mapError f).written = x.written.mapError (WritingError.mapCause f) := by
  unfold written mapError
  cases x.notices.all Notice.isWritable with
  | false => rfl
  | true =>
    cases x.outcome with
    | ok a => rfl
    | error e =>
      simp only [require_true, ok_bind, mapError_error, ofCause, hf]
      cases e.isWritable <;> rfl

end Reading

open Reading

/-! ## Points -/

namespace Point

variable {entries : Mapping}

theorem mapError_readTimes (point : Path) (entries : Mapping) :
    (readTimes point entries).mapError (SnapshotError.mapPath point.intoNote) = readTimes point entries := by
  have hduration : point.intoNote (point.field "duration") = point.field "duration" := intoNote_field (by decide) point
  have hstart : point.intoNote (point.field "start") = point.field "start" := intoNote_field (by decide) point
  unfold readTimes
  dsimp only
  split
  · exact congrArg (fun path => Except.error (SnapshotError.missing path)) hduration
  · rw [mapError_bind, (reportsAt_readStart _).mapError_other (by decide)]
    refine bind_congr fun start => ?_
    rw [mapError_bind, (Field.reportsAt_time _).mapError_other (by decide)]
    refine bind_congr fun duration => ?_
    split
    · exact congrArg (fun path => Except.error (SnapshotError.notPositive path duration)) hduration
    · split
      · exact congrArg (fun path => Except.error (SnapshotError.negativeTime path start)) hstart
      · rfl

theorem readAll_listingOwnNote (h : (entries.field Spelling.notes).isVoid = true) (point : Path) :
    Note.readAll point entries.listingOwnNote =
      (Note.readAll point entries).mapError (SnapshotError.mapPath point.intoNote) := by
  have hsame : Note.read point.firstNote (.mapping (entries.restrict Spelling.ofNote.flatten)) =
      Note.read point.firstNote (.mapping entries) := Note.read_congr (Mapping.sameFields_restrict entries)
  rw [Note.readAll_of_list (Mapping.field_listingOwnNote entries) (List.cons_ne_nil _ _), Note.readAll_of_isVoid h,
    Note.readList, mapError_bind]
  change (Note.read point.firstNote _ >>= _) = _
  rw [hsame, Note.read_firstNote]
  rfl

/-- A point that is its own note is read as if it listed that note; errors move along. -/
theorem read_listingOwnNote (h : (entries.field Spelling.notes).isVoid = true) (index : Int) :
    read index (.mapping entries.listingOwnNote) =
      (read index (.mapping entries)).mapError (SnapshotError.mapPath (path index).intoNote) := by
  have hother : ∀ names, ("notes" : Text) ∉ names → entries.listingOwnNote.field names = entries.field names :=
    fun names hnames => Mapping.field_listingOwnNote_of_notMem hnames entries
  have htimes : readTimes (path index) entries.listingOwnNote = readTimes (path index) entries :=
    readTimes_congr (hother Spelling.start (by decide)) (hother Spelling.duration (by decide))
  rw [read, read, readEntries, readEntries, htimes, hother Spelling.repeats (by decide),
    hother Spelling.strum (by decide)]
  refine bind_eq_mapError (congrArg ofExcept (mapError_readTimes _ entries).symm) fun times => ?_
  refine bind_eq_mapError (congrArg ofExcept (readAll_listingOwnNote h _)) fun notes => ?_
  refine bind_eq_mapError ?_ fun repeats => ?_
  · -- how often the point is played is never refused
    exact (mapError_of_outcome (Field.outcome_lenientCount _ _)).symm
  · refine bind_eq_mapError (congrArg ofExcept ?_) fun strum => rfl
    exact ((reportsAt_readStrum _).mapError_other (by decide) _).symm

end Point

/-- A point that lists no notes is read as if it listed the one note that it is: if one of the two is read, the other is
the same point; if one has an error, the other has it too, and both say the same, except that an attribute of the note
is named by the path that it has in the note. There is no error to compare if a number in the point is too long to be
reported, and then there is none on either side. -/
theorem point_is_its_own_note {entries : Mapping} (h : (entries.field Spelling.notes).isVoid = true) (index : Int) :
    let point := Point.path index
    let own := Point.read index (.mapping entries)
    let listed := Point.read index (.mapping entries.listingOwnNote)
    listed.notices = own.notices ∧
    (∀ p, own.written = .ok p ↔ listed.written = .ok p) ∧
    (∀ e, own.written = .error (.cause e) → ∃ e', listed.written = .error (.cause e') ∧
      (∀ name ∈ attributeNames, e.path? = some (point.field name) → ∃ reason,
        e.message = (point.field name).text ++ ": " ++ reason ∧
          e'.message = (((point.field "notes").item 0).field name).text ++ ": " ++ reason) ∧
      ((∀ name ∈ attributeNames, e.path? ≠ some (point.field name)) → e' = e)) ∧
    (own.written = .error .tooLong ↔ listed.written = .error .tooLong) ∧
    (own.written = .error .tooLong → ∃ w, Value.Part w (.mapping entries) ∧ w.IsLong) := by
  intro point own listed
  have hlisted : listed = own.mapError (SnapshotError.mapPath point.intoNote) := Point.read_listingOwnNote h index
  have hwritten : listed.written =
      own.written.mapError (WritingError.mapCause (SnapshotError.mapPath point.intoNote)) := by
    rw [hlisted, written_mapError (SnapshotError.isWritable_mapPath _)]
  rw [hwritten]
  refine ⟨by rw [hlisted]; rfl, ?_, ?_, ?_, exists_long_part fun hshort => Point.writable_read hshort index⟩
  · intro p
    cases own.written <;> simp
  · intro e he
    refine ⟨e.mapPath point.intoNote, by rw [he]; rfl, ?_, ?_⟩
    · intro name hname hpath
      obtain ⟨reason, hreason⟩ := SnapshotError.exists_reason hpath
      refine ⟨reason, ?_, ?_⟩
      · rw [← SnapshotError.mapPath_id e, hreason]
        rfl
      · rw [hreason, intoNote_attribute hname]
        rfl
    · intro hpath
      refine SnapshotError.mapPath_eq_self fun path hplace => intoNote_other fun name hname heq => ?_
      exact hpath name hname (heq ▸ hplace)
  · cases own.written with
    | ok p => simp
    | error e => cases e <;> simp [WritingError.mapCause]

/-- The entries of a point that lists no notes and has a word for its octave. -/
def wordyOctave : Mapping :=
  [(.text "dur", .int 1), (.text "octave", .text "low"), (.text "notes", .list []), (.text "amp", .int (-1))]

/-- The octave stands in the point, and in the note if the point lists it; the reason is the same. -/
theorem octave_moves_into_note :
    ∃ e e' : SnapshotError, ∃ reason : Text,
      (Point.read 3 (.mapping wordyOctave)).written = .error (.cause e) ∧
      (Point.read 3 (.mapping wordyOctave.listingOwnNote)).written = .error (.cause e') ∧
      e.message = "points[3].octave" ++ ": " ++ reason ∧
      e'.message = "points[3].notes[0].octave" ++ ": " ++ reason := by
  have hvoid : (wordyOctave.field Spelling.notes).isVoid = true := rfl
  have hown : (Point.read 3 (.mapping wordyOctave)).written =
      .error (.cause (.notNumber ((Point.path 3).field "octave") (.text "low"))) := by decide +kernel
  obtain ⟨_, _, hcause, _⟩ := point_is_its_own_note hvoid 3
  obtain ⟨e', hlisted, hattribute, _⟩ := hcause _ hown
  obtain ⟨reason, hmessage, hmessage'⟩ := hattribute "octave" (by decide) rfl
  have hpath : ((Point.path 3).field "octave").text = "points[3].octave" := by decide +kernel
  have hpath' : ((((Point.path 3).field "notes").item 0).field "octave").text = "points[3].notes[0].octave" := by
    decide +kernel
  rw [hpath] at hmessage
  rw [hpath'] at hmessage'
  exact ⟨_, e', reason, hown, hlisted, hmessage, hmessage'⟩

/-- A duration far below zero is refused both in a point that is its own note and in one that lists the note, but there
is no error that says so, since the number is too long. -/
theorem long_duration_of_own_note_has_no_error :
    (Point.read 0 (.mapping [(.text "duration", .text "-1e4300")])).written = .error .tooLong ∧
      (Point.read 0 (.mapping (Mapping.listingOwnNote [(.text "duration", .text "-1e4300")]))).written =
        .error .tooLong := by
  refine ⟨?_, ?_⟩
  · decide +kernel
  · decide +kernel

end Barline
