import Barline.Snapshot.Basic

/-!
# Fields of a snapshot — what a reading depends on

A reading never sees a mapping as a whole. It asks for fields, each under its spellings, and what is not asked for
makes no difference. `SameFields` says that two mappings answer alike, and each reader has its congruence: mappings
with the same fields are read alike.
-/

namespace Barline

/-! ## The fields of each section -/

namespace Spelling

def ofSettings : List (List Text) := [beatsPerBar, beatUnit, bars]
def ofNote : List (List Text) := [scale, root, degree, octave, legato, amp]
def ofPoint : List (List Text) := [start, duration, notes, repeats, strum]
def ofOptions : List (List Text) := [instrument, loopCount, compress]
def ofSnapshot : List (List Text) := [settings, points, output]

end Spelling

namespace Mapping

/-- Two mappings that have the same values in the given fields. -/
def SameFields (fields : List (List Text)) (entries entries' : Mapping) : Prop :=
  ∀ names ∈ fields, entries'.field names = entries.field names

variable {entries : Mapping} {name : Text} {names : List Text} {v : Value}

theorem findAny?_singleton (entries : Mapping) (name : Text) : findAny? entries [name] = find? entries name := by
  rw [findAny?, List.findSome?_cons]
  cases find? entries name <;> rfl

theorem findAny?_pair (entries : Mapping) (first second : Text) :
    findAny? entries [first, second] = (find? entries first).or (find? entries second) := by
  rw [findAny?, List.findSome?_cons]
  cases find? entries first with
  | none => exact findAny?_singleton entries second
  | some v => rfl

theorem findAny?_congr {entries' : Mapping} (h : ∀ name ∈ names, find? entries' name = find? entries name) :
    findAny? entries' names = findAny? entries names := by
  induction names with
  | nil => rfl
  | cons name others ih =>
    rw [findAny?, findAny?, List.findSome?_cons, List.findSome?_cons, h name (List.mem_cons_self ..)]
    cases find? entries name with
    | none => exact ih fun other hother => h other (List.mem_cons_of_mem name hother)
    | some v => rfl

theorem field_put_self (entries : Mapping) (name : Text) (others : List Text) (v : Value) :
    (entries.put (.text name) v).field (name :: others) = v := by
  rw [field, findAny?, List.findSome?_cons, find?_put, if_pos rfl]
  rfl

/-- To write one entry leaves the fields alone that are not spelled like it. -/
theorem field_put_of_notMem (h : name ∉ names) (entries : Mapping) (v : Value) :
    (entries.put (.text name) v).field names = entries.field names := by
  have hfind : ∀ other ∈ names, find? (put entries (.text name) v) other = find? entries other := by
    intro other hother
    have hne : name ≠ other := fun heq => h (heq ▸ hother)
    rw [find?_put, if_neg hne]
  rw [field, field, findAny?_congr hfind]

end Mapping

/-! ## Entries under given names -/

/-- Whether a key is one of the names. -/
def Key.spells (k : Key) (names : List Text) : Bool :=
  names.any fun name => k = .text name

theorem Key.spells_iff {k : Key} {names : List Text} : k.spells names = true ↔ ∃ name ∈ names, k = .text name := by
  simp [spells]

namespace Mapping

/-- The entries with one of the given names. -/
def restrict (entries : Mapping) (names : List Text) : Mapping :=
  entries.filter fun entry => entry.1.spells names

theorem find?_restrict {names : List Text} {name : Text} (h : name ∈ names) (entries : Mapping) :
    find? (entries.restrict names) name = find? entries name := by
  induction entries with
  | nil => rfl
  | cons entry rest ih =>
    obtain ⟨k, v⟩ := entry
    rw [restrict, List.filter_cons, find?_cons]
    by_cases hk : k = .text name
    · rw [if_pos (Key.spells_iff.2 ⟨name, h, hk⟩), find?_cons, if_pos hk, if_pos hk]
    · rw [if_neg hk, ← ih]
      split
      · rw [find?_cons, if_neg hk]
        rfl
      · rfl

/-- A field is found among the entries that have its names. -/
theorem field_restrict {names all : List Text} (h : ∀ name ∈ names, name ∈ all) (entries : Mapping) :
    (entries.restrict all).field names = entries.field names := by
  rw [field, field, findAny?_congr fun name hname => find?_restrict (h name hname) entries]

end Mapping

/-! ## Steps of a reading -/

section Steps

variable {ε α β : Type}

theorem ok_bind (a : α) (f : α → Except ε β) : (Except.ok a >>= f) = f a := rfl

theorem exists_of_bind_eq_ok {x : Except ε α} {f : α → Except ε β} {b : β}
    (h : x >>= f = .ok b) : ∃ a, x = .ok a ∧ f a = .ok b := by
  cases x with
  | error e => cases h
  | ok a => exact ⟨a, rfl, h⟩

theorem Reading.outcome_bind_eq_ok {x : Reading α} {f : α → Reading β} {b : β}
    (h : (x >>= f).outcome = .ok b) : ∃ a, x.outcome = .ok a ∧ (f a).outcome = .ok b := by
  rw [outcome_bind] at h
  exact exists_of_bind_eq_ok h

theorem Reading.bind_of_ok {x : Except SnapshotError α} {a : α} (h : x = .ok a) (f : α → Reading β) :
    (liftM x >>= f) = f a := by
  rw [h]
  rfl

end Steps

/-! ## Readers -/

open Mapping

theorem Field.mapping_mapping (path : Path) (entries : Mapping) : mapping path (.mapping entries) = .ok entries := rfl

theorem Settings.read_congr {entries entries' : Mapping} (h : SameFields Spelling.ofSettings entries entries') :
    read (.mapping entries') = read (.mapping entries) := by
  have hbeats := h Spelling.beatsPerBar (by decide)
  have hunit := h Spelling.beatUnit (by decide)
  have hbars := h Spelling.bars (by decide)
  unfold read
  simp only [Reading.bind_of_ok (Field.mapping_mapping _ _), hbeats, hunit, hbars]

namespace Note

variable {entries entries' : Mapping} {path : Path}

theorem read_congr (h : SameFields Spelling.ofNote entries entries') :
    read path (.mapping entries') = read path (.mapping entries) := by
  have hscale := h Spelling.scale (by decide)
  have hroot := h Spelling.root (by decide)
  have hdegree := h Spelling.degree (by decide)
  have hoctave := h Spelling.octave (by decide)
  have hlegato := h Spelling.legato (by decide)
  have hamp := h Spelling.amp (by decide)
  unfold read
  simp only [Field.mapping, bind, Except.bind, hscale, hroot, hdegree, hoctave, hlegato, hamp]

/-- A point without notes is read as a note itself. -/
theorem readAll_of_isVoid (h : (entries.field Spelling.notes).isVoid = true) :
    readAll path entries = (do
      let note ← read path (.mapping entries)
      return [note]) := by
  rw [readAll]
  exact if_pos h

theorem readAll_of_list {items : List Value} (h : entries.field Spelling.notes = .list items) (hitems : items ≠ []) :
    readAll path entries = readList (path.field "notes") 0 items := by
  have hvoid : ¬ (Value.list items).isVoid = true := by simpa [Value.isVoid] using hitems
  rw [readAll, h]
  exact if_neg hvoid

theorem readAll_congr (hnotes : entries'.field Spelling.notes = entries.field Spelling.notes)
    (hown : (entries.field Spelling.notes).isVoid = true → SameFields Spelling.ofNote entries entries') :
    readAll path entries' = readAll path entries := by
  unfold readAll
  dsimp only
  rw [hnotes]
  by_cases hvoid : (entries.field Spelling.notes).isVoid = true
  · rw [if_pos hvoid, if_pos hvoid, read_congr (hown hvoid)]
  · rw [if_neg hvoid, if_neg hvoid]

end Note

theorem Point.readTimes_congr {entries entries' : Mapping} {path : Path}
    (hstart : entries'.field Spelling.start = entries.field Spelling.start)
    (hduration : entries'.field Spelling.duration = entries.field Spelling.duration) :
    readTimes path entries' = readTimes path entries := by
  unfold readTimes
  rw [hstart, hduration]

theorem Program.Options.read_congr {entries entries' : Mapping}
    (h : SameFields Spelling.ofOptions entries entries') :
    read (.mapping entries') = read (.mapping entries) := by
  have hinstrument := h Spelling.instrument (by decide)
  have hloop := h Spelling.loopCount (by decide)
  have hcompress := h Spelling.compress (by decide)
  unfold read
  simp only [Reading.bind_of_ok (Field.mapping_mapping _ _), hinstrument, hloop, hcompress]

theorem Program.Options.read_of_mapping {v : Value} {entries : Mapping}
    (h : Field.mapping (.top "output") v = .ok entries) : read v = read (.mapping entries) := by
  unfold read
  simp only [Reading.bind_of_ok h, Reading.bind_of_ok (Field.mapping_mapping _ _)]

namespace Snapshot

theorem entries_mapping (sections : Mapping) : entries (.mapping sections) = .ok sections := by
  cases sections <;> rfl

theorem rawPoints_list (items : List Value) : rawPoints (.list items) = .ok items := by
  cases items <;> rfl

/-- A snapshot that is a mapping is read section by section. -/
theorem read_mapping (sections : Mapping) :
    read (.mapping sections) = (do
      let raw ← rawPoints (sections.field Spelling.points)
      let settings ← Settings.read (sections.field Spelling.settings)
      let points ← Point.readList 0 raw
      let options ← Program.Options.read (sections.field Spelling.output)
      return { settings, points, options }) :=
  Reading.bind_of_ok (entries_mapping sections) _

end Snapshot

end Barline
