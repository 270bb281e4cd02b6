import Barline.Proofs.Double.Whole
import Barline.Proofs.Snapshot.Counts
import Barline.Proofs.Snapshot.Rewriting

/-!
# Typed numbers — whole numbers given as texts

A field that takes a whole number takes its digits too, and what the digits stand for goes through a double on the way.
So a text of digits counts as the number that is left after rounding (`Value.Typed`), and a number of up to 53 bits
counts as itself.

The relation is carried from the fields outward, to notes, points, sections and snapshots: whatever fields are given as
texts instead, the snapshot comes to the same. What is reported of a count that is mended does quote the value as it
was given, so the notices are not the same; but all of them can be written (`Reading.Mends`).
-/

namespace Barline

open Double Mapping Numeral Reading

/-! ## Digits -/

namespace Value

/-- A whole number that is typed as a text. -/
def digits (n : Int) : Value :=
  .text (toString n : String)

/-- The same value, or the digits of a number in place of the whole number that it is rounded to. -/
inductive Typed : Value → Value → Prop where
  | same (v : Value) : Typed v v
  | digits (n : Int) (h : (roundWhole n).natAbs < twoPow 1024) : Typed (.int (roundWhole n)) (.digits n)

theorem trimmed_toString (n : Int) : Text.trimmed (toString n : String) = wholeChars n := by
  rw [Text.ofString, toList_toString]
  exact Literal.trimmed_ofChars fun c hc => Literal.isBlank_of_mem_wholeChars hc

theorem isBlank_digits (n : Int) : (digits n).isBlank = false := by
  rw [Bool.eq_false_iff]
  intro hblank
  have hnil := trimmed_of_isBlankText hblank
  rw [trimmed_toString, wholeChars, List.append_eq_nil_iff] at hnil
  exact Nat.toDigits_ne_nil hnil.2

theorem amount?_digits (n : Int) :
    (digits n).amount? = if (roundWhole n).natAbs < twoPow 1024 then some (roundWhole n : Rat) else none := by
  rw [← toRat?_nearest_intCast, digits, amount?, trimmed_toString, read?_wholeChars, Option.bind_some]

theorem isWritable_of_natAbs_lt {n : Int} (h : n.natAbs < twoPow 1024) : (Value.int n).isWritable = true := by
  have hpowers : twoPow 1024 ≤ tenPow digitLimit := by decide +kernel
  rw [isWritable, Number.isWritable, Numeral.isWritable, decide_eq_true_iff]
  exact h.trans_le hpowers

end Value

namespace Field

theorem number_digits (path : Path) (n : Int) : number path (.digits n) = .ok (.double (nearest n)) := by
  simp only [Value.digits, number, Value.trimmed_toString, read?_wholeChars]

/-- Digits are read as the whole number that is left after rounding, or refused if that is beyond all doubles. -/
theorem whole_digits (path : Path) (n : Int) :
    whole path (.digits n) =
      if (roundWhole n).natAbs < twoPow 1024 then .ok (some (roundWhole n))
      else .error (.notFinite path (.digits n)) := by
  have hvalue : (Number.double (nearest n)).toRat? =
      if (roundWhole n).natAbs < twoPow 1024 then some (roundWhole n : Rat) else none := toRat?_nearest_intCast n
  rw [whole, Value.isBlank_digits, if_neg (by decide), number_digits, ok_bind]
  by_cases h : (roundWhole n).natAbs < twoPow 1024
  · rw [if_pos h] at hvalue
    rw [if_pos h, hvalue]
    rfl
  · rw [if_neg h] at hvalue
    rw [if_neg h, hvalue]

end Field

/-! ## Fields -/

section Fields

variable {v v' : Value}

/-- What is given as digits stands for the number that is left after rounding. -/
theorem Value.Typed.amount?_eq (h : Value.Typed v v') : v'.amount? = v.amount? := by
  cases h with
  | same => rfl
  | digits n h =>
    rw [Value.amount?_digits, if_pos h]
    rfl

/-- Unless it is the same value, both can be written. -/
theorem Value.Typed.eq_or_isWritable (h : Value.Typed v v') : v' = v ∨ v.isWritable = true ∧ v'.isWritable = true := by
  cases h with
  | same => exact Or.inl rfl
  | digits n h => exact Or.inr ⟨Value.isWritable_of_natAbs_lt h, rfl⟩

/-- Two readings of one outcome, in which nothing too long is noticed. -/
theorem Reading.mends_of_writable {α : Type} {x y : Reading α} (houtcome : y.outcome = x.outcome)
    (hx : x.notices.all Notice.isWritable = true) (hy : y.notices.all Notice.isWritable = true) :
    Mends True id x y := by
  refine ⟨?_, fun _ => hy.trans hx.symm⟩
  rw [houtcome]
  cases x.outcome <;> rfl

namespace Field

theorem whole_typed (h : Value.Typed v v') (path : Path) : whole path v' = whole path v := by
  cases h with
  | same => rfl
  | digits n h =>
    -- a number that is given as such is not rounded, so it has to be what is left of the digits
    rw [whole_digits, if_pos h]
    rfl

theorem writable_notices_count (path : Path) (h : v.isWritable = true) (n : Int) :
    (count path v n).notices.all Notice.isWritable = true := by
  unfold count
  split
  · rwa [all_notices_notice]
  · rfl

theorem mends_wholeCount (h : Value.Typed v v') (path : Path) (default : Int) :
    Mends True id (wholeCount path default v) (wholeCount path default v') := by
  rw [wholeCount, wholeCount, whole_typed h]
  refine (mends_refl _).next fun n? => ?_
  cases n? with
  | none => exact mends_pure _
  | some n =>
    rcases h.eq_or_isWritable with rfl | ⟨hv, hv'⟩
    · exact mends_refl _
    · refine mends_of_writable ?_ (writable_notices_count path hv n) (writable_notices_count path hv' n)
      rw [id, outcome_count, outcome_count]

theorem mends_lenientCount_typed (h : Value.Typed v v') (path : Path) :
    Mends True id (lenientCount path v) (lenientCount path v') := by
  rcases h.eq_or_isWritable with rfl | ⟨hv, hv'⟩
  · exact mends_refl _
  · refine mends_of_writable ?_ (writable_notices_lenientCount path (Or.inl hv))
      (writable_notices_lenientCount path (Or.inl hv'))
    rw [outcome_lenientCount, outcome_lenientCount, Value.repeats, Value.repeats, h.amount?_eq]

end Field

theorem Program.Options.mends_readLoopCount_typed (h : Value.Typed v v') :
    Mends True id (readLoopCount v) (readLoopCount v') := by
  rcases h.eq_or_isWritable with rfl | ⟨hv, hv'⟩
  · exact mends_refl _
  · refine mends_of_writable ?_ (writable_notices_readLoopCount (Or.inl hv))
      (writable_notices_readLoopCount (Or.inl hv'))
    rw [outcome_readLoopCount, outcome_readLoopCount, Value.loops, Value.loops, h.amount?_eq]

end Fields

/-! ## Sections -/

/-- The fields that are read as whole numbers. -/
def Spelling.wholeNumbers : List (List Text) :=
  [beatsPerBar, beatUnit, bars, root, degree, octave, loopCount, repeats]

/-- Where a whole number is read it may be typed as digits, and any other field has the value that it had. -/
def FieldTyped (names : List Text) : Value → Value → Prop :=
  if names ∈ Spelling.wholeNumbers then Value.Typed else Eq

/-- Two mappings whose fields are related one by one. -/
def Mapping.FieldsRel (inner : List Text → Value → Value → Prop) (fields : List (List Text))
    (entries entries' : Mapping) : Prop :=
  ∀ names ∈ fields, inner names (entries.field names) (entries'.field names)

def Settings.Typed : Value → Value → Prop :=
  Value.MappingRel (FieldsRel FieldTyped Spelling.ofSettings)

def Program.Options.Typed : Value → Value → Prop :=
  Value.MappingRel (FieldsRel FieldTyped Spelling.ofOptions)

def Note.Typed : Value → Value → Prop :=
  Value.MappingRel (FieldsRel FieldTyped Spelling.ofNote)

/-- The notes of a point may be typed one by one. -/
def Point.FieldTyped (names : List Text) : Value → Value → Prop :=
  if names = Spelling.notes then Value.ListRel Note.Typed else Barline.FieldTyped names

def Point.Typed : Value → Value → Prop :=
  Value.MappingRel (FieldsRel Point.FieldTyped (Spelling.ofPoint ++ Spelling.ofNote))

def Snapshot.SectionTyped (names : List Text) : Value → Value → Prop :=
  if names = Spelling.settings then Settings.Typed
  else if names = Spelling.points then Value.ListRel Point.Typed
  else Program.Options.Typed

/-- The sections of a snapshot in which digits stand in place of whole numbers. -/
def Snapshot.Typed : Mapping → Mapping → Prop :=
  FieldsRel SectionTyped Spelling.ofSnapshot

section Sections

variable {v v' : Value} {entries entries' : Mapping} {fields : List (List Text)} {names : List Text}

theorem Mapping.FieldsRel.typed (h : FieldsRel FieldTyped fields entries entries') (hnames : names ∈ fields)
    (hwhole : names ∈ Spelling.wholeNumbers) : Value.Typed (entries.field names) (entries'.field names) := by
  have hrel := h names hnames
  rwa [FieldTyped, if_pos hwhole] at hrel

theorem Mapping.FieldsRel.field_eq (h : FieldsRel FieldTyped fields entries entries') (hnames : names ∈ fields)
    (hother : names ∉ Spelling.wholeNumbers) : entries'.field names = entries.field names := by
  have hrel := h names hnames
  rw [FieldTyped, if_neg hother] at hrel
  exact hrel.symm

/-- A field has the value that is written under a name, or one that has nothing to do with it. -/
theorem Mapping.field_put_cases (entries : Mapping) (name : Text) (names : List Text) (v v' : Value) :
    (entries.put (.text name) v').field names = (entries.put (.text name) v).field names ∨
      name ∈ names ∧ (entries.put (.text name) v).field names = v ∧ (entries.put (.text name) v').field names = v' := by
  induction names with
  | nil => exact Or.inl rfl
  | cons other rest ih =>
    simp only [field, findAny?, List.findSome?_cons, find?_put] at ih ⊢
    by_cases hname : name = other
    · rw [if_pos hname, if_pos hname]
      exact Or.inr ⟨hname ▸ List.mem_cons_self .., rfl, rfl⟩
    · rw [if_neg hname, if_neg hname]
      cases find? entries other with
      | some w => exact Or.inl rfl
      | none => exact ih.imp_right fun h => ⟨List.mem_cons_of_mem other h.1, h.2⟩

/-- To write related values under one name relates the fields. -/
theorem Mapping.fieldsRel_put {inner : List Text → Value → Value → Prop} (hrefl : ∀ names v, inner names v v)
    (entries : Mapping) {name : Text} (h : ∀ names ∈ fields, name ∈ names → inner names v v') :
    FieldsRel inner fields (entries.put (.text name) v) (entries.put (.text name) v') := by
  intro names hnames
  rcases field_put_cases entries name names v v' with heq | ⟨hname, hv, hv'⟩
  · rw [heq]
    exact hrefl names _
  · rw [hv, hv']
    exact h names hnames hname

theorem fieldTyped_refl (names : List Text) (v : Value) : FieldTyped names v v := by
  unfold FieldTyped
  split
  · exact .same v
  · rfl

theorem Point.fieldTyped_refl (names : List Text) (v : Value) : Point.FieldTyped names v v := by
  unfold FieldTyped
  split
  · exact .same v
  · exact Barline.fieldTyped_refl names v

theorem fieldTyped_of_mem (h : Value.Typed v v') (hwhole : names ∈ Spelling.wholeNumbers) : FieldTyped names v v' := by
  rwa [FieldTyped, if_pos hwhole]

theorem Settings.mends_read (h : Settings.Typed v v') : Mends True id (read v) (read v') := by
  cases h with
  | same => exact mends_refl _
  | mapping h =>
    unfold read
    simp only [bind_of_ok (Field.mapping_mapping _ _)]
    refine (Field.mends_wholeCount (h.typed (by decide) (by decide)) _ _).next fun beatsPerBar => ?_
    refine (Field.mends_wholeCount (h.typed (by decide) (by decide)) _ _).next fun beatUnit => ?_
    exact (Field.mends_wholeCount (h.typed (by decide) (by decide)) _ _).next fun bars => mends_pure _

theorem Program.Options.mends_read_typed (h : Options.Typed v v') : Mends True id (read v) (read v') := by
  cases h with
  | same => exact mends_refl _
  | @mapping entries entries' h =>
    have hinstrument : entries'.field Spelling.instrument = _ := h.field_eq (by decide) (by decide)
    have hcompress : entries'.field Spelling.compress = _ := h.field_eq (by decide) (by decide)
    unfold read
    simp only [bind_of_ok (Field.mapping_mapping _ _)]
    rw [hinstrument, hcompress]
    refine (mends_readLoopCount_typed (h.typed (by decide) (by decide))).next fun loopCount => ?_
    exact (mends_refl _).next fun compress => mends_pure _

namespace Note

theorem read_of_fieldsRel (h : FieldsRel FieldTyped Spelling.ofNote entries entries') (path : Path) :
    read path (.mapping entries') = read path (.mapping entries) := by
  have hroot : Value.Typed (entries.field Spelling.root) _ := h.typed (by decide) (by decide)
  have hdegree : Value.Typed (entries.field Spelling.degree) _ := h.typed (by decide) (by decide)
  have hoctave : Value.Typed (entries.field Spelling.octave) _ := h.typed (by decide) (by decide)
  have hscale : entries'.field Spelling.scale = _ := h.field_eq (by decide) (by decide)
  have hlegato : entries'.field Spelling.legato = _ := h.field_eq (by decide) (by decide)
  have hamp : entries'.field Spelling.amp = _ := h.field_eq (by decide) (by decide)
  unfold read
  simp only [Field.mapping_mapping, ok_bind, Field.whole_typed hroot, Field.whole_typed hdegree,
    Field.whole_typed hoctave, hscale, hlegato, hamp]

theorem read_typed (h : Note.Typed v v') (path : Path) : read path v' = read path v := by
  cases h with
  | same => rfl
  | mapping h => exact read_of_fieldsRel h path

theorem readList_typed {items items' : List Value} (h : List.Forall₂ Note.Typed items items') (path : Path)
    (index : Int) : readList path index items' = readList path index items := by
  induction h generalizing index with
  | nil => rfl
  | cons hv _ ih => rw [readList, readList, read_typed hv, ih]

end Note

namespace Point

/-- The fields of a point that are not its notes, and those that a note of its own would have. -/
theorem fieldsRel_typed (h : FieldsRel Point.FieldTyped (Spelling.ofPoint ++ Spelling.ofNote) entries entries')
    (hfields : ∀ names ∈ fields, names ∈ Spelling.ofPoint ++ Spelling.ofNote ∧ names ≠ Spelling.notes) :
    FieldsRel Barline.FieldTyped fields entries entries' := by
  intro names hnames
  have hrel := h names (hfields names hnames).1
  rwa [FieldTyped, if_neg (hfields names hnames).2] at hrel

theorem readAll_typed (h : FieldsRel Point.FieldTyped (Spelling.ofPoint ++ Spelling.ofNote) entries entries')
    (path : Path) : Note.readAll path entries' = Note.readAll path entries := by
  have hown : Note.read path (.mapping entries') = Note.read path (.mapping entries) :=
    Note.read_of_fieldsRel (fieldsRel_typed h (by decide)) path
  have hrel : Value.ListRel Note.Typed (entries.field Spelling.notes) (entries'.field Spelling.notes) :=
    h Spelling.notes (by decide)
  generalize hnotes : entries.field Spelling.notes = notes at hrel
  generalize hnotes' : entries'.field Spelling.notes = notes' at hrel
  cases hrel with
  | same => simp only [Note.readAll.eq_def, hnotes, hnotes', hown]
  | list hitems =>
    cases hitems with
    -- an empty list of notes is none, so the point is its own note again
    | nil => simp only [Note.readAll.eq_def, hnotes, hnotes', hown]
    | cons hv hrest =>
      rw [Note.readAll_of_list hnotes (List.cons_ne_nil _ _), Note.readAll_of_list hnotes' (List.cons_ne_nil _ _)]
      exact Note.readList_typed (.cons hv hrest) _ 0

theorem mends_read_typed (h : Point.Typed v v') (index : Int) : Mends True id (read index v) (read index v') := by
  cases h with
  | same => exact mends_refl _
  | @mapping entries entries' h =>
    have hflat : FieldsRel Barline.FieldTyped [Spelling.start, Spelling.duration, Spelling.repeats, Spelling.strum]
        entries entries' := fieldsRel_typed h (by decide)
    have hstart : entries'.field Spelling.start = _ := hflat.field_eq (by decide) (by decide)
    have hduration : entries'.field Spelling.duration = _ := hflat.field_eq (by decide) (by decide)
    have hstrum : entries'.field Spelling.strum = _ := hflat.field_eq (by decide) (by decide)
    have hrepeats : Value.Typed (entries.field Spelling.repeats) _ := hflat.typed (by decide) (by decide)
    simp only [read, readEntries, readTimes_congr hstart hduration, readAll_typed h, hstrum]
    -- how often the point is played is the only part that may be noticed in other words
    refine (mends_refl _).next fun times => (mends_refl _).next fun notes => ?_
    refine (Field.mends_lenientCount_typed hrepeats _).next fun repeats => ?_
    exact (mends_refl _).next fun strum => mends_pure _

theorem mends_readList_typed {items items' : List Value} (h : List.Forall₂ Point.Typed items items') (index : Int) :
    Mends True id (readList index items) (readList index items') := by
  induction h generalizing index with
  | nil => exact mends_refl _
  | cons hv _ ih =>
    exact (mends_read_typed hv index).next fun point => (ih (index + 1)).next fun points => mends_pure _

end Point

theorem Snapshot.mends_read_typed (h : Snapshot.Typed entries entries') :
    Mends True id (read (.mapping entries)) (read (.mapping entries')) := by
  have hsettings : Settings.Typed (entries.field Spelling.settings) (entries'.field Spelling.settings) :=
    h Spelling.settings (by decide)
  have hpoints : Value.ListRel Point.Typed (entries.field Spelling.points) (entries'.field Spelling.points) :=
    h Spelling.points (by decide)
  have houtput : Program.Options.Typed (entries.field Spelling.output) (entries'.field Spelling.output) :=
    h Spelling.output (by decide)
  rw [read_mapping, read_mapping]
  generalize entries.field Spelling.points = raw at hpoints
  generalize entries'.field Spelling.points = raw' at hpoints
  -- the points are taken apart before the settings are read, so the cases are split first
  cases hpoints with
  | same =>
    refine (mends_refl _).next fun items => (Settings.mends_read hsettings).next fun settings => ?_
    refine (mends_refl _).next fun points => ?_
    exact (Program.Options.mends_read_typed houtput).next fun options => mends_pure _
  | list hitems =>
    simp only [bind_of_ok (rawPoints_list _)]
    refine (Settings.mends_read hsettings).next fun settings => ?_
    refine (Point.mends_readList_typed hitems 0).next fun points => ?_
    exact (Program.Options.mends_read_typed houtput).next fun options => mends_pure _

end Sections

/-! ## Numbers that keep their value -/

theorem Value.digits_injective : Function.Injective Value.digits := by
  intro n m h
  have hchars : wholeChars n = wholeChars m := by
    rw [← toList_toString, ← toList_toString, Text.ofString_inj.1 (Value.text.inj h)]
  have hread := congrArg whole? hchars
  rw [whole?_wholeChars, whole?_wholeChars] at hread
  exact Option.some.inj hread

/-- A number counts as itself if it has at most 53 significant bits and is not beyond all doubles. -/
theorem Value.typed_digits_iff {n : Int} :
    Value.Typed (.int n) (.digits n) ↔ (unit n.natAbs : Int) ∣ n ∧ n.natAbs < twoPow 1024 := by
  rw [← roundWhole_eq_self_iff]
  constructor
  · intro h
    generalize hv : Value.int n = v at h
    generalize hv' : Value.digits n = v' at h
    cases h with
    | same =>
      rw [← hv] at hv'
      cases hv'
    | digits m hm =>
      obtain rfl := Value.digits_injective hv'
      have hround : n = roundWhole n := by simpa using hv
      exact ⟨hround.symm, hround ▸ hm⟩
  · rintro ⟨hround, hrange⟩
    have htyped := Value.Typed.digits n (by rwa [hround])
    rwa [hround] at htyped

/-- Digits are read as their number exactly if they count as it. -/
theorem Field.whole_digits_eq_iff {path : Path} {n : Int} :
    whole path (.digits n) = whole path (.int n) ↔ (unit n.natAbs : Int) ∣ n ∧ n.natAbs < twoPow 1024 := by
  rw [← Value.typed_digits_iff]
  constructor
  · intro h
    rw [whole_digits] at h
    split at h
    case isTrue hrange =>
      have hround : roundWhole n = n := Option.some.inj (Except.ok.inj h)
      have htyped := Value.Typed.digits n hrange
      rwa [hround] at htyped
    case isFalse => cases h
  · intro h
    exact whole_typed h path

theorem Reading.Mends.alike {α : Type} {x y : Reading α} (h : Mends True id x y) :
    y.outcome = x.outcome ∧ y.written = x.written := by
  have hid : ∀ {ε : Type} (z : Except ε α), z.map id = z := by
    intro ε z
    cases z <;> rfl
  exact ⟨h.outcome.trans (hid _), (h.written_eq trivial).trans (hid _)⟩

/-- The digits of a number are read as the number if and only if it has at most 53 significant bits and is not beyond
all doubles, and so they are up to `2 ^ 53`. In general they are read as what is left of the number after rounding, in
every field that takes whole numbers. Beyond all doubles they are no number at all, which is refused where a whole
number has to be, and is one repetition and no loop count. For a snapshot it makes no difference how many of its whole
numbers are given as digits that are read as these numbers. -/
theorem typed_whole_numbers_keep_53_bits (n : Int) :
    (∀ path, Field.whole path (.digits n) = Field.whole path (.int n) ↔
      (unit n.natAbs : Int) ∣ n ∧ n.natAbs < twoPow 1024) ∧
    (Value.Typed (.int n) (.digits n) ↔ (unit n.natAbs : Int) ∣ n ∧ n.natAbs < twoPow 1024) ∧
    (n.natAbs ≤ twoPow 53 → Value.Typed (.int n) (.digits n)) ∧
    ((roundWhole n).natAbs < twoPow 1024 → ∀ path default,
      Field.whole path (.digits n) = Field.whole path (.int (roundWhole n)) ∧
        (Field.wholeCount path default (.digits n)).outcome =
          (Field.wholeCount path default (.int (roundWhole n))).outcome ∧
        (Field.lenientCount path (.digits n)).outcome = (Field.lenientCount path (.int (roundWhole n))).outcome ∧
        (Program.Options.readLoopCount (.digits n)).outcome =
          (Program.Options.readLoopCount (.int (roundWhole n))).outcome) ∧
    (twoPow 1024 ≤ (roundWhole n).natAbs → ∀ path,
      Field.whole path (.digits n) = .error (.notFinite path (.digits n)) ∧
        (Field.lenientCount path (.digits n)).outcome = .ok 1 ∧
        (Program.Options.readLoopCount (.digits n)).outcome = .ok .null) ∧
    ∀ sections sections', Snapshot.Typed sections sections' →
      (Snapshot.read (.mapping sections')).outcome = (Snapshot.read (.mapping sections)).outcome ∧
        (Snapshot.read (.mapping sections')).written = (Snapshot.read (.mapping sections)).written := by
  refine ⟨fun path => Field.whole_digits_eq_iff, Value.typed_digits_iff, fun h => ?_, fun h path default => ?_,
    fun h path => ?_, fun sections sections' h => (Snapshot.mends_read_typed h).alike⟩
  · have hpowers : twoPow 53 < twoPow 1024 := twoPow_lt_twoPow (by decide)
    exact Value.typed_digits_iff.2 ⟨roundWhole_eq_self_iff.1 (roundWhole_of_natAbs_le h), h.trans_lt hpowers⟩
  · have htyped := Value.Typed.digits n h
    exact ⟨Field.whole_typed htyped path, (Field.mends_wholeCount htyped path default).alike.1,
      (Field.mends_lenientCount_typed htyped path).alike.1,
      (Program.Options.mends_readLoopCount_typed htyped).alike.1⟩
  · have hnone : (Value.digits n).amount? = none := by
      rw [Value.amount?_digits, if_neg (not_lt.2 h)]
    refine ⟨?_, ?_, ?_⟩
    · rw [Field.whole_digits, if_neg (not_lt.2 h)]
    · rw [Field.outcome_lenientCount, Value.repeats, hnone]
    · rw [Program.Options.outcome_readLoopCount, Value.loops, hnone]

/-- A piece of one point. -/
def pieceWith (bars root : Value) : Mapping :=
  [(.text "settings", .mapping [(.text "bars", bars)]),
    (.text "points", .list [.mapping [(.text "dur", .int 1), (.text "root", root)]])]

/-- A root of 54 bits may be typed as digits if the last of them is zero, and bars may be anyway. -/
theorem even_root_may_be_typed :
    Snapshot.Typed (pieceWith (.int 3) (.int 9007199254740994)) (pieceWith (.digits 3) (.digits 9007199254740994)) ∧
      (Snapshot.read (.mapping (pieceWith (.digits 3) (.digits 9007199254740994)))).outcome =
        (Snapshot.read (.mapping (pieceWith (.int 3) (.int 9007199254740994)))).outcome := by
  obtain ⟨-, -, hsmall, -⟩ := typed_whole_numbers_keep_53_bits 3
  obtain ⟨-, heven, -, -, -, hread⟩ := typed_whole_numbers_keep_53_bits 9007199254740994
  have hbars : Value.Typed (.int 3) (.digits 3) := hsmall (by decide)
  have hroot : Value.Typed (.int 9007199254740994) (.digits 9007199254740994) := heven.2 (by decide +kernel)
  have hsettings : Settings.Typed (.mapping [(.text "bars", .int 3)]) (.mapping [(.text "bars", .digits 3)]) := by
    refine .mapping (fieldsRel_put fieldTyped_refl [] fun names hnames hname => fieldTyped_of_mem hbars ?_)
    revert names
    decide
  have hpoint : Point.Typed (.mapping [(.text "dur", .int 1), (.text "root", .int 9007199254740994)])
      (.mapping [(.text "dur", .int 1), (.text "root", .digits 9007199254740994)]) := by
    have hput : FieldsRel Point.FieldTyped (Spelling.ofPoint ++ Spelling.ofNote)
        (Mapping.put [(.text "dur", .int 1)] (.text "root") (.int 9007199254740994))
        (Mapping.put [(.text "dur", .int 1)] (.text "root") (.digits 9007199254740994)) := by
      refine fieldsRel_put Point.fieldTyped_refl _ fun names hnames hname => ?_
      have hfield : names ≠ Spelling.notes ∧ names ∈ Spelling.wholeNumbers := by
        revert names
        decide
      rw [Point.FieldTyped, if_neg hfield.1]
      exact fieldTyped_of_mem hroot hfield.2
    exact .mapping hput
  have htyped : Snapshot.Typed (pieceWith (.int 3) (.int 9007199254740994))
      (pieceWith (.digits 3) (.digits 9007199254740994)) := by
    refine List.forall_mem_cons.2 ⟨hsettings, List.forall_mem_cons.2 ⟨?_, List.forall_mem_singleton.2 (.same _)⟩⟩
    exact Value.ListRel.list (.cons hpoint .nil)
  exact ⟨htyped, (hread _ _ htyped).1⟩

/-- The digits of a root of 54 bits that is odd are read as the even number before it. -/
theorem odd_root_is_rounded :
    ∃ note other, Note.read (.top "note") (.mapping [(.text "root", .digits 9007199254740993)]) = .ok note ∧
      Note.read (.top "note") (.mapping [(.text "root", .int 9007199254740993)]) = .ok other ∧
      note.root = some (.int 9007199254740992) ∧ other.root = some (.int 9007199254740993) :=
  ⟨_, _, rfl, rfl, rfl, rfl⟩

end Barline
