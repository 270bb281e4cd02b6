import Barline.Proofs.Snapshot.FirstError

/-!
# Misfits — values of the wrong kind in a snapshot

There are seven places in a snapshot where a mapping or a list has to stand. A `Spot` is a snapshot in which the value
in one of them is left open, and the question is what becomes of it when a value of another kind is put there.

As a rule the reading stops and says so. The argument goes from the inside out: the reader of the place itself refuses
the value, and every reader around it passes the refusal on, since all goes well until then (`Reading.Blames`).

There is an exception. Three of the places take a value that stands for nothing, such as zero or false, for none.
-/

namespace Barline

open Reading WritingError

/-! ## Readings with a value left open -/

namespace Reading

variable {α β : Type} {x : Value → Reading α} {v : Value} {e : SnapshotError}

/-- The value is to blame: though all goes well with some other value in its place, the reading stops with an error. -/
def Blames (x : Value → Reading α) (v : Value) (e : SnapshotError) : Prop :=
  ∀ w a, (x w).written = .ok a → (x v).written = .error (.cause e)

theorem blames_of_eq_fail (h : x v = fail e) (he : e.isWritable = true) : Blames x v e := by
  intro w a _
  rw [h, written, fail, ofExcept, mapError_error, ofCause, if_pos he]
  rfl

/-- What would be read afterwards makes no difference. -/
theorem Blames.bind (h : Blames x v e) (f : Value → α → Reading β) : Blames (fun w => x w >>= f w) v e := by
  intro w b hw
  obtain ⟨a, ha, -⟩ := written_bind_eq_ok_iff.1 hw
  rw [written_bind, h w a ha]
  rfl

/-- What is read before goes well with any value, since it does with one. -/
theorem blames_after (y : Reading β) {x : β → Value → Reading α} (h : ∀ b, Blames (x b) v e) :
    Blames (fun w => y >>= fun b => x b w) v e := by
  intro w a hw
  obtain ⟨b, hb, ha⟩ := written_bind_eq_ok_iff.1 hw
  rw [written_bind, hb]
  exact h b w a ha

theorem Blames.inTurn (h : Blames x v e) (before after : List (Reading α)) :
    Blames (fun w => inTurn (before ++ x w :: after)) v e := by
  -- over the readings before it, since those behind it are not reached
  induction before with
  | nil => exact h.bind _
  | cons y rest ih => exact blames_after y fun b => ih.bind _

end Reading

theorem mapIdx_around {α β : Type} (f : Nat → α → β) (before after : List α) (a : α) :
    (before ++ a :: after).mapIdx f =
      before.mapIdx f ++ f before.length a :: after.mapIdx fun i => f (i + 1 + before.length) := by
  rw [List.mapIdx_append, List.mapIdx_cons, Nat.zero_add]

namespace Mapping

variable (entries : Mapping) (v : Value)

theorem field_put_points : (entries.put (.text "points") v).field Spelling.points = v :=
  field_put_self entries _ _ v

theorem field_put_notes : (entries.put (.text "notes") v).field Spelling.notes = v :=
  field_put_self entries _ _ v

end Mapping

/-! ## From the inside out -/

section Around

variable {v : Value} {e : SnapshotError} {before after : List Value} {entries sections : Mapping}

/-- A note passes its refusal on to the list. -/
theorem Note.blames_readList {path : Path}
    (h : Blames (fun w => ofExcept (read (path.item before.length) w)) v e) :
    Blames (fun w => ofExcept (readList path 0 (before ++ w :: after))) v e := by
  simp only [readList_eq_inTurn, mapIdx_around, Int.zero_add]
  exact h.inTurn _ _

/-- The notes of a point pass their refusal on to the point. -/
theorem Point.blames_read {index : Int} {notes : Value → Value}
    (h : Blames (fun w => ofExcept (Note.readAll (path index) (entries.put (.text "notes") (notes w)))) v e) :
    Blames (fun w => read index (.mapping (entries.put (.text "notes") (notes w)))) v e := by
  have hother : ∀ names, ("notes" : Text) ∉ names → ∀ w,
      (entries.put (.text "notes") w).field names = entries.field names :=
    fun names hnames w => Mapping.field_put_of_notMem hnames entries w
  have htimes : ∀ w, readTimes (path index) (entries.put (.text "notes") w) = readTimes (path index) entries :=
    fun w => readTimes_congr (hother Spelling.start (by decide) w) (hother Spelling.duration (by decide) w)
  -- what follows the notes may look at the entries, but it is not reached
  simp only [read, readEntries, htimes]
  exact blames_after _ fun times => h.bind _

/-- A point passes its refusal on to the list. -/
theorem Point.blames_readList {point : Value → Value}
    (h : Blames (fun w => read before.length (point w)) v e) :
    Blames (fun w => readList 0 (before ++ point w :: after)) v e := by
  simp only [readList_eq_inTurn, mapIdx_around, Int.zero_add]
  exact h.inTurn _ _

/-- The points pass their refusal on to the snapshot. -/
theorem Snapshot.blames_read {items : Value → List Value}
    (h : Blames (fun w => Point.readList 0 (items w)) v e) :
    Blames (fun w => read (.mapping (sections.put (.text "points") (.list (items w))))) v e := by
  have hsettings : ∀ w, (sections.put (.text "points") w).field Spelling.settings = sections.field Spelling.settings :=
    fun w => Mapping.field_put_of_notMem (by decide) sections w
  simp only [read_mapping, Mapping.field_put_points, hsettings, bind_of_ok (rawPoints_list _)]
  exact blames_after _ fun settings => h.bind _

end Around

/-! ## Spots -/

/-- A snapshot with one value left open: all of it, a section, the points or one of them, the notes of a point or one of
them. Whatever else is in the snapshot, the value is put under its name and among its neighbours. -/
inductive Spot where
  | whole
  | settings (sections : Mapping)
  | output (sections : Mapping)
  | points (sections : Mapping)
  | point (sections : Mapping) (before after : List Value)
  | notes (sections : Mapping) (before after : List Value) (entries : Mapping)
  | note (sections : Mapping) (before after : List Value) (entries : Mapping) (before' after' : List Value)

namespace Spot

/-- The snapshot with a value put in. -/
def fill : Spot → Value → Value
  | whole, v => v
  | settings sections, v => .mapping (sections.put (.text "settings") v)
  | output sections, v => .mapping (sections.put (.text "output") v)
  | points sections, v => .mapping (sections.put (.text "points") v)
  | point sections before after, v => .mapping (sections.put (.text "points") (.list (before ++ v :: after)))
  | notes sections before after entries, v =>
    .mapping (sections.put (.text "points")
      (.list (before ++ .mapping (entries.put (.text "notes") v) :: after)))
  | note sections before after entries before' after', v =>
    .mapping (sections.put (.text "points")
      (.list (before ++ .mapping (entries.put (.text "notes") (.list (before' ++ v :: after'))) :: after)))

/-- Whether a value is of the kind that has to stand there: a list of points or of notes, or else a mapping. -/
def Fits : Spot → Value → Prop
  | points _, v | notes .., v => ∃ items, v = .list items
  | _, v => ∃ entries, v = .mapping entries

/-- What is said of a value of another kind. -/
def refusal : Spot → Value → SnapshotError
  | whole, v => .notSnapshot v
  | settings _, v => .notMapping (.top "settings") v
  | output _, v => .notMapping (.top "output") v
  | points _, v => .notList (.top "points") v
  | point _ before _, v => .notMapping (Point.path before.length) v
  | notes _ before _ _, v => .notList ((Point.path before.length).field "notes") v
  | note _ before _ _ before' _, v =>
    .notMapping (((Point.path before.length).field "notes").item before'.length) v

/-- Whether a value that stands for nothing, of whatever kind, is taken for no value. -/
def TakesVoid : Spot → Prop
  | whole | points _ | notes .. => True
  | _ => False

variable {v : Value}

theorem isWritable_refusal (spot : Spot) (v : Value) : (spot.refusal v).isWritable = true := by
  cases spot <;> rfl

/-! ## Refusals -/

theorem mapping_eq_error (path : Path) (hnull : v ≠ .null) (hkind : ¬ ∃ entries, v = .mapping entries) :
    Field.mapping path v = .error (.notMapping path v) := by
  cases v with
  | null => exact absurd rfl hnull
  | mapping entries => exact absurd ⟨entries, rfl⟩ hkind
  | _ => rfl

theorem blames_settings (sections : Mapping) (hnull : v ≠ .null) (hkind : ¬ ∃ entries, v = .mapping entries) :
    Blames (fun w => Snapshot.read ((settings sections).fill w)) v ((settings sections).refusal v) := by
  have hown : ∀ w, (sections.put (.text "settings") w).field Spelling.settings = w :=
    fun w => Mapping.field_put_self sections _ _ w
  have hpoints : ∀ w, (sections.put (.text "settings") w).field Spelling.points = sections.field Spelling.points :=
    fun w => Mapping.field_put_of_notMem (by decide) sections w
  have hread : Settings.read v = fail ((settings sections).refusal v) := by
    rw [Settings.read, mapping_eq_error _ hnull hkind]
    rfl
  simp only [fill, Snapshot.read_mapping, hown, hpoints]
  exact blames_after _ fun raw => (blames_of_eq_fail hread (isWritable_refusal _ v)).bind _

theorem blames_output (sections : Mapping) (hnull : v ≠ .null) (hkind : ¬ ∃ entries, v = .mapping entries) :
    Blames (fun w => Snapshot.read ((output sections).fill w)) v ((output sections).refusal v) := by
  have hown : ∀ w, (sections.put (.text "output") w).field Spelling.output = w :=
    fun w => Mapping.field_put_self sections _ _ w
  have hother : ∀ names, ("output" : Text) ∉ names → ∀ w,
      (sections.put (.text "output") w).field names = sections.field names :=
    fun names hnames w => Mapping.field_put_of_notMem hnames sections w
  have hread : Program.Options.read v = fail ((output sections).refusal v) := by
    rw [Program.Options.read, mapping_eq_error _ hnull hkind]
    rfl
  simp only [fill, Snapshot.read_mapping, hown, hother Spelling.points (by decide),
    hother Spelling.settings (by decide)]
  refine blames_after _ fun raw => blames_after _ fun settings => blames_after _ fun points => ?_
  exact (blames_of_eq_fail hread (isWritable_refusal _ v)).bind _

theorem blames_points (sections : Mapping) (hvoid : ¬ v.isVoid = true) (hkind : ¬ ∃ items, v = .list items) :
    Blames (fun w => Snapshot.read ((points sections).fill w)) v ((points sections).refusal v) := by
  have hraw : Snapshot.rawPoints v = .error ((points sections).refusal v) := by
    rw [Snapshot.rawPoints.eq_def, if_neg hvoid]
    split
    case h_1 items => exact absurd ⟨items, rfl⟩ hkind
    case h_2 => rfl
  have hread : Snapshot.read ((points sections).fill v) = fail ((points sections).refusal v) := by
    rw [fill, Snapshot.read_mapping, Mapping.field_put_points, hraw]
    rfl
  exact blames_of_eq_fail hread (isWritable_refusal _ v)

theorem blames_point (sections : Mapping) (before after : List Value) (hkind : ¬ ∃ entries, v = .mapping entries) :
    Blames (fun w => Snapshot.read ((point sections before after).fill w)) v
      ((point sections before after).refusal v) := by
  have hread : Point.read before.length v = fail ((point sections before after).refusal v) := by
    rw [Point.read.eq_def]
    split
    case h_1 entries => exact absurd ⟨entries, rfl⟩ hkind
    case h_2 => rfl
  have hpoint : Blames (fun w => Point.read before.length w) v ((point sections before after).refusal v) :=
    blames_of_eq_fail hread (isWritable_refusal _ v)
  exact Snapshot.blames_read (Point.blames_readList hpoint)

theorem blames_notes (sections : Mapping) (before after : List Value) (entries : Mapping)
    (hvoid : ¬ v.isVoid = true) (hkind : ¬ ∃ items, v = .list items) :
    Blames (fun w => Snapshot.read ((notes sections before after entries).fill w)) v
      ((notes sections before after entries).refusal v) := by
  have hread : Note.readAll (Point.path before.length) (entries.put (.text "notes") v) =
      .error ((notes sections before after entries).refusal v) := by
    rw [Note.readAll, Mapping.field_put_notes, if_neg hvoid]
    split
    case h_1 items => exact absurd ⟨items, rfl⟩ hkind
    case h_2 => rfl
  have hnotes : Blames (fun w => ofExcept (Note.readAll (Point.path before.length) (entries.put (.text "notes") w))) v
      ((notes sections before after entries).refusal v) :=
    blames_of_eq_fail (congrArg ofExcept hread) (isWritable_refusal _ v)
  exact Snapshot.blames_read (Point.blames_readList (Point.blames_read hnotes))

theorem blames_note (sections : Mapping) (before after : List Value) (entries : Mapping) (before' after' : List Value)
    (hnull : v ≠ .null) (hkind : ¬ ∃ entries, v = .mapping entries) :
    Blames (fun w => Snapshot.read ((note sections before after entries before' after').fill w)) v
      ((note sections before after entries before' after').refusal v) := by
  have hread : Note.read (((Point.path before.length).field "notes").item before'.length) v =
      .error ((note sections before after entries before' after').refusal v) := by
    rw [Note.read, mapping_eq_error _ hnull hkind]
    rfl
  have hnote : Blames
      (fun w => ofExcept (Note.read (((Point.path before.length).field "notes").item before'.length) w)) v
      ((note sections before after entries before' after').refusal v) :=
    blames_of_eq_fail (congrArg ofExcept hread) (isWritable_refusal _ v)
  have hall : ∀ w, Note.readAll (Point.path before.length)
      (entries.put (.text "notes") (.list (before' ++ w :: after'))) =
        Note.readList ((Point.path before.length).field "notes") 0 (before' ++ w :: after') :=
    fun w => Note.readAll_of_list (Mapping.field_put_notes entries _) (by simp)
  have hnotes : Blames (fun w => ofExcept (Note.readAll (Point.path before.length)
      (entries.put (.text "notes") (.list (before' ++ w :: after'))))) v
      ((note sections before after entries before' after').refusal v) := by
    simp only [hall]
    exact Note.blames_readList hnote
  exact Snapshot.blames_read (Point.blames_readList (Point.blames_read hnotes))

/-- In each of the places a value of another kind is to blame, unless it stands for nothing. -/
theorem blames (spot : Spot) (hnull : v ≠ .null) (hmisfit : ¬ spot.Fits v)
    (hvoid : spot.TakesVoid → ¬ v.isVoid = true) :
    Blames (fun w => Snapshot.read (spot.fill w)) v (spot.refusal v) := by
  cases spot with
  | whole =>
    have hentries : Snapshot.entries v = .error (.notSnapshot v) := by
      rw [Snapshot.entries.eq_def, if_neg (hvoid trivial)]
      split
      case h_1 entries => exact absurd ⟨entries, rfl⟩ hmisfit
      case h_2 => rfl
    have hread : Snapshot.read v = fail (.notSnapshot v) := by
      rw [Snapshot.read, hentries]
      rfl
    exact blames_of_eq_fail hread rfl
  | settings sections => exact blames_settings sections hnull hmisfit
  | output sections => exact blames_output sections hnull hmisfit
  | points sections => exact blames_points sections (hvoid trivial) hmisfit
  | point sections before after => exact blames_point sections before after hmisfit
  | notes sections before after entries =>
    exact blames_notes sections before after entries (hvoid trivial) hmisfit
  | note sections before after entries before' after' =>
    exact blames_note sections before after entries before' after' hnull hmisfit

/-! ## Values that stand for nothing -/

/-- The notes of a point are not looked at when they stand for nothing. -/
theorem read_void_notes (index : Int) (entries : Mapping) (hvoid : v.isVoid = true) :
    Point.read index (.mapping (entries.put (.text "notes") v)) =
      Point.read index (.mapping (entries.put (.text "notes") .null)) := by
  have hother : ∀ names, ("notes" : Text) ∉ names →
      (entries.put (.text "notes") v).field names = (entries.put (.text "notes") .null).field names := by
    intro names hnames
    rw [Mapping.field_put_of_notMem hnames, Mapping.field_put_of_notMem hnames]
  have hnotes : Note.readAll (Point.path index) (entries.put (.text "notes") v) =
      Note.readAll (Point.path index) (entries.put (.text "notes") .null) := by
    have hsame : Mapping.SameFields Spelling.ofNote (entries.put (.text "notes") .null)
        (entries.put (.text "notes") v) :=
      fun names hnames => hother names (by revert names; decide)
    -- the point is its own note, and what stands under the name of its notes is no attribute of one
    rw [Note.readAll_of_isVoid (by rwa [Mapping.field_put_notes]),
      Note.readAll_of_isVoid (by rw [Mapping.field_put_notes]; rfl), Note.read_congr hsame]
  simp only [Point.read, Point.readEntries, hnotes, hother Spelling.repeats (by decide),
    hother Spelling.strum (by decide),
    Point.readTimes_congr (hother Spelling.start (by decide)) (hother Spelling.duration (by decide))]

/-- Points that are read alike make the same snapshot. -/
theorem read_put_points (sections : Mapping) {w : Value} {items items' : List Value}
    (hv : Snapshot.rawPoints v = .ok items) (hw : Snapshot.rawPoints w = .ok items')
    (h : Point.readList 0 items = Point.readList 0 items') :
    Snapshot.read (.mapping (sections.put (.text "points") v)) =
      Snapshot.read (.mapping (sections.put (.text "points") w)) := by
  have hother : ∀ names, ("points" : Text) ∉ names → ∀ w,
      (sections.put (.text "points") w).field names = sections.field names :=
    fun names hnames w => Mapping.field_put_of_notMem hnames sections w
  simp only [Snapshot.read_mapping, Mapping.field_put_points, bind_of_ok hv, bind_of_ok hw, h,
    hother Spelling.settings (by decide), hother Spelling.output (by decide)]

theorem rawPoints_of_isVoid (h : v.isVoid = true) : Snapshot.rawPoints v = .ok [] := by
  rw [Snapshot.rawPoints.eq_def]
  exact if_pos h

theorem entries_of_isVoid (h : v.isVoid = true) : Snapshot.entries v = .ok [] := by
  rw [Snapshot.entries.eq_def]
  exact if_pos h

theorem read_fill_of_isVoid (spot : Spot) (htakes : spot.TakesVoid) (hvoid : v.isVoid = true) :
    Snapshot.read (spot.fill v) = Snapshot.read (spot.fill .null) := by
  cases spot with
  | whole => simp only [fill, Snapshot.read, entries_of_isVoid hvoid, entries_of_isVoid (v := .null) rfl]
  | points sections =>
    exact read_put_points sections (rawPoints_of_isVoid hvoid) (rawPoints_of_isVoid rfl) rfl
  | notes sections before after entries =>
    -- the other points are what they were, so one point decides
    refine read_put_points sections (Snapshot.rawPoints_list _) (Snapshot.rawPoints_list _) ?_
    rw [Point.readList_eq_inTurn, Point.readList_eq_inTurn, mapIdx_around, mapIdx_around, read_void_notes _ _ hvoid]
  | _ => exact htakes.elim

end Spot

/-- A value other than nothing that is put into a snapshot where a mapping or a list has to stand, and is none, is
refused with an error that names its place and its type, provided that the rest of the snapshot can be read. The
exception are values that stand for nothing in three of the places: there they make no difference to having no value. -/
theorem misfits_are_refused (spot : Spot) {v w : Value} {s : Snapshot}
    (hrest : (Snapshot.read (spot.fill w)).written = .ok s) (hnull : v ≠ .null) (hmisfit : ¬ spot.Fits v) :
    ((spot.TakesVoid → ¬ v.isVoid = true) →
      (Snapshot.read (spot.fill v)).written = .error (.cause (spot.refusal v))) ∧
    (spot.TakesVoid → v.isVoid = true → Snapshot.read (spot.fill v) = Snapshot.read (spot.fill .null)) :=
  ⟨fun hvoid => spot.blames hnull hmisfit hvoid w s hrest, spot.read_fill_of_isVoid⟩

/-- The second note of a point may not be false, though its notes may. -/
theorem false_is_no_note :
    ∃ s, (Snapshot.read ((Spot.note [] [] [] [(.text "dur", .int 1)] [.null] []).fill .null)).written = .ok s ∧
      Value.bool false ≠ .null ∧
      (Snapshot.read ((Spot.note [] [] [] [(.text "dur", .int 1)] [.null] []).fill (.bool false))).written =
        .error (.cause (.notMapping (((Point.path 0).field "notes").item 1) (.bool false))) ∧
      Snapshot.read ((Spot.notes [] [] [] [(.text "dur", .int 1)]).fill (.bool false)) =
        Snapshot.read ((Spot.notes [] [] [] [(.text "dur", .int 1)]).fill .null) := by
  obtain ⟨s, hs⟩ : ∃ s, (Snapshot.read ((Spot.note [] [] [] [(.text "dur", .int 1)] [.null] []).fill .null)).written =
      .ok s := ⟨_, rfl⟩
  obtain ⟨s', hs'⟩ : ∃ s, (Snapshot.read ((Spot.notes [] [] [] [(.text "dur", .int 1)]).fill .null)).written =
      .ok s := ⟨_, rfl⟩
  have hnull : Value.bool false ≠ .null := by decide
  refine ⟨s, hs, hnull, ?_, ?_⟩
  · exact (misfits_are_refused _ hs hnull (by rintro ⟨entries, h⟩; cases h)).1 False.elim
  · exact (misfits_are_refused _ hs' hnull (by rintro ⟨items, h⟩; cases h)).2 trivial rfl

/-- Zero is no mapping and false is no list, but as a snapshot, as its points and as the notes of a point they pass. -/
theorem void_values_pass :
    (¬ Spot.whole.Fits (.int 0) ∧ ∃ s, (Snapshot.read (Spot.whole.fill (.int 0))).written = .ok s) ∧
    (¬ (Spot.points []).Fits (.bool false) ∧
      ∃ s, (Snapshot.read ((Spot.points []).fill (.bool false))).written = .ok s) ∧
    (¬ (Spot.notes [] [] [] [(.text "dur", .int 1)]).Fits (.int 0) ∧
      ∃ s, (Snapshot.read ((Spot.notes [] [] [] [(.text "dur", .int 1)]).fill (.int 0))).written = .ok s) := by
  refine ⟨⟨?_, _, rfl⟩, ⟨?_, _, rfl⟩, ?_, _, rfl⟩
  · rintro ⟨entries, h⟩
    cases h
  · rintro ⟨items, h⟩
    cases h
  · rintro ⟨items, h⟩
    cases h

end Barline
