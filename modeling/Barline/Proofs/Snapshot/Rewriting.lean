import Barline.Proofs.Snapshot.Fields
import Mathlib.Data.List.Forall2

/-!
# Rewriting — what a reader of snapshots does not see

How a key is spelled, in which order the keys stand and what else is written beside them makes no difference.
`Mapping.Rewritten` says for one mapping what such a change is, and the relations for notes, points, sections and
snapshots are the same one with the fields that are read there, and with a relation between the values of each field.
The key is that every field has one value at most: then a field of the rewritten mapping has a rewritten value
(`Mapping.Rewritten.field_rel`), and a reader finds what it found before.
-/

namespace Barline

/-! ## Rewritten mappings -/

/-- No name is a name of two fields. -/
def Spelling.Apart (fields : List (List Text)) : Prop :=
  ∀ names ∈ fields, ∀ other ∈ fields, ∀ name ∈ other, name ∈ names → other = names

instance (fields : List (List Text)) : Decidable (Spelling.Apart fields) :=
  inferInstanceAs (Decidable (∀ names ∈ fields, ∀ other ∈ fields, ∀ name ∈ other, name ∈ names → other = names))

/-- One entry after a change: a field under another of its names, with a value that has been changed as the values of
this field may be, or any entry as it was. -/
inductive EntryRewritten (fields : List (List Text)) (inner : List Text → Value → Value → Prop) :
    Key × Value → Key × Value → Prop where
  | respelled (names : List Text) {name name' : Text} {v v' : Value} (hnames : names ∈ fields) (hname : name ∈ names)
      (hname' : name' ∈ names) (hv : inner names v v') : EntryRewritten fields inner (.text name, v) (.text name', v')
  | kept (entry : Key × Value) : EntryRewritten fields inner entry entry

/-- A mapping in which no field is given twice, under one spelling or two, and the same mapping after a change: entries
are rewritten, others are added whose keys name no field, and all of them are put into another order. -/
structure Mapping.Rewritten (fields : List (List Text)) (inner : List Text → Value → Value → Prop)
    (entries entries' : Mapping) : Prop where
  once : ∀ names ∈ fields, (entries.restrict names).length ≤ 1
  change : ∃ respelled added : Mapping, List.Forall₂ (EntryRewritten fields inner) entries respelled ∧
    (∀ entry ∈ added, ∀ names ∈ fields, entry.1.spells names = false) ∧ entries'.Perm (respelled ++ added)

namespace Mapping

theorem field_of_restrict_nil {entries : Mapping} {names : List Text} (h : entries.restrict names = []) :
    entries.field names = .null := by
  rw [← field_restrict (fun _ => id) entries, h, field, findAny?]
  rw [List.findSome?_eq_none_iff.2 fun name _ => find?_nil name]
  rfl

theorem field_of_restrict_singleton {entries : Mapping} {names : List Text} {k : Key} {v : Value}
    (h : entries.restrict names = [(k, v)]) : entries.field names = v := by
  have hk : k.spells names = true := by
    have hmem : (k, v) ∈ entries.restrict names := by
      rw [h]
      exact List.mem_singleton_self _
    exact (List.mem_filter.1 hmem).2
  obtain ⟨name, hname, rfl⟩ := Key.spells_iff.1 hk
  rw [← field_restrict (fun _ => id) entries, h, field]
  cases hfound : findAny? [(Key.text name, v)] names with
  | none =>
    have hnone := List.findSome?_eq_none_iff.1 hfound name hname
    rw [find?_cons, if_pos rfl] at hnone
    cases hnone
  | some w =>
    obtain ⟨other, _, hother⟩ := List.exists_of_findSome?_eq_some hfound
    rw [find?_cons] at hother
    split at hother
    · exact (Option.some.inj hother).symm
    · cases hother

theorem eq_nil_or_singleton {α : Type} {items : List α} (h : items.length ≤ 1) :
    items = [] ∨ ∃ item, items = [item] := by
  match items with
  | [] => exact Or.inl rfl
  | [item] => exact Or.inr ⟨item, rfl⟩
  | _ :: _ :: _ =>
    simp only [List.length_cons] at h
    omega

namespace Rewritten

variable {fields : List (List Text)} {inner : List Text → Value → Value → Prop} {entries entries' : Mapping}
  {names : List Text}

theorem spells_eq_decide (hfields : Spelling.Apart fields) (hnames : names ∈ fields) {other : List Text} {name : Text}
    (hother : other ∈ fields) (hname : name ∈ other) : (Key.text name).spells names = decide (other = names) := by
  rw [Bool.eq_iff_iff, Key.spells_iff, decide_eq_true_iff]
  constructor
  · rintro ⟨name', hname', hkey⟩
    obtain rfl := Key.text.inj hkey
    exact hfields names hnames other hother name hname hname'
  · rintro rfl
    exact ⟨name, hname, rfl⟩

theorem spells_eq (hfields : Spelling.Apart fields) (hnames : names ∈ fields) {entry entry' : Key × Value}
    (h : EntryRewritten fields inner entry entry') : entry'.1.spells names = entry.1.spells names := by
  cases h with
  | kept => rfl
  | respelled other hother hname hname' hv =>
    rw [spells_eq_decide hfields hnames hother hname, spells_eq_decide hfields hnames hother hname']

theorem inner_of_spells (hfields : Spelling.Apart fields) (hnames : names ∈ fields) (hinner : ∀ v, inner names v v)
    {entry entry' : Key × Value} (h : EntryRewritten fields inner entry entry') (hk : entry.1.spells names = true) :
    inner names entry.2 entry'.2 := by
  cases h with
  | kept => exact hinner entry.2
  | respelled other hother hname hname' hv =>
    rw [spells_eq_decide hfields hnames hother hname, decide_eq_true_iff] at hk
    exact hk ▸ hv

/-- The entries of one field are rewritten among themselves. -/
theorem restrict_rel (h : Rewritten fields inner entries entries') (hfields : Spelling.Apart fields)
    (hnames : names ∈ fields) :
    List.Forall₂ (EntryRewritten fields inner) (entries.restrict names) (entries'.restrict names) := by
  obtain ⟨respelled, added, hrespelled, hadded, hperm⟩ := h.change
  have hrel : List.Forall₂ (EntryRewritten fields inner) (entries.restrict names) (restrict respelled names) :=
    List.rel_filter (fun _ _ hentry => by simp only [spells_eq hfields hnames hentry]) hrespelled
  have hnone : restrict added names = [] :=
    List.filter_eq_nil_iff.2 fun entry hentry => by rw [hadded entry hentry names hnames]; decide
  have hsame : (entries'.restrict names).Perm (restrict respelled names) := by
    have hfilter := hperm.filter fun entry => entry.1.spells names
    rwa [List.filter_append, ← restrict, ← restrict, ← restrict, hnone, List.append_nil] at hfilter
  -- of at most one entry there is only one order
  have honce := h.once names hnames
  have hunique : entries'.restrict names = restrict respelled names := by
    rw [hrel.length_eq] at honce
    rcases eq_nil_or_singleton honce with hlist | ⟨entry, hlist⟩
    · rw [hlist] at hsame ⊢
      exact List.perm_nil.1 hsame
    · rw [hlist] at hsame ⊢
      exact List.perm_singleton.1 hsame
  rwa [hunique]

/-- The value of a field is rewritten as the values of this field may be. -/
theorem field_rel (h : Rewritten fields inner entries entries') (hfields : Spelling.Apart fields)
    (hnames : names ∈ fields) (hinner : ∀ v, inner names v v) :
    inner names (entries.field names) (entries'.field names) := by
  have hrel := h.restrict_rel hfields hnames
  rcases eq_nil_or_singleton (h.once names hnames) with hentries | ⟨entry, hentries⟩
  · rw [hentries, List.forall₂_nil_left_iff] at hrel
    rw [field_of_restrict_nil hentries, field_of_restrict_nil hrel]
    exact hinner .null
  · rw [hentries] at hrel
    obtain ⟨entry', rest', hentry, hrest, hentries'⟩ := List.forall₂_cons_left_iff.1 hrel
    obtain rfl := List.forall₂_nil_left_iff.1 hrest
    rw [field_of_restrict_singleton hentries, field_of_restrict_singleton hentries']
    have hmem : entry ∈ entries.restrict names := by
      rw [hentries]
      exact List.mem_singleton_self _
    exact inner_of_spells hfields hnames hinner hentry (List.mem_filter.1 hmem).2

end Rewritten

end Mapping

/-! ## Rewritten values -/

/-- The same value, or two mappings that are related. -/
inductive Value.MappingRel (R : Mapping → Mapping → Prop) : Value → Value → Prop where
  | same (v : Value) : MappingRel R v v
  | mapping {entries entries' : Mapping} (h : R entries entries') : MappingRel R (.mapping entries) (.mapping entries')

/-- The same value, or two lists whose items are related one by one. -/
inductive Value.ListRel (R : Value → Value → Prop) : Value → Value → Prop where
  | same (v : Value) : ListRel R v v
  | list {items items' : List Value} (h : List.Forall₂ R items items') : ListRel R (.list items) (.list items')

open Mapping

/-- A mapping whose fields have the values that they had. -/
def Mapping.RewrittenFlat (fields : List (List Text)) : Mapping → Mapping → Prop :=
  Rewritten fields fun _ => Eq

theorem Mapping.RewrittenFlat.sameFields {fields : List (List Text)} {entries entries' : Mapping}
    (h : RewrittenFlat fields entries entries') (hfields : Spelling.Apart fields) :
    SameFields fields entries entries' :=
  fun _ hnames => (Rewritten.field_rel h hfields hnames fun _ => rfl).symm

/-! ## Settings and options -/

def Settings.Rewritten : Value → Value → Prop :=
  Value.MappingRel (RewrittenFlat Spelling.ofSettings)

theorem Settings.read_of_rewritten {v v' : Value} (h : Settings.Rewritten v v') : read v' = read v := by
  cases h with
  | same => rfl
  | mapping h => exact read_congr (h.sameFields (by decide))

def Program.Options.Rewritten : Value → Value → Prop :=
  Value.MappingRel (RewrittenFlat Spelling.ofOptions)

theorem Program.Options.read_of_rewritten {v v' : Value} (h : Options.Rewritten v v') : read v' = read v := by
  cases h with
  | same => rfl
  | mapping h => exact read_congr (h.sameFields (by decide))

/-! ## Notes -/

namespace Note

def Rewritten : Value → Value → Prop :=
  Value.MappingRel (RewrittenFlat Spelling.ofNote)

theorem read_of_rewritten {v v' : Value} (h : Rewritten v v') (path : Path) : read path v' = read path v := by
  cases h with
  | same => rfl
  | mapping h => exact read_congr (h.sameFields (by decide))

theorem readList_of_rewritten {items items' : List Value} (h : List.Forall₂ Rewritten items items') (path : Path)
    (index : Int) : readList path index items' = readList path index items := by
  induction h generalizing index with
  | nil => rfl
  | cons hv _ ih => rw [readList, readList, read_of_rewritten hv, ih]

end Note

/-! ## Points -/

namespace Point

/-- The fields of a point that are read. The attributes of a note are among them if the point lists no notes. -/
def fieldsRead (entries : Mapping) : List (List Text) :=
  if (entries.field Spelling.notes).isVoid then Spelling.ofPoint ++ Spelling.ofNote else Spelling.ofPoint

/-- How the values of a field of a point may be rewritten. -/
def FieldRewritten (names : List Text) : Value → Value → Prop :=
  if names = Spelling.notes then Value.ListRel Note.Rewritten else Eq

def Rewritten : Value → Value → Prop :=
  Value.MappingRel fun entries entries' => Mapping.Rewritten (fieldsRead entries) FieldRewritten entries entries'

variable {entries entries' : Mapping}

theorem fieldRewritten_refl (names : List Text) (v : Value) : FieldRewritten names v v := by
  unfold FieldRewritten
  split
  · exact .same v
  · rfl

theorem apart_fieldsRead (entries : Mapping) : Spelling.Apart (fieldsRead entries) := by
  unfold fieldsRead
  split
  · decide +kernel
  · decide +kernel

theorem mem_fieldsRead {names : List Text} (h : names ∈ Spelling.ofPoint) : names ∈ fieldsRead entries := by
  unfold fieldsRead
  split
  · exact List.mem_append_left _ h
  · exact h

/-- A field of a point other than its notes has the value that it had. -/
theorem field_of_rewritten (h : Mapping.Rewritten (fieldsRead entries) FieldRewritten entries entries')
    {names : List Text} (hnames : names ∈ fieldsRead entries) (hother : names ≠ Spelling.notes) :
    entries'.field names = entries.field names := by
  have hrel := h.field_rel (apart_fieldsRead entries) hnames (fieldRewritten_refl names)
  rw [FieldRewritten, if_neg hother] at hrel
  exact hrel.symm

theorem notes_of_rewritten (h : Mapping.Rewritten (fieldsRead entries) FieldRewritten entries entries') :
    Value.ListRel Note.Rewritten (entries.field Spelling.notes) (entries'.field Spelling.notes) :=
  h.field_rel (apart_fieldsRead entries) (mem_fieldsRead (by decide)) (fieldRewritten_refl Spelling.notes)

theorem readAll_of_rewritten (h : Mapping.Rewritten (fieldsRead entries) FieldRewritten entries entries')
    (path : Path) : Note.readAll path entries' = Note.readAll path entries := by
  have hown : (entries.field Spelling.notes).isVoid = true → SameFields Spelling.ofNote entries entries' := by
    intro hvoid names hnames
    have hread : fieldsRead entries = Spelling.ofPoint ++ Spelling.ofNote := if_pos hvoid
    refine field_of_rewritten h ?_ ?_
    · rw [hread]
      exact List.mem_append_right _ hnames
    · revert names
      decide
  have hrel := notes_of_rewritten h
  generalize hnotes : entries.field Spelling.notes = notes at hrel
  generalize hnotes' : entries'.field Spelling.notes = notes' at hrel
  cases hrel with
  | same => exact Note.readAll_congr (hnotes'.trans hnotes.symm) hown
  | @list items items' hitems =>
    cases hitems with
    | nil => exact Note.readAll_congr (hnotes'.trans hnotes.symm) hown
    | cons hv hrest =>
      rw [Note.readAll_of_list hnotes (List.cons_ne_nil _ _), Note.readAll_of_list hnotes' (List.cons_ne_nil _ _)]
      exact Note.readList_of_rewritten (.cons hv hrest) _ 0

theorem readEntries_of_rewritten (h : Mapping.Rewritten (fieldsRead entries) FieldRewritten entries entries')
    (path : Path) : readEntries path entries' = readEntries path entries := by
  have hfield : ∀ names ∈ Spelling.ofPoint, names ≠ Spelling.notes → entries'.field names = entries.field names :=
    fun names hnames => field_of_rewritten h (mem_fieldsRead hnames)
  have htimes : readTimes path entries' = readTimes path entries :=
    readTimes_congr (hfield Spelling.start (by decide) (by decide)) (hfield Spelling.duration (by decide) (by decide))
  rw [readEntries, readEntries, htimes, readAll_of_rewritten h, hfield Spelling.repeats (by decide) (by decide),
    hfield Spelling.strum (by decide) (by decide)]

theorem read_of_rewritten {v v' : Value} (h : Rewritten v v') (index : Int) : read index v' = read index v := by
  cases h with
  | same => rfl
  | mapping h => exact readEntries_of_rewritten h (path index)

theorem readList_of_rewritten {items items' : List Value} (h : List.Forall₂ Rewritten items items') (index : Int) :
    readList index items' = readList index items := by
  induction h generalizing index with
  | nil => rfl
  | cons hv _ ih => rw [readList, readList, read_of_rewritten hv, ih]

end Point

/-! ## Snapshots -/

namespace Snapshot

/-- How the values of a section may be rewritten. -/
def SectionRewritten (names : List Text) : Value → Value → Prop :=
  if names = Spelling.settings then Settings.Rewritten
  else if names = Spelling.points then Value.ListRel Point.Rewritten
  else Program.Options.Rewritten

def Rewritten : Mapping → Mapping → Prop :=
  Mapping.Rewritten Spelling.ofSnapshot SectionRewritten

theorem sectionRewritten_refl (names : List Text) (v : Value) : SectionRewritten names v v := by
  unfold SectionRewritten
  split
  · exact .same v
  · split
    · exact .same v
    · exact .same v

end Snapshot

/-- How the keys of a snapshot are spelled, in which order they stand and what is added beside them makes no difference:
the result or the error is the same, and so is all that is noticed on the way. -/
theorem read_is_blind_to_spelling_and_order {sections sections' : Mapping} (h : Snapshot.Rewritten sections sections') :
    Snapshot.read (.mapping sections') = Snapshot.read (.mapping sections) := by
  have hrel : ∀ names ∈ Spelling.ofSnapshot, Snapshot.SectionRewritten names (sections.field names)
      (sections'.field names) :=
    fun names hnames => h.field_rel (by decide) hnames (Snapshot.sectionRewritten_refl names)
  have hsettings : Settings.Rewritten (sections.field Spelling.settings) (sections'.field Spelling.settings) :=
    hrel Spelling.settings (by decide)
  have hpoints : Value.ListRel Point.Rewritten (sections.field Spelling.points) (sections'.field Spelling.points) :=
    hrel Spelling.points (by decide)
  have houtput : Program.Options.Rewritten (sections.field Spelling.output) (sections'.field Spelling.output) :=
    hrel Spelling.output (by decide)
  rw [Snapshot.read_mapping, Snapshot.read_mapping, Settings.read_of_rewritten hsettings,
    Program.Options.read_of_rewritten houtput]
  generalize sections.field Spelling.points = raw at hpoints
  generalize sections'.field Spelling.points = raw' at hpoints
  cases hpoints with
  | same => rfl
  | list hitems =>
    simp only [Reading.bind_of_ok (Snapshot.rawPoints_list _), Point.readList_of_rewritten hitems]

/-- A point with a note. -/
def pointWithNote : Mapping :=
  [(.text "start", .int 1), (.text "duration", .int 1), (.text "notes", .list [.mapping [(.text "root", .int 2)]])]

/-- The same point, with a root that is not read since the point lists its notes. -/
def renamedPointWithNote : Mapping :=
  [(.text "dur", .int 1), (.text "root", .text "low"),
    (.text "notes", .list [.mapping [(.text "colour", .null), (.text "root", .int 2)]]), (.text "startBeat", .int 1)]

/-- A piece of two points, the second of which is its own note and has a degree that is refused. -/
def namedPiece : Mapping :=
  [(.text "settings", .mapping [(.text "beats_per_bar", .int 3), (.text "bars", .int 0)]),
    (.text "points", .list [.mapping pointWithNote, .mapping [(.text "dur", .int 2), (.text "degree", .text "low")]]),
    (.text "output", .mapping [(.text "loop_count", .int 2)])]

/-- The same piece with its keys spelled and put in another way, and with more of them. -/
def renamedPiece : Mapping :=
  [(.text "title", .text "study"), (.text "output", .mapping [(.text "tempo", .int 120), (.text "loopCount", .int 2)]),
    (.text "settings", .mapping [(.text "bars", .int 0), (.text "beatsPerBar", .int 3)]),
    (.text "points", .list [.mapping renamedPointWithNote,
      .mapping [(.text "degree", .text "low"), (.text "duration", .int 2)]])]

/-- Both pieces are refused for the same degree, and of both it is noticed that they have no bars. -/
theorem renamed_piece_is_read_alike :
    Snapshot.Rewritten namedPiece renamedPiece ∧
      Snapshot.read (.mapping renamedPiece) = Snapshot.read (.mapping namedPiece) ∧
      Snapshot.read (.mapping namedPiece) = ⟨[.clamped ((Path.top "settings").field "bars") (.int 0)],
        .error (.notNumber ((Point.path 1).field "degree") (.text "low"))⟩ := by
  have hsettings : RewrittenFlat Spelling.ofSettings [(.text "beats_per_bar", .int 3), (.text "bars", .int 0)]
      [(.text "bars", .int 0), (.text "beatsPerBar", .int 3)] := by
    refine ⟨by decide, [(.text "beatsPerBar", .int 3), (.text "bars", .int 0)], [], ?_, by decide, by decide⟩
    exact .cons (.respelled Spelling.beatsPerBar (by decide) (by decide) (by decide) rfl) (.cons (.kept _) .nil)
  have houtput : RewrittenFlat Spelling.ofOptions [(.text "loop_count", .int 2)]
      [(.text "tempo", .int 120), (.text "loopCount", .int 2)] := by
    refine ⟨by decide, [(.text "loopCount", .int 2)], [(.text "tempo", .int 120)], ?_, by decide, by decide⟩
    exact .cons (.respelled Spelling.loopCount (by decide) (by decide) (by decide) rfl) .nil
  have hnote : RewrittenFlat Spelling.ofNote [(.text "root", .int 2)]
      [(.text "colour", .null), (.text "root", .int 2)] :=
    ⟨by decide, [(.text "root", .int 2)], [(.text "colour", .null)], .cons (.kept _) .nil, by decide, by decide⟩
  have hfirst : Mapping.Rewritten (Point.fieldsRead pointWithNote) Point.FieldRewritten pointWithNote
      renamedPointWithNote := by
    refine ⟨by decide, [(.text "startBeat", .int 1), (.text "dur", .int 1),
      (.text "notes", .list [.mapping [(.text "colour", .null), (.text "root", .int 2)]])],
      [(.text "root", .text "low")], ?_, by decide, by decide⟩
    refine .cons (.respelled Spelling.start (by decide) (by decide) (by decide) (Point.fieldRewritten_refl _ _)) ?_
    refine .cons (.respelled Spelling.duration (by decide) (by decide) (by decide) (Point.fieldRewritten_refl _ _)) ?_
    refine .cons (.respelled Spelling.notes (by decide) (by decide) (by decide) ?_) .nil
    exact Value.ListRel.list (.cons (.mapping hnote) .nil)
  have hsecond : Point.Rewritten (.mapping [(.text "dur", .int 2), (.text "degree", .text "low")])
      (.mapping [(.text "degree", .text "low"), (.text "duration", .int 2)]) := by
    refine .mapping ⟨by decide, [(.text "duration", .int 2), (.text "degree", .text "low")], [], ?_, by decide,
      by decide⟩
    refine .cons (.respelled Spelling.duration (by decide) (by decide) (by decide) (Point.fieldRewritten_refl _ _)) ?_
    exact .cons (.kept _) .nil
  have hrewritten : Snapshot.Rewritten namedPiece renamedPiece := by
    refine ⟨by decide, [renamedPiece[2], renamedPiece[3], renamedPiece[1]], [renamedPiece[0]], ?_, by decide, by decide⟩
    refine .cons (.respelled Spelling.settings (by decide) (by decide) (by decide) ?_) ?_
    · exact Value.MappingRel.mapping hsettings
    · refine .cons (.respelled Spelling.points (by decide) (by decide) (by decide) ?_) ?_
      · exact Value.ListRel.list (.cons (.mapping hfirst) (.cons hsecond .nil))
      · refine .cons (.respelled Spelling.output (by decide) (by decide) (by decide) ?_) .nil
        exact Value.MappingRel.mapping houtput
  exact ⟨hrewritten, read_is_blind_to_spelling_and_order hrewritten, rfl⟩

end Barline
