import Barline.Proofs.Double.Rounding
import Barline.Snapshot.Basic

/-!
# Well-formed snapshots — what a reading promises

What builds a score checks nothing that reading has checked: that counts are at least one, that a point has a length
and a note, that loudness is no truth value and is a number. `Snapshot.WellFormed` lists what it relies on.

Reading is lenient and takes values of any shape, so the promise is made function by function. `Gives` states it for
one of them, `Gives.bind` and `Gives.next` carry it from one part of a reading to the next, and `gives_wellFormed`
says that every snapshot that is read is well-formed.
-/

namespace Barline

/-! ## Well-formed snapshots -/

/-- Infinity, or a finite number that is at least zero. -/
def Number.AtLeastZero (x : Number) : Prop :=
  x = .double (.infinite false) ∨ ∃ q, x.toRat? = some q ∧ 0 ≤ q

/-- A whole number, which no truth value is. -/
def Value.IsWhole (v : Value) : Prop :=
  ∃ n, v = .int n

/-- A number of any kind that is at least zero. -/
def Value.IsMeasure (v : Value) : Prop :=
  ∃ x, v = .number x ∧ x.AtLeastZero

/-- A text that can name a scale. -/
def Value.IsScaleName (v : Value) : Prop :=
  ∃ t, v = .text t ∧ Text.isBlankText t = false ∧ t ≠ Note.noScale

structure Settings.WellFormed (s : Settings) : Prop where
  beatsPerBar : 1 ≤ s.beatsPerBar
  beatUnit : 1 ≤ s.beatUnit
  bars : 1 ≤ s.bars

structure Note.WellFormed (n : Note) : Prop where
  scale : ∀ v ∈ n.scale, v.IsScaleName
  root : ∀ v ∈ n.root, v.IsWhole
  degree : ∀ v ∈ n.degree, v.IsWhole
  octave : ∀ v ∈ n.octave, v.IsWhole
  legato : ∃ v, n.legato = some v ∧ v.IsMeasure
  amp : ∃ v, n.amp = some v ∧ v.IsMeasure

structure Point.WellFormed (p : Point) : Prop where
  start : 0 ≤ p.start
  duration : 0 < p.duration
  repeats : 1 ≤ p.repeats
  notes_ne_nil : p.notes ≠ []
  notes : ∀ n ∈ p.notes, n.WellFormed
  strum : ∀ v ∈ p.strum, v.IsMeasure

/-- The instrument is left open: it is taken as it is. -/
structure Program.Options.WellFormed (o : Options) : Prop where
  loopCount : o.loopCount = .null ∨ o.loopCount.IsWhole
  compress : ∃ b, o.compress = .bool b

structure Snapshot.WellFormed (s : Snapshot) : Prop where
  settings : s.settings.WellFormed
  points : ∀ p ∈ s.points, p.WellFormed
  options : s.options.WellFormed

/-! ## What a reading gives -/

/-- Whatever a reading that does not fail results in has a property. -/
def Gives {α : Type} (P : α → Prop) (x : Except SnapshotError α) : Prop :=
  ∀ a, x = .ok a → P a

section Gives

variable {α β : Type} {P P' : α → Prop} {Q : β → Prop} {x : Except SnapshotError α}

theorem gives_ok {a : α} (h : P a) : Gives P (.ok a) := by
  intro b hb
  obtain rfl := Except.ok.inj hb
  exact h

theorem gives_error {e : SnapshotError} : Gives P (.error e) := by
  intro a ha
  cases ha

theorem gives_any : Gives (fun _ => True) x :=
  fun _ _ => trivial

theorem Gives.imp (h : Gives P x) (himp : ∀ a, P a → P' a) : Gives P' x :=
  fun a ha => himp a (h a ha)

theorem Gives.bind {f : α → Except SnapshotError β} (hx : Gives P x) (hf : ∀ a, P a → Gives Q (f a)) :
    Gives Q (x >>= f) := by
  cases hresult : x with
  | error e => exact gives_error
  | ok a => exact hf a (hx a hresult)

theorem Gives.next {x : Reading α} {f : α → Reading β} (hx : Gives P x.outcome)
    (hf : ∀ a, P a → Gives Q (f a).outcome) : Gives Q (x >>= f).outcome := by
  rw [Reading.outcome_bind]
  exact hx.bind hf

end Gives

/-! ## Numbers -/

theorem Double.magnitude_zero : magnitude 0 = 0 := by
  simp [magnitude, numerator, mantissa, twoPow_pos]

theorem Number.atLeastZero_of_isNonNegative {x : Number} (h : x.isNonNegative = true) : x.AtLeastZero := by
  cases x with
  | whole n =>
    have hn : 0 ≤ n := by simpa [isNonNegative] using h
    exact Or.inr ⟨n, rfl, by exact_mod_cast hn⟩
  | ratio q =>
    have hq : 0 ≤ q.num := by simpa [isNonNegative] using h
    exact Or.inr ⟨q, rfl, Rat.num_nonneg.1 hq⟩
  | double d =>
    cases d with
    | nan => cases h -- every comparison with it fails
    | infinite negative =>
      obtain rfl : negative = false := by simpa [isNonNegative, Double.isNonNegative] using h
      exact Or.inl rfl
    | finite negative rank =>
      refine Or.inr ⟨_, rfl, ?_⟩
      cases negative with
      | false => exact Double.magnitude_nonneg _
      | true =>
        -- of those with a sign only minus zero passes the test
        have hrank : rank.val = 0 := by simpa [isNonNegative, Double.isNonNegative] using h
        simp [hrank, Double.magnitude_zero]

/-! ## Fields -/

section Fields

variable {path : Path} {v : Value}

theorem gives_nonNegative {default : Number} (h : default.AtLeastZero) :
    Gives Number.AtLeastZero (Field.nonNegative path default v) := by
  unfold Field.nonNegative
  split
  · exact gives_ok h
  · refine gives_any.bind ?_
    intro x _
    split
    case isTrue hx => exact gives_ok (Number.atLeastZero_of_isNonNegative hx)
    case isFalse => exact gives_error

theorem gives_count (n : Int) : Gives (1 ≤ ·) (Field.count path v n).outcome := by
  unfold Field.count
  split
  · exact gives_any.next fun _ _ => gives_ok le_rfl
  · exact gives_ok (by omega)

theorem gives_wholeCount {default : Int} (h : 1 ≤ default) :
    Gives (1 ≤ ·) (Field.wholeCount path default v).outcome := by
  refine gives_any.next ?_
  intro n? _
  cases n? with
  | none => exact gives_ok h
  | some n => exact gives_count n

theorem gives_lenientCount : Gives (1 ≤ ·) (Field.lenientCount path v).outcome := by
  -- what is empty, unreadable or infinite counts once
  unfold Field.lenientCount
  split
  · exact gives_ok le_rfl
  · split
    · exact gives_any.next fun _ _ => gives_ok le_rfl
    · split
      · exact gives_any.next fun _ _ => gives_ok le_rfl
      · exact gives_count _

end Fields

theorem Settings.gives_wellFormed (v : Value) : Gives WellFormed (read v).outcome := by
  refine gives_any.next fun entries _ => ?_
  refine (gives_wholeCount (by decide)).next fun beatsPerBar hbeats => ?_
  refine (gives_wholeCount (by decide)).next fun beatUnit hunit => ?_
  refine (gives_wholeCount (by decide)).next fun bars hbars => ?_
  exact gives_ok ⟨hbeats, hunit, hbars⟩

/-! ## Notes -/

namespace Note

theorem gives_scaleName (path : Path) (v : Value) :
    Gives (fun scale => ∀ w ∈ scale, w.IsScaleName) (readScale path v) := by
  unfold readScale
  split
  · exact gives_ok (by simp)
  case isFalse hblank =>
    cases v with
    | text t =>
      by_cases ht : t = noScale
      · simp only [if_pos ht]
        exact gives_ok (by simp)
      · simp only [if_neg ht]
        refine gives_ok ?_
        intro w hw
        obtain rfl := Option.some.inj hw
        exact ⟨t, rfl, by simpa [Value.isBlank] using hblank, ht⟩
    | _ => exact gives_error

theorem isWhole_of_mem_map (n? : Option Int) : ∀ v ∈ n?.map Value.int, v.IsWhole := by
  intro v hv
  rcases Option.mem_map.1 hv with ⟨n, _, rfl⟩
  exact ⟨n, rfl⟩

theorem gives_wellFormed (path : Path) (v : Value) : Gives WellFormed (read path v) := by
  have hone : (Number.whole 1).AtLeastZero := Or.inr ⟨1, rfl, by decide⟩
  refine gives_any.bind fun entries _ => ?_
  refine (gives_scaleName _ _).bind fun scale hscale => ?_
  refine gives_any.bind fun root _ => ?_
  refine gives_any.bind fun degree _ => ?_
  refine gives_any.bind fun octave _ => ?_
  refine (gives_nonNegative hone).bind fun legato hlegato => ?_
  refine (gives_nonNegative hone).bind fun amp hamp => ?_
  exact gives_ok {
    scale := hscale
    root := isWhole_of_mem_map root
    degree := isWhole_of_mem_map degree
    octave := isWhole_of_mem_map octave
    legato := ⟨_, rfl, legato, rfl, hlegato⟩
    amp := ⟨_, rfl, amp, rfl, hamp⟩ }

theorem gives_wellFormed_list (path : Path) (items : List Value) (i : Int) :
    Gives (fun notes => notes.length = items.length ∧ ∀ n ∈ notes, n.WellFormed)
      (readList path i items) := by
  induction items generalizing i with
  | nil => exact gives_ok ⟨rfl, by simp⟩
  | cons v rest ih =>
    refine (gives_wellFormed _ v).bind fun note hnote => ?_
    refine (ih (i + 1)).bind fun notes hnotes => ?_
    refine gives_ok ⟨?_, List.forall_mem_cons.2 ⟨hnote, hnotes.2⟩⟩
    rw [List.length_cons, List.length_cons, hnotes.1]

theorem gives_wellFormed_all (path : Path) (entries : Mapping) :
    Gives (fun notes => notes ≠ [] ∧ ∀ n ∈ notes, n.WellFormed) (readAll path entries) := by
  unfold readAll
  generalize entries.field Spelling.notes = raw
  dsimp only
  split
  · -- the point is its own single note
    refine (gives_wellFormed _ _).bind fun note hnote => ?_
    exact gives_ok ⟨List.cons_ne_nil _ _, List.forall_mem_singleton.2 hnote⟩
  case isFalse hvoid =>
    cases raw with
    | list items =>
      refine (gives_wellFormed_list _ items 0).imp fun notes hnotes => ⟨?_, hnotes.2⟩
      -- there is a note for each item, and the list is not empty
      rintro rfl
      have hempty : items = [] := List.length_eq_zero_iff.1 hnotes.1.symm
      exact hvoid (by simp [hempty, Value.isVoid])
    | _ => exact gives_error

end Note

/-! ## Points -/

namespace Point

theorem gives_times (path : Path) (entries : Mapping) :
    Gives (fun times => 0 ≤ times.1 ∧ 0 < times.2) (readTimes path entries) := by
  unfold readTimes
  dsimp only
  split
  · exact gives_error.bind fun _ => False.elim
  · refine gives_any.bind fun start _ => ?_
    refine gives_any.bind fun duration _ => ?_
    split
    · exact gives_error.bind fun _ => False.elim
    case isFalse hduration =>
      split
      · exact gives_error.bind fun _ => False.elim
      case isFalse hstart => exact gives_ok ⟨not_lt.1 hstart, not_le.1 hduration⟩

theorem gives_strum (path : Path) (v : Value) :
    Gives (fun strum => ∀ w ∈ strum, w.IsMeasure) (readStrum path v) := by
  unfold readStrum
  split
  · exact gives_ok (by simp)
  · refine (gives_nonNegative (Or.inr ⟨0, rfl, le_rfl⟩)).bind fun x hx => ?_
    refine gives_ok ?_
    intro w hw
    obtain rfl := Option.some.inj hw
    exact ⟨x, rfl, hx⟩

theorem gives_wellFormed (index : Int) (v : Value) : Gives WellFormed (read index v).outcome := by
  cases v with
  | mapping entries =>
    refine (gives_times _ entries).next fun times htimes => ?_
    refine (Note.gives_wellFormed_all _ entries).next fun notes hnotes => ?_
    refine gives_lenientCount.next fun repeats hrepeats => ?_
    refine (gives_strum _ _).next fun strum hstrum => ?_
    exact gives_ok {
      start := htimes.1
      duration := htimes.2
      repeats := hrepeats
      notes_ne_nil := hnotes.1
      notes := hnotes.2
      strum := hstrum }
  | _ => exact gives_error

theorem gives_wellFormed_list (items : List Value) (i : Int) :
    Gives (fun points => ∀ p ∈ points, p.WellFormed) (readList i items).outcome := by
  induction items generalizing i with
  | nil => exact gives_ok (by simp)
  | cons v rest ih =>
    refine (gives_wellFormed i v).next fun point hpoint => ?_
    refine (ih (i + 1)).next fun points hpoints => ?_
    exact gives_ok (List.forall_mem_cons.2 ⟨hpoint, hpoints⟩)

end Point

/-! ## Options and snapshots -/

theorem Program.Options.gives_loopCount (v : Value) :
    Gives (fun loopCount => loopCount = .null ∨ loopCount.IsWhole) (readLoopCount v).outcome := by
  unfold readLoopCount
  split
  · exact gives_ok (Or.inl rfl)
  · exact gives_ok (Or.inr ⟨_, rfl⟩)
  · exact gives_any.next fun _ _ => gives_ok (Or.inl rfl)

theorem Program.Options.gives_wellFormed (v : Value) : Gives WellFormed (read v).outcome := by
  refine gives_any.next fun entries _ => ?_
  refine (gives_loopCount _).next fun loopCount hloop => ?_
  refine gives_any.next fun compress _ => ?_
  exact gives_ok ⟨hloop, compress, rfl⟩

/-- Whatever the value is, a snapshot that is read from it is well-formed. -/
theorem Snapshot.gives_wellFormed (v : Value) : Gives WellFormed (read v).outcome := by
  refine gives_any.next fun sections _ => ?_
  refine gives_any.next fun raw _ => ?_
  refine (Settings.gives_wellFormed _).next fun settings hsettings => ?_
  refine (Point.gives_wellFormed_list raw 0).next fun points hpoints => ?_
  refine (Program.Options.gives_wellFormed _).next fun options hoptions => ?_
  exact gives_ok ⟨hsettings, hpoints, hoptions⟩

end Barline
