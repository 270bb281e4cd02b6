import Barline.Snapshot.Basic

/-!
# The limit on reports — what reading a snapshot has to write

Reading a snapshot reports what it refuses and what it mends, and a report quotes the value. A whole number that is too
long cannot be quoted, and then there is no report but only the fault that says so. This happens only if the number is
in the value that is read, be it as a number or as a text: `Value.IsShort` rules such parts out, and
`Snapshot.writable_read` says that then every report can be written.
-/

namespace Barline

/-! ## Parts of values -/

/-- The value that a key of a mapping is. -/
def Key.value : Key → Value
  | null => .null
  | bool b => .bool b
  | number x => .number x
  | text t => .text t

namespace Value

/-- A value at any depth inside another one, itself included, as an item, an entry or a key. -/
inductive Part (w : Value) : Value → Prop where
  | self : Part w w
  | item {v : Value} {items : List Value} (hv : v ∈ items) (h : Part w v) : Part w (list items)
  | entry {k : Key} {v : Value} {entries : Mapping} (hv : (k, v) ∈ entries) (h : Part w v) :
      Part w (mapping entries)
  | key {k : Key} {v : Value} {entries : Mapping} (hv : (k, v) ∈ entries) (hw : w = k.value) :
      Part w (mapping entries)

/-- A number, or a text that is read as one, with more digits above or below the line than can be written. -/
def IsLong (v : Value) : Prop :=
  ∃ q, v.exact = .ok q ∧ Literal.isWritable q = false

/-- No part of the value is too long. -/
def IsShort (v : Value) : Prop :=
  ∀ w, Part w v → ¬ w.IsLong

namespace IsShort

variable {v : Value} {items : List Value} {k : Key} {entries : Mapping}

theorem isWritable_exact (h : v.IsShort) {q : Rat} (hq : v.exact = .ok q) : Literal.isWritable q = true := by
  cases hw : Literal.isWritable q with
  | true => rfl
  | false => exact absurd ⟨q, hq, hw⟩ (h v .self)

theorem item (h : (list items).IsShort) (hv : v ∈ items) : v.IsShort :=
  fun w hw => h w (.item hv hw)

theorem entry (h : (mapping entries).IsShort) (hv : (k, v) ∈ entries) : v.IsShort :=
  fun w hw => h w (.entry hv hw)

theorem key (h : (mapping entries).IsShort) (hv : (k, v) ∈ entries) : ¬ k.value.IsLong :=
  h _ (.key hv rfl)

end IsShort

theorem isShort_null : null.IsShort := by
  rintro w hw ⟨q, hq, _⟩
  cases hw
  cases hq

theorem isShort_nil : (mapping []).IsShort := by
  rintro w hw ⟨q, hq, _⟩
  cases hw with
  | self => cases hq
  | entry hv => cases hv
  | key hv => cases hv

theorem isWritable_number {x : Number} (h : ¬ (number x).IsLong) : x.isWritable = true := by
  have hexact : ∀ q, (number x).exact = .ok q → Literal.isWritable q = true := by
    intro q hq
    cases hw : Literal.isWritable q with
    | true => rfl
    | false => exact absurd ⟨q, hq, hw⟩ h
  cases x with
  | whole n =>
    have hn := hexact n rfl
    rw [Literal.isWritable, Bool.and_eq_true] at hn
    exact hn.1
  | double d => rfl
  | ratio q => exact hexact q rfl

theorem isWritable_key {k : Key} (h : ¬ k.value.IsLong) : k.isWritable = true := by
  cases k with
  | number x => exact isWritable_number h
  | _ => rfl

mutual

/-- A short value can be quoted. -/
theorem IsShort.isWritable : ∀ {v : Value}, v.IsShort → v.isWritable = true
  | null, _ => rfl
  | bool _, _ => rfl
  | number _, h => isWritable_number (h _ .self)
  | text _, _ => rfl
  | list items, h => areWritable_of_isShort items fun _ hv => h.item hv
  | mapping entries, h =>
    entriesAreWritable_of_isShort entries (fun _ _ hv => h.entry hv) fun _ _ hv => h.key hv

theorem areWritable_of_isShort : ∀ items : List Value, (∀ v ∈ items, v.IsShort) →
    areWritable items = true
  | [], _ => rfl
  | v :: rest, h => by
    have hv : v.isWritable = true := (h v (List.mem_cons_self ..)).isWritable
    have hrest := areWritable_of_isShort rest fun w hw => h w (List.mem_cons_of_mem v hw)
    rw [areWritable, hv, hrest]
    rfl

theorem entriesAreWritable_of_isShort : ∀ entries : List (Key × Value),
    (∀ k v, (k, v) ∈ entries → v.IsShort) → (∀ k v, (k, v) ∈ entries → ¬ k.value.IsLong) →
      entriesAreWritable entries = true
  | [], _, _ => rfl
  | (k, v) :: rest, hvalues, hkeys => by
    have hk : k.isWritable = true := isWritable_key (hkeys k v (List.mem_cons_self ..))
    have hv : v.isWritable = true := (hvalues k v (List.mem_cons_self ..)).isWritable
    have hrest := entriesAreWritable_of_isShort rest
      (fun l w hw => hvalues l w (List.mem_cons_of_mem _ hw))
      (fun l w hw => hkeys l w (List.mem_cons_of_mem _ hw))
    rw [entriesAreWritable, hk, hv, hrest]
    rfl

end

end Value

/-! ## Fields of mappings -/

namespace Mapping

variable {entries : Mapping} {names : List Text} {v : Value}

theorem mem_of_findAny? (h : findAny? entries names = some v) : ∃ k, (k, v) ∈ entries := by
  rcases List.exists_of_findSome?_eq_some h with ⟨name, _, hname⟩
  rcases List.lookup_eq_some_iff.1 hname with ⟨before, after, hentries, _⟩
  exact ⟨.text name, by simp [hentries]⟩

theorem isShort_field (h : (Value.mapping entries).IsShort) : (entries.field names).IsShort := by
  rw [field]
  cases hfound : findAny? entries names with
  | none => exact Value.isShort_null
  | some v =>
    rcases mem_of_findAny? hfound with ⟨k, hv⟩
    exact h.entry hv

end Mapping

/-! ## Reports that can be written -/

/-- If it fails, it does so with an error that can be written. -/
def ErrorWritable {α : Type} (x : Except SnapshotError α) : Prop :=
  ∀ e, x = .error e → e.isWritable = true

/-- Everything that a reading reports can be written. -/
structure Reading.Writable {α : Type} (x : Reading α) : Prop where
  notices : ∀ n ∈ x.notices, n.isWritable = true
  error : ErrorWritable x.outcome

section Writable

variable {α β : Type} {x : Except SnapshotError α} {r : Reading α}

theorem errorWritable_ok {a : α} : ErrorWritable (.ok a) := by
  intro e he
  cases he

theorem errorWritable_error {e : SnapshotError} (h : e.isWritable = true) :
    ErrorWritable (.error e : Except SnapshotError α) := by
  intro f hf
  obtain rfl := Except.error.inj hf
  exact h

theorem ErrorWritable.bind {f : α → Except SnapshotError β} (hx : ErrorWritable x)
    (hf : ∀ a, x = .ok a → ErrorWritable (f a)) : ErrorWritable (x >>= f) := by
  cases hresult : x with
  | error e => exact errorWritable_error (hx e hresult)
  | ok a => exact hf a hresult

theorem errorWritable_throw {e : SnapshotError} {f : α → Except SnapshotError β} (h : e.isWritable = true) :
    ErrorWritable (throw e >>= f) :=
  errorWritable_error h

namespace Reading

theorem writable_pure (a : α) : (pure a : Reading α).Writable :=
  ⟨by simp, errorWritable_ok⟩

theorem writable_ofExcept (hx : ErrorWritable x) : (liftM x : Reading α).Writable := by
  refine ⟨?_, hx⟩
  intro n hn
  cases hn

theorem writable_notice {n : Notice} (h : n.isWritable = true) : (notice n).Writable := by
  refine ⟨?_, errorWritable_ok⟩
  intro m hm
  rw [List.mem_singleton.1 hm]
  exact h

theorem Writable.next {f : α → Reading β} (hr : r.Writable)
    (hf : ∀ a, r.outcome = .ok a → (f a).Writable) : (r >>= f).Writable := by
  refine ⟨?_, ?_⟩
  · rw [notices_bind]
    intro n hn
    rcases List.mem_append.1 hn with hn | hn
    · exact hr.notices n hn
    · -- what the rest notices is noticed only if there is a result
      cases hresult : r.outcome with
      | error e =>
        rw [hresult] at hn
        cases hn
      | ok a =>
        rw [hresult] at hn
        exact (hf a hresult).notices n hn
  · rw [outcome_bind]
    exact hr.error.bind fun a ha => (hf a ha).error

/-- If all reports can be written, a reading is written out as it is. -/
theorem Writable.written_eq (h : r.Writable) : r.written = r.outcome.mapError .cause := by
  rw [written, List.all_eq_true.2 h.notices]
  cases hresult : r.outcome with
  | error e =>
    have he : e.isWritable = true := h.error e hresult
    simp [WritingError.ofCause, he, bind, Except.bind]
  | ok a => rfl

/-- Only where a part of the value is too long is there a report that cannot be written. -/
theorem exists_long_part {v : Value} (hshort : v.IsShort → r.Writable) (h : r.written = .error .tooLong) :
    ∃ w, Value.Part w v ∧ w.IsLong := by
  refine Classical.byContradiction fun hnone => ?_
  have hwritable : r.Writable := hshort fun w hw hlong => hnone ⟨w, hw, hlong⟩
  rw [hwritable.written_eq] at h
  cases houtcome : r.outcome with
  | error e => simp [houtcome] at h
  | ok a => simp [houtcome] at h

end Reading

end Writable

/-! ## Fields -/

section Fields

variable {path : Path} {v : Value}

theorem errorWritable_number : ErrorWritable (Field.number path v) := by
  unfold Field.number
  split
  · exact errorWritable_ok
  · split
    · exact errorWritable_ok
    · exact errorWritable_error rfl
  · exact errorWritable_error rfl

theorem errorWritable_whole (h : v.IsShort) : ErrorWritable (Field.whole path v) := by
  unfold Field.whole
  split
  · exact errorWritable_ok
  · refine errorWritable_number.bind ?_
    intro x _
    split
    · exact errorWritable_error h.isWritable
    · split
      · exact errorWritable_ok
      · exact errorWritable_error h.isWritable

theorem errorWritable_nonNegative {default : Number} (h : v.IsShort) :
    ErrorWritable (Field.nonNegative path default v) := by
  unfold Field.nonNegative
  split
  · exact errorWritable_ok
  · refine errorWritable_number.bind ?_
    intro x _
    split
    · exact errorWritable_ok
    · exact errorWritable_error h.isWritable

theorem errorWritable_flag {default : Bool} (h : v.IsShort) : ErrorWritable (Field.flag path default v) := by
  have hrefused : ErrorWritable (.error (.notFlag path v) : Except SnapshotError Bool) :=
    errorWritable_error h.isWritable
  unfold Field.flag
  split
  · exact errorWritable_ok
  · split
    · exact errorWritable_ok
    · dsimp only
      split
      · exact errorWritable_ok
      · split
        · exact errorWritable_ok
        · exact hrefused
    · split
      · exact errorWritable_ok
      · split
        · exact errorWritable_ok
        · exact hrefused
    · exact hrefused

theorem isWritable_of_exact_eq_error {cause : LiteralError} (h : v.exact = .error cause) :
    cause.isWritable = true := by
  -- only a division by zero is reported with a numeral, and no value is read by a division of its own
  have hparse : ∀ t, Literal.parse t = .error cause → cause.isWritable = true := by
    intro t ht
    unfold Literal.parse at ht
    dsimp only at ht
    split at ht
    · obtain rfl := Except.error.inj ht
      rfl
    · split at ht
      · obtain rfl := Except.error.inj ht
        rfl
      · split at ht
        · obtain rfl := Except.error.inj ht
          rfl
        · cases ht
  cases v with
  | number x =>
    cases x with
    | double d =>
      cases d with
      | finite negative rank =>
        rw [Value.exact, Literal.ofDouble] at h
        split at h <;> cases h
      | _ =>
        obtain rfl := Except.error.inj h
        rfl
    | _ => cases h
  | text t =>
    rw [Value.exact, Literal.read] at h
    split at h
    · exact hparse t h
    · obtain rfl := Except.error.inj h
      rfl
  | _ =>
    obtain rfl := Except.error.inj h
    rfl

theorem errorWritable_time : ErrorWritable (Field.time path v) := by
  unfold Field.time
  cases hexact : v.exact with
  | ok q => exact errorWritable_ok
  | error cause => exact errorWritable_error (isWritable_of_exact_eq_error hexact)

theorem isWritable_of_time {q : Rat} (h : v.IsShort) (hq : Field.time path v = .ok q) :
    Literal.isWritable q = true := by
  rw [Field.time] at hq
  cases hexact : v.exact with
  | ok r =>
    rw [hexact] at hq
    obtain rfl : r = q := Except.ok.inj hq
    exact h.isWritable_exact hexact
  | error cause =>
    rw [hexact] at hq
    cases hq

theorem errorWritable_mapping : ErrorWritable (Field.mapping path v) := by
  cases v with
  | null => exact errorWritable_ok
  | mapping entries => exact errorWritable_ok
  | _ => exact errorWritable_error rfl

theorem isShort_of_mapping {entries : Mapping} (h : v.IsShort) (hv : Field.mapping path v = .ok entries) :
    (Value.mapping entries).IsShort := by
  cases v with
  | null =>
    obtain rfl := Except.ok.inj hv
    exact Value.isShort_nil
  | mapping es =>
    obtain rfl := Except.ok.inj hv
    exact h
  | _ => cases hv

theorem writable_count (h : v.IsShort) (n : Int) : (Field.count path v n).Writable := by
  have hmended : (Notice.clamped path v).isWritable = true := h.isWritable
  unfold Field.count
  split
  · exact (Reading.writable_notice hmended).next fun _ _ => Reading.writable_pure 1
  · exact Reading.writable_pure n

theorem writable_wholeCount {default : Int} (h : v.IsShort) :
    (Field.wholeCount path default v).Writable := by
  refine (Reading.writable_ofExcept (errorWritable_whole h)).next ?_
  intro n? _
  cases n? with
  | none => exact Reading.writable_pure default
  | some n => exact writable_count h n

theorem writable_lenientCount (h : v.IsShort) : (Field.lenientCount path v).Writable := by
  have hunreadable : (Notice.unreadable path v).isWritable = true := h.isWritable
  have hnotFinite : (Notice.notFinite path v).isWritable = true := h.isWritable
  unfold Field.lenientCount
  split
  · exact Reading.writable_pure 1
  · split
    · exact (Reading.writable_notice hunreadable).next fun _ _ => Reading.writable_pure 1
    · split
      · exact (Reading.writable_notice hnotFinite).next fun _ _ => Reading.writable_pure 1
      · exact writable_count h _

end Fields

/-! ## Sections -/

theorem Settings.writable_read {v : Value} (h : v.IsShort) : (read v).Writable := by
  refine (Reading.writable_ofExcept errorWritable_mapping).next fun entries hentries => ?_
  have hfields : (Value.mapping entries).IsShort := isShort_of_mapping h hentries
  refine (writable_wholeCount (Mapping.isShort_field hfields)).next fun _ _ => ?_
  refine (writable_wholeCount (Mapping.isShort_field hfields)).next fun _ _ => ?_
  refine (writable_wholeCount (Mapping.isShort_field hfields)).next fun _ _ => ?_
  exact Reading.writable_pure _

namespace Note

theorem errorWritable_readScale {path : Path} {v : Value} (h : v.IsShort) : ErrorWritable (readScale path v) := by
  have hrefused : ErrorWritable (.error (.notScale path v) : Except SnapshotError (Option Value)) :=
    errorWritable_error h.isWritable
  unfold readScale
  split
  · exact errorWritable_ok
  · split
    · exact errorWritable_ok
    · exact hrefused

theorem errorWritable_read {path : Path} {v : Value} (h : v.IsShort) : ErrorWritable (read path v) := by
  refine errorWritable_mapping.bind fun entries hentries => ?_
  have hfields : (Value.mapping entries).IsShort := isShort_of_mapping h hentries
  refine (errorWritable_readScale (Mapping.isShort_field hfields)).bind fun _ _ => ?_
  refine (errorWritable_whole (Mapping.isShort_field hfields)).bind fun _ _ => ?_
  refine (errorWritable_whole (Mapping.isShort_field hfields)).bind fun _ _ => ?_
  refine (errorWritable_whole (Mapping.isShort_field hfields)).bind fun _ _ => ?_
  refine (errorWritable_nonNegative (Mapping.isShort_field hfields)).bind fun _ _ => ?_
  refine (errorWritable_nonNegative (Mapping.isShort_field hfields)).bind fun _ _ => ?_
  exact errorWritable_ok

theorem errorWritable_readList {path : Path} {items : List Value} (h : ∀ v ∈ items, v.IsShort) (i : Int) :
    ErrorWritable (readList path i items) := by
  induction items generalizing i with
  | nil => exact errorWritable_ok
  | cons v rest ih =>
    refine (errorWritable_read (h v (List.mem_cons_self ..))).bind fun _ _ => ?_
    refine (ih (fun w hw => h w (List.mem_cons_of_mem v hw)) (i + 1)).bind fun _ _ => ?_
    exact errorWritable_ok

theorem errorWritable_readAll {path : Path} {entries : Mapping} (h : (Value.mapping entries).IsShort) :
    ErrorWritable (readAll path entries) := by
  have hnotes : (entries.field Spelling.notes).IsShort := Mapping.isShort_field h
  unfold readAll
  generalize entries.field Spelling.notes = raw at hnotes
  dsimp only
  split
  · exact (errorWritable_read h).bind fun _ _ => errorWritable_ok
  · split
    · exact errorWritable_readList (fun _ hv => hnotes.item hv) 0
    · exact errorWritable_error rfl

end Note

namespace Point

theorem errorWritable_readStart {path : Path} {v : Value} : ErrorWritable (readStart path v) := by
  unfold readStart
  split
  · exact errorWritable_ok
  · exact errorWritable_time

theorem isWritable_of_negative {path : Path} {v : Value} {q : Rat} (h : v.IsShort)
    (hq : readStart path v = .ok q) (hnegative : q < 0) : Literal.isWritable q = true := by
  unfold readStart at hq
  split at hq
  · -- a start that is not set is zero
    obtain rfl := Except.ok.inj hq
    exact absurd hnegative Rat.lt_irrefl
  · exact isWritable_of_time h hq

theorem errorWritable_readTimes {path : Path} {entries : Mapping} (h : (Value.mapping entries).IsShort) :
    ErrorWritable (readTimes path entries) := by
  have hstart : (entries.field Spelling.start).IsShort := Mapping.isShort_field h
  have hduration : (entries.field Spelling.duration).IsShort := Mapping.isShort_field h
  unfold readTimes
  dsimp only
  split
  · exact errorWritable_throw rfl
  · refine errorWritable_readStart.bind fun start hs => ?_
    refine errorWritable_time.bind fun duration hd => ?_
    split
    · exact errorWritable_throw (isWritable_of_time hduration hd)
    · split
      case isTrue hnegative => exact errorWritable_throw (isWritable_of_negative hstart hs hnegative)
      case isFalse => exact errorWritable_ok

theorem errorWritable_readStrum {path : Path} {v : Value} (h : v.IsShort) : ErrorWritable (readStrum path v) := by
  unfold readStrum
  split
  · exact errorWritable_ok
  · exact (errorWritable_nonNegative h).bind fun _ _ => errorWritable_ok

theorem writable_read {v : Value} (h : v.IsShort) (index : Int) : (read index v).Writable := by
  cases v with
  | mapping entries =>
    refine (Reading.writable_ofExcept (errorWritable_readTimes h)).next fun _ _ => ?_
    refine (Reading.writable_ofExcept (Note.errorWritable_readAll h)).next fun _ _ => ?_
    refine (writable_lenientCount (Mapping.isShort_field h)).next fun _ _ => ?_
    refine (Reading.writable_ofExcept (errorWritable_readStrum (Mapping.isShort_field h))).next fun _ _ => ?_
    exact Reading.writable_pure _
  | _ => exact Reading.writable_ofExcept (errorWritable_error rfl)

theorem writable_readList {items : List Value} (h : ∀ v ∈ items, v.IsShort) (i : Int) :
    (readList i items).Writable := by
  induction items generalizing i with
  | nil => exact Reading.writable_pure _
  | cons v rest ih =>
    refine (writable_read (h v (List.mem_cons_self ..)) i).next fun _ _ => ?_
    refine (ih (fun w hw => h w (List.mem_cons_of_mem v hw)) (i + 1)).next fun _ _ => ?_
    exact Reading.writable_pure _

end Point

namespace Program.Options

theorem writable_readLoopCount {v : Value} (h : v.IsShort) : (readLoopCount v).Writable := by
  have hignored : (Notice.ignoredLoopCount v).isWritable = true := h.isWritable
  unfold readLoopCount
  split
  · exact Reading.writable_pure _
  · exact Reading.writable_pure _
  · exact (Reading.writable_notice hignored).next fun _ _ => Reading.writable_pure _

theorem writable_read {v : Value} (h : v.IsShort) : (read v).Writable := by
  refine (Reading.writable_ofExcept errorWritable_mapping).next fun entries hentries => ?_
  have hfields : (Value.mapping entries).IsShort := isShort_of_mapping h hentries
  refine (writable_readLoopCount (Mapping.isShort_field hfields)).next fun _ _ => ?_
  refine (Reading.writable_ofExcept (errorWritable_flag (Mapping.isShort_field hfields))).next fun _ _ => ?_
  exact Reading.writable_pure _

end Program.Options

/-! ## Snapshots -/

namespace Snapshot

theorem isShort_of_entries {v : Value} {sections : Mapping} (h : v.IsShort)
    (hv : entries v = .ok sections) : (Value.mapping sections).IsShort := by
  unfold entries at hv
  split at hv
  · obtain rfl := Except.ok.inj hv
    exact Value.isShort_nil
  · cases v with
    | mapping es =>
      obtain rfl := Except.ok.inj hv
      exact h
    | _ => cases hv

theorem isShort_of_rawPoints {v : Value} {items : List Value} (h : v.IsShort)
    (hv : rawPoints v = .ok items) : ∀ w ∈ items, w.IsShort := by
  unfold rawPoints at hv
  split at hv
  · obtain rfl := Except.ok.inj hv
    simp
  · cases v with
    | list vs =>
      obtain rfl := Except.ok.inj hv
      exact fun w hw => h.item hw
    | _ => cases hv

theorem errorWritable_entries (v : Value) : ErrorWritable (entries v) := by
  unfold entries
  split
  · exact errorWritable_ok
  · split
    · exact errorWritable_ok
    · exact errorWritable_error rfl

theorem errorWritable_rawPoints (v : Value) : ErrorWritable (rawPoints v) := by
  unfold rawPoints
  split
  · exact errorWritable_ok
  · split
    · exact errorWritable_ok
    · exact errorWritable_error rfl

/-- If no part of a value is too long, everything that reading it reports can be written. -/
theorem writable_read {v : Value} (h : v.IsShort) : (read v).Writable := by
  refine (Reading.writable_ofExcept (errorWritable_entries v)).next fun sections hsections => ?_
  have hfields : (Value.mapping sections).IsShort := isShort_of_entries h hsections
  refine (Reading.writable_ofExcept (errorWritable_rawPoints _)).next fun raw hraw => ?_
  refine (Settings.writable_read (Mapping.isShort_field hfields)).next fun _ _ => ?_
  refine (Point.writable_readList
    (isShort_of_rawPoints (Mapping.isShort_field hfields) hraw) 0).next fun _ _ => ?_
  refine (Program.Options.writable_read (Mapping.isShort_field hfields)).next fun _ _ => ?_
  exact Reading.writable_pure _

end Snapshot

end Barline
