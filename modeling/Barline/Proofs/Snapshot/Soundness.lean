import Barline.Proofs.Score.Limit
import Barline.Proofs.Snapshot.Limit
import Barline.Proofs.Snapshot.WellFormed

/-!
# Soundness — what comes of a value that is read as a snapshot

Whatever the value is, reading it comes to a well-formed snapshot or to an error of its own, unless a number in it is
too long for the report. And what is read is built: a well-formed snapshot has everything that the steps of a build
rely on, so that only its instrument, which nothing has checked, can be refused.
-/

namespace Barline

open WritingError

/-! ## Reading -/

/-- Reading a value of any shape comes to a well-formed snapshot or to an error of its own, unless a number in the
value is too long: then there may be neither. -/
theorem read_well_formed_or_refused (data : Value) :
    (∃ s, (Snapshot.read data).written = .ok s ∧ (Snapshot.read data).outcome = .ok s ∧ s.WellFormed) ∨
      (∃ e, (Snapshot.read data).written = .error (.cause e) ∧ (Snapshot.read data).outcome = .error e) ∨
      ((Snapshot.read data).written = .error .tooLong ∧ ∃ w, Value.Part w data ∧ w.IsLong) := by
  rcases Reading.writesOut (Snapshot.read data) with hwritten | hlong
  · cases houtcome : (Snapshot.read data).outcome with
    | ok s =>
      rw [houtcome] at hwritten
      exact Or.inl ⟨s, hwritten, rfl, Snapshot.gives_wellFormed data s houtcome⟩
    | error e =>
      rw [houtcome] at hwritten
      exact Or.inr (Or.inl ⟨e, hwritten, rfl⟩)
  · exact Or.inr (Or.inr ⟨hlong, Reading.exists_long_part Snapshot.writable_read hlong⟩)

/-- A duration that is far below zero is refused, but the error that says so has a number that is too long. -/
theorem refusal_of_long_duration_is_not_written :
    (Snapshot.read (.mapping [(.text "points", .list [.mapping [(.text "duration", .text "-1e4300")]])])).written =
      .error .tooLong := by
  decide +kernel

/-! ## Building -/

namespace Program

/-- What is given as an instrument, stands for something and is no text. -/
def IsOddInstrument (v : Value) : Prop :=
  v.isVoid = false ∧ ∀ t, v ≠ .text t

theorem instrumentToken_of_odd {v : Value} (h : IsOddInstrument v) :
    instrumentToken v = .error (.instrumentNotText v.typeName) := by
  unfold instrumentToken
  rw [if_neg (by simp [h.1])]
  cases v with
  | text t => exact absurd rfl (h.2 t)
  | _ => rfl

theorem exists_instrumentToken_of_not_odd {v : Value} (h : ¬ IsOddInstrument v) :
    ∃ token, instrumentToken v = .ok token := by
  unfold instrumentToken
  split
  · exact ⟨_, rfl⟩
  case isFalse hvoid =>
    cases v with
    | text t => exact ⟨_, rfl⟩
    | _ => exact absurd ⟨by simpa using hvoid, by simp⟩ h

/-- The loop count that is read is finite. -/
theorem Options.WellFormed.exists_repeatsToken {options : Options} (h : options.WellFormed) :
    ∃ repeats, repeatsToken options.loopCount = .ok repeats := by
  have htyped : ({ options with instrument := .null } : Options).WellTyped := ⟨Or.inl rfl, h.loopCount⟩
  exact @Program.exists_repeatsToken { options with instrument := .null } htyped

theorem render_of_odd {options : Options} (voices : Voices) (hoptions : options.WellFormed)
    (h : IsOddInstrument options.instrument) :
    render voices options = .error (.instrumentNotText options.instrument.typeName) := by
  rcases hoptions.exists_repeatsToken with ⟨repeats, hrepeats⟩
  rw [render, hrepeats, instrumentToken_of_odd h]
  rfl

end Program

namespace Snapshot.WellFormed

variable {s : Snapshot}

theorem build_of_odd (hs : s.WellFormed) (h : Program.IsOddInstrument s.options.instrument) :
    s.build = .error (.instrumentNotText s.options.instrument.typeName) := by
  rcases Timeline.exists_ofPoints (fun p hp => (hs.points p hp).repeats) hs.settings.beatsPerBar
    hs.settings.bars with ⟨timeline, htimeline, _⟩
  rw [build, Score.build_eq htimeline, Program.render_of_odd _ hs.options h]
  rfl

theorem exists_score (hs : s.WellFormed) (h : ¬ Program.IsOddInstrument s.options.instrument) :
    ∃ timeline instrument repeats, Timeline.ofPoints s.points s.settings = .ok timeline ∧
      s.build = .ok (Score.ofTimeline timeline instrument repeats (!s.options.compress.isVoid)) := by
  rcases Timeline.exists_ofPoints (fun p hp => (hs.points p hp).repeats) hs.settings.beatsPerBar
    hs.settings.bars with ⟨timeline, htimeline, _⟩
  rcases hs.options.exists_repeatsToken with ⟨repeats, hrepeats⟩
  rcases Program.exists_instrumentToken_of_not_odd h with ⟨instrument, hinstrument⟩
  exact ⟨timeline, instrument, repeats, htimeline, Score.build_eq_ofTimeline htimeline hrepeats hinstrument⟩

theorem odd_of_build_eq_error (hs : s.WellFormed) {e : BuildError} (he : s.build = .error e) :
    Program.IsOddInstrument s.options.instrument := by
  by_contra h
  rcases hs.exists_score h with ⟨timeline, instrument, repeats, _, hscore⟩
  rw [hscore] at he
  cases he

end Snapshot.WellFormed

/-- A snapshot that is read has no score exactly if its instrument stands for something and is no text, and that is
also the error. Otherwise it has the score of the timeline that its points fill. Written out, it is the same unless a
number is too long. -/
theorem build_fails_iff_instrument_odd {data : Value} {s : Snapshot} (h : (Snapshot.read data).outcome = .ok s) :
    ((∃ e, s.build = .error e) ↔ Program.IsOddInstrument s.options.instrument) ∧
      (∀ e, s.build = .error e → e = .instrumentNotText s.options.instrument.typeName) ∧
      (¬ Program.IsOddInstrument s.options.instrument → ∃ timeline instrument repeats,
        Timeline.ofPoints s.points s.settings = .ok timeline ∧
        s.build = .ok (Score.ofTimeline timeline instrument repeats (!s.options.compress.isVoid))) ∧
      WritesOut s.write s.build := by
  -- all that a build relies on was checked when the snapshot was read
  have hs : s.WellFormed := Snapshot.gives_wellFormed data s h
  refine ⟨⟨?_, ?_⟩, ?_, ?_, ?_⟩
  · rintro ⟨e, he⟩
    exact hs.odd_of_build_eq_error he
  · intro hodd
    exact ⟨_, hs.build_of_odd hodd⟩
  · intro e he
    have hodd := hs.build_of_odd (hs.odd_of_build_eq_error he)
    exact Except.error.inj (he.symm.trans hodd)
  · intro hplain
    exact hs.exists_score hplain
  · exact Score.writesOut s.points s.settings s.options

/-- A snapshot of one point that has an infinite legato and an infinite strum. -/
def infiniteLegato (output : Mapping) : Value :=
  .mapping [(.text "output", .mapping output), (.text "points", .list [.mapping [(.text "duration", .text "1/3"),
    (.text "legato", .text "inf"), (.text "strum", .number (.double (.infinite false)))]])]

/-- An infinite legato and an infinite strum are built; with a list for its instrument, the same point is not. -/
theorem infinite_legato_is_built :
    (∃ s score, (Snapshot.read (infiniteLegato [])).outcome = .ok s ∧ s.build = .ok score) ∧
    ∃ s, (Snapshot.read (infiniteLegato [(.text "instrument", .list [.text "pad"])])).outcome = .ok s ∧
      s.build = .error (.instrumentNotText "list") := by
  refine ⟨?_, ?_⟩
  · obtain ⟨s, hread, hinstrument⟩ : ∃ s, (Snapshot.read (infiniteLegato [])).outcome = .ok s ∧
        s.options.instrument = .null := ⟨_, rfl, rfl⟩
    have hplain : ¬ Program.IsOddInstrument s.options.instrument := by
      rw [hinstrument]
      exact fun h => Bool.noConfusion h.1
    rcases (build_fails_iff_instrument_odd hread).2.2.1 hplain with ⟨_, _, _, _, hbuild⟩
    exact ⟨s, _, hread, hbuild⟩
  · obtain ⟨s, hread, hinstrument⟩ : ∃ s, (Snapshot.read (infiniteLegato
        [(.text "instrument", .list [.text "pad"])])).outcome = .ok s ∧
          s.options.instrument = .list [.text "pad"] := ⟨_, rfl, rfl⟩
    have hodd : Program.IsOddInstrument s.options.instrument := by
      rw [hinstrument]
      exact ⟨rfl, fun _ h => Value.noConfusion h⟩
    rcases build_fails_iff_instrument_odd hread with ⟨hfails, herror, _, _⟩
    rcases hfails.2 hodd with ⟨e, he⟩
    refine ⟨s, hread, ?_⟩
    rw [he, herror e he, hinstrument]
    rfl

end Barline
