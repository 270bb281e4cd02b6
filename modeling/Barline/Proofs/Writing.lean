import Barline.Score
import Barline.Snapshot.Reading

/-!
# Writing — what is written is what was found

The limit on numerals is a layer: a reading, a program and a score are found without it, and then written out within
it. `WritesOut` says how the two go together, and it is carried from one step to the next.

The limit of a whole is that of its parts: a program is written voice by voice (`Program.write_eq_mapM`), and a voice
cell by cell (`Program.writeTokens_eq_mapM`).
-/

namespace Barline

namespace WritingError

variable {ε α β : Type}

/-- What is written is what was found, result or cause, or else only that a number is too long. -/
def WritesOut (written : Except (WritingError ε) α) (found : Except ε α) : Prop :=
  written = found.mapError cause ∨ written = .error tooLong

theorem writesOut_cause (found : Except ε α) : WritesOut (found.mapError cause) found :=
  Or.inl rfl

theorem writesOut_ok (a : α) : WritesOut (.ok a : Except (WritingError ε) α) (.ok a) :=
  Or.inl rfl

theorem writesOut_ofCause (isWritable : ε → Bool) (found : Except ε α) :
    WritesOut (found.mapError (ofCause isWritable)) found := by
  cases found with
  | ok a => exact Or.inl rfl
  | error e =>
    rw [mapError_error, ofCause]
    split
    · exact Or.inl rfl
    · exact Or.inr rfl

theorem WritesOut.bind {written : Except (WritingError ε) α} {found : Except ε α}
    {write : α → Except (WritingError ε) β} {find : α → Except ε β} (h : WritesOut written found)
    (hnext : ∀ a, WritesOut (write a) (find a)) : WritesOut (written >>= write) (found >>= find) := by
  rcases h with rfl | rfl
  · cases found with
    | ok a => exact hnext a
    | error e => exact Or.inl rfl
  · exact Or.inr rfl

/-- A check of the length finds nothing of its own. -/
theorem WritesOut.require {written : Except (WritingError ε) α} {found : Except ε α} (isWritable : Bool)
    (h : WritesOut written found) : WritesOut (require isWritable >>= fun _ => written) found := by
  cases isWritable with
  | true => exact h
  | false => exact Or.inr rfl

/-- What is found may be written within a limit. -/
theorem WritesOut.limited {written : Except (WritingError ε) α} {found : Except ε α} (isWritable : α → Bool)
    (h : WritesOut written found) : WritesOut (written >>= fun a => limited (isWritable a) a) found := by
  rcases h with rfl | rfl
  · cases found with
    | ok a => exact (writesOut_ok a).require (isWritable a)
    | error e => exact Or.inl rfl
  · exact Or.inr rfl

/-- What is written item by item is written if all of the items can be. -/
theorem mapM_limited (isWritable : α → Bool) (f : α → β) (as : List α) :
    (as.mapM fun a => (limited (isWritable a) (f a) : Except (WritingError ε) β)) =
      limited (as.all isWritable) (as.map f) := by
  induction as with
  | nil => rfl
  | cons a as ih =>
    rw [List.mapM_cons, ih, List.all_cons, List.map_cons]
    cases isWritable a with
    | false => rfl
    | true =>
      cases as.all isWritable with
      | false => rfl
      | true => rfl

end WritingError

/-! ## Readings, programs and scores -/

open WritingError

/-- A reading is written out step by step. -/
theorem Reading.written_bind {α β : Type} (x : Reading α) (f : α → Reading β) :
    (x >>= f).written = x.written >>= fun a => (f a).written := by
  unfold written
  rw [notices_bind, outcome_bind, List.all_append]
  cases x.notices.all Notice.isWritable with
  | false => rfl
  | true =>
    cases x.outcome with
    | error e => rfl
    | ok a => rfl

theorem Reading.written_bind_eq_ok_iff {α β : Type} {x : Reading α} {f : α → Reading β} {b : β} :
    (x >>= f).written = .ok b ↔ ∃ a, x.written = .ok a ∧ (f a).written = .ok b := by
  rw [written_bind]
  cases x.written with
  | error e => simp [bind, Except.bind]
  | ok a => simp [bind, Except.bind]

theorem Reading.written_of_outcome {α : Type} {x : Reading α} {a : α} (h : x.outcome = .ok a)
    (hnotices : x.notices.all Notice.isWritable = true) : x.written = .ok a := by
  rw [written, hnotices, h]
  rfl

theorem Reading.writesOut {α : Type} (x : Reading α) : WritesOut x.written x.outcome :=
  (writesOut_ofCause _ x.outcome).require _

/-- A scalar is written as its value, the name of a scale as that of a scale. -/
theorem Program.writeCell_scalar (v : Value) :
    writeCell Value.token (.scalar v) = writeNumber v ∧ writeCell scaleToken (.scalar v) = writeScale v := by
  simp [writeCell, writeScale, writeNumber, Cell.isWritable, Cell.scalar, Attribute.values, cellToken, attributeToken]

theorem Program.writeTokens_eq_mapM (voice : String) (cells : List Cell) :
    writeTokens voice cells = cells.mapM (writeCell (itemToken voice)) :=
  (mapM_limited Cell.isWritable (cellToken (itemToken voice)) cells).symm

/-- A program is written voice by voice, after its repeats and its instrument. -/
theorem Program.write_eq_mapM (voices : Voices) (options : Options) :
    write voices options = do
      let repeats ← writeRepeats options.loopCount
      let instrument ← (instrumentToken options.instrument).mapError .cause
      let _ ← Voice.all.mapM fun v => writeTokens v.name (voices v)
      return layout instrument repeats (!options.compress.isVoid) voices := by
  have hvoices := @mapM_limited BuildError _ _ (fun v => (voices v).all Cell.isWritable)
    (fun v => tokens v.name (voices v)) Voice.all
  unfold write writeTokens
  rw [hvoices]
  cases Voice.all.all fun v => (voices v).all Cell.isWritable with
  | false => rfl
  | true => rfl

theorem Program.writesOut (voices : Voices) (options : Options) :
    WritesOut (write voices options) (render voices options) := by
  have hrepeats : WritesOut (writeRepeats options.loopCount) (repeatsToken options.loopCount) :=
    (writesOut_cause _).limited fun _ => repeatsAreWritable options.loopCount
  refine hrepeats.bind fun repeats => ?_
  refine (writesOut_cause _).bind fun instrument => ?_
  exact (writesOut_ok _).require _

theorem Score.writesOut (points : List Point) (settings : Settings) (options : Program.Options) :
    WritesOut (write points settings options) (build points settings options) := by
  have htimeline : WritesOut (Timeline.writePoints points settings) (Timeline.ofPoints points settings) := by
    rw [Timeline.writePoints_eq]
    exact (writesOut_ofCause _ _).limited fun timeline : Timeline => timeline.notices.all Notice.isWritable
  refine htimeline.bind fun timeline => ?_
  exact (Program.writesOut _ options).bind fun program => writesOut_ok _

end Barline
