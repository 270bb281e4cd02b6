import Barline.Program
import Barline.Proofs.Numeral.Grammar

/-!
# Loop counts — what a program says about repeating

A loop count is any value at all, and every list of a program ends with what has become of it. `PlaysAs` goes through
the values: most stand for endless repetition, a count of one or more is written out, and two kinds of number have
no repeats at all, infinities and counts with too many digits. A text is never among these, since what can be
read from it can be written.

`repeats_slot_is_well_formed` says that this is what happens, and that a program has the result behind each list.
-/

namespace Barline

/-! ## Counts -/

namespace Value

/-- The whole number that a loop count stands for, if any: a number without its fraction, or what a text says. -/
def playCount? : Value → Option Int
  | number x => x.truncated?
  | text t => Numeral.wholeText? t
  | _ => none

end Value

namespace Program

/-- What becomes of a loop count. -/
inductive PlaysAs : Value → Except (WritingError BuildError) String → Prop where
  /-- No count, or one below one, is endless repetition, unless the loop count is infinite itself. -/
  | endless {v : Value} (hfinite : ∀ negative, v ≠ .number (.double (.infinite negative)))
      (h : ∀ n, v.playCount? = some n → n < 1) : PlaysAs v (.ok "inf")
  /-- A count is written in decimal digits. -/
  | counted {v : Value} {n : Int} (h : v.playCount? = some n) (hpos : 1 ≤ n)
      (hwritable : Numeral.isWritable n = true) : PlaysAs v (.ok (toString n))
  /-- Only a number can be a count with too many digits. -/
  | tooLong {x : Number} {n : Int} (h : x.truncated? = some n) (hpos : 1 ≤ n)
      (hlong : Numeral.isWritable n = false) : PlaysAs (.number x) (.error .tooLong)
  /-- An infinity is no number of times. -/
  | infinite (negative : Bool) :
      PlaysAs (.number (.double (.infinite negative))) (.error (.cause .infiniteLoopCount))

/-! ## Writing the repeats -/

section Count

variable {v : Value} {n : Int}

theorem repeatsOf_of_lt (h : n < 1) : repeatsOf n = "inf" :=
  if_pos h

theorem repeatsOf_of_le (h : 1 ≤ n) : repeatsOf n = toString n :=
  if_neg (by omega)

/-- Without a fault, the repeats are those of the count, and endless if there is none. -/
theorem repeatsToken_eq (hfinite : ∀ negative, v ≠ .number (.double (.infinite negative))) :
    repeatsToken v = .ok ((v.playCount?.map repeatsOf).getD endless) := by
  unfold repeatsToken
  -- a value that is neither number nor text has no count
  split
  case h_1 negative => exact absurd rfl (hfinite negative)
  case h_2 => rfl
  case h_3 => rfl
  case h_4 hnumber htext =>
    cases v with
    | number x => exact absurd rfl (hnumber x)
    | text t => exact absurd rfl (htext t)
    | _ => rfl

/-- Whether the repeats can be written is a matter of the count alone. -/
theorem repeatsAreWritable_iff :
    repeatsAreWritable v = true ↔ ∀ n, v.playCount? = some n → 1 ≤ n → Numeral.isWritable n = true := by
  cases v with
  | number x =>
    simp only [repeatsAreWritable, Value.playCount?]
    cases x.truncated? with
    | none => simp
    | some n =>
      rw [Option.all_some, Bool.or_eq_true, decide_eq_true_iff]
      constructor
      · intro h m hm hpos
        obtain rfl := Option.some.inj hm
        exact h.resolve_left (by omega)
      · intro h
        exact (lt_or_ge n 1).imp_right (h n rfl)
  | text t =>
    -- what a text says has been read within the limit
    exact iff_of_true rfl fun n h _ => Numeral.isWritable_of_wholeText? h
  | _ => exact iff_of_true rfl fun n h _ => by cases h

end Count

theorem writeRepeats_playsAs (v : Value) : PlaysAs v (writeRepeats v) := by
  by_cases hfinite : ∀ negative, v ≠ .number (.double (.infinite negative))
  case neg =>
    obtain ⟨negative, rfl⟩ := Classical.not_forall_not.1 hfinite
    exact .infinite negative
  case pos =>
    rw [writeRepeats, repeatsToken_eq hfinite]
    cases hwritable : repeatsAreWritable v with
    | true =>
      have hcounts := repeatsAreWritable_iff.1 hwritable
      change PlaysAs v (.ok ((v.playCount?.map repeatsOf).getD endless))
      cases hcount : v.playCount? with
      | none => exact .endless hfinite (by simp [hcount])
      | some n =>
        rw [Option.map_some, Option.getD_some]
        rcases lt_or_ge n 1 with hlt | hpos
        · rw [repeatsOf_of_lt hlt]
          exact .endless hfinite (by simpa [hcount] using hlt)
        · rw [repeatsOf_of_le hpos]
          exact .counted hcount hpos (hcounts n hcount hpos)
    | false =>
      -- a count stands in the way, and only a number can have one that does
      cases v with
      | number x =>
        have h : ¬ repeatsAreWritable (.number x) = true := by simp [hwritable]
        rw [repeatsAreWritable_iff] at h
        push Not at h
        obtain ⟨n, hcount, hpos, hlong⟩ := h
        exact .tooLong hcount hpos (by simpa using hlong)
      | _ => cases hwritable

/-- What is written is endless repetition or a positive count in decimal digits. -/
theorem PlaysAs.eq_inf_or_eq_toString {v : Value} {r : String} (h : PlaysAs v (.ok r)) :
    r = "inf" ∨ ∃ n : Int, 1 ≤ n ∧ r = toString n := by
  cases h with
  | endless => exact Or.inl rfl
  | counted _ hpos _ => exact Or.inr ⟨_, hpos, rfl⟩

/-! ## Programs -/

/-- The repeats slot is well formed. A loop count becomes endless repetition or a positive whole number in decimal
digits, unless it is infinite or a number with too many digits; these two have an error in place of repeats. A program
ends each of its lists with what its loop count has become, and with the error there is no program. -/
theorem repeats_slot_is_well_formed (loopCount : Value) :
    PlaysAs loopCount (writeRepeats loopCount) ∧
      (∀ r, writeRepeats loopCount = .ok r → r = "inf" ∨ ∃ n : Int, 1 ≤ n ∧ r = toString n) ∧
        ∀ (voices : Voices) (options : Options) (instrument : Text),
          instrumentToken options.instrument = .ok instrument →
            write voices { options with loopCount } = do
              let repeats ← writeRepeats loopCount
              WritingError.require (Voice.all.all fun v => (voices v).all Cell.isWritable)
              let entries := Voice.all.map fun v =>
                "  " ++ label v ++ "Pseq([" ++
                  Text.join ", " (Run.texts (!options.compress.isVoid) (tokens v.name (voices v))) ++
                    "], " ++ repeats ++ ")"
              return Text.join "\n"
                ["(", "Pbind(", "  \\instrument, " ++ instrument ++ ",", Text.join ",\n" entries, ").play",
                  ")"] := by
  have hplays := writeRepeats_playsAs loopCount
  refine ⟨hplays, ?_, ?_⟩
  · intro r h
    rw [h] at hplays
    exact hplays.eq_inf_or_eq_toString
  · intro voices options instrument hinstrument
    rw [write, hinstrument]
    rfl

/-- Seven halves are three times, in every list of the program. -/
theorem fraction_loses_its_half :
    instrumentToken (.text "pad") = .ok "\\pad" ∧
      write (fun _ => [.rest]) { instrument := .text "pad", loopCount := .number (.ratio (7 / 2)) } =
        .ok ("(\nPbind(\n  \\instrument, \\pad,\n" ++ Text.join ",\n" [
          "  \\scale,   Pseq([Rest()], 3)", "  \\root,    Pseq([Rest()], 3)", "  \\octave,  Pseq([Rest()], 3)",
          "  \\degree,  Pseq([Rest()], 3)", "  \\legato,  Pseq([Rest()], 3)", "  \\amp,     Pseq([Rest()], 3)",
          "  \\strum,   Pseq([Rest()], 3)", "  \\dur,     Pseq([Rest()], 3)"] ++ "\n).play\n)") := by
  have hinstrument : instrumentToken (.text "pad") = .ok "\\pad" := rfl
  have hcount : (Number.ratio (7 / 2)).truncated? = some 3 := by decide +kernel
  have hwritable : repeatsAreWritable (.number (.ratio (7 / 2))) = true := by decide +kernel
  have hrepeats : writeRepeats (.number (.ratio (7 / 2))) = .ok "3" := by
    rw [writeRepeats, repeatsToken_eq (by simp), Value.playCount?, hcount, hwritable]
    rfl
  have hprogram := (repeats_slot_is_well_formed (.number (.ratio (7 / 2)))).2.2 (fun _ => [.rest])
    { instrument := .text "pad" } _ hinstrument
  rw [hrepeats] at hprogram
  exact ⟨hinstrument, hprogram⟩

/-- An infinite loop count is neither endless repetition nor a number of times. -/
theorem infinite_loop_count_has_no_repeats :
    ¬ ∃ r, writeRepeats (.number (.double (.infinite false))) = .ok r ∧
      (r = "inf" ∨ ∃ n : Int, 1 ≤ n ∧ r = toString n) := by
  rintro ⟨r, h, -⟩
  cases h

end Program

end Barline
