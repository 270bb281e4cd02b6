import Barline.Proofs.Program.Token

/-!
# Layouts — the tracks of a program

A program is laid out in lines, and only the lines of voices have a list. `tracks_layout` says that reading a layout
gives the eight voices in their order, each with its name, the tokens of its cells and the repeats.
-/

namespace Barline.Program

/-! ## Lines -/

section Lines

variable {first rest : Text}

theorem tracks_of_oneLine (h : .char '\n' ∉ first) : Reader.tracks first = (Reader.track? first).toList := by
  rw [Reader.tracks, List.splitOn_eq_singleton h, List.filterMap_cons]
  cases Reader.track? first <;> rfl

theorem tracks_line (h : .char '\n' ∉ first) :
    Reader.tracks (first ++ (("\n" : Text) ++ rest)) = (Reader.track? first).toList ++ Reader.tracks rest := by
  have hlines : List.splitOn (.char '\n') (first ++ (("\n" : Text) ++ rest)) =
      first :: rest.splitOn (.char '\n') := List.splitOn_append_cons_self_of_not_mem h rest
  rw [Reader.tracks, hlines, Reader.tracks, List.filterMap_cons]
  cases Reader.track? first <;> rfl

/-- Without an opening bracket there is no list in a line. -/
theorem tracks_other_line (hline : .char '\n' ∉ first) (hbracket : .char '[' ∉ first) :
    Reader.tracks (first ++ (("\n" : Text) ++ rest)) = Reader.tracks rest := by
  rw [tracks_line hline, Reader.track?_eq_none hbracket]
  rfl

end Lines

/-! ## The line of a voice -/

section Line

variable {repeats : String} (compressed : Bool) {voice : Voice} {cells : List Cell}

theorem not_mem_label (voice : Voice) :
    ∀ m ∈ ([.char 'P', .char '\n'] : Text), m ∉ ("  " : Text) ++ label voice := by
  cases voice <;> decide

theorem between_label (voice : Voice) :
    Reader.between "\\" "," (("  " : Text) ++ label voice) = some voice.name := by
  cases voice <;> decide

theorem line_append (behind : Text) :
    line repeats compressed voice cells ++ behind =
      (("  " : Text) ++ label voice) ++ (("Pseq([" : Text) ++
        (Text.join ", " (Run.texts compressed (tokens voice.name cells)) ++
          .char ']' :: ((", " : Text) ++ ((repeats : Text) ++ ((")" : Text) ++ behind))))) := by
  simp only [line, List.append_assoc]
  rfl

variable (htokens : ∀ t ∈ tokens voice.name cells, IsToken t) (hrepeats : IsWord repeats)

include htokens hrepeats

/-- The line of a voice is read as the tokens of its cells, whatever stands behind it. -/
theorem track?_line (hcells : cells ≠ []) (behind : Text) :
    Reader.track? (line repeats compressed voice cells ++ behind) =
      some ⟨voice.name, tokens voice.name cells, repeats⟩ := by
  have hlabel : .char 'P' ∉ ("  " : Text) ++ label voice := not_mem_label voice _ (by decide)
  have hne : tokens voice.name cells ≠ [] := by
    rw [tokens]
    exact fun hnil => hcells (List.map_eq_nil_iff.1 hnil)
  have hpieces : ∀ p ∈ Run.texts compressed (tokens voice.name cells), Reader.IsPiece p := by
    intro p hp
    exact (forall_texts compressed htokens p hp).1
  have hparen : .char ')' ∉ (repeats : Text) := hrepeats.not_mem (by decide)
  have hend : Reader.between ", " ")" ((", " : Text) ++ ((repeats : Text) ++ ((")" : Text) ++ behind))) =
      some repeats := Reader.between_append hparen
  rw [line_append compressed, Reader.track?_eq_some hlabel (between_label voice)
      (texts_ne_nil compressed htokens hne) hpieces hend,
    flatMap_writtenOut_texts compressed htokens]

theorem oneLine_line : .char '\n' ∉ line repeats compressed voice cells := by
  have hlabel : .char '\n' ∉ ("  " : Text) ++ label voice := not_mem_label voice _ (by decide)
  have hjoin : .char '\n' ∉ Text.join ", " (Run.texts compressed (tokens voice.name cells)) := by
    refine not_mem_join (by decide) ?_
    intro t ht
    exact (forall_texts compressed htokens t ht).2
  rw [line]
  simp only [List.mem_append, not_or] at hlabel ⊢
  exact ⟨⟨⟨⟨⟨hlabel, by decide⟩, hjoin⟩, by decide⟩, hrepeats.not_mem (by decide)⟩, by decide⟩

end Line

/-! ## Layouts -/

section Layout

variable {instrument : Text} {repeats : String} (compressed : Bool) {voices : Voices}
  (htokens : ∀ v, ∀ t ∈ tokens v.name (voices v), IsToken t) (hcells : ∀ v, voices v ≠ [])
  (hrepeats : IsWord repeats)

include htokens hcells hrepeats

/-- The entries of a program are read one by one, though a comma stands between them. -/
theorem tracks_entries (vs : List Voice) (hne : vs ≠ []) (behind : Text) :
    Reader.tracks (Text.join ",\n" (vs.map fun v => line repeats compressed v (voices v)) ++
        (("\n" : Text) ++ behind)) =
      (vs.map fun v => (⟨v.name, tokens v.name (voices v), repeats⟩ : Reader.Track)) ++ Reader.tracks behind := by
  -- behind the last line of a voice there is no comma, behind the others there is one
  induction vs with
  | nil => exact absurd rfl hne
  | cons v rest ih =>
    have hline := oneLine_line compressed (htokens v) hrepeats
    cases rest with
    | nil =>
      have htrack := track?_line compressed (htokens v) hrepeats (hcells v) []
      rw [List.append_nil] at htrack
      rw [List.map_singleton, Reader.join_singleton, tracks_line hline, htrack]
      rfl
    | cons w rest =>
      have hcomma : .char '\n' ∉ line repeats compressed v (voices v) ++ ("," : Text) := by
        rw [List.mem_append, not_or]
        exact ⟨hline, by decide⟩
      have hsplit : ∀ t : Text, (",\n" : Text) ++ t = ("," : Text) ++ (("\n" : Text) ++ t) := fun t => rfl
      have hrest := ih (by simp)
      rw [List.map_cons] at hrest
      rw [List.map_cons, List.map_cons, Reader.join_cons_cons, List.append_assoc, List.append_assoc, hsplit,
        ← List.append_assoc (line _ _ _ _), tracks_line hcomma,
        track?_line compressed (htokens v) hrepeats (hcells v), hrest]
      rfl

/-- A program is read back as its voices. -/
theorem tracks_layout (hinstrument : IsWord instrument) :
    Reader.tracks (layout instrument repeats compressed voices) =
      Voice.all.map fun v => ⟨v.name, tokens v.name (voices v), repeats⟩ := by
  have hhead : ∀ m ∈ ([.char '\n', .char '['] : Text),
      m ∉ ("  \\instrument, " : Text) ++ instrument ++ ("," : Text) := by
    have hfixed : ∀ m ∈ ([.char '\n', .char '['] : Text),
        m ∈ marks ∧ m ∉ ("  \\instrument, " : Text) ∧ m ∉ ("," : Text) := by decide
    intro m hm
    rcases hfixed m hm with ⟨hmark, hbefore, hbehind⟩
    simp only [List.mem_append, not_or]
    exact ⟨⟨hbefore, hinstrument.not_mem hmark⟩, hbehind⟩
  have hend : Reader.tracks ")" = [] := by
    rw [tracks_of_oneLine (by decide), Reader.track?_eq_none (by decide)]
    rfl
  have hentries := tracks_entries compressed htokens hcells hrepeats Voice.all (by decide)
  simp only [layout, Reader.join_cons_cons, Reader.join_singleton]
  -- line by line: the two that open the program, the instrument, the voices and the two that close it
  rw [tracks_other_line (by decide) (by decide), tracks_other_line (by decide) (by decide),
    tracks_other_line (hhead _ (by decide)) (hhead _ (by decide)), hentries,
    tracks_other_line (by decide) (by decide), hend, List.append_nil]

end Layout

end Barline.Program
