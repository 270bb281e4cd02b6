import Barline.Proofs.Program.Word
import Barline.Proofs.Run.RoundTrip
import Mathlib.Data.List.Basic

/-!
# Tokens — what stands in a list, as the reader sees it

The token of a cell is a word, a rest, or a chord of words in brackets. The reader takes each for one piece, and for
none that is a run. A run of such a token is one piece too, and written out it is the token again, as often as it was
there; so compressed or not, a list of tokens is read as it was.
-/

namespace Barline

namespace Program

/-- A text that the reader takes for one token: it is one piece, no run, and on one line. -/
structure IsToken (t : Text) : Prop where
  piece : Reader.IsPiece t
  single : Reader.writtenOut t = [t]
  oneLine : .char '\n' ∉ t

theorem not_mem_join {c : CodePoint} {between : Text} {ts : List Text} (hbetween : c ∉ between)
    (h : ∀ t ∈ ts, c ∉ t) : c ∉ Text.join between ts := by
  induction ts with
  | nil => simp [Text.join]
  | cons t rest ih =>
    have ht : c ∉ t := h t (List.mem_cons_self ..)
    cases rest with
    | nil => rwa [Reader.join_singleton]
    | cons u rest =>
      have hrest := ih (fun v hv => h v (List.mem_cons_of_mem t hv))
      rw [Reader.join_cons_cons]
      simp only [List.mem_append, not_or]
      exact ⟨ht, hbetween, hrest⟩

/-! ## Tokens of cells -/

theorem IsWord.isToken {t : Text} (h : IsWord t) : IsToken t := by
  refine ⟨h.isPiece, ?_, h.not_mem (by decide)⟩
  exact Reader.writtenOut_eq_singleton (h.not_mem (by decide))

theorem isToken_restToken : IsToken restToken :=
  ⟨rfl, rfl, by decide⟩

theorem isToken_chord {words : List Text} (h : ∀ w ∈ words, IsWord w) :
    IsToken ("[" ++ Text.join ", " words ++ "]") := by
  have hpieces : ∀ w ∈ words, Reader.IsPiece w := by
    intro w hw
    exact (h w hw).isPiece
  have hjoin : ∀ c ∈ marks, c ∉ (", " : Text) → c ∉ Text.join ", " words := by
    intro c hc hcomma
    refine not_mem_join hcomma ?_
    intro w hw
    exact (h w hw).not_mem hc
  -- the only marks are the two brackets and the commas, so it is neither a run nor on two lines
  have hparen : CodePoint.char '(' ∉ ("[" : Text) ++ Text.join ", " words ++ "]" := by
    simp only [List.mem_append, not_or]
    exact ⟨⟨by decide, hjoin _ (by decide) (by decide)⟩, by decide⟩
  have hline : CodePoint.char '\n' ∉ ("[" : Text) ++ Text.join ", " words ++ "]" := by
    simp only [List.mem_append, not_or]
    exact ⟨⟨by decide, hjoin _ (by decide) (by decide)⟩, by decide⟩
  have hbrackets : Reader.IsPiece (.char '[' :: (Text.join ", " words ++ [.char ']'])) :=
    Reader.isPiece_brackets rfl rfl (by decide) (Reader.depthAfter_join hpieces)
  exact ⟨hbrackets, Reader.writtenOut_eq_singleton hparen, hline⟩

/-- All values of a cell are written as words. -/
def WrittenInWords (item : Value → Text) : Cell → Prop
  | .rest => True
  | .value a => ∀ v ∈ a.values, IsWord (item v)

theorem isToken_cellToken {item : Value → Text} {cell : Cell} (h : WrittenInWords item cell) :
    IsToken (cellToken item cell) := by
  cases cell with
  | rest => exact isToken_restToken
  | value a =>
    cases a with
    | scalar v => exact (h v (List.mem_singleton.2 rfl)).isToken
    | chord vs =>
      refine isToken_chord ?_
      intro w hw
      rcases List.mem_map.1 hw with ⟨v, hv, rfl⟩
      exact h v hv

/-! ## Runs -/

section Run

variable {r : Run}

theorem run_text_eq (h : 1 < r.count) :
    r.text = ("Pn(" : Text) ++ (Text.join ", " [r.token, (toString r.count : String)] ++ [.char ')']) := by
  rw [Run.text, if_pos h, Reader.join_cons_cons, Reader.join_singleton]
  simp only [List.append_assoc]
  rfl

theorem natural?_toString {n : Int} (h : 0 ≤ n) :
    Numeral.natural? (Text.chars (toString n : String)) = some n.toNat := by
  have hchars : Text.chars (toString n : String) = Nat.toDigits 10 n.toNat := by
    have habs : n.natAbs = n.toNat := by omega
    rw [Text.ofString, Text.chars_ofChars, Numeral.toList_toString, Numeral.wholeChars, if_neg (not_lt.2 h), habs]
    rfl
  rw [hchars, Numeral.natural?_toDigits]

theorem isPiece_run_text (h : IsToken r.token) : Reader.IsPiece r.text := by
  by_cases hcount : 1 < r.count
  · rw [run_text_eq hcount]
    have hpieces : ∀ p ∈ [r.token, (toString r.count : String)], Reader.IsPiece p := by
      rw [List.forall_mem_cons, List.forall_mem_singleton]
      exact ⟨h.piece, (isWord_toString r.count).isPiece⟩
    have hname : Reader.IsPiece "Pn" := rfl
    have harguments := Reader.isPiece_brackets (a := .char '(') (b := .char ')') rfl rfl (by decide)
      (Reader.depthAfter_join hpieces)
    exact hname.append harguments
  · rw [Run.text, if_neg hcount]
    exact h.piece

theorem oneLine_run_text (h : IsToken r.token) : .char '\n' ∉ r.text := by
  rw [Run.text]
  split
  · simp only [List.mem_append, not_or]
    refine ⟨⟨⟨⟨by decide, h.oneLine⟩, by decide⟩, ?_⟩, by decide⟩
    exact (isWord_toString r.count).not_mem (by decide)
  · exact h.oneLine

/-- A run, written out, is its token as often as it counts. -/
theorem writtenOut_run_text (h : IsToken r.token) (hcount : 1 ≤ r.count) :
    Reader.writtenOut r.text = List.replicate r.count.toNat r.token := by
  by_cases hmany : 1 < r.count
  · -- the count is a word, so the comma in front of it is the only one outside the token
    rw [run_text_eq hmany]
    exact Reader.writtenOut_run h.piece (isWord_toString r.count).isPiece (natural?_toString (by omega))
  · have hone : r.count = 1 := by omega
    rw [Run.text, if_neg hmany, h.single, hone]
    rfl

end Run

/-! ## Lists of tokens -/

section Texts

variable {ts : List Text} (compressed : Bool) (h : ∀ t ∈ ts, IsToken t)

include h

theorem forall_texts :
    ∀ p ∈ Run.texts compressed ts, Reader.IsPiece p ∧ .char '\n' ∉ p := by
  intro p hp
  unfold Run.texts at hp
  split at hp
  · rcases List.mem_map.1 hp with ⟨r, hr, rfl⟩
    have htoken : IsToken r.token := h _ (Run.token_mem_of_mem_compress hr)
    exact ⟨isPiece_run_text htoken, oneLine_run_text htoken⟩
  · exact ⟨(h p hp).piece, (h p hp).oneLine⟩

/-- Compressed or not, a list of tokens is written out as it was. -/
theorem flatMap_writtenOut_texts : (Run.texts compressed ts).flatMap Reader.writtenOut = ts := by
  cases compressed with
  | true =>
    have hruns : ∀ r ∈ Run.compress ts,
        Reader.writtenOut r.text = List.replicate r.count.toNat r.token := by
      intro r hr
      exact writtenOut_run_text (h _ (Run.token_mem_of_mem_compress hr)) (Run.count_compress ts r hr)
    calc (Run.texts true ts).flatMap Reader.writtenOut
        = (Run.compress ts).flatMap fun r => Reader.writtenOut r.text := List.flatMap_map ..
      _ = Run.expand (Run.compress ts) := List.flatMap_congr hruns
      _ = ts := Run.expand_compress ts
  | false =>
    calc ts.flatMap Reader.writtenOut = ts.flatMap fun t => [t] :=
          List.flatMap_congr fun t ht => (h t ht).single
      _ = ts := List.flatMap_singleton' ts

theorem texts_ne_nil (hne : ts ≠ []) : Run.texts compressed ts ≠ [] := by
  intro hnil
  have hts := flatMap_writtenOut_texts compressed h
  rw [hnil] at hts
  exact hne hts.symm

end Texts

end Program

end Barline
