import Barline.Proofs.Double.Characters
import Barline.Proofs.Literal.RoundTrip
import Barline.Proofs.Program.Reader

/-!
# Words — texts without a mark

The layout of a program rests on six marks: four brackets, the comma and the line break. A *word* is a text that has
none of them, so that the reader passes over it. All numbers are written as words, and so are scales that have a
name.
-/

namespace Barline

namespace Program

/-! ## Marks -/

/-- The marks that lay a program out. -/
def marks : Text := "()[],\n"

/-- There is no mark in a text. -/
def IsWord (t : Text) : Prop :=
  ∀ c ∈ t, c ∉ marks

instance (t : Text) : Decidable (IsWord t) :=
  inferInstanceAs (Decidable (∀ c ∈ t, c ∉ marks))

variable {t u : Text} {c : CodePoint}

theorem IsWord.append (ht : IsWord t) (hu : IsWord u) : IsWord (t ++ u) :=
  List.forall_mem_append.2 ⟨ht, hu⟩

theorem IsWord.not_mem (ht : IsWord t) (hc : c ∈ marks) : c ∉ t := by
  intro hmem
  exact ht c hmem hc

theorem Reader.next_of_not_mem_marks {d : Nat} (h : c ∉ marks) : Reader.next d c = some d := by
  have hopens : Reader.opens c ≠ true := by
    intro hopens
    rcases Bool.or_eq_true_iff.1 hopens with hc | hc
    · exact h (of_decide_eq_true hc ▸ by decide)
    · exact h (of_decide_eq_true hc ▸ by decide)
  have hcloses : Reader.closes c ≠ true := by
    intro hcloses
    rcases Bool.or_eq_true_iff.1 hcloses with hc | hc
    · exact h (of_decide_eq_true hc ▸ by decide)
    · exact h (of_decide_eq_true hc ▸ by decide)
  rw [Reader.next, if_neg hopens, if_neg hcloses]

/-- A word is one piece. -/
theorem IsWord.isPiece (ht : IsWord t) : Reader.IsPiece t := by
  induction t with
  | nil => rfl
  | cons c t ih =>
    have hc : c ∉ marks := ht c (List.mem_cons_self ..)
    have hrest : Reader.IsPiece t := ih (fun d hd => ht d (List.mem_cons_of_mem c hd))
    refine Reader.depthAfter_cons_eq_some.2 ⟨?_, 0, Reader.next_of_not_mem_marks hc, hrest⟩
    -- the comma is a mark as well
    rintro ⟨_, rfl⟩
    exact hc (by decide)

/-! ## Numbers -/

/-- Whether a character may stand in the text of a number. -/
def numberCharacter (c : Char) : Bool :=
  c = '/' || Double.textCharacter c

theorem isWord_of_numberCharacter {s : String} (h : ∀ c ∈ s.toList, numberCharacter c = true) :
    IsWord s := by
  have hmarks : ∀ p ∈ marks, numberCharacter p.toChar = false := by decide
  intro p hp hmark
  rcases List.mem_map.1 hp with ⟨c, hc, rfl⟩
  have hfalse : numberCharacter c = false := hmarks _ hmark
  rw [h c hc] at hfalse
  exact absurd hfalse (by decide)

theorem numberCharacter_of_isDigit {c : Char} (h : c.isDigit = true) : numberCharacter c = true := by
  rw [numberCharacter, Double.textCharacter_of_isDigit h, Bool.or_true]

theorem numberCharacter_wholeChars (z : Int) : ∀ c ∈ Numeral.wholeChars z, numberCharacter c = true := by
  rw [Numeral.wholeChars, List.forall_mem_append]
  constructor
  · split
    · exact List.all_eq_true.1 (by decide)
    · simp
  · intro c hc
    exact numberCharacter_of_isDigit (Numeral.isDigit_of_mem_toDigits hc)

theorem numberCharacter_displayChars (q : Rat) :
    ∀ c ∈ Literal.displayChars q, numberCharacter c = true := by
  unfold Literal.displayChars
  split
  · exact numberCharacter_wholeChars q.num
  · rw [List.forall_mem_append, List.forall_mem_cons]
    refine ⟨numberCharacter_wholeChars q.num, by decide, ?_⟩
    intro c hc
    exact numberCharacter_of_isDigit (Numeral.isDigit_of_mem_toDigits hc)

theorem numberCharacter_toString (z : Int) : ∀ c ∈ (toString z).toList, numberCharacter c = true := by
  rw [Numeral.toList_toString]
  exact numberCharacter_wholeChars z

theorem numberCharacter_display (q : Rat) : ∀ c ∈ (Literal.display q).toList, numberCharacter c = true := by
  rw [Literal.toList_display]
  exact numberCharacter_displayChars q

/-- All numbers are written in the characters of numbers. -/
theorem numberCharacter_token (x : Number) : ∀ c ∈ x.token.toList, numberCharacter c = true := by
  cases x with
  | whole n => exact numberCharacter_toString n
  | ratio q => exact numberCharacter_display q
  | double d =>
    rw [Number.token]
    split
    · -- a double without a fraction loses its point
      exact numberCharacter_toString _
    · intro c hc
      rw [numberCharacter, Double.textCharacter_of_mem_text d c hc, Bool.or_true]

theorem isWord_toString (z : Int) : IsWord (toString z) :=
  isWord_of_numberCharacter (numberCharacter_toString z)

/-- All numbers are written as words. -/
theorem isWord_numberToken (x : Number) : IsWord (Number.token x) :=
  isWord_of_numberCharacter (numberCharacter_token x)

/-! ## Names -/

/-- Whether a code point is a letter or a digit of the English alphabet, or an underscore. -/
def nameCharacter : CodePoint → Bool
  | .char c => c.isAlphanum || c = '_'
  | .surrogate _ => false

/-- A text of letters, digits and underscores. -/
def IsName (t : Text) : Prop :=
  ∀ c ∈ t, nameCharacter c = true

instance (t : Text) : Decidable (IsName t) :=
  inferInstanceAs (Decidable (∀ c ∈ t, nameCharacter c = true))

theorem IsName.isWord (h : IsName t) : IsWord t := by
  have hmarks : ∀ c ∈ marks, nameCharacter c = false := by decide
  intro c hc hmark
  have hfalse := hmarks c hmark
  rw [h c hc] at hfalse
  exact absurd hfalse (by decide)

theorem isWord_scaleToken (h : IsName t) : IsWord (scaleToken (.text t)) := by
  have hscale : IsWord "Scale." := by decide
  exact hscale.append h.isWord

end Program

end Barline
