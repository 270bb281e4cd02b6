import Barline.Double.Printer
import Barline.Proofs.Numeral.Digits

/-!
# The characters of doubles

However a double is laid out, its text is made of digits, points, signs and the letters of an exponent, an infinity
or what is not a number. `textCharacter_of_mem_text` says so.
-/

namespace Barline.Double

/-- Whether a character may stand in the text of a double. -/
def textCharacter (c : Char) : Bool :=
  c.isDigit || ['.', '+', '-', 'e', 'i', 'n', 'f', 'a'].contains c

theorem textCharacter_of_isDigit {c : Char} (h : c.isDigit = true) : textCharacter c = true := by
  rw [textCharacter, h, Bool.true_or]

namespace Layout

variable {digits : List Char} (h : ∀ c ∈ digits, textCharacter c = true)

theorem textCharacter_replicate (n : Nat) : ∀ c ∈ List.replicate n '0', textCharacter c = true := by
  intro c hc
  rw [List.eq_of_mem_replicate hc]
  decide

theorem textCharacter_toDigits (n : Nat) : ∀ c ∈ Nat.toDigits 10 n, textCharacter c = true := by
  intro c hc
  exact textCharacter_of_isDigit (Numeral.isDigit_of_mem_toDigits hc)

include h

theorem textCharacter_positional (point : Int) : ∀ c ∈ positional digits point, textCharacter c = true := by
  unfold positional
  split
  · simp only [List.forall_mem_cons, List.forall_mem_append]
    exact ⟨by decide, by decide, textCharacter_replicate _, h⟩
  · simp only
    split
    · simp only [List.forall_mem_append]
      exact ⟨⟨h, textCharacter_replicate _⟩, List.all_eq_true.1 (by decide)⟩
    · simp only [List.forall_mem_cons, List.forall_mem_append]
      refine ⟨?_, by decide, ?_⟩
      · intro c hc
        exact h c (List.mem_of_mem_take hc)
      · intro c hc
        exact h c (List.mem_of_mem_drop hc)

omit h in
theorem textCharacter_exponentText (l : Layout) (e : Int) :
    ∀ c ∈ l.exponentText e, textCharacter c = true := by
  simp only [exponentText, List.forall_mem_cons, List.forall_mem_append]
  refine ⟨?_, textCharacter_replicate _, textCharacter_toDigits _⟩
  split <;> decide

theorem textCharacter_scientific (l : Layout) (e : Int) :
    ∀ c ∈ l.scientific digits e, textCharacter c = true := by
  simp only [scientific, List.forall_mem_cons, List.forall_mem_append]
  refine ⟨⟨?_, ?_⟩, by decide, textCharacter_exponentText l e⟩
  · intro c hc
    exact h c (List.mem_of_mem_take hc)
  · split
    · simp
    · rw [List.forall_mem_cons]
      refine ⟨by decide, ?_⟩
      intro c hc
      exact h c (List.mem_of_mem_drop hc)

omit h in
theorem textCharacter_expansion (l : Layout) (x : Expansion) :
    ∀ c ∈ l.expansion x, textCharacter c = true := by
  have hdigits : ∀ c ∈ significant (Nat.toDigits 10 x.digits), textCharacter c = true := by
    intro c hc
    have hreverse := (List.dropWhile_sublist _).subset (List.mem_reverse.1 hc)
    exact textCharacter_toDigits _ c (List.mem_reverse.1 hreverse)
  unfold expansion
  simp only
  split
  · exact textCharacter_positional hdigits _
  · exact textCharacter_scientific hdigits l _

end Layout

theorem textCharacter_magnitudeText (rank : Nat) : ∀ c ∈ magnitudeText rank, textCharacter c = true := by
  unfold magnitudeText
  split
  · exact List.all_eq_true.1 (by decide)
  · exact Layout.textCharacter_expansion layout _

theorem textCharacter_of_mem_text (d : Double) : ∀ c ∈ d.text.toList, textCharacter c = true := by
  cases d with
  | nan => exact List.all_eq_true.1 (by decide)
  | infinite negative =>
    cases negative with
    | false => exact List.all_eq_true.1 (by decide)
    | true => exact List.all_eq_true.1 (by decide)
  | finite negative rank =>
    rw [text, String.toList_ofList]
    split
    · rw [List.forall_mem_cons]
      exact ⟨by decide, textCharacter_magnitudeText rank⟩
    · exact textCharacter_magnitudeText rank

end Barline.Double
