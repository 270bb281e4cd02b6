import Barline.Proofs.Double.RoundTrip
import Barline.Proofs.Numeral.Grammar

/-!
# Literals by their grammar — what is read as a rational number

A literal is a quotient of two digit groups, or a decimal with an optional exponent, with an optional sign in front.
`Spells` says so without any reading, and with which value; `DividesByZero` is the one shape that has no value.
`form?_eq_some_iff` says which texts have which form, and `literals_follow_grammar` that a text is read exactly if it
spells a number, as that number, and what is said of any other.
-/

namespace Barline.Literal

open Numeral

/-! ## Spellings -/

/-- A literal, and the number that it spells. -/
inductive Spells : List Char → Rat → Prop where
  /-- A quotient of two digit groups, of which the second is not zero. -/
  | quotient {sign upper lower : List Char} {s : Int} {ns ds : List Nat} (hs : Sign sign s)
      (hn : DigitGroup upper ns) (hd : DigitGroup lower ds) (hne : placeValue ds ≠ 0) :
      Spells (sign ++ (upper ++ '/' :: lower)) (s * (placeValue ns / placeValue ds))
  /-- Digits, some of them behind a point, scaled by a power of ten. -/
  | decimal {sign mantissa tail : List Char} {s e : Int} {ds fs : List Nat} (hs : Sign sign s)
      (hm : Mantissa mantissa ds fs) (he : Exponent tail e) :
      Spells (sign ++ (mantissa ++ tail)) (s * ((placeValue ds + placeValue fs / 10 ^ fs.length) * 10 ^ e))

/-- A quotient of two digit groups, of which the second is zero. -/
inductive DividesByZero : List Char → Prop where
  | quotient {sign upper lower : List Char} {s : Int} {ns ds : List Nat} (hs : Sign sign s)
      (hn : DigitGroup upper ns) (hd : DigitGroup lower ds) (hzero : placeValue ds = 0) :
      DividesByZero (sign ++ (upper ++ '/' :: lower))

/-! ## Forms -/

/-- The form of a spelling, before it is given a value. -/
inductive HasForm : List Char → Form → Prop where
  | quotient {sign upper lower : List Char} {s : Int} {ns ds : List Nat} (hs : Sign sign s)
      (hn : DigitGroup upper ns) (hd : DigitGroup lower ds) :
      HasForm (sign ++ (upper ++ '/' :: lower)) (.quotient (s * placeValue ns) (placeValue ds))
  | decimal {sign mantissa tail : List Char} {s e : Int} {ds fs : List Nat} (hs : Sign sign s)
      (hm : Mantissa mantissa ds fs) (he : Exponent tail e) :
      HasForm (sign ++ (mantissa ++ tail)) (.decimal ⟨decide (s < 0), ofDigits (ds ++ fs), e - fs.length⟩)

variable {cs : List Char} {f : Form}

theorem form?_of_hasForm (h : HasForm cs f) : form? cs = some f := by
  cases h with
  | @quotient _ upper lower _ _ _ hs hn hd =>
    have hmarks : ∀ c ∈ upper, decide (c = '/') = false :=
      fun c hc => decide_eq_false (hn.ne (by decide) (by decide) c hc)
    rw [form?, hs.splitSign_append (hn.unsigned_append ('/' :: lower))]
    simp only [cutAt_eq_some hmarks (by decide : decide ('/' = '/') = true), natural?_eq_some_iff.2 ⟨_, hn, rfl⟩,
      natural?_eq_some_iff.2 ⟨_, hd, rfl⟩, Option.bind_eq_bind, Option.bind_some, hs.signed_eq]
  | @decimal _ mantissa tail _ _ _ _ hs hm he =>
    have hmarks : ∀ c ∈ mantissa ++ tail, decide (c = '/') = false := by
      refine List.forall_mem_append.2 ⟨?_, ?_⟩
      · intro c hc
        exact decide_eq_false (hm.ne (by decide) (by decide) (by decide) c hc)
      · intro c hc
        refine decide_eq_false ?_
        rintro rfl
        exact he.slash_not_mem hc
    rw [form?, hs.splitSign_append (hm.unsigned_append tail)]
    simp only [cutAt_eq_none hmarks, Decimal.unsigned?_eq_some_iff.2 ⟨_, _, _, _, _, hm, he, rfl, rfl⟩, Option.map_some]

theorem hasForm_of_form? (h : form? cs = some f) : HasForm cs f := by
  obtain ⟨sign, s, hs, hcs, hnegative⟩ := exists_sign_of_splitSign cs
  cases hsplit : splitSign cs with
  | mk negative body =>
    rw [hsplit] at hcs hnegative
    obtain rfl : negative = decide (s < 0) := hnegative
    obtain rfl : cs = sign ++ body := hcs
    rw [form?, hsplit] at h
    cases hcut : cutAt (fun c => decide (c = '/')) body with
    | mk upper lower =>
      simp only [hcut] at h
      -- with a slash it can only be a quotient, and without one only a decimal
      cases lower with
      | some lower =>
        obtain ⟨n, hn, h⟩ := Option.bind_eq_some_iff.1 h
        obtain ⟨d, hd, h⟩ := Option.bind_eq_some_iff.1 h
        obtain rfl := Option.some.inj h
        obtain ⟨m, hm, rfl⟩ := exists_mark_of_cutAt_eq_some hcut
        obtain rfl : m = '/' := of_decide_eq_true hm
        obtain ⟨ns, hns, rfl⟩ := natural?_eq_some_iff.1 hn
        obtain ⟨ds, hds, rfl⟩ := natural?_eq_some_iff.1 hd
        rw [hs.signed_eq]
        exact .quotient hs hns hds
      | none =>
        obtain ⟨x, hx, rfl⟩ := Option.map_eq_some_iff.1 h
        obtain ⟨mantissa, tail, ds, fs, e, hm, he, rfl, rfl⟩ := Decimal.unsigned?_eq_some_iff.1 hx
        exact .decimal hs hm he

/-- The form that is read is the form of the spelling. -/
theorem form?_eq_some_iff : form? cs = some f ↔ HasForm cs f :=
  ⟨hasForm_of_form?, form?_of_hasForm⟩

/-! ## Values -/

theorem value?_decimal {sign : List Char} {s e : Int} {ds fs : List Nat} (hs : Sign sign s) :
    (Form.decimal ⟨decide (s < 0), ofDigits (ds ++ fs), e - fs.length⟩).value? =
      some (s * ((placeValue ds + placeValue fs / 10 ^ fs.length) * 10 ^ e) : Rat) := by
  have hsign : (if decide (s < 0) = true then -1 else 1 : Rat) = s := by
    cases hs <;> norm_num
  -- the digits of both sides make one number, which is scaled down by those behind the point
  have hdigits : (ofDigits (ds ++ fs) * 10 ^ (e - fs.length) : Rat) =
      (placeValue ds + placeValue fs / 10 ^ fs.length) * 10 ^ e := by
    have hpower : (10 : Rat) ^ fs.length ≠ 0 := by positivity
    rw [ofDigits_eq_placeValue, placeValue_append, zpow_sub₀ (by norm_num), zpow_natCast]
    push_cast
    field_simp
  rw [Form.value?, Decimal.toRat_eq]
  simp only [hsign, hdigits]

theorem value?_quotient (s : Int) (ns ds : List Nat) (hne : placeValue ds ≠ 0) :
    (Form.quotient (s * placeValue ns) (placeValue ds)).value? = some (s * (placeValue ns / placeValue ds) : Rat) := by
  rw [Form.value?, if_neg hne, Rat.mkRat_eq_div]
  push_cast
  rw [mul_div_assoc]

theorem spells_iff {q : Rat} : Spells cs q ↔ ∃ f, form? cs = some f ∧ f.value? = some q := by
  simp only [form?_eq_some_iff]
  constructor
  · intro h
    cases h with
    | quotient hs hn hd hne => exact ⟨_, .quotient hs hn hd, value?_quotient _ _ _ hne⟩
    | decimal hs hm he => exact ⟨_, .decimal hs hm he, value?_decimal hs⟩
  · rintro ⟨f, hf, hvalue⟩
    cases hf with
    | @quotient _ _ _ s ns ds hs hn hd =>
      by_cases hzero : placeValue ds = 0
      · simp [Form.value?, hzero] at hvalue
      · rw [value?_quotient s ns ds hzero] at hvalue
        obtain rfl := Option.some.inj hvalue
        exact .quotient hs hn hd hzero
    | decimal hs hm he =>
      rw [value?_decimal hs] at hvalue
      obtain rfl := Option.some.inj hvalue
      exact .decimal hs hm he

theorem dividesByZero_iff : DividesByZero cs ↔ ∃ f, form? cs = some f ∧ f.value? = none := by
  simp only [form?_eq_some_iff]
  constructor
  · rintro ⟨hs, hn, hd, hzero⟩
    exact ⟨_, .quotient hs hn hd, if_pos hzero⟩
  · rintro ⟨f, hf, hvalue⟩
    cases hf with
    | @quotient _ _ _ s ns ds hs hn hd =>
      by_cases hzero : placeValue ds = 0
      · exact .quotient hs hn hd hzero
      · simp [Form.value?, hzero] at hvalue
    | decimal hs hm he => cases hvalue

/-! ## Outcomes -/

section Outcomes

variable {t : Text} {q : Rat}

theorem parse_of_form?_eq_none (h : form? t.trimmed = none) :
    parse t = .error .emptyText ∨ parse t = .error (.malformed t) := by
  by_cases hempty : t.trimmed.isEmpty = true
  · exact Or.inl (if_pos hempty)
  · right
    rw [parse, if_neg hempty]
    simp only [h]

theorem parse_of_form?_eq_some (h : form? t.trimmed = some f) :
    parse t = (f.value?.elim (.error (.zeroDenominator t)) .ok) := by
  have hne : t.trimmed.isEmpty = false := by
    rcases hcs : t.trimmed with _ | ⟨c, cs⟩
    · rw [hcs] at h
      cases h
    · rfl
  rw [parse, if_neg (by simp [hne])]
  simp only [h]
  cases f.value? <;> rfl

theorem parse_eq_ok_iff : parse t = .ok q ↔ Spells t.trimmed q := by
  rw [spells_iff]
  cases hform : form? t.trimmed with
  | none => rcases parse_of_form?_eq_none hform with h | h <;> simp [h]
  | some f =>
    rw [parse_of_form?_eq_some hform]
    cases hvalue : f.value? <;> simp [hvalue]

theorem parse_eq_zeroDenominator_iff : parse t = .error (.zeroDenominator t) ↔ DividesByZero t.trimmed := by
  rw [dividesByZero_iff]
  cases hform : form? t.trimmed with
  | none => rcases parse_of_form?_eq_none hform with h | h <;> simp [h]
  | some f =>
    rw [parse_of_form?_eq_some hform]
    cases hvalue : f.value? <;> simp [hvalue]

/-- A text that spells no number is refused, for one of three causes. -/
theorem refused_iff : (parse t = .error .emptyText ∨ parse t = .error (.zeroDenominator t) ∨
    parse t = .error (.malformed t)) ↔ ∀ q, ¬ Spells t.trimmed q := by
  simp only [← parse_eq_ok_iff]
  constructor
  · rintro h q hq
    rcases h with h | h | h <;> cases h.symm.trans hq
  · intro h
    cases hform : form? t.trimmed with
    | none =>
      rcases parse_of_form?_eq_none hform with hparse | hparse
      · exact Or.inl hparse
      · exact Or.inr (Or.inr hparse)
    | some f =>
      have hparse := parse_of_form?_eq_some hform
      cases hvalue : f.value? with
      | none => exact Or.inr (Or.inl (by rw [hparse, hvalue]; rfl))
      | some q => exact absurd (by rw [hparse, hvalue]; rfl) (h q)

/-- What is written first decides the first letter. -/
theorem head?_toList_append {s : String} {c : Char} (h : s.toList.head? = some c) (u : String) :
    (s ++ u).toList.head? = some c := by
  rw [String.toList_append, List.head?_append, h]
  rfl

/-- The wordings of the causes begin with different letters, so each is said of its own cause only. -/
theorem zeroDenominator_of_message {e : LiteralError} (h : parse t = .error e)
    (hmessage : e.message = "Zero denominator in " ++ Text.quoted t) : e = .zeroDenominator t := by
  have hletter : e.message.toList.head? = some 'Z' := hmessage ▸ head?_toList_append (by decide) _
  have hrefused : ∀ q, ¬ Spells t.trimmed q := by
    intro q hq
    cases h.symm.trans (parse_eq_ok_iff.2 hq)
  rcases refused_iff.2 hrefused with hparse | hparse | hparse
  · obtain rfl := Except.error.inj (h.symm.trans hparse)
    exact absurd hletter (by decide)
  · exact Except.error.inj (h.symm.trans hparse)
  · obtain rfl := Except.error.inj (h.symm.trans hparse)
    have hother : (LiteralError.malformed t).message.toList.head? = some 'I' :=
      head?_toList_append (head?_toList_append (by decide) _) _
    rw [hother] at hletter
    exact absurd hletter (by decide)

end Outcomes

/-- Literals follow the grammar. A text is read exactly if it spells a number between its blanks, and then as that
number; within the limit on digit groups it makes no difference. Any other text is refused, and for a denominator of
zero exactly if it is a quotient of two digit groups of which the second is zero. -/
theorem literals_follow_grammar (t : Text) :
    (∀ q, parse t = .ok q ↔ Spells t.trimmed q) ∧
      (∀ q, read t = .ok q ↔ Spells t.trimmed q ∧ groupsFit t.trimmed = true) ∧
      ((parse t = .error .emptyText ∨ parse t = .error (.zeroDenominator t) ∨ parse t = .error (.malformed t)) ↔
        ∀ q, ¬ Spells t.trimmed q) ∧
      ((∃ e, parse t = .error e ∧ e.message = "Zero denominator in " ++ Text.quoted t) ↔
        DividesByZero t.trimmed) := by
  refine ⟨fun q => parse_eq_ok_iff, ?_, refused_iff, ?_⟩
  · intro q
    rw [read, ← parse_eq_ok_iff]
    split
    case isTrue hfit => simp [hfit]
    case isFalse hfit => simp [hfit]
  · rw [← parse_eq_zeroDenominator_iff]
    constructor
    · rintro ⟨e, hparse, hmessage⟩
      rw [hparse, zeroDenominator_of_message hparse hmessage]
    · intro hparse
      exact ⟨_, hparse, rfl⟩

example : parse " -1_0.e-1 " = .ok (-1) ∧ parse "1_/2" = .error (.malformed "1_/2") := ⟨rfl, rfl⟩

end Barline.Literal
