import Barline.Proofs.Numeral.Digits
import Mathlib.Data.Nat.Digits.Lemmas

/-!
# Grammar — the spellings of digit groups, whole numbers and decimals

The readers of numerals cut a text at marks and go through the pieces from the left. The relations here say instead how
spellings are put together, and what they denote, without any reading: a group of digits, an optional sign before it, an
optional exponent behind it, a point in it. For each of them one lemma says that the reader and the relation agree on
every text.

* `digits?_eq_some_iff` and `whole?_eq_some_iff` are about digit groups and whole numbers.
* `Decimal.unsigned?_eq_some_iff` is about decimals, with `DigitGroup.ne` for the marks between their parts.
* `isWritable_of_wholeText?` compares the limit on what is read with that on what is written.
-/

namespace Barline.Numeral

/-! ## Digit groups -/

/-- One or more decimal digits of any script with single underscores between some of them, and the values of the
digits. -/
inductive DigitGroup : List Char → List Nat → Prop where
  | last {c : Char} {d : Nat} (h : Text.digitValue? c = some d) : DigitGroup [c] [d]
  | next {c : Char} {d : Nat} {cs : List Char} {ds : List Nat} (h : Text.digitValue? c = some d)
      (rest : DigitGroup cs ds) : DigitGroup (c :: cs) (d :: ds)
  | underscore {c : Char} {d : Nat} {cs : List Char} {ds : List Nat} (h : Text.digitValue? c = some d)
      (rest : DigitGroup cs ds) : DigitGroup (c :: '_' :: cs) (d :: ds)

/-- The number that digits denote by their places, the last of them being the ones. -/
def placeValue (ds : List Nat) : Nat :=
  Nat.ofDigits 10 ds.reverse

theorem ofDigits_eq_placeValue (ds : List Nat) : ofDigits ds = placeValue ds := by
  rw [ofDigits, placeValue, Nat.ofDigits_eq_foldr, List.foldr_reverse]
  congr 1
  funext n d
  exact Nat.add_comm _ _

/-- Digits in front of others count as often as there are numerals of that length. -/
theorem placeValue_append (ds fs : List Nat) :
    placeValue (ds ++ fs) = placeValue ds * 10 ^ fs.length + placeValue fs := by
  rw [placeValue, List.reverse_append, Nat.ofDigits_append, List.length_reverse, Nat.add_comm, Nat.mul_comm]
  rfl

namespace DigitGroup

variable {cs : List Char} {ds : List Nat}

theorem ne_nil (h : DigitGroup cs ds) : cs ≠ [] := by
  cases h <;> simp

/-- A group consists of digits and underscores. -/
theorem isDigit_or_underscore (h : DigitGroup cs ds) : ∀ c ∈ cs, Text.isDigit c = true ∨ c = '_' := by
  induction h with
  | last hc => simp [Text.isDigit, hc]
  | next hc _ ih => simpa [Text.isDigit, hc] using ih
  | underscore hc _ ih => simpa [Text.isDigit, hc] using ih

/-- No mark stands in a group. -/
theorem ne (h : DigitGroup cs ds) {m : Char} (hm : Text.isDigit m = false) (hm' : m ≠ '_') : ∀ c ∈ cs, c ≠ m := by
  rintro c hc rfl
  rcases h.isDigit_or_underscore c hc with hdigit | hunderscore
  · rw [hm] at hdigit
    exact absurd hdigit (by decide)
  · exact hm' hunderscore

/-- A group begins with a digit. -/
theorem exists_head (h : DigitGroup cs ds) : ∃ c rest, cs = c :: rest ∧ Text.isDigit c = true := by
  cases h with
  | last hc => exact ⟨_, _, rfl, by rw [Text.isDigit, hc]; rfl⟩
  | next hc _ => exact ⟨_, _, rfl, by rw [Text.isDigit, hc]; rfl⟩
  | underscore hc _ => exact ⟨_, _, rfl, by rw [Text.isDigit, hc]; rfl⟩

theorem digits?_eq (h : DigitGroup cs ds) : digits? cs = some ds := by
  induction h with
  | last hc => rw [digits?, hc]; rfl
  | @next c d cs ds hc hrest ih =>
    -- what follows begins with a digit, so this is not an underscore in between
    obtain ⟨c', cs', rfl, hc'⟩ := hrest.exists_head
    have hother : c' ≠ '_' := by
      rintro rfl
      exact absurd hc' (by decide)
    rw [digits?, hc, ih]
    · rfl
    · simp
    · simpa using hother
  | underscore hc _ ih => rw [digits?, hc, ih]; rfl

end DigitGroup

theorem digitGroup_of_digits? {cs : List Char} {ds : List Nat} (h : digits? cs = some ds) : DigitGroup cs ds := by
  fun_induction digits? cs generalizing ds with
  | case1 => cases h
  | case2 c =>
    obtain ⟨d, hd, rfl⟩ := Option.map_eq_some_iff.1 h
    exact .last hd
  | case3 c rest ih =>
    obtain ⟨d, hd, h⟩ := Option.bind_eq_some_iff.1 h
    obtain ⟨fs, hfs, h⟩ := Option.bind_eq_some_iff.1 h
    obtain rfl := Option.some.inj h
    exact .underscore hd (ih hfs)
  | case4 c rest _ _ ih =>
    obtain ⟨d, hd, h⟩ := Option.bind_eq_some_iff.1 h
    obtain ⟨fs, hfs, h⟩ := Option.bind_eq_some_iff.1 h
    obtain rfl := Option.some.inj h
    exact .next hd (ih hfs)

/-- Exactly the groups of digits are read as such. -/
theorem digits?_eq_some_iff {cs : List Char} {ds : List Nat} : digits? cs = some ds ↔ DigitGroup cs ds :=
  ⟨digitGroup_of_digits?, DigitGroup.digits?_eq⟩

theorem natural?_eq_some_iff {cs : List Char} {n : Nat} :
    natural? cs = some n ↔ ∃ ds, DigitGroup cs ds ∧ placeValue ds = n := by
  simp only [natural?, Option.map_eq_some_iff, digits?_eq_some_iff, ofDigits_eq_placeValue]

/-! ## Whole numbers -/

/-- An optional sign, and the factor that it stands for. -/
inductive Sign : List Char → Int → Prop where
  | none : Sign [] 1
  | plus : Sign ['+'] 1
  | minus : Sign ['-'] (-1)

/-- What does not begin with a sign. -/
def Unsigned (body : List Char) : Prop :=
  body.head? ≠ some '+' ∧ body.head? ≠ some '-'

namespace Sign

variable {sign body : List Char} {s : Int}

theorem signed_eq (h : Sign sign s) (n : Nat) : signed (decide (s < 0)) n = s * n := by
  cases h <;> simp [signed]

theorem slash_not_mem (h : Sign sign s) : '/' ∉ sign := by
  cases h <;> decide

/-- A sign is split off what does not begin with another. -/
theorem splitSign_append (h : Sign sign s) (hbody : Unsigned body) :
    splitSign (sign ++ body) = (decide (s < 0), body) := by
  cases h with
  | none =>
    rw [List.nil_append, splitSign]
    · rfl
    · rintro rest rfl
      exact hbody.1 rfl
    · rintro rest rfl
      exact hbody.2 rfl
  | plus => rfl
  | minus => rfl

end Sign

theorem exists_sign_of_splitSign (cs : List Char) :
    ∃ sign s, Sign sign s ∧ cs = sign ++ (splitSign cs).2 ∧ (splitSign cs).1 = decide (s < 0) := by
  fun_cases splitSign cs with
  | case1 rest => exact ⟨_, _, .plus, rfl, rfl⟩
  | case2 rest => exact ⟨_, _, .minus, rfl, rfl⟩
  | case3 => exact ⟨_, _, .none, rfl, rfl⟩

/-- A digit group with an optional sign, and the number that it denotes. -/
inductive Whole : List Char → Int → Prop where
  | signed {sign group : List Char} {s : Int} {ds : List Nat} (hs : Sign sign s) (hd : DigitGroup group ds) :
      Whole (sign ++ group) (s * placeValue ds)

theorem DigitGroup.unsigned_append {cs : List Char} {ds : List Nat} (h : DigitGroup cs ds) (after : List Char) :
    Unsigned (cs ++ after) := by
  obtain ⟨c, rest, rfl, hc⟩ := h.exists_head
  refine ⟨?_, ?_⟩
  · rintro heq
    obtain rfl := Option.some.inj heq
    exact absurd hc (by decide)
  · rintro heq
    obtain rfl := Option.some.inj heq
    exact absurd hc (by decide)

/-- Exactly the signed groups of digits are read as whole numbers. -/
theorem whole?_eq_some_iff {cs : List Char} {z : Int} : whole? cs = some z ↔ Whole cs z := by
  constructor
  · intro h
    obtain ⟨sign, s, hs, hcs, hnegative⟩ := exists_sign_of_splitSign cs
    have hbody : (natural? (splitSign cs).2).map (signed (splitSign cs).1) = some z := h
    obtain ⟨n, hn, rfl⟩ := Option.map_eq_some_iff.1 hbody
    obtain ⟨ds, hds, rfl⟩ := natural?_eq_some_iff.1 hn
    rw [hnegative, hs.signed_eq, hcs]
    exact .signed hs hds
  · rintro ⟨hs, hd⟩
    have hgroup := hd.unsigned_append []
    rw [List.append_nil] at hgroup
    rw [whole?, hs.splitSign_append hgroup]
    simp only [natural?_eq_some_iff.2 ⟨_, hd, rfl⟩, Option.map_some, hs.signed_eq]

theorem Whole.slash_not_mem {cs : List Char} {z : Int} (h : Whole cs z) : '/' ∉ cs := by
  obtain ⟨hs, hd⟩ := h
  intro hmem
  rcases List.mem_append.1 hmem with hsign | hgroup
  · exact hs.slash_not_mem hsign
  · exact hd.ne (by decide) (by decide) _ hgroup rfl

/-! ## Marks -/

section CutAt

variable {mark : Char → Bool} {cs before after : List Char}

theorem eq_of_cutAt_eq_none (h : cutAt mark cs = (before, none)) : cs = before := by
  induction cs generalizing before with
  | nil => exact (Prod.mk.inj h).1
  | cons c rest ih =>
    rw [cutAt] at h
    split at h
    · cases (Prod.mk.inj h).2
    · cases hrest : cutAt mark rest with
      | mk upTo behind =>
        rw [hrest] at h
        obtain ⟨rfl, rfl⟩ := Prod.mk.inj h
        rw [ih hrest]

theorem exists_mark_of_cutAt_eq_some (h : cutAt mark cs = (before, some after)) :
    ∃ m, mark m = true ∧ cs = before ++ m :: after := by
  induction cs generalizing before with
  | nil => cases (Prod.mk.inj h).2
  | cons c rest ih =>
    rw [cutAt] at h
    split at h
    case isTrue hmark =>
      obtain ⟨rfl, hsome⟩ := Prod.mk.inj h
      obtain rfl := Option.some.inj hsome
      exact ⟨c, hmark, rfl⟩
    case isFalse =>
      cases hrest : cutAt mark rest with
      | mk upTo behind =>
        rw [hrest] at h
        obtain ⟨rfl, rfl⟩ := Prod.mk.inj h
        obtain ⟨m, hm, heq⟩ := ih hrest
        exact ⟨m, hm, by rw [heq, List.cons_append]⟩

end CutAt

/-! ## Decimals -/

/-- An optional exponent behind the letter e of either case, and the number that it denotes. -/
inductive Exponent : List Char → Int → Prop where
  | none : Exponent [] 0
  | marked {m : Char} {cs : List Char} {z : Int} (hm : m = 'e' ∨ m = 'E') (h : Whole cs z) : Exponent (m :: cs) z

/-- There is no slash in an exponent. -/
theorem Exponent.slash_not_mem {cs : List Char} {e : Int} (h : Exponent cs e) : '/' ∉ cs := by
  cases h with
  | none => simp
  | @marked m _ _ hm h =>
    intro hmem
    rcases List.mem_cons.1 hmem with rfl | hmem
    · exact absurd hm (by decide)
    · exact h.slash_not_mem hmem

/-- A digit group with an optional point in front of it, in it or behind it, and the values of the digits on the two
sides of the point. -/
inductive Mantissa : List Char → List Nat → List Nat → Prop where
  | whole {cs : List Char} {ds : List Nat} (h : DigitGroup cs ds) : Mantissa cs ds []
  | pointBehind {cs : List Char} {ds : List Nat} (h : DigitGroup cs ds) : Mantissa (cs ++ ['.']) ds []
  | pointWithin {cs fractionChars : List Char} {ds fs : List Nat} (h : DigitGroup cs ds)
      (h' : DigitGroup fractionChars fs) : Mantissa (cs ++ '.' :: fractionChars) ds fs
  | pointBefore {fractionChars : List Char} {fs : List Nat} (h : DigitGroup fractionChars fs) :
      Mantissa ('.' :: fractionChars) [] fs

namespace Mantissa

variable {cs : List Char} {ds fs : List Nat}

theorem unsigned_append (h : Mantissa cs ds fs) (after : List Char) : Unsigned (cs ++ after) := by
  cases h with
  | whole h => exact h.unsigned_append after
  | pointBehind h => simpa using h.unsigned_append ('.' :: after)
  | @pointWithin _ gs _ _ h _ => simpa using h.unsigned_append ('.' :: (gs ++ after))
  | pointBefore h => exact ⟨by simp, by simp⟩

/-- Between the digits and underscores of a mantissa only a point may stand. -/
theorem ne (h : Mantissa cs ds fs) {m : Char} (hm : Text.isDigit m = false) (hm' : m ≠ '_') (hpoint : '.' ≠ m) :
    ∀ c ∈ cs, c ≠ m := by
  cases h with
  | whole h => exact h.ne hm hm'
  | pointBehind h => exact List.forall_mem_append.2 ⟨h.ne hm hm', List.forall_mem_singleton.2 hpoint⟩
  | pointWithin h h' =>
    exact List.forall_mem_append.2 ⟨h.ne hm hm', List.forall_mem_cons.2 ⟨hpoint, h'.ne hm hm'⟩⟩
  | pointBefore h => exact List.forall_mem_cons.2 ⟨hpoint, h.ne hm hm'⟩

end Mantissa

namespace Decimal

variable {cs : List Char} {ds fs : List Nat}

theorem mantissa_of_parts? (h : parts? (cutAt (fun c => decide (c = '.')) cs) = some (ds, fs)) :
    Mantissa cs ds fs := by
  cases hcut : cutAt (fun c => decide (c = '.')) cs with
  | mk before after =>
    rw [hcut] at h
    cases after with
    | none =>
      obtain rfl := eq_of_cutAt_eq_none hcut
      obtain ⟨_, hds, heq⟩ := Option.map_eq_some_iff.1 h
      obtain ⟨rfl, rfl⟩ := Prod.mk.inj heq
      exact .whole (digits?_eq_some_iff.1 hds)
    | some after =>
      obtain ⟨m, hm, rfl⟩ := exists_mark_of_cutAt_eq_some hcut
      obtain rfl : m = '.' := of_decide_eq_true hm
      -- digits may be missing on one side of the point, but not on both
      cases before with
      | nil =>
        obtain ⟨_, hfs, heq⟩ := Option.map_eq_some_iff.1 h
        obtain ⟨rfl, rfl⟩ := Prod.mk.inj heq
        exact .pointBefore (digits?_eq_some_iff.1 hfs)
      | cons c before =>
        cases after with
        | nil =>
          obtain ⟨_, hds, heq⟩ := Option.map_eq_some_iff.1 h
          obtain ⟨rfl, rfl⟩ := Prod.mk.inj heq
          exact .pointBehind (digits?_eq_some_iff.1 hds)
        | cons d after =>
          obtain ⟨_, hds, h⟩ := Option.bind_eq_some_iff.1 h
          obtain ⟨_, hfs, h⟩ := Option.bind_eq_some_iff.1 h
          obtain ⟨rfl, rfl⟩ := Prod.mk.inj (Option.some.inj h)
          exact .pointWithin (digits?_eq_some_iff.1 hds) (digits?_eq_some_iff.1 hfs)

theorem parts?_of_mantissa (h : Mantissa cs ds fs) : parts? (cutAt (fun c => decide (c = '.')) cs) = some (ds, fs) := by
  have hpoint : ∀ {group gs}, DigitGroup group gs → ∀ c ∈ group, decide (c = '.') = false :=
    fun hgroup c hc => decide_eq_false (hgroup.ne (by decide) (by decide) c hc)
  cases h with
  | whole h =>
    rw [cutAt_eq_none (hpoint h), parts?, h.digits?_eq]
    rfl
  | pointBehind h =>
    rw [cutAt_eq_some (hpoint h) (by decide), parts?, h.digits?_eq]
    · rfl
    · simpa using h.ne_nil
  | pointWithin h h' =>
    rw [cutAt_eq_some (hpoint h) (by decide), parts?, h.digits?_eq, h'.digits?_eq]
    · rfl
    · simpa using h.ne_nil
    · simpa using h'.ne_nil
  | pointBefore h =>
    exact congrArg (Option.map ([], ·)) h.digits?_eq

theorem parts?_eq_some_iff : parts? (cutAt (fun c => decide (c = '.')) cs) = some (ds, fs) ↔ Mantissa cs ds fs :=
  ⟨mantissa_of_parts?, parts?_of_mantissa⟩

/-- Exactly the mantissas with an exponent are read as decimals without a sign. -/
theorem unsigned?_eq_some_iff {negative : Bool} {x : Decimal} :
    unsigned? negative cs = some x ↔ ∃ mantissa tail ds fs e, Mantissa mantissa ds fs ∧ Exponent tail e ∧
      cs = mantissa ++ tail ∧ x = ⟨negative, ofDigits (ds ++ fs), e - fs.length⟩ := by
  constructor
  · intro h
    rw [unsigned?] at h
    cases hcut : cutAt (fun c => decide (c = 'e') || decide (c = 'E')) cs with
    | mk mantissa tail =>
      rw [hcut] at h
      obtain ⟨⟨ds, fs⟩, hparts, h⟩ := Option.bind_eq_some_iff.1 h
      obtain ⟨e, he, h⟩ := Option.bind_eq_some_iff.1 h
      obtain rfl := Option.some.inj h
      have hmantissa := parts?_eq_some_iff.1 hparts
      cases tail with
      | none =>
        obtain rfl := eq_of_cutAt_eq_none hcut
        obtain rfl := Option.some.inj he
        exact ⟨cs, [], ds, fs, 0, hmantissa, .none, (List.append_nil cs).symm, rfl⟩
      | some tail =>
        obtain ⟨m, hm, rfl⟩ := exists_mark_of_cutAt_eq_some hcut
        have hletter : m = 'e' ∨ m = 'E' := by simpa using hm
        exact ⟨mantissa, m :: tail, ds, fs, e, hmantissa, .marked hletter (whole?_eq_some_iff.1 he), rfl, rfl⟩
  · rintro ⟨mantissa, tail, ds, fs, e, hm, he, rfl, rfl⟩
    have hmarks : ∀ c ∈ mantissa, (decide (c = 'e') || decide (c = 'E')) = false := by
      intro c hc
      have hlower : c ≠ 'e' := hm.ne (by decide) (by decide) (by decide) c hc
      have hupper : c ≠ 'E' := hm.ne (by decide) (by decide) (by decide) c hc
      simp [hlower, hupper]
    have hparts := parts?_eq_some_iff.2 hm
    cases he with
    | none =>
      rw [List.append_nil, unsigned?, cutAt_eq_none hmarks]
      simp [hparts, exponent?]
    | @marked m tail _ hletter h =>
      have hmark : (decide (m = 'e') || decide (m = 'E')) = true := by simpa using hletter
      rw [unsigned?, cutAt_eq_some hmarks hmark]
      simp [hparts, exponent?, whole?_eq_some_iff.2 h]

end Decimal

/-! ## The limit -/

section Limit

variable {cs : List Char} {ds : List Nat} {z : Int}

/-- The first digits of a group count toward the limit, and so do those after it. -/
theorem DigitGroup.length_le (h : DigitGroup cs ds) {n : Nat} (hfit : groupsFitFrom n cs = true) :
    n + ds.length ≤ digitLimit := by
  have hdigit : ∀ {c : Char} {d : Nat}, Text.digitValue? c = some d → ∀ (n : Nat) (rest : List Char),
      groupsFitFrom n (c :: rest) = (decide (n < digitLimit) && groupsFitFrom (n + 1) rest) := by
    intro c d hc n rest
    have hother : c ≠ '_' := by
      rintro rfl
      cases hc
    have hc' : Text.isDigit c = true := by rw [Text.isDigit, hc]; rfl
    rw [groupsFitFrom, if_neg hother, if_pos hc']
  induction h generalizing n with
  | last hc =>
    rw [hdigit hc, Bool.and_eq_true, decide_eq_true_iff] at hfit
    exact hfit.1
  | next hc _ ih =>
    rw [hdigit hc, Bool.and_eq_true] at hfit
    have hrest := ih hfit.2
    rw [List.length_cons]
    omega
  | underscore hc _ ih =>
    -- the underscore is passed over
    rw [hdigit hc, Bool.and_eq_true, groupsFitFrom, if_pos rfl] at hfit
    have hrest := ih hfit.2
    rw [List.length_cons]
    omega

theorem DigitGroup.lt_ten (h : DigitGroup cs ds) : ∀ d ∈ ds, d < 10 := by
  induction h with
  | last hc => simpa using Text.digitValue?_lt hc
  | next hc _ ih => exact List.forall_mem_cons.2 ⟨Text.digitValue?_lt hc, ih⟩
  | underscore hc _ ih => exact List.forall_mem_cons.2 ⟨Text.digitValue?_lt hc, ih⟩

theorem DigitGroup.placeValue_lt (h : DigitGroup cs ds) : placeValue ds < 10 ^ ds.length := by
  have hdigits : ∀ d ∈ ds.reverse, d < 10 := fun d hd => h.lt_ten d (List.mem_reverse.1 hd)
  simpa [placeValue] using Nat.ofDigits_lt_base_pow_length (by decide) hdigits

theorem Sign.groupsFit_append {sign : List Char} {s : Int} (h : Sign sign s) (cs : List Char) :
    groupsFit (sign ++ cs) = groupsFit cs := by
  cases h with
  | none => rfl
  | plus => exact groupsFitFrom_mark cs (by decide) (by decide)
  | minus => exact groupsFitFrom_mark cs (by decide) (by decide)

theorem Sign.natAbs_mul {sign : List Char} {s : Int} (h : Sign sign s) (n : Nat) : (s * n).natAbs = n := by
  cases h <;> simp

/-- What is read as a whole number can be written as one. -/
theorem Whole.isWritable (h : Whole cs z) (hfit : groupsFit cs = true) : isWritable z = true := by
  obtain ⟨hs, hd⟩ := h
  rename_i group s ds
  rw [hs.groupsFit_append] at hfit
  have hlength : ds.length ≤ digitLimit := by simpa using hd.length_le hfit
  rw [Numeral.isWritable, hs.natAbs_mul, decide_eq_true_iff]
  -- with the limit left as it is, nothing tries to compute the power
  generalize digitLimit = limit at hlength ⊢
  calc placeValue ds
      < 10 ^ ds.length := hd.placeValue_lt
    _ ≤ 10 ^ limit := Nat.pow_le_pow_right (by decide) hlength
    _ = tenPow limit := (tenPow_eq_pow limit).symm

theorem isWritable_of_wholeText? {t : Text} (h : wholeText? t = some z) : isWritable z = true := by
  rw [wholeText?] at h
  split at h
  case isTrue hfit => exact (whole?_eq_some_iff.1 h).isWritable hfit
  case isFalse => cases h

end Limit

end Barline.Numeral
