import Barline.Proofs.Double.RoundTrip
import Barline.Proofs.Program.Token

/-!
# Distinct tokens — equal texts mean equal music

Neighbours in a voice are merged when their tokens are equal, so different music must not be written in the same way.
A quotient and a whole number are read back as what they are; a double with a fraction has a point or an exponent, which
these lack, and is read back too; an infinity has letters. A chord adds brackets, and a rest has a name of its own.

* `Number.sameValue_of_token_eq` is about numbers, `Value.sameNumber_of_token_eq` about values.
* `Program.join_injective` says that the tokens of a chord are told apart.
* `Program.equal_tokens_mean_equal_music` is about cells.
-/

namespace Barline

/-! ## Numbers -/

/-- There are no letters and no points in a quotient or a whole number. -/
theorem Literal.not_mem_display {q : Rat} {c : Char} (hc : c ∈ ['.', 'e', 'n']) : c ∉ (display q).toList := by
  have hother : ['.', 'e', 'n'].all (fun d => !d.isDigit && d != '-' && d != '/') = true := by decide
  have hc : (c.isDigit = false ∧ c ≠ '-') ∧ c ≠ '/' := by simpa using List.all_eq_true.1 hother c hc
  rcases hc with ⟨⟨hdigit, hminus⟩, hslash⟩
  have hdigits : ∀ n : Nat, c ∉ Nat.toDigits 10 n := by
    intro n hmem
    rw [Numeral.isDigit_of_mem_toDigits hmem] at hdigit
    exact absurd hdigit (by decide)
  have hwhole : ∀ z : Int, c ∉ Numeral.wholeChars z := by
    intro z
    unfold Numeral.wholeChars
    split <;> simp [hminus, hdigits]
  rw [toList_display]
  unfold displayChars
  split <;> simp [hwhole, hdigits, hslash]

theorem Literal.display_ne_finite (q : Rat) (negative : Bool) (rank : Fin Double.rankBound) :
    display q ≠ Double.text (.finite negative rank) := by
  intro h
  rcases Double.exists_mark_text negative rank with ⟨c, hc, hmark⟩
  rw [← h] at hc
  exact absurd hc (not_mem_display (by rcases hmark with rfl | rfl <;> decide))

theorem Literal.display_ne_infinite (q : Rat) (negative : Bool) : display q ≠ Double.text (.infinite negative) := by
  intro h
  have hletter : ∀ b : Bool, 'n' ∈ (Double.text (.infinite b)).toList := by decide
  have hn := hletter negative
  rw [← h] at hn
  exact absurd hn (not_mem_display (by decide))

theorem Double.text_finite_ne_infinite (negative negative' : Bool) (rank : Fin rankBound) :
    text (.finite negative rank) ≠ text (.infinite negative') := by
  intro h
  have hnone : ∀ b : Bool, (text (.infinite b)).toList.all (fun c => c != '.' && c != 'e') = true := by decide
  rcases exists_mark_text negative rank with ⟨c, hc, hmark⟩
  rw [h] at hc
  have hother : c ≠ '.' ∧ c ≠ 'e' := by simpa using List.all_eq_true.1 (hnone negative') c hc
  rcases hmark with hpoint | hexponent
  · exact hother.1 hpoint
  · exact hother.2 hexponent

namespace Number

/-- The forms in which numbers are written. -/
inductive Written : Number → Prop where
  /-- The exact value, as a whole number or a quotient. -/
  | displayed {x : Number} {q : Rat} (value : x.toRat? = some q) (token : x.token = Literal.display q) : Written x
  /-- The shortest digits of a double with a fraction. -/
  | decimal {negative : Bool} {rank : Fin Double.rankBound}
      (token : token (.double (.finite negative rank)) = Double.text (.finite negative rank)) :
      Written (.double (.finite negative rank))
  /-- The word for an infinity. -/
  | infinite {negative : Bool} (token : token (.double (.infinite negative)) = Double.text (.infinite negative)) :
      Written (.double (.infinite negative))

theorem written {x : Number} (hx : x ≠ .double .nan) : Written x := by
  cases x with
  | whole n =>
    refine .displayed rfl ?_
    simp [token, plain, Literal.display]
  | ratio q => exact .displayed rfl rfl
  | double d =>
    cases hfraction : toInt? (.double d) with
    | some n =>
      -- without a fraction a double is written as the whole number that it is
      rcases Option.bind_eq_some_iff.1 hfraction with ⟨q, hq, hn⟩
      by_cases hden : q.den = 1
      · have hnum : q.num = n := by simpa [hden] using hn
        refine .displayed hq ?_
        simp [token, hfraction, Literal.display, hden, hnum]
      · simp [hden] at hn
    | none =>
      cases d with
      | nan => exact absurd rfl hx
      | infinite negative => exact .infinite rfl
      | finite negative rank => exact .decimal (by simp only [token, hfraction])

theorem sameValue_of_toRat? {x y : Number} {q : Rat} (hx : x.toRat? = some q) (hy : y.toRat? = some q) :
    x.sameValue y = true := by
  simp [sameValue, hx, hy]

/-- Numbers of one text have one value. -/
theorem sameValue_of_token_eq {x y : Number} (hx : x ≠ .double .nan) (hy : y ≠ .double .nan)
    (h : x.token = y.token) : x.sameValue y = true := by
  -- numbers in one form are read back, and no text has two forms
  cases written hx with
  | @displayed _ q hvalue htoken =>
    rw [htoken] at h
    cases written hy with
    | @displayed _ q' hvalue' htoken' =>
      obtain rfl : q = q' := Literal.display_injective (h.trans htoken')
      exact sameValue_of_toRat? hvalue hvalue'
    | decimal htoken' => exact absurd (h.trans htoken') (Literal.display_ne_finite q _ _)
    | infinite htoken' => exact absurd (h.trans htoken') (Literal.display_ne_infinite q _)
  | @decimal negative rank htoken =>
    rw [htoken] at h
    cases written hy with
    | @displayed _ q' hvalue' htoken' => exact absurd (h.trans htoken').symm (Literal.display_ne_finite q' _ _)
    | decimal htoken' =>
      have hvalue := Double.toRat?_eq_of_text_eq (h.trans htoken')
      exact sameValue_of_toRat? rfl hvalue.symm
    | infinite htoken' => exact absurd (h.trans htoken') (Double.text_finite_ne_infinite _ _ _)
  | @infinite negative htoken =>
    rw [htoken] at h
    cases written hy with
    | @displayed _ q' hvalue' htoken' => exact absurd (h.trans htoken').symm (Literal.display_ne_infinite q' _)
    | decimal htoken' => exact absurd (h.trans htoken').symm (Double.text_finite_ne_infinite _ _ _)
    | @infinite negative' htoken' =>
      have htext : ∀ b b' : Bool, Double.text (.infinite b) = Double.text (.infinite b') → b = b' := by decide
      obtain rfl : negative = negative' := htext _ _ (h.trans htoken')
      simp [sameValue, toRat?, Double.toRat?]

theorem token_ne_nil {x : Number} (hx : x ≠ .double .nan) : x.token.toList ≠ [] := by
  cases written hx with
  | displayed _ htoken =>
    rw [htoken, Literal.toList_display]
    exact Literal.displayChars_ne_nil _
  | @decimal negative rank htoken =>
    rcases Double.exists_mark_text negative rank with ⟨c, hc, _⟩
    rw [htoken]
    exact List.ne_nil_of_mem hc
  | @infinite negative _ =>
    revert negative
    decide

end Number

/-! ## Values -/

namespace Value

/-- The number that a value is; a truth value is the number one or zero. -/
def number? : Value → Option Number
  | bool b => some (.whole (if b then 1 else 0))
  | number x => some x
  | _ => none

/-- A value that is a number. What is called not a number is none. -/
def IsNumeric (v : Value) : Prop :=
  ∃ x, v.number? = some x ∧ x ≠ .double .nan

/-- Values that are numbers of equal value. -/
def SameNumber (v w : Value) : Prop :=
  ∃ x y, v.number? = some x ∧ w.number? = some y ∧ x.sameValue y = true

/-- A value that is a number is a truth value or a number as such. -/
theorem IsNumeric.cases {v : Value} (h : v.IsNumeric) :
    (∃ b, v = bool b) ∨ ∃ x, v = number x ∧ x ≠ .double .nan := by
  rcases h with ⟨x, hx, hnan⟩
  cases v with
  | bool b => exact Or.inl ⟨b, rfl⟩
  | number y =>
    obtain rfl := Option.some.inj hx
    exact Or.inr ⟨_, rfl, hnan⟩
  | _ => cases hx

/-- The text of a truth value begins with a capital letter, that of a number does not. -/
theorem truthName_ne_token (b : Bool) (x : Number) : truthName b ≠ x.token := by
  intro h
  have hletter : ∀ b : Bool, (truthName b).toList.any (!Program.numberCharacter ·) = true := by decide
  rcases List.any_eq_true.1 (hletter b) with ⟨c, hc, hfalse⟩
  rw [h] at hc
  rw [Program.numberCharacter_token x c hc] at hfalse
  cases hfalse

theorem sameNumber_of_token_eq {v w : Value} (hv : v.IsNumeric) (hw : w.IsNumeric) (h : v.token = w.token) :
    v.SameNumber w := by
  rcases hv.cases with ⟨b, rfl⟩ | ⟨x, rfl, hx⟩
  · rcases hw.cases with ⟨b', rfl⟩ | ⟨y, rfl, _⟩
    · have hname : ∀ b b' : Bool, truthName b = truthName b' → b = b' := by decide
      obtain rfl : b = b' := hname b b' (Text.ofString_inj.1 h)
      exact ⟨_, _, rfl, rfl, Number.sameValue_of_toRat? rfl rfl⟩
    · exact absurd (Text.ofString_inj.1 h) (truthName_ne_token b y)
  · rcases hw.cases with ⟨b', rfl⟩ | ⟨y, rfl, hy⟩
    · exact absurd (Text.ofString_inj.1 h).symm (truthName_ne_token b' x)
    · exact ⟨x, y, rfl, rfl, Number.sameValue_of_token_eq hx hy (Text.ofString_inj.1 h)⟩

theorem token_ne_nil {v : Value} (hv : v.IsNumeric) : v.token ≠ [] := by
  have hne : ∀ s : String, s.toList ≠ [] → (s : Text) ≠ [] := by
    intro s hs
    simpa [Text.ofString, Text.ofChars] using hs
  rcases hv.cases with ⟨b, rfl⟩ | ⟨x, rfl, hx⟩
  · cases b with
    | false => exact hne "False" (by decide)
    | true => exact hne "True" (by decide)
  · exact hne x.token (Number.token_ne_nil hx)

theorem isWord_token {v : Value} (hv : v.IsNumeric) : Program.IsWord v.token := by
  rcases hv.cases with ⟨b, rfl⟩ | ⟨x, rfl, _⟩
  · have hword : ∀ b : Bool, Program.IsWord (bool b).token := by decide
    exact hword b
  · exact Program.isWord_numberToken x

end Value

/-! ## Cells -/

namespace Program

/-- A text that may stand in a chord: a word that is not empty. -/
structure IsItem (t : Text) : Prop where
  word : IsWord t
  nonempty : t ≠ []

theorem split_join_items {ts : List Text} (hne : ts ≠ []) (h : ∀ t ∈ ts, IsItem t) :
    Reader.split 0 (Text.join ", " ts) = ts :=
  Reader.split_join hne fun t ht => (h t ht).word.isPiece

/-- Joined to nothing, there is no item at all: the reader would take nothing for one empty text. -/
theorem eq_nil_of_join_eq_nil {ts : List Text} (h : ∀ t ∈ ts, IsItem t) (hnil : Text.join ", " ts = []) :
    ts = [] := by
  by_contra hne
  have hone : [[]] = ts := by simpa [hnil, Reader.split] using split_join_items hne h
  have hmem : [] ∈ ts := hone ▸ List.mem_singleton.2 rfl
  exact (h [] hmem).nonempty rfl

/-- Items that are joined are told apart. -/
theorem join_injective {ts us : List Text} (hts : ∀ t ∈ ts, IsItem t) (hus : ∀ u ∈ us, IsItem u)
    (h : Text.join ", " ts = Text.join ", " us) : ts = us := by
  by_cases hnil : ts = []
  · subst hnil
    exact (eq_nil_of_join_eq_nil hus h.symm).symm
  · have hnil' : us ≠ [] := by
      rintro rfl
      exact hnil (eq_nil_of_join_eq_nil hts h)
    calc ts = Reader.split 0 (Text.join ", " ts) := (split_join_items hnil hts).symm
      _ = Reader.split 0 (Text.join ", " us) := by rw [h]
      _ = us := split_join_items hnil' hus

end Program

namespace Cell

/-- A rest, or a cell whose values are numbers. -/
def IsNumeric : Cell → Prop
  | .rest => True
  | .value a => ∀ v ∈ a.values, v.IsNumeric

/-- A rest, or the name of a scale. -/
def IsScale (c : Cell) : Prop :=
  c = .rest ∨ ∃ name, c = .scalar (.text name)

/-- Two rests, two scalars of equal value, or two chords of equal values one by one. -/
inductive SameMusic : Cell → Cell → Prop where
  | rest : SameMusic .rest .rest
  | scalar {v w : Value} (h : v.SameNumber w) : SameMusic (.value (.scalar v)) (.value (.scalar w))
  | chord {vs ws : List Value} (h : List.Forall₂ Value.SameNumber vs ws) :
      SameMusic (.value (.chord vs)) (.value (.chord ws))

end Cell

namespace Program

/-- Chords of one text have equal values one by one. -/
theorem forall₂_of_chord_eq {vs ws : List Value} (hvs : ∀ v ∈ vs, v.IsNumeric) (hws : ∀ w ∈ ws, w.IsNumeric)
    (h : attributeToken Value.token (.chord vs) = attributeToken Value.token (.chord ws)) :
    List.Forall₂ Value.SameNumber vs ws := by
  have hjoin : Text.join ", " (vs.map Value.token) = Text.join ", " (ws.map Value.token) := by
    simpa [attributeToken] using h
  have hitems : ∀ us : List Value, (∀ u ∈ us, u.IsNumeric) → ∀ t ∈ us.map Value.token, IsItem t := by
    intro us hus t ht
    rcases List.mem_map.1 ht with ⟨u, hu, rfl⟩
    exact ⟨Value.isWord_token (hus u hu), Value.token_ne_nil (hus u hu)⟩
  have hmap := join_injective (hitems vs hvs) (hitems ws hws) hjoin
  rw [← List.forall₂_eq_eq_eq, List.forall₂_map_left_iff, List.forall₂_map_right_iff] at hmap
  refine List.forall₂_iff_zip.2 ⟨hmap.length_eq, ?_⟩
  intro v w hvw
  rcases List.of_mem_zip hvw with ⟨hv, hw⟩
  exact Value.sameNumber_of_token_eq (hvs v hv) (hws w hw) (List.forall₂_zip hmap hvw)

theorem bracket_mem_chord (item : Value → Text) (vs : List Value) :
    .char '[' ∈ attributeToken item (.chord vs) := by
  simp [attributeToken, Text.ofString, Text.ofChars]

theorem chord_ne_rest (item : Value → Text) (vs : List Value) : attributeToken item (.chord vs) ≠ restToken := by
  intro h
  have hbracket : .char '[' ∉ restToken := by decide
  exact hbracket (h ▸ bracket_mem_chord item vs)

theorem scalar_ne_rest {v : Value} (hv : v.IsNumeric) : v.token ≠ restToken := by
  intro h
  have hparen : .char '(' ∉ v.token := (Value.isWord_token hv).not_mem (by decide)
  exact hparen (h ▸ by decide)

theorem scalar_ne_chord {v : Value} (hv : v.IsNumeric) (ws : List Value) :
    v.token ≠ attributeToken Value.token (.chord ws) := by
  intro h
  have hbracket : .char '[' ∉ v.token := (Value.isWord_token hv).not_mem (by decide)
  exact hbracket (h ▸ bracket_mem_chord Value.token ws)

/-- Cells of numbers that have one token are the same music. -/
theorem sameMusic_of_cellToken_eq {c d : Cell} (hc : c.IsNumeric) (hd : d.IsNumeric)
    (h : cellToken Value.token c = cellToken Value.token d) : c.SameMusic d := by
  have hscalar : ∀ {v : Value}, (Cell.scalar v).IsNumeric → v.IsNumeric :=
    fun hv => hv _ (List.mem_singleton.2 rfl)
  -- two cells of one kind are compared by their values, and two of different kinds have different tokens
  cases c with
  | rest =>
    cases d with
    | rest => exact .rest
    | value b =>
      cases b with
      | scalar w => exact absurd h.symm (scalar_ne_rest (hscalar hd))
      | chord ws => exact absurd h.symm (chord_ne_rest _ ws)
  | value a =>
    cases a with
    | scalar v =>
      cases d with
      | rest => exact absurd h (scalar_ne_rest (hscalar hc))
      | value b =>
        cases b with
        | scalar w => exact .scalar (Value.sameNumber_of_token_eq (hscalar hc) (hscalar hd) h)
        | chord ws => exact absurd h (scalar_ne_chord (hscalar hc) ws)
    | chord vs =>
      cases d with
      | rest => exact absurd h (chord_ne_rest _ vs)
      | value b =>
        cases b with
        | scalar w => exact absurd h.symm (scalar_ne_chord (hscalar hd) vs)
        | chord ws => exact .chord (forall₂_of_chord_eq hc hd h)

/-- The tokens of scales are told apart from each other and from a rest. -/
theorem eq_of_scaleToken_eq {c d : Cell} (hc : c.IsScale) (hd : d.IsScale)
    (h : cellToken scaleToken c = cellToken scaleToken d) : c = d := by
  have hrest : ∀ name : Text, cellToken scaleToken (.scalar (.text name)) ≠ restToken := by
    intro name heq
    have hhead : some (CodePoint.char 'S') = some (.char 'R') := congrArg List.head? heq
    exact absurd hhead (by decide)
  rcases hc with rfl | ⟨name, rfl⟩
  · rcases hd with rfl | ⟨name', rfl⟩
    · rfl
    · exact absurd h.symm (hrest name')
  · rcases hd with rfl | ⟨name', rfl⟩
    · exact absurd h (hrest name)
    · have hname : name = name' := List.append_cancel_left h
      rw [hname]

/-- Cells of one voice that have the same token are the same music. In all voices but that of the scales both are rests,
or scalars of equal value, or chords of equally many values that are equal one by one, provided that all values are
numbers. In the voice of the scales they are the same cell. -/
theorem equal_tokens_mean_equal_music {voice : String} {c d : Cell} (h : tokens voice [c] = tokens voice [d]) :
    (voice ≠ Voice.scale.name → c.IsNumeric → d.IsNumeric → c.SameMusic d) ∧
      (voice = Voice.scale.name → c.IsScale → d.IsScale → c = d) := by
  have hcell : cellToken (itemToken voice) c = cellToken (itemToken voice) d := List.head_eq_of_cons_eq h
  refine ⟨?_, ?_⟩
  · intro hvoice hc hd
    rw [itemToken, if_neg hvoice] at hcell
    exact sameMusic_of_cellToken_eq hc hd hcell
  · intro hvoice hc hd
    rw [itemToken, if_pos hvoice] at hcell
    exact eq_of_scaleToken_eq hc hd hcell

/-- A chord of a whole number and a quotient with the same values has the same token. -/
theorem chord_of_quotients_is_chord_of_wholes :
    tokens Voice.degree.name [.value (.chord [.number (.ratio 2), .int 3])] =
        tokens Voice.degree.name [.value (.chord [.int 2, .number (.ratio 3)])] ∧
      Cell.SameMusic (.value (.chord [.number (.ratio 2), .int 3]))
        (.value (.chord [.int 2, .number (.ratio 3)])) := by
  have htokens : tokens Voice.degree.name [.value (.chord [.number (.ratio 2), .int 3])] =
      tokens Voice.degree.name [.value (.chord [.int 2, .number (.ratio 3)])] := rfl
  refine ⟨htokens, (equal_tokens_mean_equal_music htokens).1 (by decide) ?_ ?_⟩
  · simp [Cell.IsNumeric, Attribute.values, Value.IsNumeric, Value.number?]
  · simp [Cell.IsNumeric, Attribute.values, Value.IsNumeric, Value.number?]

end Program

end Barline
