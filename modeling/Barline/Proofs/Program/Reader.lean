import Barline.Program

/-!
# Reading programs — the tokens behind the text

`Reader.tracks` reads the voices of a program back from its text, and knows no more of it than the layout. In every
line it looks for the list of a voice, takes it up to the bracket that closes it, splits it at every comma outside
brackets and writes the runs out again.

A text is *one piece* if its brackets are balanced and no comma stands outside them. `split_join` and
`enclosed_join` say that the reader tells joined pieces apart, whatever commas and brackets are inside them.
-/

namespace Barline.Program.Reader

/-! ## The reader -/

/-- Whether a code point is an opening bracket, of either kind. -/
def opens (c : CodePoint) : Bool :=
  c = .char '(' || c = .char '['

/-- Whether a code point is a closing bracket, of either kind. -/
def closes (c : CodePoint) : Bool :=
  c = .char ')' || c = .char ']'

/-- The number of open brackets after a code point, unless it closes one that has not been opened. -/
def next (depth : Nat) (c : CodePoint) : Option Nat :=
  if opens c then some (depth + 1)
  else if closes c then (if depth = 0 then none else some (depth - 1))
  else some depth

/-- What stands before and behind the first closing bracket that has not been opened. -/
def enclosed : Nat → Text → Option (Text × Text)
  | _, [] => none
  | depth, c :: rest =>
    match next depth c with
    | none => some ([], rest)
    | some depth' => (enclosed depth' rest).map (Prod.map (c :: ·) id)

/-- Splits a text at every comma with a blank behind it, outside brackets. -/
def split : Nat → Text → List Text
  | _, [] => [[]]
  | 0, .char ',' :: .char ' ' :: rest => [] :: split 0 rest
  | depth, c :: rest => (split ((next depth c).getD 0) rest).modifyHead (c :: ·)

/-- What stands before and behind the first place where a text has another one in it. -/
def cut (mark : Text) : Text → Option (Text × Text)
  | [] => none
  | c :: rest =>
    if mark.isPrefixOf (c :: rest) then some ([], (c :: rest).drop mark.length)
    else (cut mark rest).map (Prod.map (c :: ·) id)

/-- What stands between two texts. -/
def between (before after t : Text) : Option Text := do
  let (_, rest) ← cut before t
  let (inside, _) ← cut after rest
  return inside

/-- The token and the length of a run. -/
def run? (piece : Text) : Option (Text × Nat) := do
  let ([], body) ← cut "Pn(" piece | none
  let (inside, []) ← enclosed 0 body | none
  let [token, count] := split 0 inside | none
  let n ← Numeral.natural? count.chars
  return (token, n)

/-- The tokens of a piece: a run stands for several. -/
def writtenOut (piece : Text) : List Text :=
  match run? piece with
  | some (token, n) => List.replicate n token
  | none => [piece]

/-- A voice as it stands in a program. -/
structure Track where
  name : Text
  tokens : List Text
  repeats : Text
  deriving DecidableEq, Repr

/-- The voice in a line, if there is one. -/
def track? (line : Text) : Option Track := do
  let (label, body) ← cut "Pseq([" line
  let (list, rest) ← enclosed 0 body
  let name ← between "\\" "," label
  let repeats ← between ", " ")" rest
  return ⟨name, (split 0 list).flatMap writtenOut, repeats⟩

/-- The voices of a program. -/
def tracks (program : Text) : List Track :=
  (program.splitOn (.char '\n')).filterMap track?


/-! ## Pieces -/

/-- The number of open brackets after a text. There is none if one of them closes that has not been opened, or if a
comma stands outside all of them. -/
def depthAfter : Nat → Text → Option Nat
  | depth, [] => some depth
  | depth, c :: rest =>
    if depth = 0 ∧ c = .char ',' then none else (next depth c).bind (depthAfter · rest)

/-- The brackets of a text are balanced, and no comma stands outside them. -/
def IsPiece (t : Text) : Prop :=
  depthAfter 0 t = some 0

variable {d e : Nat} {c : CodePoint} {t u : Text}

theorem depthAfter_cons_eq_some :
    depthAfter d (c :: t) = some e ↔
      ¬(d = 0 ∧ c = .char ',') ∧ ∃ d', next d c = some d' ∧ depthAfter d' t = some e := by
  rw [depthAfter]
  split
  case isTrue h => simp [h]
  case isFalse h => simp [h, Option.bind_eq_some_iff]

theorem depthAfter_append (h : depthAfter d t = some e) : depthAfter d (t ++ u) = depthAfter e u := by
  -- the depth at which the rest is reached is the same, wherever the text started
  induction t generalizing d with
  | nil =>
    obtain rfl : d = e := Option.some.inj h
    rfl
  | cons c t ih =>
    rcases depthAfter_cons_eq_some.1 h with ⟨hcomma, d', hnext, hrest⟩
    rw [List.cons_append, depthAfter, if_neg hcomma, hnext]
    exact ih hrest

theorem next_succ (h : next d c = some e) : next (d + 1) c = some (e + 1) := by
  unfold next at h ⊢
  split at h
  case isTrue hopens =>
    rw [if_pos hopens]
    obtain rfl : d + 1 = e := Option.some.inj h
    rfl
  case isFalse hopens =>
    rw [if_neg hopens]
    split at h
    case isTrue hcloses =>
      -- what was closed at depth `d` had been opened, so there is something left to close one deeper
      rw [if_pos hcloses, if_neg (Nat.succ_ne_zero d)]
      split at h
      · simp at h
      · obtain rfl : d - 1 = e := Option.some.inj h
        congr 1
        omega
    case isFalse hcloses =>
      rw [if_neg hcloses]
      obtain rfl : d = e := Option.some.inj h
      rfl

/-- Inside one more pair of brackets commas do no harm, and nothing else changes. -/
theorem depthAfter_succ (h : depthAfter d t = some e) : depthAfter (d + 1) t = some (e + 1) := by
  induction t generalizing d with
  | nil =>
    obtain rfl : d = e := Option.some.inj h
    rfl
  | cons c t ih =>
    rcases depthAfter_cons_eq_some.1 h with ⟨_, d', hnext, hrest⟩
    exact depthAfter_cons_eq_some.2 ⟨by simp, d' + 1, next_succ hnext, ih hrest⟩

/-- Up to where no bracket closes that has not been opened, a text is enclosed whole. -/
theorem enclosed_append (h : depthAfter d t = some e) :
    enclosed d (t ++ u) = (enclosed e u).map (Prod.map (t ++ ·) id) := by
  induction t generalizing d with
  | nil =>
    obtain rfl : d = e := Option.some.inj h
    rw [List.nil_append]
    cases enclosed d u <;> rfl
  | cons c t ih =>
    rcases depthAfter_cons_eq_some.1 h with ⟨_, d', hnext, hrest⟩
    rw [List.cons_append, enclosed, hnext]
    simp only [ih hrest, Option.map_map]
    rfl

/-- Up to where no comma stands outside brackets, a text is not split. -/
theorem split_append (h : depthAfter d t = some e) :
    split d (t ++ u) = (split e u).modifyHead (t ++ ·) := by
  induction t generalizing d with
  | nil =>
    obtain rfl : d = e := Option.some.inj h
    rw [List.nil_append]
    cases split d u <;> rfl
  | cons c t ih =>
    rcases depthAfter_cons_eq_some.1 h with ⟨hcomma, d', hnext, hrest⟩
    -- a comma outside brackets is the only thing that would split here
    rw [List.cons_append, split]
    · rw [hnext, Option.getD_some, ih hrest, List.modifyHead_modifyHead]
      rfl
    · intro _ hd hc _
      exact hcomma ⟨hd, hc⟩

/-! ## Joined pieces -/

theorem comma_cons : (", " : Text) ++ u = .char ',' :: .char ' ' :: u := rfl

theorem join_singleton (between t : Text) : Text.join between [t] = t :=
  List.intercalate_singleton

theorem join_cons_cons (between t u : Text) (rest : List Text) :
    Text.join between (t :: u :: rest) = t ++ (between ++ Text.join between (u :: rest)) := by
  rw [Text.join, List.intercalate_cons_cons, List.append_assoc, Text.join]

theorem split_join {pieces : List Text} (hne : pieces ≠ []) (h : ∀ p ∈ pieces, IsPiece p) :
    split 0 (Text.join ", " pieces) = pieces := by
  induction pieces with
  | nil => exact absurd rfl hne
  | cons p rest ih =>
    have hp : IsPiece p := h p (List.mem_cons_self ..)
    cases rest with
    | nil =>
      -- the last piece has no comma behind it
      have hsplit := split_append (u := []) hp
      rw [List.append_nil] at hsplit
      rw [join_singleton, hsplit, split, List.modifyHead_cons, List.append_nil]
    | cons q rest =>
      have hrest := ih (by simp) (fun r hr => h r (List.mem_cons_of_mem p hr))
      rw [join_cons_cons, split_append hp, comma_cons, split, List.modifyHead_cons, List.append_nil, hrest]

theorem enclosed_comma :
    enclosed 0 (", " ++ u) = (enclosed 0 u).map (Prod.map ((", " : Text) ++ ·) id) := by
  have hcomma : next 0 (.char ',') = some 0 := rfl
  have hblank : next 0 (.char ' ') = some 0 := rfl
  rw [comma_cons]
  simp only [enclosed, hcomma, hblank, Option.map_map]
  rfl

/-- The commas between pieces close nothing. -/
theorem enclosed_join {close : CodePoint} {rest : Text} (hclose : next 0 close = none)
    {pieces : List Text} (h : ∀ p ∈ pieces, IsPiece p) :
    enclosed 0 (Text.join ", " pieces ++ close :: rest) = some (Text.join ", " pieces, rest) := by
  have hend : enclosed 0 (close :: rest) = some ([], rest) := by rw [enclosed, hclose]
  induction pieces with
  | nil => exact hend
  | cons p others ih =>
    have hp : IsPiece p := h p (List.mem_cons_self ..)
    cases others with
    | nil =>
      rw [join_singleton, enclosed_append hp, hend]
      simp
    | cons q others =>
      have hothers := ih (fun r hr => h r (List.mem_cons_of_mem p hr))
      rw [join_cons_cons, List.append_assoc, List.append_assoc, enclosed_append hp, enclosed_comma, hothers]
      rfl

/-- Inside brackets pieces may be joined. -/
theorem depthAfter_join {pieces : List Text} (h : ∀ p ∈ pieces, IsPiece p) :
    depthAfter 1 (Text.join ", " pieces) = some 1 := by
  induction pieces with
  | nil => rfl
  | cons p rest ih =>
    have hp : depthAfter 1 p = some 1 := depthAfter_succ (h p (List.mem_cons_self ..))
    cases rest with
    | nil => rwa [join_singleton]
    | cons q rest =>
      have hrest := ih (fun r hr => h r (List.mem_cons_of_mem p hr))
      rw [join_cons_cons, depthAfter_append hp, comma_cons]
      exact hrest

theorem IsPiece.append (ht : IsPiece t) (hu : IsPiece u) : IsPiece (t ++ u) := by
  rw [IsPiece, depthAfter_append ht]
  exact hu

/-- A pair of brackets is one piece, with what stands between them. -/
theorem isPiece_brackets {a b : CodePoint} (ha : next 0 a = some 1) (hb : next 1 b = some 0)
    (hcomma : a ≠ .char ',') (h : depthAfter 1 t = some 1) : IsPiece (a :: (t ++ [b])) := by
  refine depthAfter_cons_eq_some.2 ⟨fun hc => hcomma hc.2, 1, ha, ?_⟩
  rw [depthAfter_append h]
  exact depthAfter_cons_eq_some.2 ⟨by simp, 0, hb, rfl⟩

/-! ## Cuts -/

section Cut

variable {m : CodePoint} {mark before after : Text}

theorem cut_append (h : m ∉ before) :
    cut (m :: mark) (before ++ (m :: mark ++ after)) = some (before, after) := by
  induction before with
  | nil =>
    have hprefix : (m :: mark).isPrefixOf (m :: mark ++ after) = true :=
      List.isPrefixOf_iff_prefix.2 (List.prefix_append _ _)
    rw [List.nil_append, List.cons_append, cut, ← List.cons_append, if_pos hprefix, List.drop_left]
  | cons c before ih =>
    have hc : m ≠ c := List.ne_of_not_mem_cons h
    have hrest := ih (List.not_mem_of_not_mem_cons h)
    -- the mark cannot start before its first code point comes
    have hnot : (m :: mark).isPrefixOf (c :: (before ++ (m :: mark ++ after))) = false := by
      simp [List.isPrefixOf, hc]
    rw [List.cons_append, cut, hnot, hrest]
    rfl

theorem cut_eq_none (hm : m ∈ mark) (h : m ∉ t) : cut mark t = none := by
  induction t with
  | nil => rfl
  | cons c t ih =>
    have hnot : mark.isPrefixOf (c :: t) ≠ true := by
      intro hprefix
      exact h ((List.isPrefixOf_iff_prefix.1 hprefix).subset hm)
    rw [cut, if_neg hnot, ih (List.not_mem_of_not_mem_cons h)]
    rfl

end Cut

/-! ## Runs and lines -/

theorem writtenOut_eq_singleton (h : .char '(' ∉ t) : writtenOut t = [t] := by
  have hcut : cut "Pn(" t = none := cut_eq_none (by decide) h
  rw [writtenOut, run?, hcut]
  rfl

theorem writtenOut_run {token count : Text} {n : Nat} (htoken : IsPiece token) (hcount : IsPiece count)
    (hn : Numeral.natural? count.chars = some n) :
    writtenOut (("Pn(" : Text) ++ (Text.join ", " [token, count] ++ [.char ')'])) =
      List.replicate n token := by
  have hpieces : ∀ p ∈ [token, count], IsPiece p := by
    intro p hp
    rcases List.mem_cons.1 hp with rfl | hp
    · exact htoken
    · obtain rfl := List.mem_singleton.1 hp
      exact hcount
  -- the run is taken apart in the order in which the reader does it: its name, its brackets, its comma
  have hcut : cut "Pn(" (("Pn(" : Text) ++ (Text.join ", " [token, count] ++ [.char ')'])) =
      some ([], Text.join ", " [token, count] ++ [.char ')']) :=
    @cut_append (.char 'P') ("n(" : Text) [] _ (by simp)
  have hinside : enclosed 0 (Text.join ", " [token, count] ++ [.char ')']) =
      some (Text.join ", " [token, count], []) := enclosed_join rfl hpieces
  have hsplit := split_join (by simp) hpieces
  simp [writtenOut, run?, hcut, hinside, hsplit, hn]

theorem track?_eq_none (h : .char '[' ∉ t) : track? t = none := by
  have hcut : cut "Pseq([" t = none := cut_eq_none (by decide) h
  rw [track?, hcut]
  rfl

theorem between_append {before after inside rest : Text} {m n : CodePoint} (h : n ∉ inside) :
    between (m :: before) (n :: after) (m :: before ++ (inside ++ (n :: after ++ rest))) = some inside := by
  have hbefore : cut (m :: before) (m :: before ++ (inside ++ (n :: after ++ rest))) =
      some ([], inside ++ (n :: after ++ rest)) := @cut_append m before [] _ (by simp)
  have hafter : cut (n :: after) (inside ++ (n :: after ++ rest)) = some (inside, rest) := cut_append h
  simp only [between, hbefore, hafter, Option.bind_eq_bind, Option.bind_some]
  rfl

theorem track?_eq_some {label name repeats rest : Text} {pieces : List Text} (hlabel : .char 'P' ∉ label)
    (hname : between "\\" "," label = some name) (hne : pieces ≠ []) (hpieces : ∀ p ∈ pieces, IsPiece p)
    (hrest : between ", " ")" rest = some repeats) :
    track? (label ++ (("Pseq([" : Text) ++ (Text.join ", " pieces ++ .char ']' :: rest))) =
      some ⟨name, pieces.flatMap writtenOut, repeats⟩ := by
  have hcut : cut "Pseq([" (label ++ (("Pseq([" : Text) ++ (Text.join ", " pieces ++ .char ']' :: rest))) =
      some (label, Text.join ", " pieces ++ .char ']' :: rest) := cut_append hlabel
  have hlist : enclosed 0 (Text.join ", " pieces ++ .char ']' :: rest) =
      some (Text.join ", " pieces, rest) := enclosed_join rfl hpieces
  simp [track?, hcut, hlist, hname, hrest, split_join hne hpieces]

end Barline.Program.Reader
