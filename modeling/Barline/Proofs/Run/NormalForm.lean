import Barline.Proofs.Run.RoundTrip
import Mathlib.Data.List.Chain
import Mathlib.Order.Basic

/-!
# Normal forms — one list of runs for each list of tokens

Many lists of runs are written out as the same tokens: a run may be split, and runs of less than one token may stand
anywhere. Only one of them has neither. `IsNormal` says which one that is, and `compress_expand` that compressing what
it is written out as gives it back. Where runs of less than one token vanish, their neighbours may come together, so no
run by run argument leads from any list of runs to the normal one; `runs_have_one_normal_form` goes through the tokens.

What is compressed can be listed again if there is room for it, and runs in general can be if no count is too large in
size: `list_eq_ok_iff` has the bounds. A count far below zero is refused as well, though nothing would be listed.
-/

namespace Barline.Run

/-- Runs of at least one token each, of which no two neighbours have the same token. -/
structure IsNormal (runs : List Run) : Prop where
  positive : ∀ r ∈ runs, 1 ≤ r.count
  distinct : runs.IsChain (·.token ≠ ·.token)

variable {token : Text} {r : Run} {runs : List Run} {tokens : List Text}

/-! ## What is compressed -/

theorem distinct_push (token : Text) (h : runs.IsChain (·.token ≠ ·.token)) :
    (push token runs).IsChain (·.token ≠ ·.token) := by
  cases runs with
  | nil => exact List.isChain_singleton _
  | cons r rest =>
    rw [push]
    split
    case isTrue =>
      -- the first run keeps its token, so it still differs from the next one
      rw [List.isChain_cons] at h ⊢
      exact h
    case isFalse hother => exact List.isChain_cons_cons.2 ⟨hother, h⟩

theorem isNormal_compress (tokens : List Text) : IsNormal (compress tokens) := by
  refine ⟨count_compress tokens, ?_⟩
  induction tokens with
  | nil => exact List.isChain_nil
  | cons token tokens ih => exact distinct_push token ih

/-! ## What is written out -/

/-- As long as no run of the token follows, the copies of a token become one run. -/
theorem compress_replicate_append (n : Nat) (h : ∀ r, (compress tokens).head? = some r → token ≠ r.token) :
    compress (List.replicate (n + 1) token ++ tokens) = ⟨token, n + 1⟩ :: compress tokens := by
  induction n with
  | zero =>
    rw [List.replicate_one, List.singleton_append, compress_cons]
    cases hruns : compress tokens with
    | nil => rfl
    | cons r rest =>
      have hother : token ≠ r.token := h r (by rw [hruns, List.head?_cons])
      exact if_neg hother
  | succ n ih =>
    rw [List.replicate_succ, List.cons_append, compress_cons, ih]
    exact if_pos rfl

theorem IsNormal.tail (h : IsNormal (r :: runs)) : IsNormal runs :=
  ⟨fun s hs => h.positive s (List.mem_cons_of_mem r hs), h.distinct.tail⟩

/-- Normal runs that are written out are compressed as they were. -/
theorem compress_expand (h : IsNormal runs) : compress (expand runs) = runs := by
  induction runs with
  | nil => rfl
  | cons r rest ih =>
    have hrest := ih h.tail
    have hpositive : 1 ≤ r.count := h.positive r (List.mem_cons_self ..)
    obtain ⟨n, hn⟩ : ∃ n : Nat, r.count = n + 1 := ⟨(r.count - 1).toNat, by omega⟩
    have hcopies : r.count.toNat = n + 1 := by omega
    have hnext : ∀ s, (compress (expand rest)).head? = some s → r.token ≠ s.token := by
      rw [hrest]
      exact (List.isChain_cons.1 h.distinct).1
    rw [expand_cons, hcopies, compress_replicate_append n hnext, hrest, ← hn]

/-! ## What can be listed -/

theorem excess?_eq_none_iff :
    r.excess? = none ↔ -(lengthBound : Int) ≤ r.count ∧ r.count < roomBound := by
  have hroom : (roomBound : Int) ≤ lengthBound := by decide
  unfold excess?
  split
  case isTrue h =>
    simp only [Bool.or_eq_true, decide_eq_true_eq] at h
    simp only [reduceCtorEq, false_iff]
    omega
  case isFalse h =>
    simp only [Bool.or_eq_true, decide_eq_true_eq] at h
    split
    case isTrue hlong =>
      simp only [reduceCtorEq, false_iff]
      omega
    case isFalse hshort =>
      simp only [true_iff]
      omega

/-- Runs are listed as what they are written out as, if no count is too large in size. -/
theorem list_eq_ok_iff :
    list runs = .ok tokens ↔
      tokens = expand runs ∧ ∀ r ∈ runs, -(lengthBound : Int) ≤ r.count ∧ r.count < roomBound := by
  have hbounds : runs.findSome? excess? = none ↔
      ∀ r ∈ runs, -(lengthBound : Int) ≤ r.count ∧ r.count < roomBound := by
    simp only [List.findSome?_eq_none_iff, excess?_eq_none_iff]
  rw [← hbounds, list]
  cases hexcess : runs.findSome? excess? with
  | none => simp [eq_comm]
  | some e => simp

theorem count_le_of_mem_compress (h : r ∈ compress tokens) : r.count ≤ tokens.length := by
  have hcopies : (List.replicate r.count.toNat r.token).Sublist (expand (compress tokens)) :=
    List.sublist_flatten_of_mem (List.mem_map.2 ⟨r, h, rfl⟩)
  have hlength := hcopies.length_le
  rw [expand_compress, List.length_replicate] at hlength
  omega

theorem list_compress (h : tokens.length < roomBound) : list (compress tokens) = .ok tokens := by
  refine list_eq_ok_iff.2 ⟨(expand_compress tokens).symm, ?_⟩
  intro r hr
  have hpositive := count_compress tokens r hr
  have hlength := count_le_of_mem_compress hr
  omega

/-! ## Normal forms -/

/-- Lists of runs have one normal form, which is what their tokens are compressed to. All lists of tokens are compressed
to normal runs, which are written out as they were, and listed as well if there is room. Normal runs that are written
out are compressed as they were. Of all lists of runs that are written out as the same tokens, the one that these are
compressed to is the only normal one. Runs are listed as what they are written out as, and they are refused if and only
if a count is too large in size. -/
theorem runs_have_one_normal_form :
    (∀ tokens, IsNormal (compress tokens) ∧ expand (compress tokens) = tokens ∧
      (tokens.length < roomBound → list (compress tokens) = .ok tokens)) ∧
    (∀ runs, IsNormal runs → compress (expand runs) = runs) ∧
    (∀ runs normal, IsNormal normal ∧ expand normal = expand runs ↔ normal = compress (expand runs)) ∧
    ∀ runs tokens, list runs = .ok tokens ↔
      tokens = expand runs ∧ ∀ r ∈ runs, -(lengthBound : Int) ≤ r.count ∧ r.count < roomBound := by
  refine ⟨?_, fun _ => compress_expand, ?_, fun _ _ => list_eq_ok_iff⟩
  · intro tokens
    exact ⟨isNormal_compress tokens, expand_compress tokens, list_compress⟩
  · intro runs normal
    constructor
    · rintro ⟨hnormal, hexpand⟩
      rw [← hexpand, compress_expand hnormal]
    · rintro rfl
      exact ⟨isNormal_compress _, expand_compress _⟩

/-- Where two runs of less than one token vanish, the three runs around them become one. -/
theorem vanishing_runs_join_neighbours :
    IsNormal [⟨"a", 3⟩, ⟨"b", 1⟩] ∧
      compress (expand [⟨"a", 2⟩, ⟨"b", 0⟩, ⟨"c", -3⟩, ⟨"a", 1⟩, ⟨"b", 1⟩]) = [⟨"a", 3⟩, ⟨"b", 1⟩] ∧
      compress (expand [⟨"a", 3⟩, ⟨"b", 1⟩]) = [⟨"a", 3⟩, ⟨"b", 1⟩] ∧
      list (compress ["a", "a", "b"]) = .ok ["a", "a", "b"] := by
  have hnormal : IsNormal [⟨"a", 3⟩, ⟨"b", 1⟩] :=
    ⟨by decide, List.isChain_cons_cons.2 ⟨by decide, List.isChain_singleton _⟩⟩
  rcases runs_have_one_normal_form with ⟨hcompress, hexpand, hunique, _⟩
  exact ⟨hnormal, ((hunique _ _).1 ⟨hnormal, by decide⟩).symm, hexpand _ hnormal, (hcompress _).2.2 (by decide)⟩

/-- A run of a count that is far enough below zero would leave nothing, and it is not listed. -/
theorem absence_beyond_bounds_is_refused :
    expand [⟨"a", -9223372036854775809⟩] = [] ∧
      list [⟨"a", -9223372036854775809⟩] = .error .noLength := by
  decide

end Barline.Run
