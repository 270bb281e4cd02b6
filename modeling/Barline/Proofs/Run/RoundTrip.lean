import Barline.Run

/-!
# Runs — compressed tokens written out again

`Run.expand_compress` says that compressing a list of tokens loses nothing: every run, written out, gives the
tokens again. The runs are never empty, and their tokens are tokens of the list.
-/

namespace Barline.Run

/-! ## One token -/

theorem expand_push (token : Text) {runs : List Run} (h : ∀ r ∈ runs, 1 ≤ r.count) :
    expand (push token runs) = token :: expand runs := by
  cases runs with
  | nil => rfl
  | cons r rest =>
    have hr : 1 ≤ r.count := h r (List.mem_cons_self ..)
    -- a count below one would swallow the token that is put in front
    have hcount : (r.count + 1).toNat = r.count.toNat + 1 := by omega
    rw [push]
    split
    case isTrue hsame =>
      rw [expand_cons, expand_cons, hcount, List.replicate_succ, hsame]
      rfl
    case isFalse => rfl

theorem count_push (token : Text) {runs : List Run} (h : ∀ r ∈ runs, 1 ≤ r.count) :
    ∀ r ∈ push token runs, 1 ≤ r.count := by
  intro r hr
  cases runs with
  | nil =>
    obtain rfl := List.mem_singleton.1 hr
    exact Int.le_refl 1
  | cons s rest =>
    have hs : 1 ≤ s.count := h s (List.mem_cons_self ..)
    rw [push] at hr
    split at hr
    · rcases List.mem_cons.1 hr with rfl | hr
      · exact Int.le_add_one hs
      · exact h r (List.mem_cons_of_mem s hr)
    · rcases List.mem_cons.1 hr with rfl | hr
      · exact Int.le_refl 1
      · exact h r hr

/-! ## All tokens -/

theorem count_compress (tokens : List Text) : ∀ r ∈ compress tokens, 1 ≤ r.count := by
  induction tokens with
  | nil => simp
  | cons token tokens ih => exact count_push token ih

/-- What is compressed is written out as it was. -/
theorem expand_compress (tokens : List Text) : expand (compress tokens) = tokens := by
  induction tokens with
  | nil => rfl
  | cons token tokens ih => rw [compress_cons, expand_push token (count_compress tokens), ih]

theorem token_mem_of_mem_compress {tokens : List Text} {r : Run} (h : r ∈ compress tokens) :
    r.token ∈ tokens := by
  have hpositive := count_compress tokens r h
  rw [← expand_compress tokens, expand, List.mem_flatMap]
  refine ⟨r, h, List.mem_replicate.2 ⟨?_, rfl⟩⟩
  omega

end Barline.Run
