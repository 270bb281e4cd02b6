import Barline.Voice

/-!
# Held roots — the root voice as a fold

The root voice is never silent: a chunk that sets no root is given the root of the chunk before it. So the voice is a
fold over the chunks that keeps every intermediate result but the one that it begins with. The roots of a list of
chunks can be said without any fold, too: the root in force at a chunk is the last one that was set up to there
(`lastRoot?`).

* `heldRoots_eq_tail_scanl` is the fold, with one root for each chunk.
* `foldl_hold` is the induction over the held root; rests and notes without a root leave it alone.
* `held_root_is_last_one_set` puts both together, and says how the roots of two stretches follow each other.
-/

namespace Barline

namespace Chunk

variable {before : Attribute} {cs : List Chunk}

/-- The root that a chunk sets: that of its event, if it is a note and the event has one. -/
def root? : Chunk → Option Attribute
  | rest _ => none
  | note _ e => e.root

/-- The root that is set last among chunks, if one is set. -/
def lastRoot? (cs : List Chunk) : Option Attribute :=
  (cs.filterMap root?).getLast?

theorem hold_eq (before : Attribute) (c : Chunk) : hold before c = c.root?.getD before := by
  cases c with
  | rest d => rfl
  | note d e => rfl

/-! ## The fold -/

/-- The fold begins with the root before the chunks, which belongs to none of them. -/
theorem cons_heldRoots_eq_scanl (before : Attribute) (cs : List Chunk) :
    before :: heldRoots before cs = cs.scanl hold before := by
  induction cs generalizing before with
  | nil => rfl
  | cons c later ih => rw [heldRoots, ih, List.scanl_cons]

theorem heldRoots_eq_tail_scanl (before : Attribute) (cs : List Chunk) :
    heldRoots before cs = (cs.scanl hold before).tail :=
  congrArg List.tail (cons_heldRoots_eq_scanl before cs)

theorem length_heldRoots (before : Attribute) (cs : List Chunk) : (heldRoots before cs).length = cs.length := by
  simp [heldRoots_eq_tail_scanl]

theorem getElem?_heldRoots (before : Attribute) (cs : List Chunk) (i : Nat) :
    (heldRoots before cs)[i]? = if i < cs.length then some ((cs.take (i + 1)).foldl hold before) else none := by
  rw [heldRoots_eq_tail_scanl, List.getElem?_tail, List.getElem?_scanl]
  simp only [Nat.add_one_le_iff]

theorem getLast?_heldRoots (before : Attribute) (cs : List Chunk) :
    (heldRoots before cs).getLast?.getD before = cs.foldl hold before := by
  induction cs generalizing before with
  | nil => rfl
  | cons c later ih => rw [heldRoots, List.getLast?_cons, Option.getD_some, ih, List.foldl_cons]

theorem heldRoots_append (before : Attribute) (cs later : List Chunk) :
    heldRoots before (cs ++ later) = heldRoots before cs ++ heldRoots (cs.foldl hold before) later := by
  induction cs generalizing before with
  | nil => rfl
  | cons c cs ih => simp only [List.cons_append, heldRoots, ih, List.foldl_cons]

/-! ## The root that was set last -/

/-- Whatever is held in the end was set last, or was held from the beginning. -/
theorem foldl_hold (before : Attribute) (cs : List Chunk) : cs.foldl hold before = (lastRoot? cs).getD before := by
  induction cs generalizing before with
  | nil => rfl
  | cons c later ih =>
    rw [List.foldl_cons, ih, hold_eq, lastRoot?, lastRoot?, List.filterMap_cons]
    cases c.root? with
    | none => rfl
    | some r =>
      -- the root of this chunk is held until a later chunk sets another
      rw [List.getLast?_cons, Option.getD_some, Option.getD_some]

/-- There is one root for each chunk, and it is the one that was set last up to this chunk: that of the last note so
far that has a root, or the initial root if there is none, which is zero unless another is given. The roots of later
chunks begin with the last root of the chunks before them. -/
theorem held_root_is_last_one_set (initial : Option Attribute) (cs : List Chunk) :
    let first := initial.getD initialRoot
    (heldRoots first cs).length = cs.length ∧
      (∀ i, (heldRoots first cs)[i]? =
        if i < cs.length then some ((lastRoot? (cs.take (i + 1))).getD (initial.getD (.scalar (.int 0)))) else none) ∧
      ∀ later, heldRoots first (cs ++ later) =
        heldRoots first cs ++ heldRoots ((heldRoots first cs).getLast?.getD first) later := by
  intro first
  refine ⟨length_heldRoots first cs, ?_, ?_⟩
  · intro i
    rw [getElem?_heldRoots, foldl_hold]
    rfl
  · intro later
    rw [heldRoots_append, getLast?_heldRoots]

/-- Rests and notes without a root hold the root that was set before. -/
example (e : Event) :
    heldRoots initialRoot
        [rest 1, note 1 { e with root := some (.scalar (.int 3)) }, rest 1, note 1 { e with root := none },
          note 1 { e with root := some (.chord [.int 0, .int 7]) }] =
      [.scalar (.int 0), .scalar (.int 3), .scalar (.int 3), .scalar (.int 3), .chord [.int 0, .int 7]] := rfl

end Chunk

end Barline
