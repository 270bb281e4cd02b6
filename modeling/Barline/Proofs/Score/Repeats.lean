import Barline.Proofs.Score.Limit
import Mathlib.Tactic.Ring

/-!
# Repeats — a point may be cut between them

The repeats of a point lie end to end, so some of them in a row are the repeats of another point, which starts where
they do. A point may therefore be cut into pieces, with as many repeats each as one likes: played out in its place they
are the same events in the same order, and nothing that is built of them can tell the difference.

* `Point.occurrences_part` says what a part of a point is played out as.
* `Point.expandAll_pieces` puts the parts together, and `Point.expandAll_replace` puts them in the place of the point.
* `repeats_split_freely` is about scores.
-/

namespace Barline

namespace Point

variable {p : Point} {k m n : Nat} {counts : List Nat}

/-! ## Parts -/

/-- The repeats of a point from number `k` on, `n` of them, as a point of their own. -/
def part (p : Point) (k n : Nat) : Point :=
  { p with start := p.start + k * p.duration, repeats := n }

/-- The parts of a point that follow each other from repeat number `k` on, with the given numbers of repeats. -/
def pieces (p : Point) (k : Nat) : List Nat → List Point
  | [] => []
  | n :: rest => p.part k n :: p.pieces (k + n) rest

theorem part_zero (p : Point) (n : Nat) : p.part 0 n = { p with repeats := n } := by
  simp [part]

theorem onset_part (p : Point) (k n i : Nat) : (p.part k n).onset i = p.onset (k + i) := by
  simp only [onset, part]
  push_cast
  ring

/-- Only the onset tells the repeats of a point from each other. -/
theorem occurrences_part (p : Point) (k n : Nat) :
    (p.part k n).occurrences = (List.range' k n).map fun i => { p.event with start := p.onset i } := by
  rw [List.range'_eq_map_range, List.map_map, occurrences]
  refine List.map_congr_left ?_
  intro i _
  rw [onset_part]
  rfl

theorem expand_eq (h : 1 ≤ p.repeats) : p.expand = .ok p.occurrences := by
  rw [expand, if_neg (not_lt.2 h)]

theorem occurrences_eq (h : p.repeats = n) :
    p.occurrences = (List.range' 0 n).map fun i => { p.event with start := p.onset i } := by
  rw [occurrences, h, Int.toNat_natCast, List.range_eq_range']

/-- Parts that follow each other are played out as one stretch of repeats. -/
theorem flatMap_occurrences_pieces (p : Point) (k : Nat) (counts : List Nat) :
    (p.pieces k counts).flatMap occurrences =
      (List.range' k counts.sum).map fun i => { p.event with start := p.onset i } := by
  induction counts generalizing k with
  | nil => rfl
  | cons n rest ih =>
    -- the first part takes the repeats from `k` on, and the others go on at `k + n`
    rw [pieces, List.flatMap_cons, occurrences_part, ih, ← List.map_append, List.range'_append_1, List.sum_cons]

theorem pieces_pair (p : Point) (m n : Nat) :
    p.pieces 0 [m, n] = [{ p with repeats := m }, { p with start := p.start + m * p.duration, repeats := n }] := by
  rw [pieces, part_zero, Nat.zero_add, pieces, pieces, part]

/-- Cut as finely as can be, a point is a row of points that are played once. -/
theorem pieces_replicate_one (p : Point) (k r : Nat) :
    p.pieces k (List.replicate r 1) = (List.range' k r).map fun i => p.part i 1 := by
  induction r generalizing k with
  | zero => rfl
  | succ r ih => rw [List.replicate_succ, pieces, ih, List.range'_succ, List.map_cons]

theorem one_le_repeats_of_mem_pieces (h : ∀ n ∈ counts, 1 ≤ n) {q : Point} (hq : q ∈ p.pieces k counts) :
    1 ≤ q.repeats := by
  induction counts generalizing k with
  | nil => simp [pieces] at hq
  | cons n rest ih =>
    rw [List.forall_mem_cons] at h
    rcases List.mem_cons.1 hq with rfl | hq
    · have hn := h.1
      simp only [part]
      omega
    · exact ih h.2 hq

/-! ## Playing out -/

/-- The pieces of a point are played out as the point is. -/
theorem expandAll_pieces (h : ∀ n ∈ counts, 1 ≤ n) (hsum : p.repeats = counts.sum) (hp : 1 ≤ p.repeats) :
    expandAll (p.pieces 0 counts) = expandAll [p] := by
  rw [expandAll_eq fun q hq => one_le_repeats_of_mem_pieces h hq, expandAll_eq (by simpa using hp),
    flatMap_occurrences_pieces, List.flatMap_singleton, occurrences_eq hsum]

theorem expandAll_append (front back : List Point) :
    expandAll (front ++ back) = do
      let events ← expandAll front
      let more ← expandAll back
      return events ++ more := by
  induction front with
  | nil =>
    cases h : expandAll back with
    | error e => simp [expandAll, h, bind, Except.bind]
    | ok more => simp [expandAll, h, bind, Except.bind, pure, Except.pure]
  | cons q rest ih =>
    -- the first point that cannot be played is the same on both sides
    rw [List.cons_append, expandAll, expandAll, ih]
    cases hq : q.expand with
    | error e => rfl
    | ok events =>
      cases hrest : expandAll rest with
      | error e => rfl
      | ok more =>
        cases hback : expandAll back with
        | error e => rfl
        | ok last => simp [bind, Except.bind, pure, Except.pure]

/-- What is played out alike may stand in each other's place. -/
theorem expandAll_replace {middle middle' : List Point} (h : expandAll middle = expandAll middle')
    (front back : List Point) : expandAll (front ++ (middle ++ back)) = expandAll (front ++ (middle' ++ back)) := by
  simp only [expandAll_append, h]

end Point

/-! ## Scores -/

namespace Score

/-- Two lists of points have the same scores, on every grid and with all options, and the same is written of them. -/
def Agree (points points' : List Point) : Prop :=
  ∀ (settings : Settings) (options : Program.Options),
    build points settings options = build points' settings options ∧
      write points settings options = write points' settings options

/-- A score depends on what its points are played out as, and on nothing else about them. -/
theorem Agree.of_expandAll {points points' : List Point} (h : Point.expandAll points = Point.expandAll points') :
    Agree points points' := by
  intro settings options
  have htimeline : Timeline.ofPoints points settings = Timeline.ofPoints points' settings := by
    simp only [Timeline.ofPoints, h]
  exact ⟨by simp only [build, htimeline], by simp only [write, Timeline.writePoints, h]⟩

/-- The pieces of a point may stand in its place, wherever that is. -/
theorem agree_pieces (p : Point) (counts : List Nat) (h : ∀ n ∈ counts, 1 ≤ n) (hsum : p.repeats = counts.sum)
    (hp : 1 ≤ p.repeats) (before after : List Point) :
    Agree (before ++ (p.pieces 0 counts ++ after)) (before ++ p :: after) :=
  .of_expandAll (Point.expandAll_replace (Point.expandAll_pieces h hsum hp) before after)

theorem exists_build {points : List Point} {settings : Settings} {options : Program.Options}
    (hpoints : ∀ p ∈ points, 1 ≤ p.repeats) (hbeats : 1 ≤ settings.beatsPerBar) (hbars : 1 ≤ settings.bars)
    (hoptions : options.WellTyped) : ∃ score, build points settings options = .ok score := by
  rcases Timeline.exists_ofPoints hpoints hbeats hbars with ⟨timeline, htimeline, _⟩
  rcases Program.exists_instrumentToken hoptions with ⟨instrument, hinstrument⟩
  rcases Program.exists_repeatsToken hoptions with ⟨repeats, hrepeats⟩
  exact ⟨_, build_eq_ofTimeline htimeline hrepeats hinstrument⟩

end Score

/-- A point is played out as two points are that share its repeats among them, the second of which starts where the
first ends. So in any list of points such a pair may stand in the place of the point, and so may as many points as it
has repeats, each played once: the timeline, the voices and the program are the same. There is such a score whenever
the grid has a beat and the options are well typed. -/
theorem repeats_split_freely :
    (∀ (p : Point) (m n : Nat), 1 ≤ m → 1 ≤ n → p.repeats = m + n →
      ∃ front back, Point.expand { p with repeats := m } = .ok front ∧
        Point.expand { p with start := p.start + m * p.duration, repeats := n } = .ok back ∧
        p.expand = .ok (front ++ back)) ∧
    ∀ (before after : List Point) (p : Point), (∀ q ∈ before ++ p :: after, 1 ≤ q.repeats) →
      (∀ m n : Nat, 1 ≤ m → 1 ≤ n → p.repeats = m + n →
        Score.Agree
          (before ++ { p with repeats := m } ::
            { p with start := p.start + m * p.duration, repeats := n } :: after)
          (before ++ p :: after)) ∧
      Score.Agree
        (before ++ ((List.range p.repeats.toNat).map (fun k =>
          { p with start := p.start + k * p.duration, repeats := 1 }) ++ after))
        (before ++ p :: after) ∧
      ∀ (settings : Settings) (options : Program.Options), 1 ≤ settings.beatsPerBar → 1 ≤ settings.bars →
        options.WellTyped → ∃ score, Score.build (before ++ p :: after) settings options = .ok score := by
  refine ⟨?_, ?_⟩
  · intro p m n hm hn hrepeats
    -- both sides are one stretch of repeats, from number zero on
    have hsplit := p.flatMap_occurrences_pieces 0 [m, n]
    rw [← Point.occurrences_eq (by simp [hrepeats]), Point.pieces_pair] at hsplit
    refine ⟨_, _, Point.expand_eq ?_, Point.expand_eq ?_, ?_⟩
    · simpa using hm
    · simpa using hn
    · rw [Point.expand_eq (by omega), ← hsplit]
      simp
  · intro before after p hpoints
    have hp : 1 ≤ p.repeats := hpoints p (by simp)
    refine ⟨?_, ?_, ?_⟩
    · intro m n hm hn hrepeats
      have hpair := Score.agree_pieces p [m, n] (by simp [hm, hn]) (by simp [hrepeats]) hp before after
      rwa [Point.pieces_pair] at hpair
    · let ones : List Nat := List.replicate p.repeats.toNat 1
      have hcount : p.repeats = ones.sum := by
        simp only [ones, List.sum_replicate_nat]
        omega
      have hsingles := Score.agree_pieces p ones (by simp [ones]) hcount hp before after
      rwa [Point.pieces_replicate_one, ← List.range_eq_range'] at hsingles
    · intro settings options hbeats hbars hoptions
      exact Score.exists_build hpoints hbeats hbars hoptions

/-- A point is split where its second repeat meets another point of the same start and length, and the score stays what
it was. -/
theorem split_at_tie_keeps_score :
    (∃ front back,
      Point.expand { start := 1 / 3, duration := 2 / 3, notes := [{}], repeats := (1 : Nat) } = .ok front ∧
        Point.expand { start := 1 / 3 + (1 : Nat) * (2 / 3), duration := 2 / 3, notes := [{}], repeats := (2 : Nat) } =
          .ok back ∧
        Point.expand { start := 1 / 3, duration := 2 / 3, notes := [{}], repeats := 3 } = .ok (front ++ back)) ∧
      ∃ score,
        Score.build
          [{ start := 1 / 3, duration := 2 / 3, notes := [{}], repeats := 3 },
            { start := 1, duration := 2 / 3, notes := [{}] }] {} {} = .ok score ∧
        Score.build
          [{ start := 1 / 3, duration := 2 / 3, notes := [{}], repeats := (1 : Nat) },
            { start := 1 / 3 + (1 : Nat) * (2 / 3), duration := 2 / 3, notes := [{}], repeats := (2 : Nat) },
            { start := 1, duration := 2 / 3, notes := [{}] }] {} {} = .ok score := by
  let p : Point := { start := 1 / 3, duration := 2 / 3, notes := [{}], repeats := 3 }
  let tied : Point := { start := 1, duration := 2 / 3, notes := [{}] }
  have hpoints : ∀ q ∈ [] ++ p :: [tied], 1 ≤ q.repeats := by
    intro q hq
    rcases List.mem_cons.1 hq with rfl | hq
    · decide
    · obtain rfl := List.mem_singleton.1 hq
      decide
  refine ⟨repeats_split_freely.1 p 1 2 le_rfl (by decide) rfl, ?_⟩
  rcases repeats_split_freely.2 [] [tied] p hpoints with ⟨hpair, _, hexists⟩
  rcases hexists {} {} (by decide) (by decide) ⟨Or.inl rfl, Or.inl rfl⟩ with ⟨score, hscore⟩
  exact ⟨score, hscore, ((hpair 1 2 le_rfl (by decide) rfl) {} {}).1.trans hscore⟩

end Barline
