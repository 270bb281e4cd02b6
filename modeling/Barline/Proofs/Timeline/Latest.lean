import Barline.Proofs.Timeline.Walk
import Mathlib.Data.List.Nodup

/-!
# The latest event — which of the events that have started counts as the last

Of the events that have started by a time, the one that started last is the *latest*; of those that started together it
is the longest one, and of equally long ones the last in the list. This says nothing of any order in which events are
laid out. In that order the latest event is the last one that has started.

* `sortPlaced` is the order of the layout with the positions in the input kept, so that equal events are told apart.
* `latest_iff_of_sortPlaced` says when an event in that order is the latest one.
* `lastStarted_sort_eq_some_iff` says that the last event that has started, in the order of the layout, is the latest.
-/

namespace Barline

/-- By start, then by duration, then by position, two things that are each not after the other agree. -/
theorem eq_of_not_after {s s' d d' : Rat} {n n' : Nat}
    (h : s < s' ∨ s = s' ∧ (d < d' ∨ d = d' ∧ n ≤ n'))
    (h' : s' < s ∨ s' = s ∧ (d' < d ∨ d' = d ∧ n' ≤ n)) : s = s' ∧ n = n' := by
  rcases h with h | ⟨hs, h⟩
  · rcases h' with h' | ⟨hs', _⟩ <;> linarith
  · refine ⟨hs, ?_⟩
    rcases h' with h' | ⟨_, h'⟩
    · linarith
    · rcases h with h | ⟨_, hn⟩
      · rcases h' with h' | ⟨hd', _⟩ <;> linarith
      · rcases h' with h' | ⟨_, hn'⟩
        · linarith
        · exact Nat.le_antisymm hn hn'

namespace Event

/-- By the time `x`, the event at position `n` is the last of a list of events to start. -/
structure Latest (events : List Event) (x : Rat) (n : Nat) (e : Event) : Prop where
  listed : events[n]? = some e
  started : e.start ≤ x
  last : ∀ m f, events[m]? = some f → f.start ≤ x →
    f.start < e.start ∨
      f.start = e.start ∧ (f.duration < e.duration ∨ f.duration = e.duration ∧ m ≤ n)

variable {events : List Event} {x : Rat} {n m : Nat} {e f : Event}

theorem Latest.unique (he : Latest events x n e) (hf : Latest events x m f) : n = m ∧ e = f := by
  have hnm : n = m :=
    (eq_of_not_after (hf.last n e he.listed he.started) (he.last m f hf.listed hf.started)).2
  subst hnm
  have hsome : some e = some f := he.listed.symm.trans hf.listed
  exact ⟨rfl, Option.some.inj hsome⟩

/-! ## The order of the layout and the order of the input -/

/-- Events with their positions, in the order of the layout, where positions decide between events that agree. -/
def sortPlaced (events : List Event) : List (Event × Nat) :=
  events.zipIdx.mergeSort (List.zipIdxLE precedes)

theorem map_fst_sortPlaced (events : List Event) :
    (sortPlaced events).map (·.1) = sort events :=
  List.mergeSort_zipIdx

theorem mem_sortPlaced : (e, n) ∈ sortPlaced events ↔ events[n]? = some e := by
  rw [sortPlaced, List.mem_mergeSort, List.mem_zipIdx_iff_getElem?]

theorem sortPlaced_pairwise (events : List Event) :
    (sortPlaced events).Pairwise fun a b => List.zipIdxLE precedes a b = true := by
  refine List.pairwise_mergeSort ?_ ?_ _
  · intro a b c
    exact @List.zipIdxLE_trans Event precedes (fun _ _ _ => precedes_trans) a b c
  · intro a b
    exact List.zipIdxLE_total precedes_total a b

/-- What comes first among placed events starts earlier, or lasts less long, or stands before. -/
theorem of_zipIdxLE (h : List.zipIdxLE precedes (f, m) (e, n) = true) :
    f.start < e.start ∨
      f.start = e.start ∧ (f.duration < e.duration ∨ f.duration = e.duration ∧ m ≤ n) := by
  simp only [List.zipIdxLE] at h
  split at h
  case isFalse => simp at h
  case isTrue hfe =>
    rcases precedes_iff.1 hfe with hs | ⟨hs, hd⟩
    · exact Or.inl hs
    · refine Or.inr ⟨hs, ?_⟩
      rcases hd.lt_or_eq with hd | hd
      · exact Or.inl hd
      · -- each precedes the other, so it was the position that decided
        have hef : precedes e f = true := precedes_iff.2 (Or.inr ⟨hs.symm, hd.symm.le⟩)
        rw [if_pos hef] at h
        exact Or.inr ⟨hd, by simpa using h⟩

/-- No position stands twice. -/
theorem eq_of_mem_sortPlaced (he : (e, n) ∈ sortPlaced events) (hf : (f, n) ∈ sortPlaced events) : e = f :=
  Option.some.inj ((mem_sortPlaced.1 he).symm.trans (mem_sortPlaced.1 hf))

theorem sortPlaced_nodup (events : List Event) : (sortPlaced events).Nodup := by
  have hpositions : (events.zipIdx.map (·.2)).Nodup := by
    rw [List.zipIdx_map_snd]
    exact List.nodup_range'
  exact (List.mergeSort_perm _ _).nodup_iff.2 (List.Nodup.of_map _ hpositions)

/-- In the order of the layout, an event is the latest one as soon as it has started, until the next one starts. -/
theorem latest_iff_of_sortPlaced {before after : List (Event × Nat)}
    (h : sortPlaced events = before ++ (e, n) :: after) :
    Latest events x n e ↔ e.start ≤ x ∧ ∀ f ∈ after, x < f.1.start := by
  have hsorted := sortPlaced_pairwise events
  have hnodup := sortPlaced_nodup events
  have he : (e, n) ∈ sortPlaced events := by simp [h]
  rw [h] at hsorted hnodup
  obtain ⟨_, hbehind, hcross⟩ := List.pairwise_append.1 hsorted
  constructor
  · refine fun hlatest => ⟨hlatest.started, ?_⟩
    rintro ⟨f, m⟩ hf
    by_contra hstarted
    -- what stands behind it and has started is not after it either, so it would be the same event again
    have hplaced : (f, m) ∈ sortPlaced events := by simp [h, hf]
    obtain ⟨_, rfl⟩ := eq_of_not_after (of_zipIdxLE ((List.pairwise_cons.1 hbehind).1 _ hf))
      (hlatest.last m f (mem_sortPlaced.1 hplaced) (not_lt.1 hstarted))
    obtain rfl := eq_of_mem_sortPlaced he hplaced
    exact (List.nodup_cons.1 (List.nodup_append.1 hnodup).2.1).1 hf
  · rintro ⟨hstarted, hnext⟩
    refine ⟨mem_sortPlaced.1 he, hstarted, ?_⟩
    intro m f hf hfx
    have hplaced := mem_sortPlaced.2 hf
    rw [h] at hplaced
    rcases List.mem_append.1 hplaced with hbefore | hfrom
    · exact of_zipIdxLE (hcross _ hbefore _ (List.mem_cons_self ..))
    · rcases List.mem_cons.1 hfrom with hsame | hafter
      · obtain ⟨rfl, rfl⟩ := Prod.mk.inj hsame
        exact Or.inr ⟨rfl, Or.inr ⟨rfl, le_rfl⟩⟩
      · exact absurd (hnext _ hafter) (not_lt.2 hfx)

theorem exists_latest (h : lastStarted (sort events) x = some e) : ∃ n, Latest events x n e := by
  rw [lastStarted, ← map_fst_sortPlaced, List.filter_map, List.getLast?_map, Option.map_eq_some_iff] at h
  rcases h with ⟨⟨e', n⟩, hlast, he⟩
  obtain rfl : e' = e := he
  -- behind the last of those that have started, nothing has
  rcases List.getLast?_eq_some_iff.1 hlast with ⟨started, hsplit⟩
  rcases List.filter_eq_append_iff.1 hsplit with ⟨front, back, hplaced, _, hback⟩
  rcases List.filter_eq_cons_iff.1 hback with ⟨waiting, after, rfl, _, hstarted, hafter⟩
  rw [← List.append_assoc] at hplaced
  refine ⟨n, (latest_iff_of_sortPlaced hplaced).2 ⟨by simpa using hstarted, ?_⟩⟩
  intro f hf
  simpa using List.filter_eq_nil_iff.1 hafter f hf

theorem lastStarted_eq_none_iff : lastStarted events x = none ↔ ∀ e ∈ events, x < e.start := by
  simp [lastStarted]

/-- The last event that has started, in the order of the layout, is the latest one of the input. -/
theorem lastStarted_sort_eq_some_iff :
    lastStarted (sort events) x = some e ↔ ∃ n, Latest events x n e := by
  constructor
  · exact exists_latest
  · rintro ⟨n, he⟩
    cases hlast : lastStarted (sort events) x with
    | none =>
      have hmem : e ∈ sort events :=
        (sort_perm events).mem_iff.2 (List.mem_of_getElem? he.listed)
      exact absurd he.started (not_le.2 (lastStarted_eq_none_iff.1 hlast e hmem))
    | some f =>
      rcases exists_latest hlast with ⟨m, hf⟩
      rw [(he.unique hf).2]

end Event

end Barline
