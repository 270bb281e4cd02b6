import Barline.Proofs.Timeline.Report
import Mathlib.Data.List.Forall2
import Mathlib.Data.Prod.Lex

/-!
# Order — the order of the input matters for ties only

The walk goes by the starts and the durations of the events and by nothing else. So two walks over events that
correspond in these do the same, and what one puts into a chunk corresponds to what the other does. The order in which
events come in matters no more than that: once they are sorted, only events of equal start and duration may have changed
places.

* `forall₂_chunksFrom` is about two walks, of which the second may be later than the first.
* `Event.forall₂_sort` is about the events of two lists, of which one is a permutation of the other.
* `Timeline.forall₂_chunks_of_perm` puts the two together.
-/

namespace Barline

/-! ## Corresponding chunks -/

/-- Chunks of the same kind and length; the events that they carry are related. -/
inductive Chunk.Corresponds (related : Event → Event → Prop) : Chunk → Chunk → Prop where
  | rest (d : Rat) : Corresponds related (.rest d) (.rest d)
  | note (d : Rat) {e f : Event} (h : related e f) : Corresponds related (.note d e) (.note d f)

namespace Chunk

variable {related : Event → Event → Prop} {c d : Chunk} {cs ds : List Chunk}

theorem Corresponds.imp {related' : Event → Event → Prop} (h : Corresponds related c d)
    (himp : ∀ e f, related e f → related' e f) : Corresponds related' c d := by
  cases h with
  | rest d => exact .rest d
  | note d h => exact .note d (himp _ _ h)

theorem Corresponds.duration_eq (h : Corresponds related c d) : c.duration = d.duration := by
  cases h with
  | rest d => rfl
  | note d h => rfl

theorem Corresponds.isSome_event? (h : Corresponds related c d) : c.event?.isSome = d.event?.isSome := by
  cases h with
  | rest d => rfl
  | note d h => rfl

theorem map_eq_of_forall₂ {β : Type} {f : Chunk → β} (hf : ∀ c d, Corresponds related c d → f c = f d)
    (h : List.Forall₂ (Corresponds related) cs ds) : cs.map f = ds.map f := by
  induction h with
  | nil => rfl
  | cons hcd _ ih => exact congrArg₂ List.cons (hf _ _ hcd) ih

end Chunk

/-! ## Corresponding walks -/

section Walks

variable {related : Event → Event → Prop} {beats total t u : Rat} {e f : Event} {later later' : List Event}

theorem forall₂_silentChunk :
    List.Forall₂ (Chunk.Corresponds related) (silentChunk t u) (silentChunk (t + beats) (u + beats)) := by
  unfold silentChunk
  simp only [add_lt_add_iff_right, add_sub_add_right_eq_sub]
  split
  · exact .cons (.rest _) .nil
  · exact .nil

theorem forall₂_soundingChunk (h : related e f) :
    List.Forall₂ (Chunk.Corresponds related) (soundingChunk t u e) (soundingChunk (t + beats) (u + beats) f) := by
  unfold soundingChunk
  simp only [add_lt_add_iff_right, add_sub_add_right_eq_sub]
  split
  · exact .cons (.note _ h) .nil
  · exact .nil

/-- An event that is later is cut off so much later, if what comes next is later as well. -/
theorem cutOff_add (hmoved : ∀ e f, related e f → f.start = e.start + beats ∧ f.duration = e.duration)
    (h : related e f) (hlater : List.Forall₂ related later later') :
    cutOff (total + beats) f later' = cutOff total e later + beats := by
  have hstop : f.stop = e.stop + beats := by
    simp only [Event.stop, (hmoved e f h).1, (hmoved e f h).2]
    exact add_right_comm _ _ _
  -- the next start, the own end and the end of the grid are all later by as much, and so is the first of them
  cases hlater with
  | nil => simp only [cutOff, earlier_eq_min, hstop, min_add_add_right]
  | cons hnext _ => simp only [cutOff, earlier_eq_min, hstop, (hmoved _ _ hnext).1, min_add_add_right]

/-- A walk over events that are all so much later, on a grid that ends so much later, does the same. -/
theorem forall₂_chunksFrom (hmoved : ∀ e f, related e f → f.start = e.start + beats ∧ f.duration = e.duration)
    (h : List.Forall₂ related later later') :
    List.Forall₂ (Chunk.Corresponds related) (chunksFrom total t later)
      (chunksFrom (total + beats) (t + beats) later') := by
  -- both cursors move alike, so one is always that much ahead of the other
  induction h generalizing t with
  | nil => simpa only [chunksFrom_nil] using forall₂_silentChunk
  | @cons e f later later' hef hlater ih =>
    have hstart : f.start = e.start + beats := (hmoved e f hef).1
    have hcutOff : cutOff (total + beats) f later' = cutOff total e later + beats := cutOff_add hmoved hef hlater
    by_cases hend : total ≤ e.start
    · have hend' : total + beats ≤ f.start := by simpa [hstart] using hend
      simpa only [chunksFrom_of_total_le hend, chunksFrom_of_total_le hend'] using forall₂_silentChunk
    · have hleft : f.start < total + beats := by simpa [hstart] using hend
      simp only [chunksFrom_cons (not_le.1 hend), chunksFrom_cons hleft, hstart, hcutOff, max_add_add_right,
        add_le_add_iff_right]
      refine List.rel_append forall₂_silentChunk (List.rel_append (forall₂_soundingChunk hef) ?_)
      split
      · exact .nil
      · exact ih

/-- Walks over events of the same starts and durations have the same to report. -/
theorem noticesFrom_congr
    (h : List.Forall₂ (fun e f : Event => f.start = e.start ∧ f.duration = e.duration) later later') :
    noticesFrom total t later = noticesFrom total t later' := by
  induction h generalizing t with
  | nil => rfl
  | @cons e f later later' hef hlater ih =>
    obtain ⟨hstart, hduration⟩ := hef
    have hcutOff : cutOff total f later' = cutOff total e later := by
      have hmoved := @cutOff_add (fun e f => f.start = e.start ∧ f.duration = e.duration) 0 total e f later later'
        (fun e f hef => by rwa [add_zero]) ⟨hstart, hduration⟩ hlater
      rwa [add_zero, add_zero] at hmoved
    have hempty : later.isEmpty = later'.isEmpty := by
      cases hlater with
      | nil => rfl
      | cons _ _ => rfl
    by_cases hend : total ≤ e.start
    · rw [noticesFrom_of_total_le hend, noticesFrom_of_total_le (hstart ▸ hend), hlater.length_eq]
    · rw [noticesFrom_cons (not_le.1 hend), noticesFrom_cons (hstart ▸ not_le.1 hend), hcutOff, hstart, hduration,
        hlater.length_eq, hempty, ih]

end Walks

/-! ## Permuted events -/

namespace Event

/-- What the order of the layout goes by. -/
def key (e : Event) : Rat ×ₗ Rat :=
  toLex (e.start, e.duration)

theorem precedes_iff_key_le {a b : Event} : precedes a b = true ↔ a.key ≤ b.key := by
  simp [precedes_iff, key, Prod.Lex.le_iff]

theorem key_eq_iff {a b : Event} : a.key = b.key ↔ a.start = b.start ∧ a.duration = b.duration := by
  simp [key]

/-- Any two of the events that have equal starts and equal durations agree. -/
def TiesAgree (agree : Event → Event → Prop) (events : List Event) : Prop :=
  ∀ a ∈ events, ∀ b ∈ events, a.start = b.start → a.duration = b.duration → agree a b

variable {agree : Event → Event → Prop} {events events' : List Event}

/-- The keys of permuted events come out in the same order. -/
theorem map_key_sort (h : events.Perm events') : (sort events).map key = (sort events').map key := by
  have hsorted : ∀ es : List Event, ((sort es).map key).Pairwise (· ≤ ·) := by
    intro es
    refine List.pairwise_map.2 ((sort_pairwise es).imp ?_)
    intro a b hab
    exact precedes_iff_key_le.1 hab
  -- keys that precede each other are equal, so an order of them is the only one
  have hperm : (sort events).Perm (sort events') :=
    (sort_perm events).trans (h.trans (sort_perm events').symm)
  exact (hperm.map key).eq_of_pairwise (fun _ _ _ _ => le_antisymm) (hsorted events) (hsorted events')

/-- Only events of equal start and duration change places. -/
theorem forall₂_sort (h : events.Perm events') (hties : TiesAgree agree events) :
    List.Forall₂ (fun a b => (b.start = a.start ∧ b.duration = a.duration) ∧ agree a b) (sort events)
      (sort events') := by
  have hkeys : List.Forall₂ (fun a b => a.key = b.key) (sort events) (sort events') := by
    have hmap := map_key_sort h
    rwa [← List.forall₂_eq_eq_eq, List.forall₂_map_left_iff, List.forall₂_map_right_iff] at hmap
  refine List.forall₂_iff_zip.2 ⟨hkeys.length_eq, ?_⟩
  intro a b hab
  rcases key_eq_iff.1 (List.forall₂_zip hkeys hab) with ⟨hstart, hduration⟩
  -- both stand in the one list of events, so the ties among these say that they agree
  rcases List.of_mem_zip hab with ⟨ha, hb⟩
  have ha' : a ∈ events := (sort_perm events).mem_iff.1 ha
  have hb' : b ∈ events := h.mem_iff.2 ((sort_perm events').mem_iff.1 hb)
  exact ⟨⟨hstart.symm, hduration.symm⟩, hties a ha' b hb' hstart hduration⟩

/-- Where tied events are the same, permuted events come out the same. -/
theorem sort_congr (h : events.Perm events') (hties : TiesAgree Eq events) : sort events = sort events' := by
  have hsame := (forall₂_sort h hties).imp fun _ _ hab => hab.2
  rwa [List.forall₂_eq_eq_eq] at hsame

end Event

/-! ## Permuted timelines -/

namespace Timeline

variable {agree : Event → Event → Prop} {events events' : List Event} {total : Rat} {timeline timeline' : Timeline}

/-- The chunks of permuted events correspond, and what they carry agrees if ties do. -/
theorem forall₂_chunks_of_perm (h : events.Perm events') (hties : Event.TiesAgree agree events)
    (hfill : fill events total = .ok timeline) (hfill' : fill events' total = .ok timeline') :
    List.Forall₂ (Chunk.Corresponds agree) timeline.chunks timeline'.chunks := by
  have hmoved : ∀ e f : Event, (f.start = e.start ∧ f.duration = e.duration) ∧ agree e f →
      f.start = e.start + 0 ∧ f.duration = e.duration := by
    intro e f hef
    simpa only [add_zero] using hef.1
  have hwalks := @forall₂_chunksFrom _ 0 total 0 _ _ hmoved (Event.forall₂_sort h hties)
  simp only [add_zero] at hwalks
  obtain ⟨_, rfl⟩ := eq_of_fill hfill
  obtain ⟨_, rfl⟩ := eq_of_fill hfill'
  exact hwalks.imp fun _ _ hcd => hcd.imp fun _ _ hef => hef.2

/-- Permuted events have the same to report, whatever the ties are. -/
theorem notices_of_perm (h : events.Perm events') (hfill : fill events total = .ok timeline)
    (hfill' : fill events' total = .ok timeline') : timeline.notices = timeline'.notices := by
  have hsorted := @Event.forall₂_sort (fun _ _ => True) _ _ h fun _ _ _ _ _ _ => trivial
  obtain ⟨_, rfl⟩ := eq_of_fill hfill
  obtain ⟨_, rfl⟩ := eq_of_fill hfill'
  exact noticesFrom_congr (hsorted.imp fun _ _ hef => hef.1)

theorem write_congr (h : events.Perm events') (hties : Event.TiesAgree Eq events) :
    write events total = write events' total := by
  simp only [write, fill, Event.sort_congr h hties]

end Timeline

end Barline
