import Barline.Proofs.Program.Token
import Barline.Proofs.Timeline.Walk
import Barline.Proofs.Voice.HeldRoot

/-!
# Legible points — voices that are written in words

The notes of a point are *legible* if their scales have a name and everything else that they set is a number. Then
all cells of all voices are written in words, through the events that the point is played as, the chunks that carry
them and the root that is held.
-/

namespace Barline

/-- A number of any kind. -/
def Value.IsNumber (v : Value) : Prop :=
  ∃ x, v = .number x

/-- A text that is a name. -/
def Value.IsName (v : Value) : Prop :=
  ∃ t, v = .text t ∧ Program.IsName t

/-! ## Points and events -/

/-- The scale of a note has a name, and everything else that the note sets is a number. -/
structure Note.Legible (n : Note) : Prop where
  scale : ∀ v ∈ n.scale, v.IsName
  root : ∀ v ∈ n.root, v.IsNumber
  degree : ∀ v ∈ n.degree, v.IsNumber
  octave : ∀ v ∈ n.octave, v.IsNumber
  legato : ∀ v ∈ n.legato, v.IsNumber
  amp : ∀ v ∈ n.amp, v.IsNumber

structure Point.Legible (p : Point) : Prop where
  notes : ∀ n ∈ p.notes, n.Legible
  strum : ∀ v ∈ p.strum, v.IsNumber

/-- All values of an attribute are numbers. -/
def Attribute.AreNumbers (a : Attribute) : Prop :=
  ∀ v ∈ a.values, v.IsNumber

structure Event.Legible (e : Event) : Prop where
  scale : ∀ v ∈ e.scale, v.IsName
  root : ∀ a ∈ e.root, a.AreNumbers
  degree : ∀ a ∈ e.degree, a.AreNumbers
  octave : ∀ a ∈ e.octave, a.AreNumbers
  legato : ∀ a ∈ e.legato, a.AreNumbers
  amp : ∀ a ∈ e.amp, a.AreNumbers
  strum : ∀ v ∈ e.strum, v.IsNumber

theorem Attribute.areNumbers_of_project {settings : List (Option Value)}
    (h : ∀ s ∈ settings, ∀ v ∈ s, v.IsNumber) : ∀ a ∈ project settings, a.AreNumbers := by
  have hset : ∀ v ∈ settings.filterMap id, v.IsNumber := by
    intro v hv
    rcases List.mem_filterMap.1 hv with ⟨s, hs, hsv⟩
    exact h s hs v hsv
  intro a ha v hv
  refine hset v ?_
  -- a scalar and a chord have the same values as the notes that set them
  unfold project at ha
  split at ha
  · simp at ha
  · next w hw =>
    obtain rfl : scalar w = a := Option.some.inj ha
    rw [hw]
    exact hv
  · obtain rfl := Option.some.inj ha
    exact hv

theorem Attribute.areNumbers_scalar_int (n : Int) : (Attribute.scalar (.int n)).AreNumbers := by
  intro v hv
  rw [List.mem_singleton.1 hv]
  exact ⟨_, rfl⟩

theorem Note.isName_scaleOf {notes : List Note} (h : ∀ n ∈ notes, n.Legible) :
    ∀ v ∈ scaleOf notes, v.IsName := by
  intro v hv
  rcases List.exists_of_findSome?_eq_some hv with ⟨n, hn, hscale⟩
  exact (h n hn).scale v (Option.filter_eq_some_iff.1 hscale).1

theorem Point.Legible.event {p : Point} (h : p.Legible) : p.event.Legible := by
  have hproject : ∀ field : Note → Option Value, (∀ n ∈ p.notes, ∀ v ∈ field n, v.IsNumber) →
      ∀ a ∈ Attribute.project (p.notes.map field), a.AreNumbers := by
    intro field hfield
    refine Attribute.areNumbers_of_project ?_
    intro s hs
    rcases List.mem_map.1 hs with ⟨n, hn, rfl⟩
    exact hfield n hn
  have hdefault : ∀ field : Note → Option Value, (∀ n ∈ p.notes, ∀ v ∈ field n, v.IsNumber) →
      ∀ a ∈ (Attribute.project (p.notes.map field)).or (some (.scalar (.int 1))), a.AreNumbers := by
    intro field hfield a ha
    rcases Option.or_eq_some_iff.1 ha with ha | ⟨_, ha⟩
    · exact hproject field hfield a ha
    · -- no note sets it, so it is one
      rw [← Option.some.inj ha]
      exact Attribute.areNumbers_scalar_int 1
  exact {
    scale := Note.isName_scaleOf h.notes
    root := hproject _ fun n hn => (h.notes n hn).root
    degree := hproject _ fun n hn => (h.notes n hn).degree
    octave := hproject _ fun n hn => (h.notes n hn).octave
    legato := hdefault _ fun n hn => (h.notes n hn).legato
    amp := hdefault _ fun n hn => (h.notes n hn).amp
    strum := h.strum }

theorem Point.Legible.occurrences {p : Point} (h : p.Legible) : ∀ e ∈ p.occurrences, e.Legible := by
  intro e he
  rcases List.mem_map.1 he with ⟨k, _, rfl⟩
  have hevent := h.event
  exact ⟨hevent.scale, hevent.root, hevent.degree, hevent.octave, hevent.legato, hevent.amp, hevent.strum⟩

/-- The chunks that carry what sounds among legible events carry legible events. -/
theorem Chunk.Fill.legible {events : List Event} {t u : Rat} {cs : List Chunk}
    (h : Fill (Event.sounding events) t u cs) (hevents : ∀ e ∈ events, e.Legible) :
    ∀ c ∈ cs, ∀ e ∈ c.event?, e.Legible := by
  intro c hc e he
  rcases h.exists_instant c hc with ⟨x, hx⟩
  exact hevents e (Event.mem_of_sounding (hx.symm.trans he))

/-! ## Voices -/

namespace Voices

open Program

variable {cs : List Chunk}

/-- Every voice has one cell for each chunk. -/
theorem length_ofChunks (cs : List Chunk) (v : Voice) : (ofChunks cs v).length = cs.length := by
  cases v with
  | root => rw [ofChunks, List.length_map, Chunk.length_heldRoots]
  | _ => rw [ofChunks, List.length_map]

theorem areNumbers_heldRoots {before : Attribute} (hbefore : before.AreNumbers)
    (h : ∀ c ∈ cs, ∀ e ∈ c.event?, e.Legible) : ∀ a ∈ Chunk.heldRoots before cs, a.AreNumbers := by
  -- the root before the first chunk changes along the list
  induction cs generalizing before with
  | nil => simp [Chunk.heldRoots]
  | cons c later ih =>
    have hhold : (Chunk.hold before c).AreNumbers := by
      cases c with
      | rest d => exact hbefore
      | note d e =>
        have he : e.Legible := h (.note d e) (List.mem_cons_self ..) e rfl
        rw [Chunk.hold]
        cases hroot : e.root with
        | none => exact hbefore
        | some a => exact he.root a hroot
    rw [Chunk.heldRoots, List.forall_mem_cons]
    exact ⟨hhold, ih hhold fun d hd => h d (List.mem_cons_of_mem c hd)⟩

theorem isWord_token_of_isNumber {v : Value} (h : v.IsNumber) : IsWord v.token := by
  rcases h with ⟨x, rfl⟩
  exact isWord_numberToken x

theorem writtenInWords_of_areNumbers {a : Attribute} (h : a.AreNumbers) :
    WrittenInWords Value.token (.value a) := by
  intro v hv
  exact isWord_token_of_isNumber (h v hv)

theorem writtenInWords_ofAttribute? {a : Option Attribute} (h : ∀ b ∈ a, b.AreNumbers) :
    WrittenInWords Value.token (.ofAttribute? a) := by
  cases a with
  | none => trivial
  | some a => exact writtenInWords_of_areNumbers (h a rfl)

theorem writtenInWords_scalar {v : Value} (h : v.IsNumber) : WrittenInWords Value.token (.scalar v) := by
  intro w hw
  rw [List.mem_singleton.1 hw]
  exact isWord_token_of_isNumber h

theorem writtenInWords_scale {scale : Option Value} (h : ∀ v ∈ scale, v.IsName) :
    WrittenInWords scaleToken (.ofValue? scale) := by
  cases scale with
  | none => trivial
  | some v =>
    rcases h v rfl with ⟨t, rfl, ht⟩
    intro w hw
    rw [List.mem_singleton.1 hw]
    exact isWord_scaleToken ht

/-- In all voices of legible events the cells are written in words. -/
theorem writtenInWords_ofChunks (h : ∀ c ∈ cs, ∀ e ∈ c.event?, e.Legible) (v : Voice) :
    ∀ cell ∈ ofChunks cs v, WrittenInWords (itemToken v.name) cell := by
  have hcell : ∀ (item : Value → Text) (ofEvent : Event → Cell),
      (∀ e : Event, e.Legible → WrittenInWords item (ofEvent e)) →
        ∀ cell ∈ cs.map (Chunk.cell ofEvent), WrittenInWords item cell := by
    intro item ofEvent hevent cell hcell
    rcases List.mem_map.1 hcell with ⟨c, hc, rfl⟩
    cases c with
    | rest d => trivial
    | note d e => exact hevent e (h _ hc e rfl)
  cases v with
  | scale => exact hcell _ _ fun e he => writtenInWords_scale he.scale
  | root =>
    intro cell hroot
    rcases List.mem_map.1 hroot with ⟨a, ha, rfl⟩
    exact writtenInWords_of_areNumbers (areNumbers_heldRoots (Attribute.areNumbers_scalar_int 0) h a ha)
  | octave => exact hcell _ _ fun e he => writtenInWords_ofAttribute? he.octave
  | degree => exact hcell _ _ fun e he => writtenInWords_ofAttribute? he.degree
  | legato => exact hcell _ _ fun e he => writtenInWords_ofAttribute? he.legato
  | amp => exact hcell _ _ fun e he => writtenInWords_ofAttribute? he.amp
  | strum =>
    refine hcell _ _ ?_
    intro e he
    refine writtenInWords_scalar ?_
    cases hstrum : e.strum with
    | none => exact ⟨_, rfl⟩
    | some v => exact he.strum v hstrum
  | dur =>
    intro cell hdur
    rcases List.mem_map.1 hdur with ⟨c, _, rfl⟩
    exact writtenInWords_scalar ⟨_, rfl⟩

/-- In all voices of legible events the reader takes every token for one. -/
theorem isToken_ofChunks (h : ∀ c ∈ cs, ∀ e ∈ c.event?, e.Legible) (v : Voice) :
    ∀ t ∈ tokens v.name (ofChunks cs v), IsToken t := by
  intro t ht
  rcases List.mem_map.1 ht with ⟨cell, hcell, rfl⟩
  exact isToken_cellToken (writtenInWords_ofChunks h v cell hcell)

end Voices

end Barline
