import Barline.Proofs.Timeline.Order
import Barline.Proofs.Value.Equality

/-!
# Related voices — what corresponds in a timeline corresponds in its voices

Events may set the same attributes to values that are not the same but related: equal, or written alike. Where the
chunks of two timelines carry events that are related in this way, the cells of their voices are related one by one, the
held roots included. The scale of an event is a name and everything else a number, so the two have a relation each.

* `Voices.forall₂_ofChunks` is about the voices of two timelines.
* `Cell.all_isWritable_eq` says that equal cells can be written together or not at all.
* `Program.layout_eq` says that cells that are written alike make up the same program.
-/

namespace Barline

/-! ## Attributes, events and cells -/

/-- Attributes of one form with related values. -/
inductive Attribute.Related (item : Value → Value → Prop) : Attribute → Attribute → Prop where
  | scalar {v w : Value} (h : item v w) : Related item (.scalar v) (.scalar w)
  | chord {vs ws : List Value} (h : List.Forall₂ item vs ws) : Related item (.chord vs) (.chord ws)

/-- Events of one start and one duration that set the same attributes to related values. -/
structure Event.Related (name number : Value → Value → Prop) (e f : Event) : Prop where
  start : e.start = f.start
  duration : e.duration = f.duration
  scale : Option.Rel name e.scale f.scale
  root : Option.Rel (Attribute.Related number) e.root f.root
  degree : Option.Rel (Attribute.Related number) e.degree f.degree
  octave : Option.Rel (Attribute.Related number) e.octave f.octave
  legato : Option.Rel (Attribute.Related number) e.legato f.legato
  amp : Option.Rel (Attribute.Related number) e.amp f.amp
  strum : Option.Rel number e.strum f.strum

/-- Two rests, or two cells with related attributes. -/
inductive Cell.Related (item : Value → Value → Prop) : Cell → Cell → Prop where
  | rest : Related item .rest .rest
  | value {a b : Attribute} (h : Attribute.Related item a b) : Related item (.value a) (.value b)

/-- The relation between the values of a voice. -/
def Voice.Related (name number : Value → Value → Prop) : Voice → Value → Value → Prop
  | .scale => name
  | _ => number

@[simp] theorem Voice.related_self (item : Value → Value → Prop) (v : Voice) : v.Related item item = item := by
  cases v <;> rfl

/-- Events that are equal in all fields. -/
abbrev Event.Equal : Event → Event → Prop :=
  Related Value.Equal Value.Equal

/-- Events that are written in the same way: they have the same scale, and their numbers are written alike. -/
abbrev Event.WrittenAlike : Event → Event → Prop :=
  Related Eq Value.WrittenAlike

/-- Cells that are equal. -/
abbrev Cell.Equal : Cell → Cell → Prop :=
  Related Value.Equal

section Relations

variable {name number name' number' : Value → Value → Prop}

theorem Attribute.Related.refl (hrefl : ∀ v, number v v) (a : Attribute) : Related number a a := by
  cases a with
  | scalar v => exact .scalar (hrefl v)
  | chord vs => exact .chord (List.forall₂_same.2 fun v _ => hrefl v)

theorem Attribute.Related.imp {a b : Attribute} (himp : ∀ v w, number v w → number' v w) (h : Related number a b) :
    Related number' a b := by
  cases h with
  | scalar h => exact .scalar (himp _ _ h)
  | chord h => exact .chord (h.imp himp)

theorem Event.Related.refl (hname : ∀ v, name v v) (hnumber : ∀ v, number v v) (e : Event) :
    Related name number e e := by
  have hrel : ∀ {α : Type} {r : α → α → Prop} (o : Option α), (∀ x, r x x) → Option.Rel r o o := by
    intro α r o hrefl
    cases o with
    | none => exact .none
    | some x => exact .some (hrefl x)
  have hfield : ∀ o : Option Attribute, Option.Rel (Attribute.Related number) o o :=
    fun o => hrel o (Attribute.Related.refl hnumber)
  exact ⟨rfl, rfl, hrel _ hname, hfield _, hfield _, hfield _, hfield _, hfield _, hrel _ hnumber⟩

theorem Event.Related.imp {e f : Event} (hname : ∀ v w, name v w → name' v w)
    (hnumber : ∀ v w, number v w → number' v w) (h : Related name number e f) : Related name' number' e f := by
  have hrel : ∀ {α : Type} {r s : α → α → Prop} {o o' : Option α}, (∀ x y, r x y → s x y) →
      Option.Rel r o o' → Option.Rel s o o' := by
    intro α r s o o' himp ho
    cases ho with
    | none => exact .none
    | some hxy => exact .some (himp _ _ hxy)
  have hfield : ∀ {o o' : Option Attribute}, Option.Rel (Attribute.Related number) o o' →
      Option.Rel (Attribute.Related number') o o' := hrel fun _ _ => Attribute.Related.imp hnumber
  exact ⟨h.start, h.duration, hrel hname h.scale, hfield h.root, hfield h.degree, hfield h.octave, hfield h.legato,
    hfield h.amp, hrel hnumber h.strum⟩

/-- What is written alike is equal. -/
theorem Event.WrittenAlike.equal {e f : Event} (h : WrittenAlike e f) : Equal e f := by
  refine Event.Related.imp ?_ (fun _ _ => Value.WrittenAlike.equal) h
  rintro v _ rfl
  exact .same v

end Relations

/-! ## Voices -/

section Voices

variable {name number item : Value → Value → Prop} {cs ds : List Chunk}

theorem Cell.related_ofAttribute? {a b : Option Attribute} (h : Option.Rel (Attribute.Related item) a b) :
    Related item (ofAttribute? a) (ofAttribute? b) := by
  cases h with
  | none => exact .rest
  | some h => exact .value h

theorem Cell.related_ofValue? {v w : Option Value} (h : Option.Rel item v w) :
    Related item (ofValue? v) (ofValue? w) := by
  cases h with
  | none => exact .rest
  | some h => exact .value (.scalar h)

/-- Where events have related cells, so do the chunks that carry them. -/
theorem Chunk.forall₂_map_cell {related : Event → Event → Prop} {ofEvent : Event → Cell}
    (hcell : ∀ e f, related e f → Cell.Related item (ofEvent e) (ofEvent f))
    (h : List.Forall₂ (Corresponds related) cs ds) :
    List.Forall₂ (Cell.Related item) (cs.map (cell ofEvent)) (ds.map (cell ofEvent)) := by
  rw [List.forall₂_map_left_iff, List.forall₂_map_right_iff]
  refine h.imp ?_
  intro c d hcd
  cases hcd with
  | rest d => exact .rest
  | note d hef => exact hcell _ _ hef

theorem getD_related {α : Type} {r : α → α → Prop} {a b : Option α} {x y : α} (h : Option.Rel r a b) (hxy : r x y) :
    r (a.getD x) (b.getD y) := by
  cases h with
  | none => exact hxy
  | some h => exact h

/-- Related roots are held if related ones are set, whatever related root was held before. -/
theorem Chunk.forall₂_heldRoots {before before' : Attribute} (hbefore : Attribute.Related number before before')
    (h : List.Forall₂ (Corresponds (Event.Related name number)) cs ds) :
    List.Forall₂ (Attribute.Related number) (heldRoots before cs) (heldRoots before' ds) := by
  induction h generalizing before before' with
  | nil => exact .nil
  | @cons c d cs ds hcd _ ih =>
    have hhold : Attribute.Related number (hold before c) (hold before' d) := by
      cases hcd with
      | rest d => exact hbefore
      | note d hef => exact getD_related hef.root hbefore
    exact .cons hhold (ih hhold)

/-- The voices of corresponding chunks have related cells. -/
theorem Voices.forall₂_ofChunks (hrefl : ∀ v, number v v)
    (h : List.Forall₂ (Chunk.Corresponds (Event.Related name number)) cs ds) (v : Voice) :
    List.Forall₂ (Cell.Related (v.Related name number)) (ofChunks cs v) (ofChunks ds v) := by
  -- only the root is held from chunk to chunk, all else goes by the event of the chunk
  cases v with
  | scale => exact Chunk.forall₂_map_cell (fun _ _ hef => Cell.related_ofValue? hef.scale) h
  | octave => exact Chunk.forall₂_map_cell (fun _ _ hef => Cell.related_ofAttribute? hef.octave) h
  | degree => exact Chunk.forall₂_map_cell (fun _ _ hef => Cell.related_ofAttribute? hef.degree) h
  | legato => exact Chunk.forall₂_map_cell (fun _ _ hef => Cell.related_ofAttribute? hef.legato) h
  | amp => exact Chunk.forall₂_map_cell (fun _ _ hef => Cell.related_ofAttribute? hef.amp) h
  | strum =>
    exact Chunk.forall₂_map_cell (fun _ _ hef => .value (.scalar (getD_related hef.strum (hrefl (.int 0))))) h
  | root =>
    have hroots := Chunk.forall₂_heldRoots (Attribute.Related.refl hrefl initialRoot) h
    simp only [ofChunks]
    rw [List.forall₂_map_left_iff, List.forall₂_map_right_iff]
    exact hroots.imp fun _ _ => Cell.Related.value
  | dur =>
    simp only [ofChunks]
    rw [List.forall₂_map_left_iff, List.forall₂_map_right_iff]
    refine h.imp ?_
    intro c d hcd
    rw [hcd.duration_eq]
    exact .value (.scalar (hrefl _))

end Voices

/-! ## What is written of cells -/

namespace Cell

variable {c d : Cell} {cells cells' : List Cell}

/-- Of two equal cells both can be written, or none can. -/
theorem isWritable_eq (h : Equal c d) : c.isWritable = d.isWritable := by
  cases h with
  | rest => rfl
  | value h =>
    cases h with
    | scalar h => simp [isWritable, Attribute.values, h.isWritable_eq]
    | @chord vs ws h =>
      simp only [isWritable, Attribute.values]
      induction h with
      | nil => rfl
      | cons hvw _ ih => rw [List.all_cons, List.all_cons, hvw.isWritable_eq, ih]

theorem all_isWritable_eq (h : List.Forall₂ Equal cells cells') : cells.all isWritable = cells'.all isWritable := by
  induction h with
  | nil => rfl
  | cons hcd _ ih => rw [List.all_cons, List.all_cons, isWritable_eq hcd, ih]

end Cell

namespace Program

variable {voices voices' : Voices}

theorem cellToken_eq {item : Value → Value → Prop} {token : Value → Text} (htoken : ∀ v w, item v w → token v = token w)
    {c d : Cell} (h : Cell.Related item c d) : cellToken token c = cellToken token d := by
  cases h with
  | rest => rfl
  | value h =>
    cases h with
    | scalar h => exact htoken _ _ h
    | @chord vs ws h =>
      have hmap : vs.map token = ws.map token := by
        rw [← List.forall₂_eq_eq_eq, List.forall₂_map_left_iff, List.forall₂_map_right_iff]
        exact h.imp htoken
      simp only [cellToken, attributeToken, hmap]

/-- Cells that are written alike make up the same program. -/
theorem layout_eq (h : ∀ v, List.Forall₂ (Cell.Related (v.Related Eq Value.WrittenAlike)) (voices v) (voices' v))
    (instrument : Text) (repeats : String) (compressed : Bool) :
    layout instrument repeats compressed voices = layout instrument repeats compressed voices' := by
  have htoken : ∀ (v : Voice) (x y : Value), v.Related Eq Value.WrittenAlike x y →
      itemToken v.name x = itemToken v.name y := by
    intro v x y hxy
    cases v with
    | scale => exact congrArg scaleToken hxy
    | _ => exact Value.WrittenAlike.token_eq hxy
  have htokens : ∀ v, tokens v.name (voices v) = tokens v.name (voices' v) := by
    intro v
    rw [tokens, tokens, ← List.forall₂_eq_eq_eq, List.forall₂_map_left_iff, List.forall₂_map_right_iff]
    exact (h v).imp fun _ _ => cellToken_eq (htoken v)
  simp only [layout, line, htokens]

end Program

end Barline
