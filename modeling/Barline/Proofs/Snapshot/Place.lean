import Barline.Proofs.Snapshot.Fields

/-!
# Places — where an error says that reading stopped

Nearly every error holds a path, and its message begins with the text of that path. A reader of one field is given the
path of the field and does nothing with it but to put it into its errors. `ReportsAt` says so: the errors stand at the
path, and for another path they are the same errors there. What a note or a point reports stands at its own path or at
a field below (`Path.Within`).
-/

namespace Barline

/-! ## Ways through fields -/

namespace Path

/-- The names of the fields at which a point or a note may be refused. -/
def fieldNames : List String :=
  ["start", "duration", "notes", "strum", "scale", "root", "degree", "octave", "legato", "amp"]

/-- The text of a way through fields and items of fields; a way that goes nowhere has none. -/
inductive IsWay : Text → Prop where
  | here : IsWay []
  | field {way : Text} {name : String} (h : IsWay way) (hname : name ∈ fieldNames) : IsWay (way ++ "." ++ name)
  | item {way : Text} {name : String} (h : IsWay way) (hname : name ∈ fieldNames) (index : Nat) :
      IsWay (way ++ "." ++ name ++ "[" ++ toString (index : Int) ++ "]")

/-- A path that is another one, or goes on from it through fields and items of fields. -/
inductive Within (root : Path) : Path → Prop where
  | here : Within root root
  | field {path : Path} {name : String} (h : Within root path) (hname : name ∈ fieldNames) :
      Within root (path.field name)
  | item {path : Path} {name : String} (h : Within root path) (hname : name ∈ fieldNames) (index : Nat) :
      Within root ((path.field name).item index)

theorem Within.exists_way {root path : Path} (h : root.Within path) :
    ∃ way, IsWay way ∧ path.text = root.text ++ way := by
  induction h with
  | here => exact ⟨[], .here, (List.append_nil _).symm⟩
  | field _ hname ih =>
    obtain ⟨way, hway, htext⟩ := ih
    exact ⟨_, hway.field hname, by simp only [text, htext, List.append_assoc]⟩
  | item _ hname index ih =>
    obtain ⟨way, hway, htext⟩ := ih
    exact ⟨_, hway.item hname index, by simp only [text, htext, List.append_assoc]⟩

/-- A message that begins with a path, on which a way through fields may follow, and then a colon. -/
def Opens (root : Path) (message : Text) : Prop :=
  ∃ way reason, IsWay way ∧ message = root.text ++ way ++ ": " ++ reason

end Path

/-! ## The path of an error -/

namespace SnapshotError

/-- Where the error stands. Only what is no snapshot at all has no place in one. -/
def path? : SnapshotError → Option Path
  | notNumber path _ | notFinite path _ | notWhole path _ | negativeNumber path _ | notFlag path _ | notScale path _
  | notMapping path _ | notList path _ | notExact path _ | missing path | notPositive path _
  | negativeTime path _ => some path
  | notSnapshot _ | fileNotSnapshot _ _ => none

/-- The same error at another place. -/
def mapPath (f : Path → Path) : SnapshotError → SnapshotError
  | notNumber path v => notNumber (f path) v
  | notFinite path v => notFinite (f path) v
  | notWhole path v => notWhole (f path) v
  | negativeNumber path v => negativeNumber (f path) v
  | notFlag path v => notFlag (f path) v
  | notScale path v => notScale (f path) v
  | notMapping path v => notMapping (f path) v
  | notList path v => notList (f path) v
  | notExact path cause => notExact (f path) cause
  | missing path => missing (f path)
  | notPositive path q => notPositive (f path) q
  | negativeTime path q => negativeTime (f path) q
  | notSnapshot v => notSnapshot v
  | fileNotSnapshot file v => fileNotSnapshot file v

variable {e : SnapshotError} {path : Path}

theorem isWritable_mapPath (f : Path → Path) (e : SnapshotError) : (e.mapPath f).isWritable = e.isWritable := by
  cases e <;> rfl

theorem mapPath_eq_self {f : Path → Path} (h : ∀ path, e.path? = some path → f path = path) : e.mapPath f = e := by
  cases e with
  | notSnapshot v => rfl
  | fileNotSnapshot file v => rfl
  | _ =>
    have hf := h _ rfl
    simp only [mapPath, hf]

theorem exists_reason_of {wording : Text} (rest : Text) (h : wording.take 2 = Text.ofString ": ") (path : Path) :
    ∃ reason, ∀ f : Path → Path, (f path).text ++ wording ++ rest = (f path).text ++ ": " ++ reason := by
  refine ⟨wording.drop 2 ++ rest, fun f => ?_⟩
  rw [← h, List.append_assoc, List.append_assoc, ← List.append_assoc (wording.take 2), List.take_append_drop]

/-- A message is the text of the path, a colon and a reason, which does not depend on the path. -/
theorem exists_reason (h : e.path? = some path) :
    ∃ reason, ∀ f, (e.mapPath f).message = (f path).text ++ ": " ++ reason := by
  cases e with
  | missing p =>
    obtain rfl := Option.some.inj h
    exact ⟨"missing", fun f => by rw [mapPath, message, List.append_assoc]; rfl⟩
  | notSnapshot v => cases h
  | fileNotSnapshot file v => cases h
  | _ =>
    obtain rfl := Option.some.inj h
    exact exists_reason_of _ (by decide) _

theorem mapPath_id (e : SnapshotError) : e.mapPath id = e := by
  cases e <;> rfl

theorem opens_message {root : Path} (h : e.path? = some path) (hpath : root.Within path) : root.Opens e.message := by
  obtain ⟨reason, hreason⟩ := exists_reason h
  obtain ⟨way, hway, htext⟩ := hpath.exists_way
  refine ⟨way, reason, hway, ?_⟩
  have hmessage : (e.mapPath id).message = path.text ++ ": " ++ reason := hreason id
  rwa [mapPath_id, htext] at hmessage

end SnapshotError

/-! ## Readers of fields -/

/-- A reader that is given a path reports its errors there, and does nothing else with it. -/
structure ReportsAt {α : Type} (F : Path → Except SnapshotError α) : Prop where
  place : ∀ path e, F path = .error e → e.path? = some path
  natural : ∀ f path, F (f path) = (F path).mapError (SnapshotError.mapPath f)

section ReportsAt

open WritingError

variable {α β : Type}

theorem mapError_bind (g : SnapshotError → SnapshotError) (x : Except SnapshotError α)
    (f : α → Except SnapshotError β) : (x >>= f).mapError g = x.mapError g >>= fun a => (f a).mapError g := by
  cases x <;> rfl

theorem reportsAt_ok (a : α) : ReportsAt fun _ => .ok a := by
  refine ⟨fun path e h => ?_, fun f path => rfl⟩
  cases h

theorem reportsAt_error {make : Path → SnapshotError} (hplace : ∀ path, (make path).path? = some path)
    (hnatural : ∀ f path, make (f path) = (make path).mapPath f) :
    ReportsAt fun path => (.error (make path) : Except SnapshotError α) := by
  refine ⟨fun path e h => ?_, fun f path => ?_⟩
  · obtain rfl := Except.error.inj h
    exact hplace path
  · rw [hnatural, mapError_error]

theorem ReportsAt.bind {F : Path → Except SnapshotError α} {G : α → Path → Except SnapshotError β}
    (hF : ReportsAt F) (hG : ∀ a, ReportsAt (G a)) : ReportsAt fun path => F path >>= fun a => G a path := by
  refine ⟨fun path e h => ?_, fun f path => ?_⟩
  · cases hresult : F path with
    | error e' =>
      rw [hresult] at h
      obtain rfl := Except.error.inj h
      exact hF.place path _ hresult
    | ok a =>
      rw [hresult] at h
      exact (hG a).place path e h
  · rw [mapError_bind, hF.natural]
    simp only [(hG _).natural]

namespace Field

theorem reportsAt_number (v : Value) : ReportsAt fun path => number path v := by
  have hrefused : ReportsAt fun path => (.error (.notNumber path v) : Except SnapshotError Number) :=
    reportsAt_error (fun _ => rfl) fun _ _ => rfl
  cases v with
  | number x => exact reportsAt_ok x
  | text s =>
    simp only [number]
    cases Double.read? (Text.trimmed s) with
    | some d => exact reportsAt_ok _
    | none => exact hrefused
  | _ => exact hrefused

theorem reportsAt_whole (v : Value) : ReportsAt fun path => whole path v := by
  unfold whole
  by_cases hblank : v.isBlank = true
  · simp only [hblank, if_true]
    exact reportsAt_ok none
  · simp only [hblank]
    refine (reportsAt_number v).bind fun x => ?_
    cases x.toRat? with
    | none => exact reportsAt_error (fun _ => rfl) fun _ _ => rfl
    | some q =>
      by_cases hden : q.den = 1
      · simp only [hden, if_true]
        exact reportsAt_ok _
      · simp only [hden, if_false]
        exact reportsAt_error (fun _ => rfl) fun _ _ => rfl

theorem reportsAt_nonNegative (default : Number) (v : Value) : ReportsAt fun path => nonNegative path default v := by
  unfold nonNegative
  by_cases hblank : v.isBlank = true
  · simp only [hblank, if_true]
    exact reportsAt_ok default
  · simp only [hblank]
    refine (reportsAt_number v).bind fun x => ?_
    cases x.isNonNegative with
    | true => exact reportsAt_ok x
    | false => exact reportsAt_error (fun _ => rfl) fun _ _ => rfl

theorem reportsAt_time (v : Value) : ReportsAt fun path => time path v := by
  unfold time
  cases v.exact with
  | ok q => exact reportsAt_ok q
  | error cause => exact reportsAt_error (fun _ => rfl) fun _ _ => rfl

theorem reportsAt_mapping (v : Value) : ReportsAt fun path => mapping path v := by
  cases v with
  | null => exact reportsAt_ok _
  | mapping entries => exact reportsAt_ok entries
  | _ => exact reportsAt_error (fun _ => rfl) fun _ _ => rfl

end Field

theorem Note.reportsAt_readScale (v : Value) : ReportsAt fun path => readScale path v := by
  unfold readScale
  by_cases hblank : v.isBlank = true
  · simp only [hblank, if_true]
    exact reportsAt_ok none
  · simp only [hblank]
    cases v with
    | text s => exact reportsAt_ok _
    | _ => exact reportsAt_error (fun _ => rfl) fun _ _ => rfl

theorem Point.reportsAt_readStart (v : Value) : ReportsAt fun path => readStart path v := by
  unfold readStart
  by_cases hblank : v.isBlank = true
  · simp only [hblank, if_true]
    exact reportsAt_ok 0
  · simp only [hblank]
    exact Field.reportsAt_time v

theorem Point.reportsAt_readStrum (v : Value) : ReportsAt fun path => readStrum path v := by
  unfold readStrum
  by_cases hblank : v.isBlank = true
  · simp only [hblank, if_true]
    exact reportsAt_ok none
  · simp only [hblank]
    exact (Field.reportsAt_nonNegative _ v).bind fun x => reportsAt_ok _

end ReportsAt

end Barline
