import Barline.Notice
import Barline.Snapshot.Error
import Barline.Writing

/-!
# Readings — a result or an error, with what was noticed on the way

Reading a snapshot stops at the first error, and on the way it may notice values that it mends. A reading keeps
both: the notices so far stay when an error ends it.
-/

namespace Barline

/-- The outcome of reading something, and what was noticed until then. -/
structure Reading (α : Type) where
  notices : List Notice
  outcome : Except SnapshotError α

namespace Reading

variable {α β : Type}

/-- A reading that succeeds and notices nothing. -/
def done (a : α) : Reading α :=
  ⟨[], .ok a⟩

/-- Goes on with the result of a reading, if it has one. -/
def next (x : Reading α) (f : α → Reading β) : Reading β :=
  match x.outcome with
  | .error e => ⟨x.notices, .error e⟩
  | .ok a => ⟨x.notices ++ (f a).notices, (f a).outcome⟩

instance : Monad Reading where
  pure := done
  bind := next

/-- A reading that notices nothing. -/
def ofExcept (outcome : Except SnapshotError α) : Reading α :=
  ⟨[], outcome⟩

instance : MonadLift (Except SnapshotError) Reading where
  monadLift := ofExcept

/-- A reading that stops with an error. -/
def fail (e : SnapshotError) : Reading α :=
  ofExcept (.error e)

/-- A reading that notices one thing. -/
def notice (n : Notice) : Reading Unit :=
  ⟨[n], .ok ()⟩

/-! ## Outcomes -/

@[simp] theorem outcome_pure (a : α) : (pure a : Reading α).outcome = .ok a := rfl

@[simp] theorem notices_pure (a : α) : (pure a : Reading α).notices = [] := rfl

@[simp] theorem outcome_bind (x : Reading α) (f : α → Reading β) :
    (x >>= f).outcome = x.outcome >>= fun a => (f a).outcome := by
  change (next x f).outcome = _
  unfold next
  cases h : x.outcome <;> rfl

theorem notices_bind (x : Reading α) (f : α → Reading β) :
    (x >>= f).notices = x.notices ++ (x.outcome.toOption.map fun a => (f a).notices).getD [] := by
  change (next x f).notices = _
  unfold next
  cases h : x.outcome <;> simp [Except.toOption]

instance : LawfulMonad Reading := LawfulMonad.mk' Reading
  (by
    intro α x
    change next x (fun a => done a) = x
    cases x with
    | mk notices outcome => cases outcome <;> simp [next, done])
  (by
    intro α β a f
    change next (done a) f = f a
    simp [next, done])
  (by
    intro α β γ x f g
    change next (next x f) g = next x fun a => next (f a) g
    cases x with
    | mk notices outcome =>
      cases outcome with
      | error e => rfl
      | ok a =>
        simp only [next]
        cases h : (f a).outcome <;> simp)

/-! ## Writing -/

/-- The notices that are written out: those before the first that is too long. -/
def writtenNotices (x : Reading α) : List Notice :=
  x.notices.takeWhile Notice.isWritable

/-- The outcome of a reading that is written out. A notice that is too long ends the reading where it stands. -/
def written (x : Reading α) : Except (WritingError SnapshotError) α := do
  WritingError.require (x.notices.all Notice.isWritable)
  x.outcome.mapError (WritingError.ofCause SnapshotError.isWritable)

/-- What is written is the outcome. -/
theorem outcome_of_written {x : Reading α} {a : α} (h : x.written = .ok a) : x.outcome = .ok a := by
  unfold written at h
  cases hn : x.notices.all Notice.isWritable with
  | false => simp [hn, bind, Except.bind] at h
  | true =>
    cases ho : x.outcome with
    | error e => simp [hn, ho, bind, Except.bind] at h
    | ok b => simpa [hn, ho, bind, Except.bind] using h

end Reading

end Barline
