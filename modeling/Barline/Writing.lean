import Barline.Numeral

/-!
# Writing — results that are written out

Results, errors and notices are values, and it makes no difference to them how long their numbers are. Once they are
written out it does: a whole number beyond the limit has no text. Then there is nothing but the fault that says so, in
place of a result as well as in place of another error.
-/

namespace Barline

/-- Why a result is not written out: for a cause of its own, or for the length of a number. -/
inductive WritingError (ε : Type) where
  | cause (e : ε)
  | tooLong
  deriving DecidableEq, Repr

namespace WritingError

variable {ε : Type}

/-- An error with the given cause, unless its wording has a number that is too long. -/
def ofCause (isWritable : ε → Bool) (e : ε) : WritingError ε :=
  if isWritable e then cause e else tooLong

/-- The wording of an error, given that of causes. -/
def message (wording : ε → Text) : WritingError ε → Text
  | cause e => wording e
  | tooLong => Numeral.tooLongToWrite

/-- Goes on if all that has to be written can be. -/
def require (isWritable : Bool) : Except (WritingError ε) Unit :=
  if isWritable then .ok () else .error tooLong

/-- A result, if all that has to be written of it can be. -/
def limited {α : Type} (isWritable : Bool) (a : α) : Except (WritingError ε) α := do
  require isWritable
  return a

@[simp] theorem require_true : (require true : Except (WritingError ε) Unit) = .ok () := rfl

@[simp] theorem require_false : (require false : Except (WritingError ε) Unit) = .error tooLong := rfl

@[simp] theorem limited_true {α : Type} (a : α) : (limited true a : Except (WritingError ε) α) = .ok a := rfl

@[simp] theorem limited_false {α : Type} (a : α) : (limited false a : Except (WritingError ε) α) = .error tooLong := rfl

@[simp] theorem mapError_ok {δ α : Type} (f : δ → ε) (a : α) : (Except.ok a).mapError f = .ok a := rfl

@[simp] theorem mapError_error {δ α : Type} (f : δ → ε) (e : δ) :
    (Except.error e : Except δ α).mapError f = .error (f e) := rfl

end WritingError

end Barline
