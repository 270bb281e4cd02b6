import Barline.Text.Quoted

/-!
# Encoding — texts as bytes

The name of a file is a sequence of bytes. A character has the bytes of its UTF-8 form. Of the surrogates, 128 stand for
one byte each, for names that are no UTF-8; the others have no bytes, so a text that holds one names no file. Where a
text is printed as UTF-8, no surrogate has any bytes.
-/

namespace Barline

namespace CodePoint

def isSurrogate : CodePoint → Bool
  | char _ => false
  | surrogate _ => true

/-- The number of bytes of a code point, if it has any. The surrogates that stand for bytes are DC80 to DCFF. -/
def byteCount? : CodePoint → Option Nat
  | char c => some c.utf8Size
  | surrogate index => if 0x480 ≤ index.val && index.val < 0x500 then some 1 else none

end CodePoint

namespace Text

/-- The number of bytes of a text; what has no bytes does not count. -/
def byteCount (t : Text) : Nat :=
  t.foldl (fun n p => n + p.byteCount?.getD 0) 0

/-- The first code point that passes a test, by its position, together with the surrogates from there on without a
gap. -/
def surrogatesFrom? (test : CodePoint → Bool) (t : Text) : Option (Nat × Text) :=
  (t.findIdx? test).map fun i => (i, (t.drop i).takeWhile CodePoint.isSurrogate)

/-- The first code point without bytes, by its position, together with the surrogates that follow it without a gap. -/
def withoutBytes? (t : Text) : Option (Nat × Text) :=
  t.surrogatesFrom? fun p => p.byteCount?.isNone

/-- What is said of surrogates without bytes. -/
def withoutBytesMessage (position : Nat) (surrogates : Text) : String :=
  let place := match surrogates with
    | [p] => " '" ++ String.ofList (showByNumber p.toNat) ++ "' in position " ++ Nat.repr position
    | _ =>
      "s in position " ++ Nat.repr position ++ "-" ++ Nat.repr (position + surrogates.length - 1)
  "'utf-8' codec can't encode character" ++ place ++ ": surrogates not allowed"

/-- Why a text cannot be printed as UTF-8, if it cannot. -/
def unprintable? (t : Text) : Option String :=
  (t.surrogatesFrom? CodePoint.isSurrogate).map fun (position, surrogates) =>
    withoutBytesMessage position surrogates

end Text

end Barline
