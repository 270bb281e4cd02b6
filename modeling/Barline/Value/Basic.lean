import Barline.Number

/-!
# Values — loosely typed data

Editor snapshots, option files and command lines hold data whose shape nobody has checked: nothing, truth
values, numbers, texts, lists and mappings, nested at will. A mapping is a list of entries in the order in
which their keys first came; its keys are scalars.

Entries are found by name (`Mapping.find?`), by the first of several spellings (`Mapping.findAny?`), and
written by `Mapping.put`, which keeps the place of a key that is there already.
-/

namespace Barline

/-- The key of a mapping entry. -/
inductive Key where
  | null
  | bool (b : Bool)
  | number (x : Number)
  | text (t : Text)
  deriving DecidableEq, Repr

/-- Loosely typed data. -/
inductive Value where
  | null
  | bool (b : Bool)
  | number (x : Number)
  | text (t : Text)
  | list (items : List Value)
  | mapping (entries : List (Key × Value))

instance : Inhabited Value := ⟨.null⟩

/-! ## Equality -/

namespace Value

mutual

def same : Value → Value → Bool
  | null, null => true
  | bool a, bool b => a = b
  | number x, number y => x = y
  | text s, text t => s = t
  | list xs, list ys => sameItems xs ys
  | mapping es, mapping fs => sameEntries es fs
  | _, _ => false

def sameItems : List Value → List Value → Bool
  | [], [] => true
  | x :: xs, y :: ys => same x y && sameItems xs ys
  | _, _ => false

def sameEntries : List (Key × Value) → List (Key × Value) → Bool
  | [], [] => true
  | (k, x) :: es, (l, y) :: fs => k = l && same x y && sameEntries es fs
  | _, _ => false

end

mutual

theorem same_iff : ∀ x y : Value, same x y = true ↔ x = y
  | null, y => by cases y <;> simp [same]
  | bool a, y => by cases y <;> simp [same]
  | number x, y => by cases y <;> simp [same]
  | text s, y => by cases y <;> simp [same]
  | list xs, y => by
    cases y with
    | list ys => simp [same, sameItems_iff xs ys]
    | _ => simp [same]
  | mapping es, y => by
    cases y with
    | mapping fs => simp [same, sameEntries_iff es fs]
    | _ => simp [same]

theorem sameItems_iff : ∀ xs ys : List Value, sameItems xs ys = true ↔ xs = ys
  | [], ys => by cases ys <;> simp [sameItems]
  | x :: xs, ys => by
    cases ys with
    | nil => simp [sameItems]
    | cons y ys => simp [sameItems, same_iff x y, sameItems_iff xs ys]

theorem sameEntries_iff : ∀ es fs : List (Key × Value), sameEntries es fs = true ↔ es = fs
  | [], fs => by cases fs <;> simp [sameEntries]
  | (k, x) :: es, fs => by
    cases fs with
    | nil => simp [sameEntries]
    | cons f fs =>
      obtain ⟨l, y⟩ := f
      simp [sameEntries, same_iff x y, sameEntries_iff es fs]

end

instance : DecidableEq Value := fun x y => decidable_of_iff _ (same_iff x y)

end Value

/-! ## Keys -/

namespace Key

/-- A truth value counts as the number one or zero. -/
def number? : Key → Option Number
  | bool b => some (.whole (if b then 1 else 0))
  | number x => some x
  | _ => none

/-- Whether two keys name the same entry: numbers do when their values are equal. -/
def same (k l : Key) : Bool :=
  match k.number?, l.number? with
  | some x, some y => x.sameValue y
  | none, none => k = l
  | _, _ => false

/-- A text names the entries that have it as their key and no others. -/
theorem same_text_iff {k : Key} {t : Text} : k.same (.text t) = true ↔ k = .text t := by
  cases k <;> simp [same, number?]

end Key

/-! ## Mappings -/

/-- The entries of a mapping, in the order in which their keys first came. -/
abbrev Mapping := List (Key × Value)

namespace Mapping

/-- The value under a name. -/
def find? (entries : Mapping) (name : Text) : Option Value :=
  entries.lookup (.text name)

/-- The value under the first of several spellings of a name that is there. -/
def findAny? (entries : Mapping) (names : List Text) : Option Value :=
  names.findSome? (find? entries)

/-- Writes an entry. A key that is there keeps its place and its form; a new one goes to the end. -/
def put (entries : Mapping) (key : Key) (value : Value) : Mapping :=
  match entries with
  | [] => [(key, value)]
  | (k, v) :: rest => if k.same key then (k, value) :: rest else (k, v) :: put rest key value

theorem find?_nil (name : Text) : find? [] name = none := rfl

theorem find?_cons (k : Key) (v : Value) (rest : Mapping) (name : Text) :
    find? ((k, v) :: rest) name = if k = .text name then some v else find? rest name := by
  by_cases h : k = .text name
  · simp [find?, h]
  · have other : (Key.text name == k) = false := by simp [Ne.symm h]
    simp [find?, List.lookup_cons, other, h]

/-- After an entry is written, its own name finds the new value and every other name what it found before. -/
theorem find?_put (entries : Mapping) (written name : Text) (value : Value) :
    find? (put entries (.text written) value) name =
      if written = name then some value else find? entries name := by
  induction entries with
  | nil => simp [put, find?_cons]
  | cons entry rest ih =>
    obtain ⟨k, v⟩ := entry
    by_cases same : k.same (.text written) = true
    · obtain rfl := Key.same_text_iff.1 same
      rw [put, if_pos same, find?_cons, find?_cons]
      by_cases h : written = name <;> simp [h]
    · have elsewhere : k ≠ .text written := fun h => same (Key.same_text_iff.2 h)
      by_cases h : written = name
      · subst h
        simp [put, same, find?_cons, elsewhere, ih]
      · simp [put, same, find?_cons, ih, h]

/-- Writes all entries of a second mapping, in their order. -/
def merge (entries updates : Mapping) : Mapping :=
  updates.foldl (fun m (k, v) => put m k v) entries

/-- A mapping from entries among which later ones overrule earlier ones. -/
def ofEntries (entries : List (Key × Value)) : Mapping :=
  merge [] entries

end Mapping

/-! ## Values -/

namespace Value

abbrev int (n : Int) : Value := number (.whole n)

/-- Values that stand for nothing: nothing itself, false, zero, and what is empty. -/
def isVoid : Value → Bool
  | null => true
  | bool b => !b
  | number x => x.isZero
  | text s => s.isEmpty
  | list items => items.isEmpty
  | mapping entries => entries.isEmpty

/-- A field that was left empty: nothing, or a text of blanks. -/
def isBlank : Value → Bool
  | null => true
  | text s => Text.isBlankText s
  | _ => false

/-- The value itself, unless it is nothing. -/
def toOption : Value → Option Value
  | null => none
  | v => some v

def typeName : Value → String
  | null => "NoneType"
  | bool _ => "bool"
  | number x => x.typeName
  | text _ => "str"
  | list _ => "list"
  | mapping _ => "dict"

end Value

end Barline
