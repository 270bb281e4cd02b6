import Barline.Document
import Barline.Yaml.Node
import Barline.Yaml.Resolve

/-!
# Loading — from the nodes of a document to its value

A document is loaded in two passes. The first resolves every scalar and puts together the entries of every mapping: the
keys of a mapping have to be scalars, and under the key `<<` stand other mappings, whose entries go in front. The
second builds the value; of entries with the same key the last one counts.

Of several faults the one that is nearest to the root is reported, and of equally near ones the first, since
collections are filled one level after the other.
-/

namespace Barline.Yaml

/-! ## Drafts -/

/-- A node whose scalars are resolved. -/
inductive Draft where
  | scalar (outcome : Except LoadError Value)
  | sequence (items : List Draft)
  | mapping (entries : List (Except LoadError Key × Draft))
  /-- A mapping that is to take in the entries of something that is no mapping. -/
  | broken

/-- A value as a key. -/
def keyOf : Value → Except LoadError Key
  | .null => .ok .null
  | .bool b => .ok (.bool b)
  | .number x => .ok (.number x)
  | .text t => .ok (.text t)
  | _ => .error .malformed

/-- What a node stands for as a key. -/
def Node.key : Node → Except LoadError Key
  | .plain cs =>
    if String.ofList cs = defaultWord then .ok (.text (Text.ofChars cs)) else (resolve cs).bind keyOf
  | .quoted t => .ok (.text t)
  | _ => .error .malformed

/-- Whether a node, as a key, asks for the entries of other mappings. -/
def Node.isMergeKey : Node → Bool
  | .plain cs => String.ofList cs = mergeWord
  | _ => false

namespace Draft

/-- The entries of a mapping. -/
def entries? : Draft → Option (List (Except LoadError Key × Draft))
  | mapping entries => some entries
  | _ => none

/-- The entries that a mapping, or a sequence of mappings, has for another mapping. Of a sequence, the last mapping goes
first, so that the first one counts. -/
def offered? : Draft → Option (List (Except LoadError Key × Draft))
  | sequence items => (items.mapM entries?).map fun lists => lists.reverse.flatten
  | d => d.entries?

/-- A mapping of its own entries behind those that are offered to it. -/
def assemble (offers : List Draft) (own : List (Except LoadError Key × Draft)) : Draft :=
  match offers.mapM offered? with
  | some lists => mapping (lists.flatten ++ own)
  | none => broken

end Draft

mutual

def Node.draft : Node → Draft
  | .plain cs => .scalar (resolve cs)
  | .quoted t => .scalar (.ok (.text t))
  | .sequence items => .sequence (Node.drafts items)
  | .mapping entries =>
    let (offers, own) := Node.draftEntries entries
    Draft.assemble offers own

def Node.drafts : List Node → List Draft
  | [] => []
  | node :: rest => node.draft :: Node.drafts rest

/-- Resolves the scalars of the entries of a mapping: what stands under merge keys, and the other entries. -/
def Node.draftEntries : List (Node × Node) → List Draft × List (Except LoadError Key × Draft)
  | [] => ([], [])
  | (key, node) :: rest =>
    let (offers, own) := Node.draftEntries rest
    if key.isMergeKey then (node.draft :: offers, own) else (offers, (key.key, node.draft) :: own)

end

/-! ## Faults -/

/-- The fault of an outcome, if it has one. -/
def faultOf {α : Type} : Except LoadError α → List LoadError
  | .error e => [e]
  | .ok _ => []

namespace Draft

def scalarFault : Draft → List LoadError
  | scalar outcome => faultOf outcome
  | _ => []

/-- Two lists of levels, level by level. -/
def beside : List (List LoadError) → List (List LoadError) → List (List LoadError)
  | [], ys => ys
  | xs, [] => xs
  | x :: xs, y :: ys => (x ++ y) :: beside xs ys

mutual

/-- The faults inside a collection by their levels. -/
def levels : Draft → List (List LoadError)
  | scalar _ => []
  | sequence items => items.flatMap scalarFault :: itemLevels items
  | mapping entries => entries.flatMap (fun (k, d) => faultOf k ++ d.scalarFault) :: entryLevels entries
  | broken => [[.malformed]]

/-- The faults inside the items of a sequence by their levels. -/
def itemLevels : List Draft → List (List LoadError)
  | [] => []
  | d :: rest => beside (levels d) (itemLevels rest)

/-- The faults inside the entries of a mapping by their levels. -/
def entryLevels : List (Except LoadError Key × Draft) → List (List LoadError)
  | [] => []
  | (_, d) :: rest => beside (levels d) (entryLevels rest)

end

def fault? (d : Draft) : Option LoadError :=
  (d.scalarFault ++ d.levels.flatten).head?

/-! ## Values -/

mutual

def value : Draft → Except LoadError Value
  | scalar outcome => outcome
  | sequence items => (itemValues items).map .list
  | mapping entries => (entryValues entries).map fun es => .mapping (Mapping.ofEntries es)
  | broken => .error .malformed

def itemValues : List Draft → Except LoadError (List Value)
  | [] => .ok []
  | d :: rest => do
    let v ← value d
    let vs ← itemValues rest
    return v :: vs

def entryValues : List (Except LoadError Key × Draft) → Except LoadError (List (Key × Value))
  | [] => .ok []
  | (key, d) :: rest => do
    let k ← key
    let v ← value d
    let es ← entryValues rest
    return (k, v) :: es

end

end Draft

/-! ## Documents -/

def load (text : String) : Except LoadError Value := do
  let tokens ← tokens text
  let node ← Node.ofTokens tokens
  let draft := node.draft
  match draft.fault? with
  | some e => throw e
  | none => draft.value

/-- What is said of a text that is no document; where it goes wrong is not told. -/
def malformedText : String := "<yaml error>"

/-- An error as that of any document. -/
def LoadError.toDocumentError : LoadError → DocumentError
  | malformed => .malformed malformedText
  | noDigits base => .noValue ("invalid literal for int() with base " ++ toString base ++ ": ''")
  | tooManyDigits count => .noValue (Numeral.tooLongToRead count)
  | noCodePoint => .noValue "chr() arg not in range(0x110000)"
  | weightTooLarge => .outOfRange "int too large to convert to float"
  | escapeTooLarge => .outOfRange "Python int too large to convert to C int"

def loader : Loader := fun text =>
  (load text).mapError LoadError.toDocumentError

end Barline.Yaml
