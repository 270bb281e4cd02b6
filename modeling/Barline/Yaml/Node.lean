import Barline.Yaml.Token

/-!
# Nodes — the tree of a document

A node is a scalar, a sequence or a mapping; block style and flow style make no difference to it. What is left out
where a node may stand is an empty plain scalar.

The functions below read a node from the front of a list of tokens and return the tokens that are left. They
take a bound on the depth of their calls, for which a multiple of the number of tokens is enough.
-/

namespace Barline.Yaml

/-- A document without its layout. -/
inductive Node where
  | plain (cs : List Char)
  | quoted (text : Text)
  | sequence (items : List Node)
  | mapping (entries : List (Node × Node))

namespace Node

/-- What stands where nothing was written. -/
def empty : Node := plain []

/-- Whether an entry of a block ends before it has a node. -/
def endsBlockEntry : List Token → Bool
  | .key :: _ | .value :: _ | .blockEnd :: _ => true
  | _ => false

/-- Whether an entry of a flow sequence ends before it has a node. -/
def endsSequenceEntry : List Token → Bool
  | .flowEntry :: _ | .flowSequenceEnd :: _ => true
  | _ => false

/-- Whether an entry of a flow mapping ends before it has a node. -/
def endsMappingEntry : List Token → Bool
  | .flowEntry :: _ | .flowMappingEnd :: _ => true
  | _ => false

/-- Where a node stands, which decides in which styles it may be written. -/
inductive Position where
  | inFlow
  | inBlock
  /-- In a block mapping, where the entries of a sequence need no further indentation. -/
  | inMapping
  deriving DecidableEq

mutual

def read : Nat → Position → List Token → Except LoadError (Node × List Token)
  | 0, _, _ => .error .malformed
  | depth + 1, position, tokens =>
    match tokens with
    | .plain cs :: rest => .ok (plain cs, rest)
    | .quoted text :: rest => .ok (quoted text, rest)
    | .flowSequenceStart :: rest => do
      let (items, rest) ← readFlowSequence depth true rest
      return (sequence items, rest)
    | .flowMappingStart :: rest => do
      let (entries, rest) ← readFlowMapping depth true rest
      return (mapping entries, rest)
    | .blockSequenceStart :: rest =>
      if position = .inFlow then .error .malformed
      else do
        let (items, rest) ← readBlockSequence depth rest
        return (sequence items, rest)
    | .blockMappingStart :: rest =>
      if position = .inFlow then .error .malformed
      else do
        let (entries, rest) ← readBlockMapping depth rest
        return (mapping entries, rest)
    | .blockEntry :: rest =>
      if position = .inMapping then do
        let (items, rest) ← readPlainSequence depth (.blockEntry :: rest)
        return (sequence items, rest)
      else .error .malformed
    | rest => .error (Token.refusal rest)

/-- Reads a node, or nothing where nothing was written. -/
def readOptional : Nat → Position → Bool → List Token → Except LoadError (Node × List Token)
  | 0, _, _, _ => .error .malformed
  | depth + 1, position, absent, tokens =>
    if absent then .ok (empty, tokens) else read depth position tokens

/-- Reads the entries of a block sequence up to its end. -/
def readBlockSequence : Nat → List Token → Except LoadError (List Node × List Token)
  | 0, _ => .error .malformed
  | depth + 1, .blockEntry :: rest => do
    let absent := match rest with
      | .blockEntry :: _ | .blockEnd :: _ => true
      | _ => false
    let (item, rest) ← readOptional depth .inBlock absent rest
    let (items, rest) ← readBlockSequence depth rest
    return (item :: items, rest)
  | _, .blockEnd :: rest => .ok ([], rest)
  | _, rest => .error (Token.refusal rest)

/-- Reads the entries of a sequence that is not indented; it ends where no further entry follows. -/
def readPlainSequence : Nat → List Token → Except LoadError (List Node × List Token)
  | 0, _ => .error .malformed
  | depth + 1, .blockEntry :: rest => do
    let absent := match rest with
      | .blockEntry :: _ => true
      | _ => endsBlockEntry rest
    let (item, rest) ← readOptional depth .inBlock absent rest
    let (items, rest) ← readPlainSequence depth rest
    return (item :: items, rest)
  | _, rest => .ok ([], rest)

/-- Reads the entries of a block mapping up to its end. -/
def readBlockMapping : Nat → List Token → Except LoadError (List (Node × Node) × List Token)
  | 0, _ => .error .malformed
  | depth + 1, .key :: rest => do
    let (key, rest) ← readOptional depth .inMapping (endsBlockEntry rest) rest
    let (value, rest) ← readValue depth .inMapping endsBlockEntry rest
    let (entries, rest) ← readBlockMapping depth rest
    return ((key, value) :: entries, rest)
  | _, .blockEnd :: rest => .ok ([], rest)
  | _, rest => .error (Token.refusal rest)

/-- Reads the value of an entry, which may be left out together with its colon. -/
def readValue : Nat → Position → (List Token → Bool) → List Token → Except LoadError (Node × List Token)
  | 0, _, _, _ => .error .malformed
  | depth + 1, position, ends, .value :: rest => readOptional depth position (ends rest) rest
  | _, _, _, rest => .ok (empty, rest)

/-- Reads the entries of a flow sequence up to its end; all but the first have a comma before them. -/
def readFlowSequence : Nat → Bool → List Token → Except LoadError (List Node × List Token)
  | 0, _, _ => .error .malformed
  | _, _, .flowSequenceEnd :: rest => .ok ([], rest)
  | depth + 1, false, .flowEntry :: rest =>
    match rest with
    | .flowSequenceEnd :: rest => .ok ([], rest)
    | rest => readFlowItems depth rest
  | depth + 1, true, rest => readFlowItems depth rest
  | _, false, rest => .error (Token.refusal rest)

/-- Reads an entry of a flow sequence, which may be a single pair, and the entries behind it. -/
def readFlowItems : Nat → List Token → Except LoadError (List Node × List Token)
  | 0, _ => .error .malformed
  | depth + 1, .key :: rest => do
    let absent := match rest with
      | .value :: _ => true
      | _ => endsSequenceEntry rest
    let (key, rest) ← readOptional depth .inFlow absent rest
    let (value, rest) ← readValue depth .inFlow endsSequenceEntry rest
    let (items, rest) ← readFlowSequence depth false rest
    return (mapping [(key, value)] :: items, rest)
  | depth + 1, rest => do
    let (item, rest) ← read depth .inFlow rest
    let (items, rest) ← readFlowSequence depth false rest
    return (item :: items, rest)

/-- Reads the entries of a flow mapping up to its end; all but the first have a comma before them. -/
def readFlowMapping : Nat → Bool → List Token → Except LoadError (List (Node × Node) × List Token)
  | 0, _, _ => .error .malformed
  | _, _, .flowMappingEnd :: rest => .ok ([], rest)
  | depth + 1, false, .flowEntry :: rest =>
    match rest with
    | .flowMappingEnd :: rest => .ok ([], rest)
    | rest => readFlowEntries depth rest
  | depth + 1, true, rest => readFlowEntries depth rest
  | _, false, rest => .error (Token.refusal rest)

/-- Reads an entry of a flow mapping and the entries behind it. -/
def readFlowEntries : Nat → List Token → Except LoadError (List (Node × Node) × List Token)
  | 0, _ => .error .malformed
  | depth + 1, .key :: rest => do
    let absent := match rest with
      | .value :: _ => true
      | _ => endsMappingEntry rest
    let (key, rest) ← readOptional depth .inFlow absent rest
    let (value, rest) ← readValue depth .inFlow endsMappingEntry rest
    let (entries, rest) ← readFlowMapping depth false rest
    return ((key, value) :: entries, rest)
  | depth + 1, rest => do
    let (key, rest) ← read depth .inFlow rest
    let (entries, rest) ← readFlowMapping depth false rest
    return ((key, empty) :: entries, rest)

end

/-! ## Documents -/

/-- The only document that tokens may hold ends here. -/
def onlyDocument (node : Node) (rest : List Token) : Except LoadError Node :=
  match rest.dropWhile (· = .documentEnd) with
  | [] => .ok node
  | rest => .error (Token.refusal rest)

/-- The node of a document; tokens that hold none stand for nothing. -/
def ofTokens (tokens : List Token) : Except LoadError Node := do
  let depth := 4 * (tokens.length + 1)
  match tokens with
  | [] => return empty
  | .documentStart :: rest =>
    match rest with
    | [] | .documentEnd :: _ => onlyDocument empty rest
    | _ =>
      let (node, rest) ← read depth .inBlock rest
      onlyDocument node rest
  | _ =>
    let (node, rest) ← read depth .inBlock tokens
    onlyDocument node rest

end Node

end Barline.Yaml
