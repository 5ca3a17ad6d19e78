import Arazzo.Yaml.Lexer

/-! The tree of a YAML document. Anchors are numbered, and an alias holds the number of its anchor. -/

namespace Arazzo.Yaml

inductive Node where
  | scalar (tag : Option String) (text : String) (plain : Bool)
  | sequence (tag : Option String) (items : List Node)
  | mapping (tag : Option String) (entries : List (Node × Node))
  | alias (anchor : Nat)
  | anchored (anchor : Nat) (node : Node)

instance : Inhabited Node := ⟨.alias 0⟩

namespace Node

def empty : Node := .scalar none "" true

/-- The number of marks in a stream of the tree: one for a leaf, two for a collection. -/
def markCount : Node → Nat
  | .scalar .. => 1
  | .alias _ => 1
  | .anchored _ node => markCount node
  | .sequence _ items => 2 + countItems items
  | .mapping _ entries => 2 + countEntries entries
where
  countItems : List Node → Nat
    | [] => 0
    | node :: rest => markCount node + countItems rest
  countEntries : List (Node × Node) → Nat
    | [] => 0
    | (key, value) :: rest => markCount key + markCount value + countEntries rest

def anchors : Node → List (Nat × Node)
  | .scalar .. => []
  | .alias _ => []
  | .anchored i node => (i, node) :: anchors node
  | .sequence _ items => ofItems items
  | .mapping _ entries => ofEntries entries
where
  ofItems : List Node → List (Nat × Node)
    | [] => []
    | node :: rest => anchors node ++ ofItems rest
  ofEntries : List (Node × Node) → List (Nat × Node)
    | [] => []
    | (key, value) :: rest => anchors key ++ anchors value ++ ofEntries rest

end Node

/-- What is known at some point of a document: the tokens to come, the tag handles and the anchor names
so far. -/
structure Outline where
  tokens : List Token
  handles : List (String × String) := []
  names : List (String × Nat) := []

abbrev Compose := StateT Outline Option

namespace Compose

def peek : Compose Token := do
  return (← get).tokens.head?.getD .streamEnd

def pass : Compose Unit := modify fun s => { s with tokens := s.tokens.drop 1 }

def atAny (tokens : List Token) : Compose Bool := do
  return tokens.contains (← peek)

/-- An anchor takes the number of names known before it; the name then stands for this number. -/
def nameAnchor (name : String) : Compose Nat := do
  let s ← get
  let number := s.names.length
  set { s with names := (name, number) :: s.names.filter (·.1 != name) }
  return number

def anchorOf? (name : String) : Compose Nat := do
  match (← get).names.find? (·.1 == name) with
  | some (_, number) => return number
  | none => failure

def tagOf? (handle suffix : String) : Compose String := do
  if handle.isEmpty then return suffix
  match (← get).handles.find? (·.1 == handle) with
  | some (_, lead) => return lead ++ suffix
  | none => failure

def properties : Compose (Option Nat × Option String) := do
  match ← peek with
  | .anchor name =>
    pass
    let tag ← match ← peek with
      | .tag handle suffix => do
        pass
        pure (some (handle, suffix))
      | _ => pure none
    finish (some name) tag
  | .tag handle suffix =>
    pass
    let name ← match ← peek with
      | .anchor name => do
        pass
        pure (some name)
      | _ => pure none
    finish name (some (handle, suffix))
  | _ => return (none, none)
where
  finish (name : Option String) (tag : Option (String × String)) :
      Compose (Option Nat × Option String) := do
    let tag ← tag.mapM fun (handle, suffix) => tagOf? handle suffix
    let number ← name.mapM nameAnchor
    return (number, tag)

def withAnchor : Option Nat → Node → Node
  | some number, node => .anchored number node
  | none, node => node

mutual

/-- A node; block collections only in a block context, a sequence without its own indentation only as a
mapping's part. -/
def node (block indentless : Bool) : Nat → Compose Node
  | 0 => failure
  | fuel + 1 => do
    if let .alias name ← peek then
      pass
      return .alias (← anchorOf? name)
    let (anchor, tag) ← properties
    match ← peek with
    | .blockEntry =>
      if indentless then
        return withAnchor anchor (.sequence tag (← indentlessItems fuel []))
      else emptyNode anchor tag
    | .scalar text plain =>
      pass
      let tag := if tag == some "!" then none else tag
      let plain := plain && tag.isNone
      return withAnchor anchor (.scalar tag text plain)
    | .flowSequenceStart =>
      pass
      return withAnchor anchor (.sequence tag (← flowItems true fuel []))
    | .flowMappingStart =>
      pass
      return withAnchor anchor (.mapping tag (← flowEntries true fuel []))
    | .blockSequenceStart =>
      if block then
        pass
        return withAnchor anchor (.sequence tag (← blockItems fuel []))
      else emptyNode anchor tag
    | .blockMappingStart =>
      if block then
        pass
        return withAnchor anchor (.mapping tag (← blockEntries fuel []))
      else emptyNode anchor tag
    | _ => emptyNode anchor tag

def emptyNode (anchor : Option Nat) (tag : Option String) : Compose Node := do
  if anchor.isNone && tag.isNone then failure
  else return withAnchor anchor (.scalar tag "" true)

def blockItems : Nat → List Node → Compose (List Node)
  | 0, _ => failure
  | fuel + 1, acc => do
    match ← peek with
    | .blockEntry =>
      pass
      let item ← if ← atAny [.blockEntry, .blockEnd] then pure Node.empty else node true false fuel
      blockItems fuel (item :: acc)
    | .blockEnd =>
      pass
      return acc.reverse
    | _ => failure

def indentlessItems : Nat → List Node → Compose (List Node)
  | 0, _ => failure
  | fuel + 1, acc => do
    match ← peek with
    | .blockEntry =>
      pass
      let item ←
        if ← atAny [.blockEntry, .key, .value, .blockEnd] then pure Node.empty
        else node true false fuel
      indentlessItems fuel (item :: acc)
    | _ => return acc.reverse

def blockEntries : Nat → List (Node × Node) → Compose (List (Node × Node))
  | 0, _ => failure
  | fuel + 1, acc => do
    match ← peek with
    | .key =>
      pass
      let key ←
        if ← atAny [.key, .value, .blockEnd] then pure Node.empty else node true true fuel
      let value ← match ← peek with
        | .value => do
          pass
          if ← atAny [.key, .value, .blockEnd] then pure Node.empty else node true true fuel
        | _ => pure Node.empty
      blockEntries fuel ((key, value) :: acc)
    | .blockEnd =>
      pass
      return acc.reverse
    | _ => failure

def flowItems (first : Bool) : Nat → List Node → Compose (List Node)
  | 0, _ => failure
  | fuel + 1, acc => do
    if ← atAny [.flowSequenceEnd] then
      pass
      return acc.reverse
    unless first do
      if ← atAny [.flowEntry] then pass else failure
    match ← peek with
    | .key =>
      pass
      let pair ← flowPair fuel
      flowItems false fuel (.mapping none [pair] :: acc)
    | .flowSequenceEnd =>
      pass
      return acc.reverse
    | _ =>
      let item ← node false false fuel
      flowItems false fuel (item :: acc)

/-- A single pair inside a flow sequence; the mark that stands in place of a missing key is passed
over. -/
def flowPair : Nat → Compose (Node × Node)
  | 0 => failure
  | fuel + 1 => do
    let key ←
      if ← atAny [.value, .flowEntry, .flowSequenceEnd] then do
        pass
        pure Node.empty
      else node false false fuel
    let value ← match ← peek with
      | .value => do
        pass
        if ← atAny [.flowEntry, .flowSequenceEnd] then pure Node.empty else node false false fuel
      | _ => pure Node.empty
    return (key, value)

def flowEntries (first : Bool) : Nat → List (Node × Node) → Compose (List (Node × Node))
  | 0, _ => failure
  | fuel + 1, acc => do
    if ← atAny [.flowMappingEnd] then
      pass
      return acc.reverse
    unless first do
      if ← atAny [.flowEntry] then pass else failure
    match ← peek with
    | .key =>
      pass
      let key ←
        if ← atAny [.value, .flowEntry, .flowMappingEnd] then pure Node.empty
        else node false false fuel
      let value ← match ← peek with
        | .value => do
          pass
          if ← atAny [.flowEntry, .flowMappingEnd] then pure Node.empty else node false false fuel
        | _ => pure Node.empty
      flowEntries false fuel ((key, value) :: acc)
    | .flowMappingEnd =>
      pass
      return acc.reverse
    | _ =>
      let key ← node false false fuel
      flowEntries false fuel ((key, Node.empty) :: acc)

end

/-- The directives before a document: one version, and each tag handle once. -/
def directives : Nat → Bool → Compose Unit
  | 0, _ => failure
  | fuel + 1, versioned => do
    match ← peek with
    | .version major minor =>
      if versioned || major != 1 || !(minor == 1 || minor == 2) then failure
      pass
      directives fuel true
    | .tagDirective handle lead =>
      if (← get).handles.any (·.1 == handle) then failure
      pass
      modify fun s => { s with handles := s.handles ++ [(handle, lead)] }
      directives fuel versioned
    | _ =>
      modify fun s =>
        { s with handles := s.handles ++ [("!", "!"), ("!!", "tag:yaml.org,2002:")] }

def passDocumentEnds : Nat → Compose Unit
  | 0 => failure
  | fuel + 1 => do
    if ← atAny [.documentEnd] then
      pass
      passDocumentEnds fuel

def document (fuel : Nat) : Compose (Option Node) := do
  let explicit ← match ← peek with
    | .streamEnd => return none
    | .version .. | .tagDirective .. | .documentStart => pure true
    | _ => pure false
  directives fuel false
  let root ←
    if explicit then do
      unless ← atAny [.documentStart] do failure
      pass
      match ← peek with
      | .version .. | .tagDirective .. | .documentStart | .documentEnd | .streamEnd =>
        pure Node.empty
      | _ => node true false fuel
    else node true false fuel
  passDocumentEnds fuel
  if ← atAny [.streamEnd] then return some root else failure

end Compose

def Node.ofTokens? (tokens : List Token) : Option (Option Node) :=
  ((Compose.document (3 * tokens.length + 8)).run { tokens := tokens }).map (·.1)

end Arazzo.Yaml
