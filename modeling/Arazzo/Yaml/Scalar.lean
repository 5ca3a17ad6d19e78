import Arazzo.Yaml.Token
import Arazzo.Text.Scan

/-! Block, quoted and plain scalars of a YAML stream. -/

namespace Arazzo.Yaml.Cursor

structure Gap where
  blanks : List Char := []
  lead : List Char := []
  trail : List Char := []
  broken : Bool := false

/-- A single line feed folds to a space, more of them to one less. -/
def Gap.folded (gap : Gap) : List Char :=
  if gap.broken then
    if gap.lead.head? == some '\n' then
      if gap.trail.isEmpty then [' '] else gap.trail
    else gap.lead ++ gap.trail
  else gap.blanks

/-- Indentation and empty lines before a line of a block scalar; a zero indent is not yet known. -/
def blockBreaks? (parent : Int) :
    Nat → Nat → Nat → List Char → Cursor → Option (Nat × List Char × Cursor)
  | 0, _, _, _, _ => none
  | fuel + 1, indent, widest, breaks, c =>
    let room := if indent = 0 then c.rest.length else indent - c.column
    let c := c.skip (min room (c.rest.takeWhile (· == ' ')).length)
    let widest := max widest c.column
    if (indent = 0 || c.column < indent) && c.is '\t' then none
    else if c.atBreak then
      let (b, c) := c.readBreak
      blockBreaks? parent fuel indent widest (breaks ++ b) c
    else
      let known := if indent = 0 then max widest (max (parent + 1).toNat 1) else indent
      some (known, breaks, c)

/-- Lines of a block scalar: the text so far, the break before the current line and empty lines after
it. -/
def blockLines? (parent : Int) (literal : Bool) (indent : Nat) :
    Nat → List Char → List Char → List Char → Bool → Cursor →
      Option (List Char × List Char × List Char × Cursor)
  | 0, _, _, _, _, _ => none
  | fuel + 1, text, lead, trail, afterBlank, c =>
    if c.column == indent && !c.rest.isEmpty then
      let blank := c.atBlank
      let glue :=
        if !literal && lead.head? == some '\n' && !afterBlank && !blank then
          if trail.isEmpty then [' '] else []
        else lead
      let line := c.rest.takeWhile (!isBreak ·)
      let c := c.skip line.length
      let (lead, c) := c.readBreak
      match blockBreaks? parent (c.rest.length + 1) indent 0 [] c with
      | some (_, breaks, c) =>
        blockLines? parent literal indent fuel (text ++ glue ++ trail ++ line) lead breaks blank c
      | none => none
    else some (text, lead, trail, c)

inductive Chomping where
  | strip
  | clip
  | keep
deriving DecidableEq

def chomping? : Option Char → Option Chomping
  | some '+' => some .keep
  | some '-' => some .strip
  | _ => none

def increment? (c : Cursor) : Option (Nat × Cursor) :=
  match c.head? with
  | some d =>
    if d.isDigit then (if d = '0' then none else some (d.toNat - 48, c.skip 1)) else some (0, c)
  | none => some (0, c)

def blockHeader? (c : Cursor) : Option (Chomping × Nat × Cursor) :=
  match chomping? c.head? with
  | some chomp => do
    let (n, c) ← increment? (c.skip 1)
    some (chomp, n, c)
  | none => do
    let (n, c) ← increment? c
    if n = 0 then some (.clip, 0, c)
    else
      match chomping? c.head? with
      | some chomp => some (chomp, n, c.skip 1)
      | none => some (.clip, n, c)

def blockScalar? (parent : Int) (literal : Bool) (c : Cursor) : Option (String × Cursor) := do
  let (chomp, increment, c) ← blockHeader? c
  let c := c.skipComment
  if !c.endsLine then none
  else
    let c := c.skipBreak
    let indent := if increment = 0 then 0 else (max parent 0).toNat + increment
    let (indent, breaks, c) ← blockBreaks? parent (c.rest.length + 1) indent 0 [] c
    let (text, lead, trail, c) ←
      blockLines? parent literal indent (c.rest.length + 1) [] [] breaks false c
    let text := if chomp = .strip then text else text ++ lead
    let text := if chomp = .keep then text ++ trail else text
    some (String.ofList text, c)

/-- Blanks and breaks inside a scalar; `limit` forbids tabs left of it after a break. -/
def gap? (limit : Nat) : Nat → Gap → Cursor → Option (Gap × Cursor)
  | 0, _, _ => none
  | fuel + 1, gap, c =>
    match c.head? with
    | none => some (gap, c)
    | some x =>
      if isSpaceOrTab x then
        if gap.broken && c.column < limit && x == '\t' then none
        else if gap.broken then gap? limit fuel gap (c.skip 1)
        else gap? limit fuel { gap with blanks := gap.blanks ++ [x] } (c.skip 1)
      else if isBreak x then
        let (b, c) := c.readBreak
        if gap.broken then gap? limit fuel { gap with trail := gap.trail ++ b } c
        else gap? limit fuel { gap with blanks := [], lead := b, broken := true } c
      else some (gap, c)

def escapeLength? (c : Char) : Option Nat :=
  if c = 'x' then some 2 else if c = 'u' then some 4 else if c = 'U' then some 8 else none

def namedEscape? (c : Char) : Option Char :=
  match c with
  | '0' => some (Char.ofNat 0)
  | 'a' => some (Char.ofNat 7)
  | 'b' => some (Char.ofNat 8)
  | 't' => some '\t'
  | '\t' => some '\t'
  | 'n' => some '\n'
  | 'v' => some (Char.ofNat 11)
  | 'f' => some (Char.ofNat 12)
  | 'r' => some '\r'
  | 'e' => some (Char.ofNat 27)
  | ' ' => some ' '
  | '"' => some '"'
  | '/' => some '/'
  | '\\' => some '\\'
  | 'N' => some (Char.ofNat 0x85)
  | '_' => some (Char.ofNat 0xa0)
  | 'L' => some (Char.ofNat 0x2028)
  | 'P' => some (Char.ofNat 0x2029)
  | _ => none

def codeEscape? (digits : List Char) (length : Nat) : Option Char :=
  if digits.length < length then none
  else do
    let n ← Text.readDigits? 16 Text.hexValue? digits
    if (0xD800 ≤ n ∧ n ≤ 0xDFFF) ∨ n > 0x10FFFF then none else some (Char.ofNat n)

def quotedWord? (single : Bool) : Nat → List Char → Cursor → Option (List Char × Bool × Cursor)
  | 0, _, _ => none
  | fuel + 1, acc, c =>
    if c.endsWordAt 0 then some (acc.reverse, false, c)
    else
      match c.rest with
      | '\'' :: '\'' :: _ =>
        if single then quotedWord? single fuel ('\'' :: acc) (c.skip 2)
        else quotedWord? single fuel ('\'' :: acc) (c.skip 1)
      | '\'' :: _ =>
        if single then some (acc.reverse, false, c) else quotedWord? single fuel ('\'' :: acc) (c.skip 1)
      | '"' :: _ =>
        if single then quotedWord? single fuel ('"' :: acc) (c.skip 1) else some (acc.reverse, false, c)
      | '\\' :: x :: more =>
        if single then quotedWord? single fuel ('\\' :: acc) (c.skip 1)
        else if isBreak x then some (acc.reverse, true, (c.skip 1).skipBreak)
        else
          match namedEscape? x, escapeLength? x with
          | some d, _ => quotedWord? single fuel (d :: acc) (c.skip 2)
          | none, some n =>
            match codeEscape? (more.take n) n with
            | some d => quotedWord? single fuel (d :: acc) (c.skip (2 + n))
            | none => none
          | none, none => none
      | x :: _ =>
        if x = '\\' && !single then none else quotedWord? single fuel (x :: acc) (c.skip 1)
      | [] => none

def quotedScalar? (single : Bool) : Nat → List Char → Cursor → Option (String × Cursor)
  | 0, _, _ => none
  | fuel + 1, text, c =>
    if c.atDocumentMarks || c.rest.isEmpty then none
    else
      match quotedWord? single (c.rest.length + 1) [] c with
      | none => none
      | some (word, escapedBreak, c) =>
        let text := text ++ word
        if c.is (if single then '\'' else '"') then some (String.ofList text, c.skip 1)
        else
          match gap? 0 (c.rest.length + 1) { broken := escapedBreak } c with
          | none => none
          | some (gap, c) => quotedScalar? single fuel (text ++ gap.folded) c

def isFlowMark (c : Char) : Bool :=
  c == ',' || c == '[' || c == ']' || c == '\x7b' || c == '\x7d'

def plainWord? (inFlow : Bool) : Nat → List Char → Cursor → Option (List Char × Cursor)
  | 0, _, _ => none
  | fuel + 1, acc, c =>
    match c.rest with
    | [] => some (acc.reverse, c)
    | x :: _ =>
      let next := c.at? 1
      if c.endsWordAt 0 then some (acc.reverse, c)
      else if inFlow && x == ':' && (next.map fun n => isFlowMark n || n == '?').getD false then none
      else if (x == ':' && c.endsWordAt 1) || (inFlow && isFlowMark x) then some (acc.reverse, c)
      else plainWord? inFlow fuel (x :: acc) (c.skip 1)

/-- A plain scalar; the flag tells whether the last thing passed was a line break. -/
def plainScalar? (inFlow : Bool) (limit : Nat) :
    Nat → List Char → Gap → Cursor → Option (String × Bool × Cursor)
  | 0, _, _, _ => none
  | fuel + 1, text, gap, c =>
    if c.atDocumentMarks || c.is '#' then some (String.ofList text, gap.broken, c)
    else
      match plainWord? inFlow (c.rest.length + 1) [] c with
      | none => none
      | some (word, c) =>
        let (text, gap) : List Char × Gap :=
          if word.isEmpty then (text, gap) else (text ++ gap.folded ++ word, {})
        if !(c.atBlank || c.atBreak) then some (String.ofList text, gap.broken, c)
        else
          match gap? limit (c.rest.length + 1) gap c with
          | none => none
          | some (gap, c) =>
            if !inFlow && c.column < limit then some (String.ofList text, gap.broken, c)
            else plainScalar? inFlow limit fuel text gap c

end Arazzo.Yaml.Cursor
