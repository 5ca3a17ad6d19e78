import Arazzo.Regex.Basic
import Arazzo.Regex.Class
import Arazzo.Text.Blank

/-! Reading patterns into regular expressions. -/

namespace Arazzo.Regex

open Text

structure Flags where
  caseless : Bool := false
  multiLine : Bool := false
  dotAll : Bool := false
  crlf : Bool := false
  unicode : Bool := true
  spaced : Bool := false

structure PatternState where
  rest : List Char
  flags : Flags := {}
  names : List String := []

abbrev Pattern := StateT PatternState Option

/-- What a part of a pattern stands for, and how many levels it has that count towards the limit. -/
structure Nested (α : Type) where
  body : α
  depth : Nat

namespace Pattern

def peek? : Pattern (Option Char) := return (← get).rest.head?

def peek : Pattern Char := do
  match (← get).rest with
  | c :: _ => return c
  | [] => failure

def flags : Pattern Flags := return (← get).flags

def setFlags (flags : Flags) : Pattern Unit := modify fun s => { s with flags }

def bump : Pattern Unit := modify fun s => { s with rest := s.rest.drop 1 }

def bumpIf (lead : String) : Pattern Bool := do
  let s ← get
  match afterLead? lead.toList s.rest with
  | some rest =>
    set { s with rest }
    return true
  | none => return false

def expect (c : Char) : Pattern Unit := do
  if (← peek) == c then bump else failure

def withoutSpace : Nat → List Char → List Char
  | 0, cs => cs
  | fuel + 1, cs =>
    match cs.dropWhile isBlank with
    | '#' :: rest => withoutSpace fuel ((rest.dropWhile (· != '\n')).drop 1)
    | rest => rest

def skipSpace : Pattern Unit := modify fun s =>
  if s.flags.spaced then { s with rest := withoutSpace s.rest.length s.rest } else s

def bumpSpace : Pattern Unit := do
  bump
  skipSpace

def peekSecond? : Pattern (Option Char) := do
  let s ← get
  let rest := s.rest.drop 1
  return (if s.flags.spaced then withoutSpace rest.length rest else rest).head?

def skipBlanks : Pattern Unit := modify fun s => { s with rest := s.rest.dropWhile isBlank }

def gather (kind : Char → Bool) : Nat → List Char → Pattern (List Char)
  | 0, acc => return acc.reverse
  | fuel + 1, acc => do
    match ← peek? with
    | some c =>
      if kind c then
        bumpSpace
        gather kind fuel (c :: acc)
      else return acc.reverse
    | none => return acc.reverse

def count : Pattern Nat := do
  skipBlanks
  let ds ← gather Char.isDigit (← get).rest.length []
  skipBlanks
  match readNat? ds with
  | some n => if n < Nat.pow 2 32 then return n else failure
  | none => failure

def closeBounds (range : Nat × Option Nat) : Pattern (Nat × Option Nat) := do
  expect '\x7d'
  skipSpace
  match range.2 with
  | some most => if range.1 ≤ most then return range else failure
  | none => return range

def bounds : Pattern (Nat × Option Nat) := do
  bumpSpace
  let _ ← peek
  let least ← count
  if (← peek) == ',' then
    bumpSpace
    if (← peek) == '\x7d' then closeBounds (least, none)
    else
      let most ← count
      closeBounds (least, some most)
  else closeBounds (least, some least)

/-- A mark of reluctance changes no answer. -/
def skipReluctant : Pattern Unit := do
  let _ ← bumpIf "?"

def codePoint (n : Nat) : Pattern Char :=
  if n < 0xd800 || (0xe000 ≤ n && n ≤ CharSet.topCode) then return Char.ofNat n else failure

def hexDigits : Nat → Nat → Pattern Nat
  | 0, n => return n
  | left + 1, n => do
    match hexValue? (← peek) with
    | some d =>
      if left == 0 then bumpSpace else do
        bumpSpace
        let _ ← peek
      hexDigits left (n * 16 + d)
    | none => failure

def bracedHex : Nat → Nat → Bool → Pattern Nat
  | 0, _, _ => failure
  | fuel + 1, n, some_ => do
    let c ← peek
    if c == '\x7d' then
      bumpSpace
      if some_ then return n else failure
    else
      match hexValue? c with
      | some d =>
        bumpSpace
        bracedHex fuel (n * 16 + d) true
      | none => failure

def numbered (width : Nat) : Pattern Char := do
  bumpSpace
  if (← peek) == '\x7b' then
    bumpSpace
    codePoint (← bracedHex ((← get).rest.length + 1) 0 false)
  else codePoint (← hexDigits width 0)

inductive Primitive where
  | char (c : Char)
  | set (set : CharSet)
  | look (look : Look)
  | dot

def bracedName : Nat → List Char → Pattern (List Char)
  | 0, _ => failure
  | fuel + 1, acc => do
    let c ← peek
    if c == '\x7d' then
      bump
      return acc.reverse
    else
      bumpSpace
      bracedName fuel (c :: acc)

def classNamed? (name : List Char) : Option (CharSet × Bool) :=
  match splitAt ['!', '='] name with
  | some (property, value) => (valued? property value).map fun set => (set, true)
  | none =>
    match splitOnce? ':' name, splitOnce? '=' name with
    | some (property, value), _ => (valued? property value).map fun set => (set, false)
    | none, some (property, value) => (valued? property value).map fun set => (set, false)
    | none, none => (named? name).map fun set => (set, false)
where
  splitAt (mark cs : List Char) : Option (List Char × List Char) :=
    (afterFirst? mark cs).map fun after =>
      (cs.take (cs.length - after.length - mark.length), after)

def finishSet (set : CharSet) (negated : Bool) : Pattern CharSet := do
  let f ← flags
  let set :=
    if !f.caseless then set
    else if f.unicode then foldCase set
    else
      let letters := set.flatMap fun (low, high) =>
        [(max low 65 + 32, min high 90 + 32), (max low 97 - 32, min high 122 - 32)].filter fun r =>
          r.1 ≤ r.2
      CharSet.union set (CharSet.ofRanges letters)
  if negated && !f.unicode then failure
  return if negated then CharSet.complement set else set

def finishFound (negated : Bool) : Option (CharSet × Bool) → Pattern CharSet
  | some (set, inverse) => finishSet set (negated != inverse)
  | none => failure

def property (negated : Bool) : Pattern CharSet := do
  if !(← flags).unicode then failure
  bumpSpace
  let c ← peek
  if c == '\x7b' then
    bumpSpace
    let name ← bracedName ((← get).rest.length + 1) []
    finishFound negated (classNamed? name)
  else if c == '\\' then failure
  else
    bumpSpace
    finishFound negated ((named? [c]).map fun set => (set, false))

def boundaryWord : Pattern CharSet := return if (← flags).unicode then wordChars else asciiWord

def isBoundaryChar (c : Char) : Bool := c.isAlpha || c == '-'

def boundaryNamed (word : CharSet) (room : Nat) : Pattern Look := do
  let name ← gather isBoundaryChar room []
  expect '\x7d'
  match String.ofList name with
  | "start" => return .wordStart word
  | "end" => return .wordEnd word
  | "start-half" => return .wordStartHalf word
  | "end-half" => return .wordEndHalf word
  | _ => failure

def boundary : Pattern Look := do
  let word ← boundaryWord
  let before ← get
  if (← peek?) != some '\x7b' then return .boundary word
  bumpSpace
  if isBoundaryChar (← peek) then boundaryNamed word before.rest.length
  else
    set before
    return .boundary word

def isEscapable (c : Char) : Bool :=
  c.toNat < 128 && !c.isAlphanum && c != '<' && c != '>'

def escape : Pattern Primitive := do
  bump
  let c ← peek
  let f ← flags
  match c with
  | 'x' => return .char (← numbered 2)
  | 'u' => return .char (← numbered 4)
  | 'U' => return .char (← numbered 8)
  | 'p' => return .set (← property false)
  | 'P' => return .set (← property true)
  | _ =>
    bump
    match shortClass? f.unicode c, shortClass? f.unicode c.toLower with
    | some set, _ => return .set set
    | none, some set => if f.unicode then return .set (CharSet.complement set) else failure
    | none, none =>
      if isEscapable c then return .char c
      match c with
      | 'a' => return .char '\x07'
      | 'f' => return .char '\x0c'
      | 't' => return .char '\t'
      | 'n' => return .char '\n'
      | 'r' => return .char '\r'
      | 'v' => return .char '\x0b'
      | 'A' => return .look .textStart
      | 'z' => return .look .textEnd
      | 'b' => return .look (← boundary)
      | 'B' => return .look (.notBoundary (← boundaryWord))
      | '<' => return .look (.wordStart (← boundaryWord))
      | '>' => return .look (.wordEnd (← boundaryWord))
      | _ => failure

def classItem : Pattern Primitive := do
  let c ← peek
  if c == '\\' then escape
  else
    bump
    return .char c

def itemSet : Primitive → Pattern CharSet
  | .char c => do
    if !(← flags).unicode && c.toNat > 127 then failure
    return [(c.toNat, c.toNat)]
  | .set set => return set
  | _ => failure

def classRange : Pattern CharSet := do
  let first ← classItem
  skipSpace
  let next ← peek
  let second ← peekSecond?
  if next != '-' || second == some ']' || second == some '-' then itemSet first
  else
    bumpSpace
    let _ ← peek
    match first, ← classItem with
    | .char a, .char b =>
      if !(← flags).unicode && b.toNat > 127 then failure
      if a.toNat ≤ b.toNat then return [(a.toNat, b.toNat)] else failure
    | _, _ => failure

def bracketName? (cs : List Char) : Option (CharSet × Bool × List Char) := do
  let body ← afterLead? "[:".toList cs
  let negated := body.head? == some '^'
  let body := if negated then body.drop 1 else body
  let found ← bracketClass? (String.ofList (body.takeWhile (· != ':')))
  let rest ← afterLead? ":]".toList (body.dropWhile (· != ':'))
  return (found, negated, rest)

def bracketNamed : Pattern (Option CharSet) := do
  let s ← get
  match bracketName? s.rest with
  | some (found, negated, rest) =>
    set { s with rest }
    return some (← finishSet found negated)
  | none => return none

inductive ClassOp where
  | inter
  | diff
  | symmDiff

def classOp : Pattern (Option ClassOp) := do
  if ← bumpIf "&&" then return some .inter
  else if ← bumpIf "--" then return some .diff
  else if ← bumpIf "~~" then return some .symmDiff
  else return none

def ClassOp.apply : ClassOp → CharSet → CharSet → CharSet
  | .inter => CharSet.inter
  | .diff => CharSet.diff
  | .symmDiff => CharSet.symmDiff

def combine (op : Option ClassOp) (left right : Nested CharSet) : Pattern (Nested CharSet) := do
  match op with
  | none => return right
  | some op =>
    let f ← flags
    let fold (set : CharSet) : CharSet := if f.caseless && f.unicode then foldCase set else set
    return ⟨op.apply (fold left.body) (fold right.body), max left.depth right.depth + 1⟩

structure Members where
  set : CharSet := []
  count : Nat := 0
  depth : Nat := 0

namespace Members

def add (item : Nested CharSet) (m : Members) : Members :=
  ⟨CharSet.union m.set item.body, m.count + 1, max m.depth item.depth⟩

/-- Several members make one level more than a single one. -/
def union (m : Members) : Nested CharSet := ⟨m.set, if m.count ≥ 2 then m.depth + 1 else m.depth⟩

end Members

/-- Hyphens and then a closing bracket at the start of a class stand for themselves. -/
def classLead : Nat → Members → Pattern Members
  | 0, acc => return acc
  | fuel + 1, acc => do
    if (← peek) == '-' then
      bumpSpace
      let _ ← peek
      classLead fuel (acc.add ⟨[(45, 45)], 0⟩)
    else if acc.count == 0 && (← peek) == ']' then
      bumpSpace
      let _ ← peek
      return acc.add ⟨[(93, 93)], 0⟩
    else return acc

mutual

def bracketed : Nat → Pattern (Nested CharSet)
  | 0 => failure
  | fuel + 1 => do
    bumpSpace
    let negated := (← peek) == '^'
    if negated then
      bumpSpace
      let _ ← peek
    let lead ← classLead fuel {}
    classBody negated none ⟨[], 0⟩ lead fuel

/-- The rest of a class; `left` and `op` are what stands before the last operator. -/
def classBody (negated : Bool) (op : Option ClassOp) (left : Nested CharSet) (acc : Members) :
    Nat → Pattern (Nested CharSet)
  | 0 => failure
  | fuel + 1 => do
    skipSpace
    let c ← peek
    if c == '[' then
      match ← bracketNamed with
      | some found => classBody negated op left (acc.add ⟨found, 0⟩) fuel
      | none =>
        let inner ← bracketed fuel
        classBody negated op left (acc.add inner) fuel
    else if c == ']' then
      bump
      let whole ← combine op left acc.union
      return ⟨← finishSet whole.body negated, whole.depth + 1⟩
    else
      match ← classOp with
      | some next =>
        let whole ← combine op left acc.union
        classBody negated (some next) whole {} fuel
      | none =>
        let found ← classRange
        classBody negated op left (acc.add ⟨found, 0⟩) fuel

end

def dot : Pattern Regex := do
  let f ← flags
  if !f.unicode then failure
  if f.dotAll then return .chars [(0, CharSet.topCode)]
  else if f.crlf then return .chars (CharSet.complement [(10, 10), (13, 13)])
  else return .chars (CharSet.complement [(10, 10)])

def startAssertion (f : Flags) : Look :=
  if !f.multiLine then .textStart else if f.crlf then .crlfLineStart else .lineStart

def endAssertion (f : Flags) : Look :=
  if !f.multiLine then .textEnd else if f.crlf then .crlfLineEnd else .lineEnd

def literal (c : Char) : Pattern Regex := do
  return .chars (← finishSet [(c.toNat, c.toNat)] false)

def primitive : Pattern Regex := do
  let c ← peek
  if c == '\\' then
    match ← escape with
    | .char c =>
      if !(← flags).unicode && c.toNat > 127 then failure
      literal c
    | .set set => return .chars set
    | .look l => return .look l
    | .dot => dot
  else
    bump
    match c with
    | '.' => dot
    | '^' => return .look (startAssertion (← flags))
    | '$' => return .look (endAssertion (← flags))
    | c => literal c

def readFlags : Nat → Option Bool → List Char → Flags → Pattern (Flags × Bool)
  | 0, _, _, _ => failure
  | fuel + 1, dangling, seen, f => do
    let c ← peek
    if c == ':' || c == ')' then
      if dangling == some true then failure
      return (f, !seen.isEmpty)
    if seen.contains c then failure
    let on := !seen.contains '-'
    bump
    match c with
    | '-' => readFlags fuel (some true) (c :: seen) f
    | 'i' => readFlags fuel none (c :: seen) { f with caseless := on }
    | 'm' => readFlags fuel none (c :: seen) { f with multiLine := on }
    | 's' => readFlags fuel none (c :: seen) { f with dotAll := on }
    | 'R' => readFlags fuel none (c :: seen) { f with crlf := on }
    | 'u' => readFlags fuel none (c :: seen) { f with unicode := on }
    | 'x' => readFlags fuel none (c :: seen) { f with spaced := on }
    | 'U' => readFlags fuel none (c :: seen) f
    | _ => failure

def isCaptureStart (c : Char) : Bool := c == '_' || alphabetic.contains c.toNat

def isCaptureChar (c : Char) : Bool :=
  c == '_' || c == '.' || c == '[' || c == ']' || alphabetic.contains c.toNat ||
    (categories.any fun (code, set) => ["nd", "nl", "no"].contains code && set.contains c.toNat)

def captureName? (names : List String) (cs : List Char) : Option (String × List Char) :=
  match cs.takeWhile (· != '>'), cs.dropWhile (· != '>') with
  | c :: name, '>' :: rest =>
    let text := String.ofList (c :: name)
    if isCaptureStart c && name.all isCaptureChar && !names.contains text then some (text, rest)
    else none
  | _, _ => none

def captureName : Pattern Unit := do
  let s ← get
  match captureName? s.names s.rest with
  | some (name, rest) => set { s with rest, names := name :: s.names }
  | none => failure

inductive Opening where
  | flags (flags : Flags)
  | group (flags : Flags)

def opening : Pattern Opening := do
  bump
  skipSpace
  let f ← flags
  let rest := (← get).rest
  if ["?=", "?!", "?<=", "?<!"].any fun mark => Text.startsWith mark.toList rest then failure
  if ← bumpIf "?P<" then
    captureName
    return .group f
  else if ← bumpIf "?<" then
    captureName
    return .group f
  else if ← bumpIf "?" then
    let (inner, some_) ← readFlags rest.length none [] f
    let mark ← peek
    bump
    if mark == ':' then return .group inner
    else if some_ then return .flags inner
    else failure
  else return .group f

/-- Items in a row; the last comes first in the list, and flags stand as `none`. -/
abbrev Row := List (Option (Nested Regex))

namespace Row

def repeated (items : Row) (least : Nat) (most : Option Nat) : Pattern Row :=
  match items with
  | some r :: rest => return some ⟨.rep r.body least most, r.depth + 1⟩ :: rest
  | _ => failure

/-- Several items make one level more than a single one, flags counted in. -/
def close (items : Row) : Nested Regex :=
  let parts := items.reverse.filterMap id
  let depth := (parts.map (·.depth)).foldl max 0
  ⟨ofList (parts.map (·.body)), if items.length ≥ 2 then depth + 1 else depth⟩

end Row

structure Branches where
  body : Regex
  deepest : Nat
  several : Bool

namespace Branches

def single (r : Nested Regex) : Branches := ⟨r.body, r.depth, false⟩

def before (later : Branches) (r : Nested Regex) : Branches :=
  ⟨.alt r.body later.body, max r.depth later.deepest, true⟩

def depth (b : Branches) : Nat := if b.several then b.deepest + 1 else b.deepest

def group (b : Branches) : Nested Regex := ⟨b.body, b.depth + 1⟩

end Branches

mutual

def alternatives : Nat → Pattern Branches
  | 0 => failure
  | fuel + 1 => do
    let first ← branch fuel []
    if ← bumpIf "|" then return (← alternatives fuel).before first else return .single first

def branch : Nat → Row → Pattern (Nested Regex)
  | 0, _ => failure
  | fuel + 1, items => do
    skipSpace
    match ← peek? with
    | none => return items.close
    | some '|' => return items.close
    | some ')' => return items.close
    | some '(' =>
      let outer ← flags
      match ← opening with
      | .flags inner =>
        setFlags inner
        branch fuel (none :: items)
      | .group inner =>
        setFlags inner
        let body ← alternatives fuel
        expect ')'
        setFlags outer
        branch fuel (some body.group :: items)
    | some '[' =>
      let set ← bracketed fuel
      branch fuel (some ⟨.chars set.body, set.depth⟩ :: items)
    | some '?' =>
      bump
      skipReluctant
      branch fuel (← items.repeated 0 (some 1))
    | some '*' =>
      bump
      skipReluctant
      branch fuel (← items.repeated 0 none)
    | some '+' =>
      bump
      skipReluctant
      branch fuel (← items.repeated 1 none)
    | some '\x7b' =>
      let (least, most) ← bounds
      skipReluctant
      branch fuel (← items.repeated least most)
    | some _ => branch fuel (some ⟨← primitive, 0⟩ :: items)

end

end Pattern

def parse? (limits : Limits) (pattern : String) : Option Regex := do
  let cs := pattern.toList
  let (b, s) ← (Pattern.alternatives (2 * cs.length + 2)).run { rest := cs }
  if s.rest.isEmpty && b.depth ≤ limits.nest && limits.fits b.body then some b.body else none

end Arazzo.Regex
