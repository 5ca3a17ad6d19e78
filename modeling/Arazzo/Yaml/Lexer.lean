import Arazzo.Yaml.Scalar

/-! The token stream of a YAML text: indentation becomes block tokens, and a key is marked once its
colon is seen. -/

namespace Arazzo.Yaml

structure KeyPlace where
  possible : Bool := false
  required : Bool := false
  token : Nat := 0
  index : Nat := 0
  line : Nat := 0
  column : Nat := 0

/-- `keys` holds one place for each open flow collection and one for the block context. -/
structure Lexer where
  cursor : Cursor
  flow : Nat := 0
  indent : Int := -1
  indents : List Int := []
  keyAllowed : Bool := true
  keys : List KeyPlace := [{}]
  tokens : List Token := []
  ended : Bool := false

namespace Lexer

def push (token : Token) (s : Lexer) : Lexer := { s with tokens := token :: s.tokens }

def insertAt (place : Nat) (token : Token) (s : Lexer) : Lexer :=
  let later := s.tokens.length - place
  { s with tokens := s.tokens.take later ++ token :: s.tokens.drop later }

def topKey (s : Lexer) : KeyPlace := s.keys.head?.getD {}

def setTopKey (key : KeyPlace) (s : Lexer) : Lexer := { s with keys := key :: s.keys.drop 1 }

def dropKey? (s : Lexer) : Option Lexer :=
  if s.topKey.possible && s.topKey.required then none
  else some (s.setTopKey { s.topKey with possible := false })

def saveKey? (s : Lexer) : Option Lexer :=
  if s.keyAllowed then do
    let s ← s.dropKey?
    some (s.setTopKey
      { possible := true
        required := s.flow == 0 && s.indent == s.cursor.column
        token := s.tokens.length
        index := s.cursor.index
        line := s.cursor.line
        column := s.cursor.column })
  else some s

/-- A key ends on its line and within 1024 characters. -/
def dropStaleKeys? (s : Lexer) : Option Lexer :=
  let stale (key : KeyPlace) : Bool :=
    key.possible && (key.line < s.cursor.line || key.index + 1024 < s.cursor.index)
  if s.keys.any fun key => stale key && key.required then none
  else
    some { s with
      keys := s.keys.map fun key => if stale key then { key with possible := false } else key }

def closeBlocks : Nat → Int → Lexer → Lexer
  | 0, _, s => s
  | fuel + 1, column, s =>
    if s.indent > column then
      closeBlocks fuel column
        { s with
          tokens := .blockEnd :: s.tokens, indent := s.indents.head?.getD (-1),
          indents := s.indents.drop 1 }
    else s

def unrollTo (column : Int) (s : Lexer) : Lexer :=
  if s.flow > 0 then s else closeBlocks (s.indents.length + 1) column s

def rollTo (column : Nat) (place : Nat) (token : Token) (s : Lexer) : Lexer :=
  if s.flow == 0 && s.indent < column then
    { s.insertAt place token with indent := column, indents := s.indent :: s.indents }
  else s

def advance (n : Nat) (s : Lexer) : Lexer := { s with cursor := s.cursor.skip n }

/-- Passes blanks, comments and line breaks; tabs only where no key may begin. -/
def toNextToken : Nat → Lexer → Lexer
  | 0, s => s
  | fuel + 1, s =>
    let c := s.cursor
    let c := if c.column == 0 && (c.head?.map fun x => x.toNat == 0xfeff).getD false then c.skip 1 else c
    let c := c.skipWhile fun x => x == ' ' || ((s.flow > 0 || !s.keyAllowed) && x == '\t')
    let c := if c.is '#' then c.skipWhile (!isBreak ·) else c
    if c.atBreak then
      toNextToken fuel { s with cursor := c.skipBreak, keyAllowed := s.keyAllowed || s.flow == 0 }
    else { s with cursor := c }

def fetchStreamEnd? (s : Lexer) : Option Lexer := do
  let s := s.unrollTo (-1)
  let s ← s.dropKey?
  some { s.push .streamEnd with ended := true, keyAllowed := false }

def versionNumber? (c : Cursor) : Option (Nat × Cursor) :=
  let digits := c.rest.takeWhile Char.isDigit
  if digits.isEmpty || digits.length > 9 then none
  else (Text.readNat? digits).map fun n => (n, c.skip digits.length)

/-- A tag handle: `!`, `!!` or `!word!`, or a `!word` that turns out to be a tag of its own. -/
def tagHandle? (c : Cursor) : Option (List Char × Cursor) :=
  if c.is '!' then
    let c := c.skip 1
    let word := c.rest.takeWhile isWordChar
    let c := c.skip word.length
    if c.is '!' then some ('!' :: word ++ ['!'], c.skip 1) else some ('!' :: word, c)
  else none

def isUriChar (flowMarks : Bool) (c : Char) : Bool :=
  isWordChar c || ";/?:@&=+$.!~*'()%".toList.contains c ||
    (flowMarks && (c == ',' || c == '[' || c == ']'))

def uriEscape? (c : Cursor) : Option (Char × Cursor) := do
  let octet? (c : Cursor) : Option (Nat × Cursor) := do
    let mark ← c.at? 0
    let a ← (c.at? 1).bind Text.hexValue?
    let b ← (c.at? 2).bind Text.hexValue?
    if mark == '%' then some (a * 16 + b, c.skip 3) else none
  let more? (value : Nat × Cursor) : Option (Nat × Cursor) := do
    let (n, c) ← octet? value.2
    if 0x80 ≤ n ∧ n < 0xC0 then some (value.1 * 64 + (n - 0x80), c) else none
  let (n, c) ← octet? c
  if n < 0x80 then some (Char.ofNat n, c)
  else if 0xC0 ≤ n ∧ n < 0xE0 then do
    let (n, c) ← more? (n - 0xC0, c)
    some (Char.ofNat n, c)
  else if 0xE0 ≤ n ∧ n < 0xF0 then do
    let (n, c) ← more? (← more? (n - 0xE0, c))
    some (Char.ofNat n, c)
  else if 0xF0 ≤ n ∧ n < 0xF8 then do
    let (n, c) ← more? (← more? (← more? (n - 0xF0, c)))
    some (Char.ofNat n, c)
  else none

def tagUri? (flowMarks : Bool) : Nat → List Char → Cursor → Option (List Char × Cursor)
  | 0, _, _ => none
  | fuel + 1, acc, c =>
    match c.head? with
    | some '%' =>
      match uriEscape? c with
      | some (x, c) => tagUri? flowMarks fuel (x :: acc) c
      | none => none
    | some x =>
      if isUriChar flowMarks x then tagUri? flowMarks fuel (x :: acc) (c.skip 1)
      else some (acc.reverse, c)
    | none => some (acc.reverse, c)

def tagDirective? (c : Cursor) : Option (Token × Cursor) := do
  let (handle, c) ← tagHandle? (c.skipWhile isSpaceOrTab)
  if handle.getLast? != some '!' || !c.atBlank then none
  else
    let c := c.skipWhile isSpaceOrTab
    let (uri, c) ← tagUri? true (c.rest.length + 1) [] c
    if uri.isEmpty || !c.endsWordAt 0 then none
    else some (.tagDirective (String.ofList handle) (String.ofList uri), c)

def versionDirective? (c : Cursor) : Option (Token × Cursor) := do
  let (major, c) ← versionNumber? (c.skipWhile isSpaceOrTab)
  if !c.is '.' then none
  else
    let (minor, c) ← versionNumber? (c.skip 1)
    some (.version major minor, c)

def fetchDirective? (s : Lexer) : Option Lexer := do
  let s ← (s.unrollTo (-1)).dropKey?
  let c := s.cursor.skip 1
  let name := c.rest.takeWhile isWordChar
  let c := c.skip name.length
  if name.isEmpty || !c.endsWordAt 0 then none
  else
    let (token, c) ←
      if name == "YAML".toList then versionDirective? c
      else if name == "TAG".toList then tagDirective? c
      else none
    let c := c.skipComment
    if !c.endsLine then none
    else some { s.push token with cursor := c.skipBreak, keyAllowed := false }

def fetchDocumentMark? (token : Token) (s : Lexer) : Option Lexer := do
  let s ← (s.unrollTo (-1)).dropKey?
  some { (s.push token).advance 3 with keyAllowed := false }

def fetchFlowStart? (token : Token) (s : Lexer) : Option Lexer := do
  let s ← s.saveKey?
  some { (s.push token).advance 1 with keys := {} :: s.keys, flow := s.flow + 1, keyAllowed := true }

def fetchFlowEnd? (token : Token) (s : Lexer) : Option Lexer := do
  let s ← s.dropKey?
  let s := if s.flow > 0 then { s with keys := s.keys.drop 1, flow := s.flow - 1 } else s
  some { (s.push token).advance 1 with keyAllowed := false }

def fetchFlowEntry? (s : Lexer) : Option Lexer := do
  let s ← s.dropKey?
  some { (s.push .flowEntry).advance 1 with keyAllowed := true }

def fetchBlockEntry? (s : Lexer) : Option Lexer := do
  let s ←
    if s.flow > 0 then some s
    else if !s.keyAllowed then none
    else some (s.rollTo s.cursor.column s.tokens.length .blockSequenceStart)
  let s ← s.dropKey?
  some { (s.push .blockEntry).advance 1 with keyAllowed := true }

def fetchKey? (s : Lexer) : Option Lexer := do
  let s ←
    if s.flow > 0 then some s
    else if !s.keyAllowed then none
    else some (s.rollTo s.cursor.column s.tokens.length .blockMappingStart)
  let s ← s.dropKey?
  some { (s.push .key).advance 1 with keyAllowed := s.flow == 0 }

def fetchValue? (s : Lexer) : Option Lexer := do
  let key := s.topKey
  let s ←
    if key.possible then
      let s := (s.insertAt key.token .key).rollTo key.column key.token .blockMappingStart
      some { s.setTopKey { key with possible := false } with keyAllowed := false }
    else if s.flow > 0 then some { s with keyAllowed := false }
    else if !s.keyAllowed then none
    else
      some { s.rollTo s.cursor.column s.tokens.length .blockMappingStart with keyAllowed := true }
  some ((s.push .value).advance 1)

def fetchAnchor? (token : String → Token) (s : Lexer) : Option Lexer := do
  let s ← s.saveKey?
  let c := s.cursor.skip 1
  let word := c.rest.takeWhile isWordChar
  let c := c.skip word.length
  let closed := c.endsWordAt 0 || (c.head?.map fun x => "?:,]\x7d%@`".toList.contains x).getD false
  if word.isEmpty || !closed then none
  else some { s.push (token (String.ofList word)) with cursor := c, keyAllowed := false }

def fetchTag? (s : Lexer) : Option Lexer := do
  let s ← s.saveKey?
  let c := s.cursor
  let fuel := c.rest.length + 1
  let (token, c) ←
    if c.at? 1 == some '<' then do
      let (uri, c) ← tagUri? true fuel [] (c.skip 2)
      if uri.isEmpty || !c.is '>' then none
      else some (Token.tag "" (String.ofList uri), c.skip 1)
    else do
      let (handle, c) ← tagHandle? c
      if handle.length > 1 && handle.getLast? == some '!' then
        let (uri, c) ← tagUri? false fuel [] c
        if uri.isEmpty then none else some (Token.tag (String.ofList handle) (String.ofList uri), c)
      else
        let (uri, c) ← tagUri? false fuel (handle.drop 1).reverse c
        if uri.isEmpty then some (Token.tag "" "!", c) else some (Token.tag "!" (String.ofList uri), c)
  if c.endsWordAt 0 || (s.flow > 0 && c.is ',') then
    some { s.push token with cursor := c, keyAllowed := false }
  else none

def fetchBlockScalar? (literal : Bool) (s : Lexer) : Option Lexer := do
  let s ← s.dropKey?
  let (text, c) ← Cursor.blockScalar? s.indent literal (s.cursor.skip 1)
  some { s.push (.scalar text false) with cursor := c, keyAllowed := true }

def fetchQuoted? (single : Bool) (s : Lexer) : Option Lexer := do
  let s ← s.saveKey?
  let c := s.cursor.skip 1
  let (text, c) ← Cursor.quotedScalar? single (c.rest.length + 1) [] c
  some { s.push (.scalar text false) with cursor := c, keyAllowed := false }

def fetchPlain? (s : Lexer) : Option Lexer := do
  let s ← s.saveKey?
  let c := s.cursor
  let (text, broken, c) ←
    Cursor.plainScalar? (s.flow > 0) (s.indent + 1).toNat (c.rest.length + 1) [] {} c
  some { s.push (.scalar text true) with cursor := c, keyAllowed := broken }

def startsPlain (c : Cursor) (flow : Nat) : Bool :=
  match c.head? with
  | none => false
  | some x =>
    !(c.endsWordAt 0 || "-?:,[]\x7b\x7d#&*!|>'\"%@`".toList.contains x) ||
      (x == '-' && !((c.at? 1).map isSpaceOrTab).getD false) ||
      (flow == 0 && (x == '?' || x == ':') && !c.endsWordAt 1)

def fetch? (s : Lexer) : Option Lexer := do
  let s := toNextToken (s.cursor.rest.length + 1) s
  let s ← s.dropStaleKeys?
  let c := s.cursor
  let s := s.unrollTo c.column
  match c.head? with
  | none => fetchStreamEnd? s
  | some x =>
    let marked := s.flow > 0 || c.endsWordAt 1
    if c.column == 0 && x == '%' then fetchDirective? s
    else if c.atDocumentMark '-' then fetchDocumentMark? .documentStart s
    else if c.atDocumentMark '.' then fetchDocumentMark? .documentEnd s
    else if x == '[' then fetchFlowStart? .flowSequenceStart s
    else if x == '\x7b' then fetchFlowStart? .flowMappingStart s
    else if x == ']' then fetchFlowEnd? .flowSequenceEnd s
    else if x == '\x7d' then fetchFlowEnd? .flowMappingEnd s
    else if x == ',' then fetchFlowEntry? s
    else if x == '-' && c.endsWordAt 1 then fetchBlockEntry? s
    else if x == '?' && marked then fetchKey? s
    else if x == ':' && marked then fetchValue? s
    else if x == '*' then fetchAnchor? .alias s
    else if x == '&' then fetchAnchor? .anchor s
    else if x == '!' then fetchTag? s
    else if x == '|' && s.flow == 0 then fetchBlockScalar? true s
    else if x == '>' && s.flow == 0 then fetchBlockScalar? false s
    else if x == '\'' then fetchQuoted? true s
    else if x == '"' then fetchQuoted? false s
    else if startsPlain c s.flow then fetchPlain? s
    else none

def run? : Nat → Lexer → Option (List Token)
  | 0, _ => none
  | fuel + 1, s =>
    if s.ended then some s.tokens.reverse
    else
      match s.fetch? with
      | some s => run? fuel s
      | none => none

end Lexer

def isAllowed (c : Char) : Bool :=
  let n := c.toNat
  n == 0x09 || n == 0x0a || n == 0x0d || (0x20 ≤ n && n ≤ 0x7e) || n == 0x85 ||
    (0xa0 ≤ n && n ≤ 0xd7ff) || (0xe000 ≤ n && n ≤ 0xfffd) || 0x10000 ≤ n

def tokens? (text : String) : Option (List Token) :=
  let cs := match text.toList with
    | c :: cs => if c.toNat == 0xfeff then cs else c :: cs
    | [] => []
  if cs.all isAllowed then Lexer.run? (cs.length + 3) { cursor := Cursor.ofText cs } else none

end Arazzo.Yaml
