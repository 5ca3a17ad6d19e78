import Arazzo.Text.Category
import Arazzo.Text.Script
import Arazzo.Text.Case

/-! Named classes of characters in patterns. -/

namespace Arazzo.Regex

open Text

def asciiDigits : CharSet := [(48, 57)]

def asciiWord : CharSet := [(48, 57), (65, 90), (95, 95), (97, 122)]

def asciiSpace : CharSet := [(9, 13), (32, 32)]

def whiteSpace : CharSet :=
  [(9, 13), (32, 32), (0x85, 0x85), (0xa0, 0xa0), (0x1680, 0x1680), (0x2000, 0x200a),
    (0x2028, 0x2029), (0x202f, 0x202f), (0x205f, 0x205f), (0x3000, 0x3000)]

def categoryNamed? (code : String) : Option CharSet :=
  (categories.find? (·.1 == code)).map (·.2)

def decimalDigits : CharSet := (categoryNamed? "nd").getD []

def shortClass? (unicode : Bool) : Char → Option CharSet
  | 'd' => some (if unicode then decimalDigits else asciiDigits)
  | 's' => some (if unicode then whiteSpace else asciiSpace)
  | 'w' => some (if unicode then wordChars else asciiWord)
  | _ => none

def bracketClass? : String → Option CharSet
  | "alnum" => some [(48, 57), (65, 90), (97, 122)]
  | "alpha" => some [(65, 90), (97, 122)]
  | "ascii" => some [(0, 127)]
  | "blank" => some [(9, 9), (32, 32)]
  | "cntrl" => some [(0, 31), (127, 127)]
  | "digit" => some asciiDigits
  | "graph" => some [(33, 126)]
  | "lower" => some [(97, 122)]
  | "print" => some [(32, 126)]
  | "punct" => some [(33, 47), (58, 64), (91, 96), (123, 126)]
  | "space" => some asciiSpace
  | "upper" => some [(65, 90)]
  | "word" => some asciiWord
  | "xdigit" => some [(48, 57), (65, 70), (97, 102)]
  | _ => none

def categoryCodes : List (String × String) :=
  [("letter", "l"), ("uppercaseletter", "lu"), ("lowercaseletter", "ll"), ("titlecaseletter", "lt"),
    ("casedletter", "lc"), ("modifierletter", "lm"), ("otherletter", "lo"), ("mark", "m"),
    ("combiningmark", "m"), ("nonspacingmark", "mn"), ("spacingmark", "mc"), ("enclosingmark", "me"),
    ("number", "n"), ("decimalnumber", "nd"), ("digit", "nd"), ("letternumber", "nl"),
    ("othernumber", "no"), ("punctuation", "p"), ("punct", "p"), ("connectorpunctuation", "pc"),
    ("dashpunctuation", "pd"), ("openpunctuation", "ps"), ("closepunctuation", "pe"),
    ("initialpunctuation", "pi"), ("finalpunctuation", "pf"), ("otherpunctuation", "po"),
    ("symbol", "s"), ("mathsymbol", "sm"), ("currencysymbol", "sc"), ("modifiersymbol", "sk"),
    ("othersymbol", "so"), ("separator", "z"), ("spaceseparator", "zs"), ("lineseparator", "zl"),
    ("paragraphseparator", "zp"), ("other", "c"), ("control", "cc"), ("cntrl", "cc"),
    ("format", "cf"), ("privateuse", "co"), ("unassigned", "cn")]

def assigned : CharSet := CharSet.ofRanges (categories.flatMap (·.2))

def category? (name : String) : Option CharSet :=
  let code := ((categoryCodes.find? (·.1 == name)).map (·.2)).getD name
  match code with
  | "any" => some [(0, CharSet.topCode)]
  | "ascii" => some [(0, 127)]
  | "assigned" => some assigned
  | "cn" => some (CharSet.complement assigned)
  | "lc" => some (CharSet.ofRanges
      ((categories.filter fun (c, _) => ["ll", "lt", "lu"].contains c).flatMap (·.2)))
  | "c" =>
    let rest := (categories.filter fun (c, _) => c.toList.head? == some 'c').flatMap (·.2)
    some (CharSet.union (CharSet.ofRanges rest) (CharSet.complement assigned))
  | _ =>
    match code.toList with
    | [initial] =>
      if "lmnpsz".toList.contains initial then
        some (CharSet.ofRanges
          ((categories.filter fun (c, _) => c.toList.head? == some initial).flatMap (·.2)))
      else none
    | _ => categoryNamed? code

def property? : String → Option CharSet
  | "alphabetic" => some alphabetic
  | "alpha" => some alphabetic
  | "uppercase" => some uppercase
  | "upper" => some uppercase
  | "lowercase" => some lowercase
  | "lower" => some lowercase
  | "whitespace" => some whiteSpace
  | "wspace" => some whiteSpace
  | "space" => some whiteSpace
  | "cased" => some cased
  | "caseignorable" => some caseIgnorable
  | "ci" => some caseIgnorable
  | "asciihexdigit" => some [(48, 57), (65, 70), (97, 102)]
  | "ahex" => some [(48, 57), (65, 70), (97, 102)]
  | "hexdigit" => some [(48, 57), (65, 70), (97, 102), (0xff10, 0xff19), (0xff21, 0xff26), (0xff41, 0xff46)]
  | "hex" => some [(48, 57), (65, 70), (97, 102), (0xff10, 0xff19), (0xff21, 0xff26), (0xff41, 0xff46)]
  | _ => none

def script? (name : String) : Option CharSet := (scripts.find? (·.1.contains name)).map (·.2)

/-- Names are compared without case, blanks, hyphens, underscores and a leading `is`. -/
def plainName (name : List Char) : String :=
  let cs := (name.map asciiLower).filter fun c => !(c == ' ' || c == '_' || c == '-')
  let cs := match cs with
    | 'i' :: 's' :: rest => if rest == ['c'] then cs else rest
    | _ => cs
  String.ofList cs

def named? (name : List Char) : Option CharSet :=
  let name := plainName name
  (property? name).or ((category? name).or (script? name))

def valued? (property value : List Char) : Option CharSet :=
  match plainName property with
  | "generalcategory" => category? (plainName value)
  | "gc" => category? (plainName value)
  | "script" => script? (plainName value)
  | "sc" => script? (plainName value)
  | "scriptextensions" => script? (plainName value)
  | "scx" => script? (plainName value)
  | _ => none

end Arazzo.Regex
