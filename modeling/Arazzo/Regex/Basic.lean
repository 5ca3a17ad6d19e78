import Arazzo.Text.Letters

/-! Regular expressions over characters, and whether one matches somewhere in a text. -/

namespace Arazzo

open Text

inductive Regex.Look where
  | textStart
  | textEnd
  | lineStart
  | lineEnd
  | crlfLineStart
  | crlfLineEnd
  | boundary (word : CharSet)
  | notBoundary (word : CharSet)
  | wordStart (word : CharSet)
  | wordEnd (word : CharSet)
  | wordStartHalf (word : CharSet)
  | wordEndHalf (word : CharSet)

inductive Regex where
  | empty
  | chars (set : CharSet)
  | look (look : Regex.Look)
  | seq (first second : Regex)
  | alt (first second : Regex)
  | rep (body : Regex) (least : Nat) (most : Option Nat)

namespace Regex

namespace Look

def inSet (set : CharSet) (c : Option Char) : Bool :=
  (c.map fun c => set.contains c.toNat).getD false

def holds (before after : Option Char) : Look → Bool
  | .textStart => before.isNone
  | .textEnd => after.isNone
  | .lineStart => before.isNone || before == some '\n'
  | .lineEnd => after.isNone || after == some '\n'
  | .crlfLineStart =>
    before.isNone || before == some '\n' || (before == some '\r' && after != some '\n')
  | .crlfLineEnd =>
    after.isNone || after == some '\r' || (after == some '\n' && before != some '\r')
  | .boundary word => inSet word before != inSet word after
  | .notBoundary word => inSet word before == inSet word after
  | .wordStart word => !inSet word before && inSet word after
  | .wordEnd word => inSet word before && !inSet word after
  | .wordStartHalf word => !inSet word before
  | .wordEndHalf word => !inSet word after

end Look

abbrev Positions := List Nat

namespace Positions

def union : Positions → Positions → Positions
  | [], bs => bs
  | a :: as, bs => go a as (fun bs => union as bs) bs
where
  go (a : Nat) (as : Positions) (more : Positions → Positions) : Positions → Positions
    | [] => a :: as
    | b :: bs =>
      if a < b then a :: more (b :: bs)
      else if a = b then a :: more bs
      else b :: go a as more bs

end Positions

def exactly (step : Positions → Positions) : Nat → Positions → Positions
  | 0, at_ => at_
  | n + 1, at_ => if at_.isEmpty then [] else exactly step n (step at_)

def upTo (step : Positions → Positions) : Nat → Positions → Positions → Positions
  | 0, _, reached => reached
  | n + 1, newest, reached =>
    if newest.isEmpty then reached
    else
      let next := (step newest).filter (!reached.contains ·)
      upTo step n next (Positions.union reached next)

/--
The positions where a match ends that begins at one of the given positions.
More rounds than the text has positions lead nowhere new.
-/
def ends (text : Array Char) : Regex → Positions → Positions
  | .empty, at_ => at_
  | .chars set, at_ => at_.filterMap fun i =>
      match text[i]? with
      | some c => if set.contains c.toNat then some (i + 1) else none
      | none => none
  | .look l, at_ => at_.filter fun i => l.holds (if i = 0 then none else text[i - 1]?) text[i]?
  | .seq a b, at_ => ends text b (ends text a at_)
  | .alt a b, at_ => Positions.union (ends text a at_) (ends text b at_)
  | .rep body least most, at_ =>
    let rounds := text.size + 2
    let first := exactly (ends text body) (min least rounds) at_
    let more := match most with
      | none => rounds
      | some n => min (n - least) rounds
    upTo (ends text body) more first first

def matchesIn (r : Regex) (text : String) : Bool :=
  let chars := text.toList.toArray
  !(ends chars r (List.range (chars.size + 1))).isEmpty

def ofList : List Regex → Regex
  | [] => .empty
  | [r] => r
  | r :: rs => .seq r (ofList rs)

/-- A rough count of the bytes that a matcher for the expression takes; it stands in for the count that
an engine makes of its own program. -/
def weight : Regex → Nat
  | .empty => 0
  | .chars set => 32 * (set.map fun (_, high) =>
      if high < 0x80 then 1 else if high < 0x800 then 2 else 3).foldl (· + ·) 0
  | .look _ => 32
  | .seq a b => weight a + weight b
  | .alt a b => weight a + weight b + 32
  | .rep body least most => (max least (most.getD (least + 1))) * (weight body + 32)

/-- Why patterns are refused that are well written. -/
structure Limits where
  /-- How deep a pattern may nest. -/
  nest : Nat := 250
  fits : Regex → Bool := fun r => r.weight ≤ 10 * Nat.pow 2 20

end Regex
end Arazzo
