import Arazzo.Proofs.JsonPath.Keys
import Arazzo.Proofs.Resolver.Outputs
import Arazzo.Proofs.Resolver.Values

/-! Two ways into a body. A path behind the body and a pointer behind it lead to the same place, as long as
positions are asked of arrays and the path is either a query or made of names alone. -/

namespace Arazzo

open Json (Key under? at? at?_cons)
open JsonPath

variable {keys : List Key} {key : Key} {value body : Json} {name : String} {i : Nat} {side : Side}

namespace Json.Key

def token : Key → String
  | .member name => name
  | .item i => toString i

/-- Where the two ways part: a pointer finds a position among the members of an object too, and it knows no
padded numbers. -/
inductive Parts : Key → Json → Prop
  | member {i : Nat} {members : Table Json} {value : Json}
      (h : Table.get? (toString i) members = some value) : Parts (.item i) (.obj members)
  | padded {name : String} {i : Nat} {items : List Json} {value : Json} (hpadded : name ≠ toString i)
      (hread : Text.readNat? name.toList = some i) (h : items[i]? = some value) :
      Parts (.member name) (.arr items)

end Json.Key

theorem readIndex?_plain (h : (Key.member name).isPlain = true) : Pointer.readIndex? name = none := by
  obtain ⟨c, cs, hname, hstart, -⟩ := isPlain_member h
  refine Option.eq_none_iff_forall_ne_some.2 fun i hi => ?_
  obtain rfl := Pointer.readIndex?_eq_some_iff.1 hi
  have hdigit : c.isDigit = true := isDigit_of_mem_toString (hname ▸ List.mem_cons_self ..)
  rw [isNameStart_digit hdigit] at hstart
  cases hstart

theorem child?_of_under? (h : under? key value = some body) :
    Pointer.child? key.token value = some body := by
  cases key <;> cases value <;> try cases h
  · exact h
  · exact (Pointer.child?_position _ _).trans h

theorem under?_eq_child? (hplain : key.isPlain = true) (h : ¬ key.Parts value) :
    under? key value = Pointer.child? key.token value := by
  cases hchild : Pointer.child? key.token value with
  | none =>
    refine Option.eq_none_iff_forall_ne_some.2 fun found hfound => ?_
    rw [child?_of_under? hfound] at hchild
    cases hchild
  | some found =>
    cases key with
    | member name =>
      cases value <;> try cases hchild
      · rw [Key.token, Pointer.child?, readIndex?_plain hplain, Option.bind_none] at hchild
        cases hchild
      · exact hchild
    | item i =>
      cases value <;> try cases hchild
      · exact (Pointer.child?_position i _).symm.trans hchild
      · exact absurd (.member hchild) h

theorem readNat?_of_readIndex? (h : Pointer.readIndex? name = some i) :
    Text.readNat? name.toList = some i := by
  obtain rfl := Pointer.readIndex?_eq_some_iff.1 h
  rw [toList_toString, Text.readNat?_toDigits]

theorem stepInto?_eq_child? (hid : Validation.isIdText name = true) (hfits : value.Addressable)
    (h : ¬ (Key.member name).Parts value) : stepInto? name value = Pointer.child? name value := by
  cases value with
  | arr items =>
    have hunsigned : ∀ rest, name.toList ≠ '+' :: rest := by
      intro rest hplus
      have hchar := (nameChars_of_isIdText hid).2.2 '+' (hplus ▸ List.mem_cons_self ..)
      revert hchar
      decide
    have hlength := hfits.length_le
    rw [stepInto?, Pointer.child?, Pointer.readSignedNat?_of_unsigned hunsigned]
    cases hindex : Pointer.readIndex? name with
    | some i =>
      rw [readNat?_of_readIndex? hindex, Option.bind_some, Option.bind_some]
      split
      · rfl
      · have hfar : items.length ≤ i := by
          have hpow : Nat.pow 2 64 = 2 ^ 64 := rfl
          omega
        rw [Option.bind_none, List.getElem?_eq_none hfar]
    | none =>
      rw [Option.bind_none]
      refine Option.eq_none_iff_forall_ne_some.2 fun found hfound => ?_
      obtain ⟨i, hi, hitem⟩ := Option.bind_eq_some_iff.1 hfound
      obtain ⟨n, hread, hn⟩ := Option.bind_eq_some_iff.1 hi
      split at hn
      · obtain rfl := Option.some.inj hn
        refine h (.padded (fun hprinted => ?_) hread hitem)
        rw [Pointer.readIndex?_eq_some_iff.2 hprinted] at hindex
        cases hindex
      · cases hn
  | _ => rfl

/-- On the way of the pointer the keys never part from it. -/
def Parallel : List Key → Json → Prop
  | [], _ => True
  | key :: keys, value =>
    ¬ key.Parts value ∧ ∀ child, Pointer.child? key.token value = some child → Parallel keys child

theorem at?_eq_resolveTokens (hplain : ∀ key ∈ keys, key.isPlain = true) (h : Parallel keys body) :
    at? keys body = Pointer.resolveTokens (keys.map Key.token) body := by
  induction keys generalizing body with
  | nil => rfl
  | cons key keys ih =>
    obtain ⟨hkey, hkeys⟩ := List.forall_mem_cons.1 hplain
    rw [at?_cons, List.map_cons, Pointer.resolveTokens, under?_eq_child? hkey h.1]
    exact Option.bind_congr fun child hchild => ih hkeys (h.2 child hchild)

theorem addressable_child? {token : String} {child : Json} (hfits : value.Addressable)
    (h : Pointer.child? token value = some child) : child.Addressable := by
  cases value <;> try cases h
  · obtain ⟨i, -, hitem⟩ := Option.bind_eq_some_iff.1 h
    exact hfits.items child (List.mem_of_getElem? hitem)
  · exact hfits.get? h

/-- Keys that are names alone. -/
def Named (keys : List Key) : Prop := ∀ i, Key.item i ∉ keys

theorem walk?_eq_resolveTokens (hnamed : Named keys)
    (hids : ∀ name, Key.member name ∈ keys → Validation.isIdText name = true)
    (hfits : body.Addressable) (h : Parallel keys body) :
    walk? (keys.map Key.token) body = Pointer.resolveTokens (keys.map Key.token) body := by
  induction keys generalizing body with
  | nil => rfl
  | cons key keys ih =>
    cases key with
    | item i => exact absurd (List.mem_cons_self ..) (hnamed i)
    | member name =>
      have hname := stepInto?_eq_child? (hids name (List.mem_cons_self ..)) hfits h.1
      rw [walk?, List.map_cons, List.foldlM_cons, Pointer.resolveTokens]
      refine (congrArg (Option.bind · _) hname).trans (Option.bind_congr fun child hchild => ?_)
      exact ih (fun i hi => hnamed i (List.mem_cons_of_mem _ hi))
        (fun other hother => hids other (List.mem_cons_of_mem _ hother))
        (addressable_child? hfits hchild) (h.2 child hchild)

theorem resolveTokens_of_at? (h : at? keys body = some value) :
    Pointer.resolveTokens (keys.map Key.token) body = some value := by
  induction keys generalizing body with
  | nil => exact h
  | cons key keys ih =>
    obtain ⟨child, hchild, hrest⟩ := Option.bind_eq_some_iff.1 h
    rw [List.map_cons, Pointer.resolveTokens, child?_of_under? hchild, Option.bind_some, ih hrest]

/-- A query finds nothing where a position is asked of an object. -/
theorem at?_eq_none_of_member {first rest : List Key} {members : Table Json}
    (h : Pointer.resolveTokens (first.map Key.token) body = some (.obj members)) :
    at? (first ++ .item i :: rest) body = none := by
  rw [Json.at?_append]
  cases hfirst : at? first body with
  | none => rfl
  | some found =>
    obtain rfl := Option.some.inj ((resolveTokens_of_at? hfirst).symm.trans h)
    rfl

/-! Paths and pointers -/

theorem dropWhile_mark {part : List Char} (hne : part ≠ []) (hdot : '.' ∉ part) (rest : List Char) :
    ('.' :: (part ++ rest)).dropWhile (· == '.') = part ++ rest := by
  cases part with
  | nil => exact absurd rfl hne
  | cons c cs =>
    have hother : c ≠ '.' := fun hsame => hdot (hsame ▸ List.mem_cons_self ..)
    rw [List.dropWhile_cons_of_pos (by decide), List.cons_append,
      List.dropWhile_cons_of_neg (by simpa using hother)]

theorem dotted?_named (hnamed : Named keys) (hkeys : keys ≠ [])
    (hids : ∀ name, Key.member name ∈ keys → Validation.isIdText name = true) (body : Json) :
    dotted? (String.ofList (pathChars keys)) body = walk? (keys.map Key.token) body := by
  have hplain : ∀ key ∈ keys, key.chars = '.' :: key.token.toList ∧ key.token.toList ≠ [] ∧
      '.' ∉ key.token.toList := by
    intro key hkey
    cases key with
    | item i => exact absurd hkey (hnamed i)
    | member name =>
      obtain ⟨hne, hdot, -⟩ := nameChars_of_isIdText (hids name hkey)
      exact ⟨rfl, hne, hdot⟩
  obtain ⟨key, rest, rfl⟩ := List.exists_cons_of_ne_nil hkeys
  obtain ⟨⟨hchars, hne, hdot⟩, hrest⟩ := List.forall_mem_cons.1 hplain
  have hpath : pathChars (key :: rest) =
      '.' :: (key.token.toList ++ rest.flatMap fun key => '.' :: key.token.toList) := by
    rw [pathChars, List.flatMap_cons, hchars, List.cons_append]
    congr 2
    exact List.flatMap_congr fun key hkey => (hrest key hkey).1
  have hjoin : Text.joinWith ['.'] ((key :: rest).map fun key => key.token.toList) =
      key.token.toList ++ rest.flatMap fun key => '.' :: key.token.toList := by
    rw [List.map_cons, Text.joinWith_eq_flatMap, List.flatMap_map]
  have hsplit : Text.splitAll '.' (Text.joinWith ['.'] ((key :: rest).map fun key => key.token.toList)) =
      (key :: rest).map fun key => key.token.toList := by
    refine Text.splitAll_joinWith (by simp) fun part hpart => ?_
    obtain ⟨other, hother, rfl⟩ := List.mem_map.1 hpart
    exact (hplain other hother).2.2
  rw [dotted?, String.toList_ofList, hpath, dropWhile_mark hne hdot, ← hjoin, hsplit, List.map_map]
  congr 1
  exact List.map_congr_left fun key _ => String.ofList_toList

theorem unmarked_of_isIdText (hid : Validation.isIdText name = true) : (Key.member name).Unmarked := by
  obtain ⟨hne, hdot, hchars⟩ := nameChars_of_isIdText hid
  refine ⟨by simpa using hne, fun c hc => ?_⟩
  have other {d : Char} (hd : Expression.isNameChar d = false) : c ≠ d := by
    rintro rfl
    rw [hchars c hc] at hd
    cases hd
  refine ⟨?_, ?_, other rfl, other rfl⟩
  · simp only [Reader.isSpace, Bool.or_eq_false_iff, beq_eq_false_iff_ne]
    exact ⟨⟨⟨other rfl, other rfl⟩, other rfl⟩, other rfl⟩
  · rintro rfl
    exact hdot hc

def pathAccess (keys : List Key) : BodyAccess :=
  if keys = [] then .whole else .path (String.ofList (pathChars keys))

def pointerAccess (keys : List Key) : BodyAccess := .pointer (Pointer.ofTokens (keys.map Key.token))

theorem find?_pointerAccess (keys : List Key) (body : Json) :
    (pointerAccess keys).find? body = Pointer.resolveTokens (keys.map Key.token) body := by
  rw [pointerAccess, BodyAccess.find?, Pointer.resolve?, Pointer.tokens_ofTokens]

theorem find?_path (hids : ∀ name, Key.member name ∈ keys → Validation.isIdText name = true) :
    BodyAccess.find? (.path (String.ofList (pathChars keys))) body =
      if keys.all Key.isPlain then at? keys body
      else dotted? (String.ofList (pathChars keys)) body := by
  have hmarks : ∀ key ∈ keys, key.Unmarked := by
    intro key hkey
    cases key with
    | member name => exact unmarked_of_isIdText (hids name hkey)
    | item i => trivial
  rw [BodyAccess.find?, parse?_pathChars hmarks]
  cases keys.all Key.isPlain with
  | true => exact first?_keys keys body
  | false => rfl

theorem find?_pathAccess (hids : ∀ name, Key.member name ∈ keys → Validation.isIdText name = true)
    (hform : (∀ key ∈ keys, key.isPlain = true) ∨ Named keys) (hfits : body.Addressable)
    (h : Parallel keys body) :
    (pathAccess keys).find? body = (pointerAccess keys).find? body := by
  rw [find?_pointerAccess, pathAccess]
  split
  · rename_i hkeys
    rw [hkeys]
    rfl
  · rename_i hkeys
    rw [find?_path hids]
    split
    · rename_i hall
      exact at?_eq_resolveTokens (List.all_eq_true.1 hall) h
    · rename_i hall
      have hnamed := hform.resolve_left fun hplain => hall (List.all_eq_true.2 hplain)
      rw [dotted?_named hnamed hkeys hids, walk?_eq_resolveTokens hnamed hids hfits h]

def slashChars (keys : List Key) : List Char := keys.flatMap fun key => '/' :: key.token.toList

def bodyText (side : Side) (suffix : String) : String := "$" ++ side.keyword ++ ".body" ++ suffix

def bodyPath (side : Side) (keys : List Key) : String := bodyText side (String.ofList (pathChars keys))

def bodyPointer (side : Side) (keys : List Key) : String :=
  bodyText side ("#" ++ String.ofList (slashChars keys))

def bodyChars (side : Side) : List Char := side.keyword.toList ++ '.' :: "body".toList

theorem toList_bodyText (side : Side) (suffix : String) :
    (bodyText side suffix).toList = '$' :: (bodyChars side ++ suffix.toList) := by
  have hdollar : "$".toList = ['$'] := rfl
  have hdot : ".body".toList = '.' :: "body".toList := rfl
  simp only [bodyText, bodyChars, String.toList_append, hdollar, hdot, List.append_assoc,
    List.cons_append, List.nil_append]

theorem bodyChars_solid (side : Side) : ∀ c ∈ bodyChars side, Text.isBlank c = false ∧ c ≠ '#' := by
  have hall : (bodyChars side).all (fun c => !Text.isBlank c && c != '#') = true := by
    cases side <;> rfl
  intro c hc
  simpa using List.all_eq_true.1 hall c hc

theorem toList_headText_path (side : Side) (keys : List Key) :
    (Expression.headText (.message side (.body (pathAccess keys)))).toList =
      bodyChars side ++ pathChars keys := by
  have hpart : (MessagePart.body (pathAccess keys)).headText.toList =
      "body".toList ++ pathChars keys := by
    unfold pathAccess
    split
    · rename_i hkeys
      rw [hkeys]
      rfl
    · simp only [MessagePart.headText, String.toList_append, String.toList_ofList]
  rw [Expression.headText, Expression.toList_behind, hpart, bodyChars, List.append_assoc,
    List.cons_append]

theorem toList_headText_pointer (side : Side) (keys : List Key) :
    (Expression.headText (.message side (.body (pointerAccess keys)))).toList = bodyChars side := by
  rw [Expression.headText, Expression.toList_behind]
  rfl

theorem isNameChar_token (hid : ∀ name, key = .member name → Validation.isIdText name = true) :
    ∀ c ∈ key.token.toList, Expression.isNameChar c = true := by
  intro c hc
  cases key with
  | member name => exact (nameChars_of_isIdText (hid name rfl)).2.2 c hc
  | item i =>
    have hdigit : c.isDigit = true := isDigit_of_mem_toString hc
    delta Expression.isNameChar Char.isAlphanum
    simp [hdigit]

theorem chars_solid (hid : ∀ name, key = .member name → Validation.isIdText name = true) :
    ∀ c ∈ key.chars, Text.isBlank c = false ∧ c ≠ '#' := by
  have htoken := fun c hc => isNameChar_plain (isNameChar_token hid c hc)
  intro c hc
  cases key with
  | member name =>
    rcases List.mem_cons.1 hc with rfl | hc
    · decide
    · exact htoken c hc
  | item i =>
    rcases List.mem_cons.1 hc with rfl | hc
    · decide
    · rcases List.mem_append.1 hc with hc | hc
      · exact htoken c hc
      · obtain rfl := List.mem_singleton.1 hc
        decide

section Texts

variable (hids : ∀ name, Key.member name ∈ keys → Validation.isIdText name = true)
include hids

theorem pathChars_solid : ∀ c ∈ pathChars keys, Text.isBlank c = false ∧ c ≠ '#' := by
  intro c hc
  obtain ⟨key, hkey, hc⟩ := List.mem_flatMap.1 hc
  exact chars_solid (fun name hname => hids name (hname ▸ hkey)) c hc

theorem slashChars_solid : ∀ c ∈ slashChars keys, Text.isBlank c = false := by
  intro c hc
  obtain ⟨key, hkey, hc⟩ := List.mem_flatMap.1 hc
  rcases List.mem_cons.1 hc with rfl | hc
  · rfl
  · exact (isNameChar_plain (isNameChar_token (fun name hname => hids name (hname ▸ hkey)) c hc)).1

theorem text_ofTokens :
    (Pointer.ofTokens (keys.map Key.token)).text = String.ofList (slashChars keys) := by
  have hplain : ∀ key ∈ keys,
      '/' :: Pointer.escapeChars key.token.toList = '/' :: key.token.toList := by
    intro key hkey
    refine congrArg (List.cons '/') (Pointer.escapeChars_eq_self fun c hc => ?_)
    have hname := isNameChar_token (fun name hname => hids name (hname ▸ hkey)) c hc
    constructor <;> rintro rfl <;> cases hname
  rw [Pointer.ofTokens, List.flatMap_map, List.flatMap_congr hplain]
  rfl

theorem formed_path : (MessagePart.body (pathAccess keys)).Formed := by
  unfold pathAccess
  split
  · exact .whole
  · rename_i hkeys
    obtain ⟨key, rest, rfl⟩ := List.exists_cons_of_ne_nil hkeys
    cases key with
    | member name =>
      refine .inner (String.toList_ofList.trans (pathChars_member name rest)) (.inl rfl) ?_
      have hne := (nameChars_of_isIdText (hids name (List.mem_cons_self ..))).1
      exact fun hnil => hne (List.append_eq_nil_iff.1 hnil).1
    | item i =>
      refine .inner (String.toList_ofList.trans (pathChars_item i rest)) (.inr rfl) ?_
      exact fun hnil => List.cons_ne_nil _ _ (List.append_eq_nil_iff.1 hnil).2

theorem parse_bodyPath (side : Side) : Text.trim (bodyPath side keys) = bodyPath side keys ∧
    Expression.parse (bodyPath side keys) = .ok (.message side (.body (pathAccess keys))) := by
  have hnone : Expression.pointer? (.message side (.body (pathAccess keys))) = none := by
    rw [pathAccess]
    split <;> rfl
  have hsolid : ∀ c ∈ bodyChars side ++ pathChars keys, Text.isBlank c = false ∧ c ≠ '#' := by
    intro c hc
    exact (List.mem_append.1 hc).elim (bodyChars_solid side c) (pathChars_solid hids c)
  have hspell := Expression.toList_spell_plain "#" hnone
  rw [toList_headText_path] at hspell
  have htext : bodyPath side keys = Expression.spell "#" (.message side (.body (pathAccess keys))) := by
    rw [← String.toList_inj, hspell, bodyPath, toList_bodyText, String.toList_ofList]
  have hspelled : Expression.Spelled (.message side (.body (pathAccess keys))) := by
    refine ⟨.message side (formed_path hids), fun hmark => ?_, fun p hp => ?_⟩
    · rw [toList_headText_path] at hmark
      exact (hsolid _ hmark).2 rfl
    · cases hnone.symm.trans hp
  rw [htext]
  refine hspelled.parse_solid fun c hc => ?_
  rw [hspell] at hc
  rcases List.mem_cons.1 hc with rfl | hc
  · rfl
  · exact (hsolid c hc).1

theorem parse_bodyPointer (side : Side) : Text.trim (bodyPointer side keys) = bodyPointer side keys ∧
    Expression.parse (bodyPointer side keys) = .ok (.message side (.body (pointerAccess keys))) := by
  have hmark : "#".toList = ['#'] := rfl
  have hpointer : Expression.pointer? (.message side (.body (pointerAccess keys))) =
      some (Pointer.ofTokens (keys.map Key.token)) := rfl
  have hspell := Expression.toList_spell_pointed "#" hpointer
  rw [toList_headText_pointer, hmark, text_ofTokens hids, String.toList_ofList] at hspell
  have htext : bodyPointer side keys =
      Expression.spell "#" (.message side (.body (pointerAccess keys))) := by
    rw [← String.toList_inj, hspell, bodyPointer, toList_bodyText, String.toList_append, hmark,
      String.toList_ofList]
  have hspelled : Expression.Spelled (.message side (.body (pointerAccess keys))) := by
    refine ⟨.message side (.pointer _), fun hmark => ?_, fun p hp => ?_⟩
    · rw [toList_headText_pointer] at hmark
      exact (bodyChars_solid side _ hmark).2 rfl
    · obtain rfl := Option.some.inj (hpointer.symm.trans hp)
      exact Pointer.parse_ofTokens _
  rw [htext]
  refine hspelled.parse_solid fun c hc => ?_
  rw [hspell, List.mem_cons, List.mem_append, List.singleton_append, List.mem_cons] at hc
  rcases hc with rfl | hc | rfl | hc
  · rfl
  · exact (bodyChars_solid side c hc).1
  · rfl
  · exact slashChars_solid hids c hc

end Texts

namespace Resolver

variable {r : Resolver} {text : String} {part : MessagePart} {context : Option Context}

theorem resolve_message (h : r.Truthful) (htrim : Text.trim text = text)
    (hparse : Expression.parse text = .ok (.message side part)) (context : Option Context) :
    (resolve text context).run r =
      ((Expression.ofExchange context (part.find side)).mapError (.missing text), r) := by
  obtain ⟨cs, htext⟩ : ∃ cs, text.toList = '$' :: cs := by
    obtain ⟨-, hspell | hspell⟩ := Expression.spelled_of_parse hparse
    all_goals
      rw [htrim] at hspell
      rw [hspell]
      exact List.head?_eq_some_iff.1 (Expression.head?_spell _ _)
  refine resolve_run_of_unfixed h ?_
  rw [htrim, evaluateText, afterLead?_dollar htext]
  dsimp only
  rw [hparse]
  dsimp only [Expression.value]
  cases Expression.ofExchange context (part.find side) <;> rfl

theorem ofExchange_body {access access' : BodyAccess}
    (h : ∀ exchange body, context.bind (·.exchange) = some exchange → exchange.body? side = some body →
      access.find? body = access'.find? body) :
    Expression.ofExchange context (MessagePart.find side (.body access)) =
      Expression.ofExchange context (MessagePart.find side (.body access')) := by
  unfold Expression.ofExchange
  split
  · rfl
  · rename_i exchange hsent
    rw [MessagePart.find_body, MessagePart.find_body]
    split
    · rfl
    · rename_i body hbody
      rw [h exchange body hsent hbody]

theorem ofExchange_found {access : BodyAccess} {exchange : Exchange}
    (hsent : context.bind (·.exchange) = some exchange) (hbody : exchange.body? side = some body) :
    Expression.ofExchange context (MessagePart.find side (.body access)) =
      match access.find? body with
      | some found => .ok (some found)
      | none => .error .bodyItem := by
  rw [Expression.ofExchange, hsent]
  dsimp only
  rw [MessagePart.find_body, hbody]
  dsimp only
  cases access.find? body <;> rfl

/-- A path and a pointer with the same keys are answered alike, where the path is a query or made of names
and the ways do not part. Where a position meets an object on the way of the pointer, a query finds
nothing, and the pointer goes on. -/
theorem resolve_bodyPath (hreached : Reached r)
    (hids : ∀ name, Key.member name ∈ keys → Validation.isIdText name = true)
    (hform : (∀ key ∈ keys, key.isPlain = true) ∨ Named keys)
    (hfits : ∀ exchange body, context.bind (·.exchange) = some exchange →
      exchange.body? side = some body → body.Addressable) :
    ((∀ exchange body, context.bind (·.exchange) = some exchange → exchange.body? side = some body →
        Parallel keys body) →
      ∃ answer : Except Absence (Option Json),
        (resolve (bodyPath side keys) context).run r =
          (answer.mapError (.missing (bodyPath side keys)), r) ∧
        (resolve (bodyPointer side keys) context).run r =
          (answer.mapError (.missing (bodyPointer side keys)), r)) ∧
    ∀ exchange body first i rest members, context.bind (·.exchange) = some exchange →
      exchange.body? side = some body → (∀ key ∈ keys, key.isPlain = true) →
      keys = first ++ .item i :: rest →
      Pointer.resolveTokens (first.map Key.token) body = some (.obj members) →
      (resolve (bodyPath side keys) context).run r =
          (.error (.missing (bodyPath side keys) .bodyItem), r) ∧
        ∀ found, Pointer.resolveTokens (toString i :: rest.map Key.token) (.obj members) = some found →
          (resolve (bodyPointer side keys) context).run r = (.ok (some found), r) := by
  obtain ⟨htrim, hparse⟩ := parse_bodyPath hids side
  have hpath := resolve_message hreached.truthful htrim hparse context
  obtain ⟨htrim', hparse'⟩ := parse_bodyPointer hids side
  have hpointer := resolve_message hreached.truthful htrim' hparse' context
  refine ⟨fun hway => ⟨_, hpath, ?_⟩, ?_⟩
  · rw [hpointer, ofExchange_body fun exchange body hsent hbody =>
      find?_pathAccess hids hform (hfits exchange body hsent hbody) (hway exchange body hsent hbody)]
  · intro exchange body first i rest members hsent hbody hplain hkeys hmeets
    refine ⟨?_, fun found hfound => ?_⟩
    -- A path never takes a position for the name of a member, a pointer always may.
    · have hnothing : (pathAccess keys).find? body = none := by
        rw [pathAccess, if_neg (by simp [hkeys]), find?_path hids, if_pos (List.all_eq_true.2 hplain),
          hkeys, at?_eq_none_of_member hmeets]
      rw [hpath, ofExchange_found hsent hbody, hnothing]
      rfl
    · have hthere : (pointerAccess keys).find? body = some found := by
        rw [find?_pointerAccess, hkeys, List.map_append, Pointer.resolveTokens_append, hmeets]
        exact hfound
      rw [hpointer, ofExchange_found hsent hbody, hthere]
      rfl

def responded (body : Json) : Context := ⟨"w", .null, some { responseBody := some body }, [], []⟩

def blank : Resolver := ⟨⟨"1.0.1", {}, [], [], none, [], none⟩, [], []⟩

theorem resolve_bodyPath_item :
    bodyPath .response [.member "items", .item 0, .member "id"] = "$response.body.items[0].id" ∧
    bodyPointer .response [.member "items", .item 0, .member "id"] = "$response.body#/items/0/id" ∧
    ∃ answer : Except Absence (Option Json),
      (resolve (bodyPath .response [.member "items", .item 0, .member "id"])
          (some (responded (.obj [("items", .arr [.obj [("id", .str "a")]])])))).run blank =
        (answer.mapError (.missing (bodyPath .response [.member "items", .item 0, .member "id"])), blank) ∧
      (resolve (bodyPointer .response [.member "items", .item 0, .member "id"])
          (some (responded (.obj [("items", .arr [.obj [("id", .str "a")]])])))).run blank =
        (answer.mapError (.missing (bodyPointer .response [.member "items", .item 0, .member "id"])),
          blank) := by
  have hids : ∀ name, Key.member name ∈ [.member "items", .item 0, .member "id"] →
      Validation.isIdText name = true := by
    intro name hname
    simp only [List.mem_cons, List.not_mem_nil, or_false, Key.member.injEq, reduceCtorEq,
      false_or] at hname
    rcases hname with rfl | rfl <;> decide
  have hplain : ∀ key ∈ [Key.member "items", .item 0, .member "id"], key.isPlain = true := by decide
  have hbody : Json.Addressable (.obj [("items", .arr [.obj [("id", .str "a")]])]) := by
    refine .obj (List.forall_mem_singleton.2 (.arr (by decide) (List.forall_mem_singleton.2 ?_)))
    exact .obj (List.forall_mem_singleton.2 (.str "a"))
  have hway : Parallel [.member "items", .item 0, .member "id"]
      (.obj [("items", .arr [.obj [("id", .str "a")]])]) := by
    refine ⟨nofun, fun child hchild => ?_⟩
    obtain rfl := Option.some.inj hchild
    refine ⟨nofun, fun child hchild => ?_⟩
    obtain rfl := Option.some.inj hchild
    exact ⟨nofun, fun _ _ => trivial⟩
  have hreached : Reached blank := ⟨_, [], rfl⟩
  have hfits : ∀ exchange body,
      (some (responded (.obj [("items", .arr [.obj [("id", .str "a")]])]))).bind (·.exchange) =
        some exchange → exchange.body? .response = some body → body.Addressable := by
    rintro _ _ ⟨⟩ ⟨⟩
    exact hbody
  obtain ⟨hagree, -⟩ := resolve_bodyPath hreached hids (.inl hplain) hfits
  exact ⟨by decide +kernel, by decide +kernel, hagree (by rintro _ _ ⟨⟩ ⟨⟩; exact hway)⟩

def textFound (expression : String) (body : Json) : Except ResolveError (Option String) :=
  ((resolve expression (some (responded body))).run blank).1.map fun value => value.bind Json.asStr?

/-- The ways part at an object with numbers for names, where a path with a position holds a name that a
query cannot, or a position beyond the exact ones, at padded numbers, and at empty names. -/
theorem resolve_ways_part :
    (textFound "$response.body[0]" (.obj [("0", .str "a")]) =
        .error (.missing "$response.body[0]" .bodyItem) ∧
      textFound "$response.body#/0" (.obj [("0", .str "a")]) = .ok (some "a")) ∧
    (textFound "$response.body.items[0].tag-name"
        (.obj [("items", .arr [.obj [("tag-name", .str "cat")]])]) =
        .error (.missing "$response.body.items[0].tag-name" .bodyItem) ∧
      textFound "$response.body#/items/0/tag-name"
        (.obj [("items", .arr [.obj [("tag-name", .str "cat")]])]) = .ok (some "cat")) ∧
    (textFound "$response.body[9007199254740992]" (.obj [("[9007199254740992]", .str "a")]) =
        .ok (some "a") ∧
      textFound "$response.body#/9007199254740992" (.obj [("[9007199254740992]", .str "a")]) =
        .error (.missing "$response.body#/9007199254740992" .bodyItem)) ∧
    (textFound "$response.body.00" (.arr [.str "a"]) = .ok (some "a") ∧
      textFound "$response.body#/00" (.arr [.str "a"]) =
        .error (.missing "$response.body#/00" .bodyItem)) ∧
    textFound "$response.body..a" (.obj [("a", .str "b")]) = .ok (some "b") ∧
      textFound "$response.body#//a" (.obj [("a", .str "b")]) =
        .error (.missing "$response.body#//a" .bodyItem) := by
  decide +kernel

end Resolver
end Arazzo
