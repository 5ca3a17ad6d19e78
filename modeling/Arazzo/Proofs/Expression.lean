import Arazzo.Expression
import Arazzo.Proofs.Leads
import Arazzo.Proofs.Pointer

/-! Which texts are read as expressions: the one that each expression is written as, and where a pointer
ends it also the one with a second `#`. -/

namespace Arazzo

open Expression

variable {cs head : List Char} {pointer : Option Pointer} {names : List String} {text : String}

theorem isNameChar_plain {c : Char} (h : isNameChar c = true) :
    Text.isBlank c = false ∧ c ≠ '#' := by
  delta isNameChar Char.isAlphanum Char.isAlpha Char.isUpper Char.isLower Char.isDigit at h
  simp only [Bool.or_eq_true, Bool.and_eq_true, beq_iff_eq, decide_eq_true_eq] at h
  have bounds : 45 ≤ c.toNat ∧ c.toNat ≤ 122 := by
    rcases h with (((((h | h) | h) | rfl) | rfl) | rfl)
    · exact ⟨Nat.le_trans (by decide) h.1, Nat.le_trans h.2 (by decide)⟩
    · exact ⟨Nat.le_trans (by decide) h.1, Nat.le_trans h.2 (by decide)⟩
    · exact ⟨Nat.le_trans (by decide) h.1, Nat.le_trans h.2 (by decide)⟩
    all_goals decide
  constructor
  · simp only [Text.isBlank, Bool.or_eq_false_iff, Bool.and_eq_false_iff, beq_eq_false_iff_ne,
      decide_eq_false_iff_not]
    omega
  · rintro rfl
    revert bounds
    decide

def SpellsName (cs : List Char) : Prop := cs ≠ [] ∧ ∀ c ∈ cs, isNameChar c = true

theorem checkName_eq_ok_iff {name : String} :
    checkName cs = .ok name ↔ SpellsName name.toList ∧ cs = name.toList := by
  unfold checkName
  split
  · rename_i hempty
    rw [List.isEmpty_iff] at hempty
    subst hempty
    refine iff_of_false (fun h => by cases h) ?_
    rintro ⟨⟨hne, -⟩, hcs⟩
    exact hne hcs.symm
  · rename_i hempty
    have hne : cs ≠ [] := fun hnil => hempty (List.isEmpty_iff.2 hnil)
    split
    · rename_i hall
      constructor
      · intro h
        rw [← Except.ok.inj h, String.toList_ofList]
        exact ⟨⟨hne, List.all_eq_true.1 hall⟩, rfl⟩
      · rintro ⟨-, rfl⟩
        rw [String.ofList_toList]
    · rename_i hall
      refine iff_of_false (fun h => by cases h) ?_
      rintro ⟨⟨-, hchars⟩, rfl⟩
      exact hall (List.all_eq_true.2 hchars)

theorem mapM_checkName_eq_ok_iff {parts : List (List Char)} :
    parts.mapM checkName = .ok names ↔
      (∀ name ∈ names, SpellsName name.toList) ∧ parts = names.map String.toList := by
  induction parts generalizing names with
  | nil =>
    constructor
    · intro h
      obtain rfl : [] = names := Except.ok.inj h
      exact ⟨by simp, rfl⟩
    · rintro ⟨-, hnames⟩
      obtain rfl := List.map_eq_nil_iff.1 hnames.symm
      rfl
  | cons part parts ih =>
    rw [List.mapM_cons]
    constructor
    · intro h
      obtain ⟨first, hfirst, h⟩ := exists_of_bind_ok h
      obtain ⟨rest, hrest, h⟩ := exists_of_bind_ok h
      obtain rfl : first :: rest = names := Except.ok.inj h
      obtain ⟨hname, rfl⟩ := checkName_eq_ok_iff.1 hfirst
      obtain ⟨hnames, rfl⟩ := ih.1 hrest
      exact ⟨List.forall_mem_cons.2 ⟨hname, hnames⟩, rfl⟩
    · rintro ⟨hnames, hparts⟩
      obtain ⟨first, rest, rfl, rfl, rfl⟩ := List.map_eq_cons_iff.1 hparts.symm
      obtain ⟨hname, hrest⟩ := List.forall_mem_cons.1 hnames
      rw [checkName_eq_ok_iff.2 ⟨hname, rfl⟩, ih.2 ⟨hrest, rfl⟩]
      rfl

def NamePath.Formed (path : NamePath) : Prop :=
  ∀ name ∈ path.root :: path.rest, SpellsName name.toList ∧ '.' ∉ name.toList

theorem toList_names (names : List String) :
    (String.intercalate "." names).toList = Text.joinWith ['.'] (names.map String.toList) := by
  have hdot : ".".toList = ['.'] := rfl
  rw [String.toList_intercalate, hdot, Text.intercalate_eq_joinWith]

theorem splitAll_names (hnames : names ≠ []) (h : ∀ name ∈ names, '.' ∉ name.toList) :
    Text.splitAll '.' (String.intercalate "." names).toList = names.map String.toList := by
  rw [toList_names]
  refine Text.splitAll_joinWith (by simpa using hnames) fun part hpart => ?_
  obtain ⟨name, hname, rfl⟩ := List.mem_map.1 hpart
  exact h name hname

theorem NamePath.Formed.isNameChar {path : NamePath} (h : path.Formed) :
    ∀ c ∈ (namesText path).toList, isNameChar c = true := by
  intro c hc
  rw [namesText, toList_names] at hc
  rcases Text.mem_joinWith hc with hmem | ⟨part, hpart, hmem⟩
  · obtain rfl := List.mem_singleton.1 hmem
    rfl
  · obtain ⟨name, hname, rfl⟩ := List.mem_map.1 hpart
    exact (h name hname).1.2 c hmem

theorem readNamePath_eq_ok_iff {path : NamePath} :
    readNamePath cs pointer = .ok path ↔
      path.Formed ∧ cs = (namesText path).toList ∧ pointer = path.pointer := by
  unfold readNamePath
  dsimp only
  constructor
  · intro h
    split at h
    · cases h
    · obtain ⟨names, hread, h⟩ := exists_of_bind_ok h
      obtain ⟨hnames, hparts⟩ := mapM_checkName_eq_ok_iff.1 hread
      obtain ⟨root, rest, rfl⟩ : ∃ root rest, names = root :: rest := by
        cases names with
        | nil => exact absurd hparts Text.splitAll_ne_nil
        | cons root rest => exact ⟨root, rest, rfl⟩
      obtain rfl : ⟨root, rest, pointer⟩ = path := Except.ok.inj h
      refine ⟨fun name hname => ⟨hnames name hname, ?_⟩, ?_, rfl⟩
      · have hpart : name.toList ∈ Text.splitAll '.' cs := by
          rw [hparts]
          exact List.mem_map_of_mem hname
        exact Text.not_mem_of_mem_splitAll hpart
      · rw [namesText, toList_names, ← hparts, Text.joinWith_splitAll]
  · rintro ⟨hformed, rfl, rfl⟩
    have hparts : Text.splitAll '.' (namesText path).toList =
        (path.root :: path.rest).map String.toList :=
      splitAll_names (List.cons_ne_nil _ _) fun name hname => (hformed name hname).2
    have hread := mapM_checkName_eq_ok_iff.2 ⟨fun name hname => (hformed name hname).1, hparts⟩
    have hempty : ¬ (Text.splitAll '.' (namesText path).toList).any List.isEmpty = true := by
      rw [hparts, List.any_eq_true]
      rintro ⟨part, hpart, hnil⟩
      obtain ⟨name, hname, rfl⟩ := List.mem_map.1 hpart
      exact (hformed name hname).1.1 (List.isEmpty_iff.1 hnil)
    rw [if_neg hempty, hread]
    rfl

/-! Parts of a message -/

namespace MessagePart

inductive Formed : MessagePart → Prop
  | header {name : String} (hne : name ≠ "") (hchars : ∀ c ∈ name.toList, isHeaderChar c = true) :
      Formed (.header name)
  | query {name : String} (h : SpellsName name.toList) : Formed (.query name)
  | path {name : String} (h : SpellsName name.toList) : Formed (.path name)
  | whole : Formed (.body .whole)
  | pointer (pointer : Pointer) : Formed (.body (.pointer pointer))
  | inner {lead : Char} {more : List Char} {text : String} (htext : text.toList = lead :: more)
      (hlead : lead = '.' ∨ lead = '[') (hmore : more ≠ []) : Formed (.body (.path text))

def pointer? : MessagePart → Option Pointer
  | .body (.pointer pointer) => some pointer
  | _ => none

def headText : MessagePart → String
  | .header name => "header." ++ name
  | .query name => "query." ++ name
  | .path name => "path." ++ name
  | .body (.path text) => "body" ++ text
  | .body .whole => "body"
  | .body (.pointer _) => "body"

end MessagePart

theorem toList_mark (lead word rest : String) (hlead : lead.toList = word.toList ++ ['.']) :
    (lead ++ rest).toList = word.toList ++ '.' :: rest.toList := by
  rw [String.toList_append, hlead, List.append_assoc, List.singleton_append]

theorem readBody_eq_ok {suffix : List Char} {part : MessagePart}
    (h : readBody cs suffix pointer = .ok part) :
    part.Formed ∧ "body".toList ++ suffix = part.headText.toList ∧ pointer = part.pointer? := by
  unfold readBody at h
  split at h
  · obtain rfl := Except.ok.inj h
    exact ⟨.pointer _, List.append_nil _, rfl⟩
  · obtain rfl := Except.ok.inj h
    exact ⟨.whole, List.append_nil _, rfl⟩
  · cases h
  · rename_i c more
    split at h
    · rename_i hlead
      split at h
      · cases h
      · rename_i hmore
        obtain rfl := Except.ok.inj h
        refine ⟨.inner String.toList_ofList hlead fun hnil => hmore (List.isEmpty_iff.2 hnil), ?_, rfl⟩
        simp only [MessagePart.headText, String.toList_append, String.toList_ofList]
    · cases h

theorem readPart_kind {kind name : List Char} (hkind : '.' ∉ kind)
    (hbody : Text.afterLead? "body".toList (kind ++ '.' :: name) = none) :
    readPart (kind ++ '.' :: name) none =
      if kind = "header".toList then
        if name.isEmpty then .error .emptyName
        else if name.all isHeaderChar then .ok (.header (String.ofList name))
        else .error (.badHeader (String.ofList name))
      else if kind = "query".toList then (checkName name).map .query
      else if kind = "path".toList then (checkName name).map .path
      else .error (.badSource (String.ofList (kind ++ '.' :: name))) := by
  rw [readPart, hbody]
  dsimp only
  rw [Text.splitOnce?_eq_some_iff.2 ⟨rfl, hkind⟩]
  rfl

theorem readPart_kind_eq_ok {kind name : List Char} {part : MessagePart} (hkind : '.' ∉ kind)
    (hbody : Text.afterLead? "body".toList (kind ++ '.' :: name) = none)
    (h : readPart (kind ++ '.' :: name) none = .ok part) :
    part.Formed ∧ kind ++ '.' :: name = part.headText.toList ∧ part.pointer? = none := by
  rw [readPart_kind hkind hbody] at h
  split at h
  · rename_i hheader
    split at h
    · cases h
    · rename_i hempty
      split at h
      · rename_i hchars
        obtain rfl := Except.ok.inj h
        have hname : (String.ofList name).toList = name := String.toList_ofList
        refine ⟨.header ?_ ?_, ?_, rfl⟩
        · rintro hnil
          exact hempty (List.isEmpty_iff.2 (by simpa using hnil))
        · rw [hname]
          exact List.all_eq_true.1 hchars
        · rw [MessagePart.headText, toList_mark _ "header" _ rfl, hname, hheader]
      · cases h
  · split at h
    · rename_i hquery
      obtain ⟨name', hname, rfl⟩ := exists_of_map_ok h
      obtain ⟨hformed, rfl⟩ := checkName_eq_ok_iff.1 hname
      refine ⟨.query hformed, ?_, rfl⟩
      rw [MessagePart.headText, toList_mark _ "query" _ rfl, hquery]
    · split at h
      · rename_i hpath
        obtain ⟨name', hname, rfl⟩ := exists_of_map_ok h
        obtain ⟨hformed, rfl⟩ := checkName_eq_ok_iff.1 hname
        refine ⟨.path hformed, ?_, rfl⟩
        rw [MessagePart.headText, toList_mark _ "path" _ rfl, hpath]
      · cases h

theorem readPart_eq_ok {part : MessagePart} (h : readPart cs pointer = .ok part) :
    part.Formed ∧ cs = part.headText.toList ∧ pointer = part.pointer? := by
  cases hbody : Text.afterLead? "body".toList cs with
  | some suffix =>
    rw [readPart, hbody] at h
    rw [Text.afterLead?_eq_some_iff.1 hbody]
    exact readBody_eq_ok h
  | none =>
    cases pointer with
    | some pointer =>
      rw [readPart, hbody] at h
      cases h
    | none =>
      cases hsplit : Text.splitOnce? '.' cs with
      | none =>
        rw [readPart, hbody, hsplit] at h
        cases h
      | some parts =>
        obtain ⟨kind, name⟩ := parts
        obtain ⟨rfl, hkind⟩ := Text.splitOnce?_eq_some_iff.1 hsplit
        obtain ⟨hformed, htext, hnone⟩ := readPart_kind_eq_ok hkind hbody h
        exact ⟨hformed, htext, hnone.symm⟩

theorem readPart_headText {part : MessagePart} (h : part.Formed) :
    readPart part.headText.toList part.pointer? = .ok part := by
  cases h with
  | @header name hne hchars =>
    have hempty : ¬ name.toList.isEmpty = true := by simpa using hne
    rw [MessagePart.headText, toList_mark _ "header" _ rfl]
    refine (readPart_kind (by decide) rfl).trans ?_
    rw [if_pos rfl, if_neg hempty, if_pos (List.all_eq_true.2 hchars), String.ofList_toList]
  | @query name h =>
    rw [MessagePart.headText, toList_mark _ "query" _ rfl]
    refine (readPart_kind (by decide) rfl).trans ?_
    rw [if_neg (by decide), if_pos rfl, checkName_eq_ok_iff.2 ⟨h, rfl⟩]
    rfl
  | @path name h =>
    rw [MessagePart.headText, toList_mark _ "path" _ rfl]
    refine (readPart_kind (by decide) rfl).trans ?_
    rw [if_neg (by decide), if_neg (by decide), if_pos rfl, checkName_eq_ok_iff.2 ⟨h, rfl⟩]
    rfl
  | whole => rfl
  | pointer pointer =>
    have hbody : Text.afterLead? "body".toList "body".toList = some [] := by decide
    rw [MessagePart.headText, readPart, hbody]
    rfl
  | @inner lead more text htext hlead hmore =>
    have hbody : Text.afterLead? "body".toList ("body" ++ text).toList = some text.toList :=
      Text.afterLead?_eq_some_iff.2 (String.toList_append ..)
    have hempty : ¬ more.isEmpty = true := by simpa using hmore
    have hread : readBody ("body" ++ text).toList text.toList none = .ok (.body (.path text)) := by
      rw [htext]
      simp only [readBody, if_pos hlead, if_neg hempty, ← htext, String.ofList_toList]
    rw [MessagePart.headText, readPart, hbody]
    exact hread

/-! Whole expressions -/

theorem nameChars_keyword (scope : Scope) :
    ∀ c ∈ scope.keyword.toList, isNameChar c = true := by
  have hall : scope.keyword.toList.all isNameChar = true := by
    cases scope <;> decide
  exact List.all_eq_true.1 hall

theorem not_mem_keyword (scope : Scope) : '.' ∉ scope.keyword.toList := by
  cases scope <;> decide

theorem Scope.ofKeyword?_eq_some_iff {word : String} {scope : Scope} :
    Scope.ofKeyword? word = some scope ↔ word = scope.keyword := by
  constructor
  · intro h
    unfold Scope.ofKeyword? at h
    split at h <;> cases h <;> rfl
  · rintro rfl
    cases scope <;> rfl

/-- What a text can spell as an expression. The parameters among the components are named in a way of
their own. -/
inductive Expression.Formed : Expression → Prop
  | url : Formed .url
  | method : Formed .method
  | statusCode : Formed .statusCode
  | message {part : MessagePart} (side : Side) (h : part.Formed) : Formed (.message side part)
  | named {path : NamePath} (scope : Scope) (h : path.Formed)
      (hother : scope = .components → ¬ "parameters.".toList <+: (namesText path).toList) :
      Formed (.named scope path)
  | componentParameter {name : String} (h : SpellsName name.toList) : Formed (.componentParameter name)

namespace Expression

def pointer? : Expression → Option Pointer
  | .message _ part => part.pointer?
  | .named _ path => path.pointer
  | _ => none

def headText : Expression → String
  | .url => "url"
  | .method => "method"
  | .statusCode => "statusCode"
  | .message side part => side.keyword ++ "." ++ part.headText
  | .named scope path => scope.keyword ++ "." ++ namesText path
  | .componentParameter name => Scope.components.keyword ++ "." ++ ("parameters." ++ name)

theorem toList_behind (word rest : String) :
    (word ++ "." ++ rest).toList = word.toList ++ '.' :: rest.toList := by
  rw [String.toList_append, String.toList_append, List.append_assoc]
  rfl

theorem readNamed_names {scope : Scope}
    (h : scope = .components → ¬ "parameters.".toList <+: cs) :
    readNamed scope cs pointer = (readNamePath cs pointer).map (.named scope) := by
  cases scope with
  | components =>
    have hnone : Text.afterLead? "parameters.".toList cs = none := by
      refine Option.eq_none_iff_forall_ne_some.2 fun rest hrest => h rfl ?_
      exact ⟨rest, (Text.afterLead?_eq_some_iff.1 hrest).symm⟩
    unfold readNamed
    rw [hnone]
  | _ => rfl

theorem readNamed_parameter (name : List Char) :
    readNamed .components ("parameters.".toList ++ name) pointer = (checkName name).bind fun name =>
      if pointer.isSome then .error .pointerNotAllowed else .ok (.componentParameter name) := by
  have hlead : Text.afterLead? "parameters.".toList ("parameters.".toList ++ name) = some name :=
    Text.afterLead?_eq_some_iff.2 rfl
  unfold readNamed
  rw [hlead]
  rfl

theorem readNamed_eq_ok {scope : Scope} {expression : Expression}
    (h : readNamed scope cs pointer = .ok expression) :
    expression.Formed ∧ scope.keyword.toList ++ '.' :: cs = expression.headText.toList ∧
      pointer = expression.pointer? := by
  by_cases hparameter : scope = .components ∧ "parameters.".toList <+: cs
  · obtain ⟨rfl, name, rfl⟩ := hparameter
    rw [readNamed_parameter] at h
    obtain ⟨name', hname, h⟩ := exists_of_bind_ok h
    obtain ⟨hformed, rfl⟩ := checkName_eq_ok_iff.1 hname
    rw [hname] at h
    cases pointer with
    | some pointer => cases h
    | none =>
      obtain rfl := Except.ok.inj h
      refine ⟨.componentParameter hformed, ?_, rfl⟩
      rw [headText, toList_behind, String.toList_append]
  · have hother : scope = .components → ¬ "parameters.".toList <+: cs :=
      fun hscope hlead => hparameter ⟨hscope, hlead⟩
    rw [readNamed_names hother] at h
    obtain ⟨path, hpath, rfl⟩ := exists_of_map_ok h
    obtain ⟨hformed, rfl, rfl⟩ := readNamePath_eq_ok_iff.1 hpath
    exact ⟨.named scope hformed hother, (toList_behind _ _).symm, rfl⟩

theorem readHead_word {word rest : List Char} (h : '.' ∉ word) :
    readHead (word ++ '.' :: rest) pointer =
      if word = "request".toList then (readPart rest pointer).map (.message .request)
      else if word = "response".toList then (readPart rest pointer).map (.message .response)
      else
        (Scope.ofKeyword? (String.ofList word)).elim
          (.error (.unknown (String.ofList (word ++ '.' :: rest)))) fun scope =>
            readNamed scope rest pointer := by
  have hdot {other : List Char} (hother : '.' ∉ other) : word ++ '.' :: rest ≠ other := by
    rintro rfl
    exact hother (by simp)
  rw [readHead, if_neg (hdot (by decide)), if_neg (hdot (by decide)), if_neg (hdot (by decide)),
    Text.splitOnce?_eq_some_iff.2 ⟨rfl, h⟩]
  dsimp only
  cases Scope.ofKeyword? (String.ofList word) <;> rfl

theorem readHead_side (side : Side) (rest : List Char) :
    readHead (side.keyword.toList ++ '.' :: rest) pointer =
      (readPart rest pointer).map (.message side) := by
  have hdot : '.' ∉ side.keyword.toList := by cases side <;> decide
  rw [readHead_word hdot]
  cases side with
  | request => exact if_pos rfl
  | response => exact (if_neg (by decide)).trans (if_pos rfl)

theorem readHead_scope (scope : Scope) (rest : List Char) :
    readHead (scope.keyword.toList ++ '.' :: rest) pointer = readNamed scope rest pointer := by
  have hrequest : scope.keyword.toList ≠ "request".toList := by cases scope <;> decide
  have hresponse : scope.keyword.toList ≠ "response".toList := by cases scope <;> decide
  rw [readHead_word (not_mem_keyword scope), if_neg hrequest, if_neg hresponse, String.ofList_toList,
    Scope.ofKeyword?_eq_some_iff.2 rfl, Option.elim_some]

variable {expression : Expression}

theorem readHead_bare (hdot : '.' ∉ head) (h : readHead head pointer = .ok expression) :
    expression.Formed ∧ head = expression.headText.toList ∧ pointer = expression.pointer? := by
  have bare {e : Expression} (hformed : e.Formed) (hword : head = e.headText.toList)
      (hpointer : e.pointer? = none)
      (h : (if pointer.isSome then .error .pointerNotAllowed else .ok e) =
        (.ok expression : Except ExpressionError Expression)) :
      expression.Formed ∧ head = expression.headText.toList ∧ pointer = expression.pointer? := by
    split at h
    · cases h
    · rename_i hnone
      obtain rfl := Except.ok.inj h
      exact ⟨hformed, hword, by simpa [hpointer] using hnone⟩
  unfold readHead at h
  dsimp only at h
  split at h
  · exact bare .url ‹_› rfl h
  · split at h
    · exact bare .method ‹_› rfl h
    · split at h
      · exact bare .statusCode ‹_› rfl h
      · rw [Text.splitOnce?_eq_none_iff.2 hdot] at h
        cases h

theorem readHead_eq_ok (h : readHead head pointer = .ok expression) :
    expression.Formed ∧ head = expression.headText.toList ∧ pointer = expression.pointer? := by
  cases hsplit : Text.splitOnce? '.' head with
  | none => exact readHead_bare (Text.splitOnce?_eq_none_iff.1 hsplit) h
  | some parts =>
    obtain ⟨word, rest⟩ := parts
    obtain ⟨rfl, hdot⟩ := Text.splitOnce?_eq_some_iff.1 hsplit
    have hside (side : Side) (hword : word = side.keyword.toList)
        (h : (readPart rest pointer).map (.message side) = .ok expression) :
        expression.Formed ∧ word ++ '.' :: rest = expression.headText.toList ∧
          pointer = expression.pointer? := by
      obtain ⟨part, hpart, rfl⟩ := exists_of_map_ok h
      obtain ⟨hformed, rfl, rfl⟩ := readPart_eq_ok hpart
      exact ⟨.message side hformed, by rw [headText, toList_behind, hword], rfl⟩
    rw [readHead_word hdot] at h
    split at h
    · exact hside .request ‹_› h
    · split at h
      · exact hside .response ‹_› h
      · cases hscope : Scope.ofKeyword? (String.ofList word) with
        | none =>
          rw [hscope] at h
          cases h
        | some scope =>
          rw [hscope, Option.elim_some] at h
          have hword := Scope.ofKeyword?_eq_some_iff.1 hscope
          rw [← String.toList_inj, String.toList_ofList] at hword
          rw [hword]
          exact readNamed_eq_ok h

theorem readHead_headText (h : expression.Formed) :
    readHead expression.headText.toList expression.pointer? = .ok expression := by
  cases h with
  | url => rfl
  | method => rfl
  | statusCode =>
    rw [headText, readHead, if_neg (by decide), if_neg (by decide), if_pos rfl]
    rfl
  | message side h =>
    rw [headText, toList_behind, readHead_side, pointer?, readPart_headText h]
    rfl
  | named scope h hother =>
    rw [headText, toList_behind, readHead_scope, readNamed_names hother, pointer?,
      readNamePath_eq_ok_iff.2 ⟨h, rfl, rfl⟩]
    rfl
  | componentParameter h =>
    rw [headText, toList_behind, readHead_scope, String.toList_append, readNamed_parameter,
      checkName_eq_ok_iff.2 ⟨h, rfl⟩]
    rfl

def spell (mark : String) (expression : Expression) : String :=
  "$" ++ expression.headText ++ (expression.pointer?.map fun pointer => mark ++ pointer.text).getD ""

theorem partText_eq (part : MessagePart) :
    partText part = part.headText ++ pointerText part.pointer? := by
  rcases part with name | name | name | ⟨⟩ | pointer | text
  all_goals
    simp only [partText, MessagePart.headText, MessagePart.pointer?, pointerText, String.append_empty]
  rfl

theorem spell_eq_render (expression : Expression) : expression.spell "#" = expression.render := by
  have hpointer (pointer : Option Pointer) :
      (pointer.map fun pointer => "#" ++ pointer.text).getD "" = pointerText pointer := by
    cases pointer <;> rfl
  rw [spell, hpointer]
  cases expression with
  | message side part =>
    have hrender : render (.message side part) = "$" ++ side.keyword ++ "." ++ partText part := rfl
    simp only [hrender, partText_eq, headText, pointer?, String.append_assoc]
  | named scope path =>
    have hrender : render (.named scope path) =
        "$" ++ scope.keyword ++ "." ++ namesText path ++ pointerText path.pointer := rfl
    simp only [hrender, headText, pointer?, String.append_assoc]
  | componentParameter name =>
    have hrender : render (.componentParameter name) = "$components.parameters." ++ name := rfl
    have hlead : "$components.parameters." = "$" ++ (Scope.components.keyword ++ "." ++ "parameters.") := by
      decide
    simp only [hrender, hlead, headText, pointer?, pointerText, String.append_empty,
      String.append_assoc]
  | _ => rfl

theorem toList_spell_plain (mark : String) (h : expression.pointer? = none) :
    (expression.spell mark).toList = '$' :: expression.headText.toList := by
  rw [spell, h, Option.map_none, Option.getD_none, String.append_empty, String.toList_append]
  rfl

theorem toList_spell_pointed {pointer : Pointer} (mark : String)
    (h : expression.pointer? = some pointer) : (expression.spell mark).toList =
      '$' :: (expression.headText.toList ++ (mark.toList ++ pointer.text.toList)) := by
  rw [spell, h, Option.map_some, Option.getD_some, String.toList_append, String.toList_append,
    String.toList_append]
  rfl

theorem parse_unpointed (htext : Text.trimChars text.toList = '$' :: cs) (hmark : '#' ∉ cs) :
    parse text = readHead cs none := by
  unfold parse parseChars
  rw [htext]
  simp only [Text.splitOnce?_eq_none_iff.2 hmark]

theorem parse_pointed {fragment : List Char}
    (htext : Text.trimChars text.toList = '$' :: (head ++ '#' :: fragment)) (hmark : '#' ∉ head) :
    parse text = (readPointer fragment).bind fun pointer => readHead head (some pointer) := by
  have hsplit : Text.splitOnce? '#' (head ++ '#' :: fragment) = some (head, fragment) :=
    Text.splitOnce?_eq_some_iff.2 ⟨rfl, hmark⟩
  unfold parse parseChars
  rw [htext]
  simp only [hsplit]
  rfl

theorem readPointer_eq_ok_iff {fragment : List Char} {pointer : Pointer} :
    readPointer fragment = .ok pointer ↔ Pointer.parse (String.ofList fragment) = .ok pointer := by
  unfold readPointer
  split
  · rename_i found hfound
    rw [hfound]
    simp
  · rename_i error herror
    rw [herror]
    simp

/-- What is written before a pointer: the mark that divides it from the head, and the one that the
pointer may have of its own. -/
theorem readPointer_written {fragment : List Char} {pointer : Pointer} :
    readPointer fragment = .ok pointer ↔ Pointer.parse pointer.text = .ok pointer ∧
      ('#' :: fragment = "#".toList ++ pointer.text.toList ∨
        '#' :: fragment = "##".toList ++ pointer.text.toList) := by
  have hone : "#".toList = ['#'] := rfl
  have htwo : "##".toList = ['#', '#'] := rfl
  rw [readPointer_eq_ok_iff, Pointer.parse_eq_ok_iff, ← String.toList_inj, ← String.toList_inj,
    String.toList_ofList, String.toList_append, hone, htwo]
  simp

theorem toList_trim (text : String) : (Text.trim text).toList = Text.trimChars text.toList :=
  String.toList_ofList

structure Spelled (expression : Expression) : Prop where
  formed : expression.Formed
  unmarked : '#' ∉ expression.headText.toList
  pointer : ∀ pointer, expression.pointer? = some pointer → Pointer.parse pointer.text = .ok pointer

theorem spelled_of_parse (h : parse text = .ok expression) : expression.Spelled ∧
    (Text.trim text = expression.spell "#" ∨ Text.trim text = expression.spell "##") := by
  obtain ⟨cs, htext⟩ : ∃ cs, Text.trimChars text.toList = '$' :: cs := by
    unfold parse parseChars at h
    split at h
    · exact ⟨_, ‹_›⟩
    · cases h
  rw [← String.toList_inj, ← String.toList_inj, toList_trim, htext]
  cases hsplit : Text.splitOnce? '#' cs with
  | none =>
    have hmark := Text.splitOnce?_eq_none_iff.1 hsplit
    rw [parse_unpointed htext hmark] at h
    obtain ⟨hformed, rfl, hnone⟩ := readHead_eq_ok h
    refine ⟨⟨hformed, hmark, fun pointer hsome => ?_⟩, .inl ?_⟩
    · rw [← hnone] at hsome
      cases hsome
    · rw [toList_spell_plain _ hnone.symm]
  | some parts =>
    obtain ⟨head, fragment⟩ := parts
    obtain ⟨rfl, hmark⟩ := Text.splitOnce?_eq_some_iff.1 hsplit
    rw [parse_pointed htext hmark] at h
    obtain ⟨pointer, hread, h⟩ := exists_of_bind_ok h
    obtain ⟨hparse, hwritten⟩ := readPointer_written.1 hread
    obtain ⟨hformed, rfl, hpointer⟩ := readHead_eq_ok h
    refine ⟨⟨hformed, hmark, fun other hother => ?_⟩, ?_⟩
    · obtain rfl := Option.some.inj (hpointer.trans hother)
      exact hparse
    · rw [toList_spell_pointed _ hpointer.symm, toList_spell_pointed _ hpointer.symm]
      exact hwritten.imp (fun hone => by rw [hone]) fun htwo => by rw [htwo]

theorem Spelled.parse_of_trim (h : expression.Spelled)
    (htext : Text.trim text = expression.spell "#" ∨ Text.trim text = expression.spell "##") :
    parse text = .ok expression := by
  have hread := readHead_headText h.formed
  rw [← String.toList_inj, ← String.toList_inj, toList_trim] at htext
  cases hpointer : expression.pointer? with
  | none =>
    rw [toList_spell_plain _ hpointer, toList_spell_plain _ hpointer, or_self] at htext
    rw [parse_unpointed htext h.unmarked, ← hpointer, hread]
  | some pointer =>
    rw [toList_spell_pointed _ hpointer, toList_spell_pointed _ hpointer] at htext
    obtain ⟨fragment, hfragment⟩ : ∃ fragment,
        Text.trimChars text.toList = '$' :: (expression.headText.toList ++ '#' :: fragment) ∧
        ('#' :: fragment = "#".toList ++ pointer.text.toList ∨
          '#' :: fragment = "##".toList ++ pointer.text.toList) := by
      rcases htext with htext | htext
      · exact ⟨pointer.text.toList, htext, .inl rfl⟩
      · exact ⟨'#' :: pointer.text.toList, htext, .inr rfl⟩
    have hpointers := readPointer_written.2 ⟨h.pointer pointer hpointer, hfragment.2⟩
    rw [hpointer] at hread
    rw [parse_pointed hfragment.1 h.unmarked, hpointers]
    exact hread

theorem Spelled.parse_solid (h : expression.Spelled)
    (hsolid : ∀ c ∈ (expression.spell "#").toList, Text.isBlank c = false) :
    Text.trim (expression.spell "#") = expression.spell "#" ∧
      parse (expression.spell "#") = .ok expression := by
  have htrim : Text.trim (expression.spell "#") = expression.spell "#" :=
    Text.trim_eq_self_iff.2 (Text.trimChars_solid hsolid)
  exact ⟨htrim, h.parse_of_trim (.inl htrim)⟩

theorem head?_spell (mark : String) (expression : Expression) :
    (expression.spell mark).toList.head? = some '$' := by
  cases hpointer : expression.pointer? with
  | none => rw [toList_spell_plain _ hpointer, List.head?_cons]
  | some pointer => rw [toList_spell_pointed _ hpointer, List.head?_cons]

theorem getLast?_spell (expression : Expression) :
    (expression.spell "#").toList.getLast? = (expression.spell "##").toList.getLast? := by
  have hone : "#".toList = ['#'] := rfl
  have htwo : "##".toList = ['#', '#'] := rfl
  cases hpointer : expression.pointer? with
  | none => rw [toList_spell_plain _ hpointer, toList_spell_plain _ hpointer]
  | some pointer =>
    have hlast (lead : List Char) : (lead ++ '#' :: pointer.text.toList).getLast? =
        ('#' :: pointer.text.toList).getLast? := List.getLast?_append_of_ne_nil _ (List.cons_ne_nil _ _)
    have hshort := hlast ('$' :: expression.headText.toList)
    have hlong := hlast ('$' :: (expression.headText.toList ++ ['#']))
    rw [toList_spell_pointed _ hpointer, toList_spell_pointed _ hpointer, hone, htwo]
    simpa using hshort.trans hlong.symm

theorem trim_spell (h : Text.trim (expression.spell "##") = expression.spell "##") :
    Text.trim (expression.spell "#") = expression.spell "#" := by
  rw [Text.trim_eq_self_iff] at h ⊢
  refine Text.trimChars_eq_self (fun c hc => ?_) ?_
  · rw [head?_spell] at hc
    obtain rfl := Option.some.inj hc
    rfl
  · rw [getLast?_spell, ← h]
    exact Text.getLast?_trimEndChars _

theorem parse_names {scope : Scope} {path : NamePath} (hscope : scope ≠ .components)
    (h : path.Formed) (hpointer : path.pointer = none) :
    parse ("$" ++ scope.keyword ++ "." ++ namesText path) = .ok (.named scope path) := by
  have hchars : ∀ c ∈ (headText (.named scope path)).toList, isNameChar c = true := by
    intro c hc
    rw [headText, toList_behind] at hc
    rcases List.mem_append.1 hc with hc | hc
    · exact nameChars_keyword scope c hc
    · rcases List.mem_cons.1 hc with rfl | hc
      · rfl
      · exact h.isNameChar c hc
  have hnone : (Expression.named scope path).pointer? = none := hpointer
  have hspelled : Spelled (.named scope path) :=
    ⟨.named scope h fun hcomponents => absurd hcomponents hscope,
      fun hmark => (isNameChar_plain (hchars _ hmark)).2 rfl,
      fun pointer hsome => by cases hnone.symm.trans hsome⟩
  have htext : "$" ++ scope.keyword ++ "." ++ namesText path = spell "#" (.named scope path) := by
    rw [spell, hnone]
    simp only [headText, Option.map_none, Option.getD_none, String.append_empty, String.append_assoc]
  rw [htext]
  refine (hspelled.parse_solid fun c hc => ?_).2
  rw [toList_spell_plain "#" hnone] at hc
  rcases List.mem_cons.1 hc with rfl | hc
  · rfl
  · exact (isNameChar_plain (hchars c hc)).1

theorem parse_spell (h : parse text = .ok expression) : parse (expression.spell "#") = .ok expression := by
  obtain ⟨hspelled, htext⟩ := spelled_of_parse h
  refine hspelled.parse_of_trim (.inl ?_)
  rcases htext with htext | htext
  · rw [← htext, Text.trim_trim]
  · exact trim_spell (by rw [← htext, Text.trim_trim])

/-- A text that is read as an expression is read as it again when the expression is rendered. -/
theorem parse_render (h : parse text = .ok expression) : parse expression.render = .ok expression := by
  rw [← spell_eq_render]
  exact parse_spell h

theorem parse_render_inputs :
    parse " $inputs.a.b##/c " = .ok (.named .inputs ⟨"a", ["b"], some ⟨"/c"⟩⟩) ∧
      render (.named .inputs ⟨"a", ["b"], some ⟨"/c"⟩⟩) = "$inputs.a.b#/c" ∧
      parse (render (.named .inputs ⟨"a", ["b"], some ⟨"/c"⟩⟩)) =
        .ok (.named .inputs ⟨"a", ["b"], some ⟨"/c"⟩⟩) := by
  have hread : parse " $inputs.a.b##/c " = .ok (.named .inputs ⟨"a", ["b"], some ⟨"/c"⟩⟩) := by
    decide +kernel
  exact ⟨hread, by decide +kernel, parse_render hread⟩

/-- A text is read as an expression exactly when it is, up to blanks around it, the rendering of one
that can be read, or this rendering with a second `#` before the pointer. -/
theorem parse_eq_ok_iff_spell : parse text = .ok expression ↔
    parse expression.render = .ok expression ∧
      (Text.trim text = expression.render ∨ Text.trim text = expression.spell "##") := by
  constructor
  · intro h
    rw [← spell_eq_render]
    exact ⟨parse_spell h, (spelled_of_parse h).2⟩
  · rintro ⟨h, htext⟩
    rw [← spell_eq_render] at htext
    exact (spelled_of_parse h).1.parse_of_trim htext

/-- The mark before the pointer is read once more with the pointer itself, which may be a fragment. -/
theorem parse_second_mark :
    parse "$response.body##/a" = .ok (.message .response (.body (.pointer ⟨"/a"⟩))) ∧
      Text.trim "$response.body##/a" ≠ render (.message .response (.body (.pointer ⟨"/a"⟩))) := by
  exact ⟨by decide +kernel, by decide +kernel⟩

end Expression
end Arazzo
