import Arazzo.Proofs.Resolver.Parts
import Arazzo.Proofs.Resolver.Reading

/-! Values as a whole: those without expressions are left as they are, and those that were checked can fail
only where an expression asks for what the exchange does not have. -/

namespace Arazzo

/-- Behind its blanks the text does not begin as an expression, and no brace in it opens one. -/
structure PlainText (text : String) : Prop where
  dollar : ¬ "$".toList <+: Text.trimChars text.toList
  components : ¬ "#/components".toList <+: Text.trimChars text.toList
  quiet : Template.Quiet text.toList

theorem isExpressionText_eq_true_iff {text : String} : isExpressionText text = true ↔
    "$".toList <+: text.toList ∨ "#/components".toList <+: text.toList := by
  rw [isExpressionText, Bool.or_eq_true, beq_iff_eq, Text.startsWith, List.isPrefixOf_iff_prefix]
  refine or_congr_left ?_
  constructor
  · intro h
    obtain ⟨rest, hrest⟩ := List.head?_eq_some_iff.1 h
    exact ⟨rest, hrest.symm⟩
  · rintro ⟨rest, hrest⟩
    rw [← hrest]
    rfl

theorem PlainText.literal {text : String} (h : PlainText text) : (Json.str text).Literal := by
  refine .str ?_ (Template.holdsExpression_eq_false_iff.2 h.quiet)
  refine Bool.eq_false_iff.2 fun hwhole => ?_
  have htrim : (Text.trim text).toList = Text.trimChars text.toList := String.toList_ofList
  have hstart := isExpressionText_eq_true_iff.1 hwhole
  rw [htrim] at hstart
  exact hstart.elim h.dollar h.components

theorem Json.literal_of_plain : ∀ v : Json, (∀ text, v.Holds text → PlainText text) → v.Literal
  | .null, _ => .null
  | .bool value, _ => .bool value
  | .num number, _ => .num number
  | .str text, h => (h text .here).literal
  | .arr items, h => .arr fun item hitem =>
      literal_of_plain item fun text htext => h text (.item hitem htext)
  | .obj members, h => .obj fun member hmember =>
      literal_of_plain member.2 fun text htext => h text (.member hmember htext)
decreasing_by
  · have hsize := List.sizeOf_lt_of_mem hitem
    rw [Json.arr.sizeOf_spec]
    omega
  · have hsize := List.sizeOf_lt_of_mem hmember
    rw [Prod.mk.sizeOf_spec] at hsize
    rw [Json.obj.sizeOf_spec]
    omega

namespace Resolver

/-- Blanks, braces that open nothing and all else in the texts are kept, and nothing is remembered. -/
theorem resolveValue_plain (v : Json) (h : ∀ text, v.Holds text → PlainText text)
    (context : Option Context) (r : Resolver) :
    (resolveValue context v).run r = (.ok v, r) := by
  rw [resolveValue_literal (v.literal_of_plain h)]
  rfl

theorem resolveValue_plain_blanks :
    (∀ text, (Json.arr [.obj [("a", .str " \x7b\"k\": [1]\x7d ")], .null]).Holds text →
      PlainText text) ∧
    (resolveValue none (.arr [.obj [("a", .str " \x7b\"k\": [1]\x7d ")], .null])).run
        ⟨⟨"1.0.1", {}, [], [], none, [], none⟩, [], []⟩ =
      (.ok (.arr [.obj [("a", .str " \x7b\"k\": [1]\x7d ")], .null]),
        ⟨⟨"1.0.1", {}, [], [], none, [], none⟩, [], []⟩) := by
  have htext : PlainText " \x7b\"k\": [1]\x7d " :=
    ⟨by decide, by decide, Template.holdsExpression_eq_false_iff.1 (by decide)⟩
  have hplain (text : String)
      (h : (Json.arr [.obj [("a", .str " \x7b\"k\": [1]\x7d ")], .null]).Holds text) :
      PlainText text := by
    rcases h with _ | ⟨hitem, hinner⟩
    rcases List.mem_pair.1 hitem with rfl | rfl
    · rcases hinner with _ | _ | ⟨hmember, hinner⟩
      obtain rfl := List.mem_singleton.1 hmember
      cases hinner
      exact htext
    · cases hinner
  exact ⟨hplain, resolveValue_plain _ hplain none _⟩

end Resolver

def Exchange.headers (exchange : Exchange) : Side → Table String
  | .request => exchange.requestHeaders
  | .response => exchange.responseHeaders

def Exchange.body? (exchange : Exchange) : Side → Option Json
  | .request => exchange.requestBody
  | .response => exchange.responseBody

/-- It is a part of an exchange that is missing. -/
def Absence.OfPart : Absence → Prop
  | .exchange => False
  | _ => True

/-- What the expression asks for is not there: there is no exchange yet, or it has no such header,
parameter, body or item of a body. -/
inductive Lacks (context : Option Context) : Expression → Absence → Prop
  | exchange {expression : Expression}
      (asks : expression ∈ [.url, .method, .statusCode] ∨ ∃ side part, expression = .message side part)
      (unsent : context.bind (·.exchange) = none) : Lacks context expression .exchange
  | header {exchange : Exchange} {side : Side} {name : String}
      (sent : context.bind (·.exchange) = some exchange)
      (absent : header? name (exchange.headers side) = none) :
      Lacks context (.message side (.header name)) (.header side name)
  | pathParameter {exchange : Exchange} {name : String}
      (sent : context.bind (·.exchange) = some exchange)
      (absent : Table.get? name exchange.pathParams = none) :
      Lacks context (.message .request (.path name)) (.pathParameter name)
  | queryParameter {exchange : Exchange} {name : String}
      (sent : context.bind (·.exchange) = some exchange)
      (absent : Table.get? name exchange.queryParams = none) :
      Lacks context (.message .request (.query name)) (.queryParameter name)
  | responsePath {exchange : Exchange} {name : String}
      (sent : context.bind (·.exchange) = some exchange) :
      Lacks context (.message .response (.path name)) .responseParameters
  | responseQuery {exchange : Exchange} {name : String}
      (sent : context.bind (·.exchange) = some exchange) :
      Lacks context (.message .response (.query name)) .responseParameters
  | body {exchange : Exchange} {side : Side} {access : BodyAccess}
      (sent : context.bind (·.exchange) = some exchange) (absent : exchange.body? side = none) :
      Lacks context (.message side (.body access)) (.body side)
  | bodyItem {exchange : Exchange} {side : Side} {access : BodyAccess} {body : Json}
      (sent : context.bind (·.exchange) = some exchange) (present : exchange.body? side = some body)
      (absent : access.find? body = none) :
      Lacks context (.message side (.body access)) .bodyItem

variable {context : Option Context} {absence : Absence} {expression : Expression}

theorem Lacks.ofPart (h : Lacks context expression absence) (sent : context.bind (·.exchange) ≠ none) :
    absence.OfPart := by
  cases h with
  | exchange _ unsent => exact sent unsent
  | _ => exact trivial

theorem Expression.ofExchange_error {find : Exchange → Except Absence Json}
    (h : ofExchange context find = .error absence) :
    (context.bind (·.exchange) = none ∧ absence = .exchange) ∨
      ∃ exchange, context.bind (·.exchange) = some exchange ∧ find exchange = .error absence := by
  unfold ofExchange at h
  split at h
  · rename_i hnone
    cases h
    exact .inl ⟨hnone, rfl⟩
  · rename_i exchange hsome
    cases hfind : find exchange with
    | ok value =>
      rw [hfind] at h
      cases h
    | error e =>
      rw [hfind] at h
      cases h
      exact .inr ⟨exchange, hsome, hfind⟩

namespace MessagePart

variable {side : Side} {name : String} {exchange : Exchange} {found : Option String}

def textOr (absence : Absence) : Option String → Except Absence Json
  | some s => .ok (.str s)
  | none => .error absence

theorem textOr_error {absence' : Absence} (h : textOr absence' found = .error absence) :
    found = none ∧ absence' = absence := by
  cases found with
  | none => exact ⟨rfl, Except.error.inj h⟩
  | some s => cases h

theorem find_header (side : Side) (name : String) (exchange : Exchange) :
    find side (.header name) exchange =
      textOr (.header side name) (header? name (exchange.headers side)) := by
  cases side <;> rfl

theorem find_query (name : String) (exchange : Exchange) :
    find .request (.query name) exchange =
      textOr (.queryParameter name) (Table.get? name exchange.queryParams) := rfl

theorem find_path (name : String) (exchange : Exchange) :
    find .request (.path name) exchange =
      textOr (.pathParameter name) (Table.get? name exchange.pathParams) := rfl

theorem find_body (side : Side) (access : BodyAccess) (exchange : Exchange) :
    find side (.body access) exchange =
      match exchange.body? side with
      | none => .error (.body side)
      | some content =>
        match access.find? content with
        | some value => .ok value
        | none => .error .bodyItem := by
  cases side <;> rfl

theorem lacks_of_find {part : MessagePart} (sent : context.bind (·.exchange) = some exchange)
    (h : part.find side exchange = .error absence) : Lacks context (.message side part) absence := by
  cases part with
  | header name =>
    rw [find_header] at h
    obtain ⟨habsent, rfl⟩ := textOr_error h
    exact .header sent habsent
  | query name =>
    cases side with
    | request =>
      rw [find_query] at h
      obtain ⟨habsent, rfl⟩ := textOr_error h
      exact .queryParameter sent habsent
    | response =>
      obtain rfl := Except.error.inj h
      exact .responseQuery sent
  | path name =>
    cases side with
    | request =>
      rw [find_path] at h
      obtain ⟨habsent, rfl⟩ := textOr_error h
      exact .pathParameter sent habsent
    | response =>
      obtain rfl := Except.error.inj h
      exact .responsePath sent
  | body access =>
    rw [find_body] at h
    split at h
    · rename_i habsent
      obtain rfl := Except.error.inj h
      exact .body sent habsent
    · rename_i content hpresent
      split at h
      · cases h
      · rename_i habsent
        obtain rfl := Except.error.inj h
        exact .bodyItem sent hpresent habsent

end MessagePart

theorem Expression.lacks_of_value {document : Document} {published : Table Json}
    (h : expression.value document published context = .error absence) :
    Lacks context expression absence := by
  have plain {give : Exchange → Json} (asked : expression ∈ [.url, .method, .statusCode])
      (h : ofExchange context (fun exchange => .ok (give exchange)) = .error absence) :
      Lacks context expression absence := by
    rcases ofExchange_error h with ⟨unsent, rfl⟩ | ⟨exchange, -, hfind⟩
    · exact .exchange (.inl asked) unsent
    · cases hfind
  cases expression with
  | url => exact plain (by simp) h
  | method => exact plain (by simp) h
  | statusCode => exact plain (by simp) h
  | message side part =>
    rcases ofExchange_error h with ⟨unsent, rfl⟩ | ⟨exchange, sent, hfind⟩
    · exact .exchange (.inr ⟨side, part, rfl⟩) unsent
    · exact part.lacks_of_find sent hfind
  | named scope path => cases scope <;> cases h
  | componentParameter name => cases h

def TextAsks (text expression : String) : Prop :=
  if isExpressionText (Text.trim text) then expression = Text.trim text
  else ∃ segments, Template.split text = .ok segments ∧ .expression expression ∈ segments

def Json.Asks (v : Json) (expression : String) : Prop := ∃ text, v.Holds text ∧ TextAsks text expression

/-- One of the expressions asked for can be read, and what it asks for is not there. -/
def ResolveError.Lacking (context : Option Context) (asks : String → Prop) (e : ResolveError) : Prop :=
  ∃ text expression absence, asks text ∧ e = .missing text absence ∧
    Expression.parse text = .ok expression ∧ Lacks context expression absence

theorem ResolveError.Lacking.mono {asks asks' : String → Prop} {e : ResolveError}
    (h : e.Lacking context asks) (hasks : ∀ text, asks text → asks' text) :
    e.Lacking context asks' := by
  obtain ⟨text, expression, absence, htext, hlacks⟩ := h
  exact ⟨text, expression, absence, hasks text htext, hlacks⟩

abbrev Wants {α : Type} (context : Option Context) (asks : String → Prop)
    (work : Resolving ResolveError α) : Prop :=
  StopsOnly (fun e => e.Malformed ∨ e.Lacking context asks) work

theorem Wants.mono {α : Type} {asks asks' : String → Prop} {work : Resolving ResolveError α}
    (h : Wants context asks work) (hasks : ∀ text, asks text → asks' text) :
    Wants context asks' work :=
  StopsOnly.mono h fun _ => Or.imp_right fun hlacking => hlacking.mono hasks

namespace Resolver

theorem evaluateText_lacking {document : Document} {published : Table Json} {text : String}
    {e : ResolveError} (h : (evaluateText document published context text).1 = .error e) :
    e.Malformed ∨ e.Lacking context (· = text) := by
  unfold evaluateText at h
  split at h
  · cases h
  · split at h
    · cases h
    · cases h
    · obtain rfl := Except.error.inj h
      exact .inl trivial
    · rename_i expression hparse
      split at h
      · cases h
      · rename_i absence hvalue
        obtain rfl := Except.error.inj h
        exact .inr ⟨text, expression, absence, rfl, rfl, hparse, expression.lacks_of_value hvalue⟩

theorem resolve_wants (text : String) (context : Option Context) :
    Wants context (· = Text.trim text) (resolve text context) :=
  resolve_stopsOnly fun _ _ _ => evaluateText_lacking

theorem resolveTemplate_wants (text : String) (context : Option Context) :
    Wants context (fun expression => ∃ segments, Template.split text = .ok segments ∧
      .expression expression ∈ segments) (resolveTemplate text context) := by
  unfold resolveTemplate
  split
  · exact .of_throw (.inl trivial)
  · rename_i segments hsplit
    refine StopsOnly.bind (StopsOnly.mapM fun segment hmem => ?_) fun texts => .of_pure _
    cases segment with
    | literal text => exact .of_pure text
    | expression expression =>
      have hexpression := resolve_wants expression context
      rw [Template.trim_of_split hsplit hmem] at hexpression
      refine StopsOnly.bind (hexpression.mono ?_) fun value => .of_pure _
      rintro asked rfl
      exact ⟨segments, hsplit, hmem⟩

theorem resolveText_wants (text : String) (context : Option Context) :
    Wants context (TextAsks text) (resolveText text context) := by
  unfold resolveText TextAsks
  dsimp only
  split
  · have hwhole := resolve_wants (Text.trim text) context
    rw [Text.trim_trim] at hwhole
    exact hwhole.bind fun value => .of_pure _
  · split
    · exact (resolveTemplate_wants text context).bind fun filled => .of_pure _
    · exact .of_pure _

theorem resolveValue_wants (v : Json) (context : Option Context) :
    Wants context v.Asks (resolveValue context v) :=
  resolveValue_stopsOnly v fun text hholds =>
    (resolveText_wants text context).mono fun _ hasks => ⟨text, hholds, hasks⟩

/-- A value that was checked can be read; what may stop it is an expression in it that asks for a part of
an exchange, where there is no exchange yet or where it has no such part. -/
theorem resolveValue_lacking {v : Json} (h : Template.checkValue v = .ok ())
    (context : Option Context) (r : Resolver) {e : ResolveError}
    (herror : ((resolveValue context v).run r).1 = .error e) :
    ¬ e.Malformed ∧ ∃ text expression absence, v.Asks text ∧ e = .missing text absence ∧
      Expression.parse text = .ok expression ∧ Lacks context expression absence ∧
        (context.bind (·.exchange) ≠ none → absence.OfPart) := by
  have hrun : (resolveValue context v).run r = (.error e, ((resolveValue context v).run r).2) :=
    Prod.ext herror rfl
  have hread : ¬ e.Malformed := (resolveValue_reads context v h r).of_error hrun
  obtain ⟨text, expression, absence, hasks, he, hparse, hlacks⟩ :=
    ((resolveValue_wants v context r).of_error hrun).resolve_left hread
  exact ⟨hread, text, expression, absence, hasks, he, hparse, hlacks, hlacks.ofPart⟩

theorem resolveValue_lacking_token :
    Template.checkValue (.arr [.str "as \x7b$response.header.Token\x7d"]) = .ok () ∧
      ((resolveValue (some ⟨"w", .null, some {}, [], []⟩)
          (.arr [.str "as \x7b$response.header.Token\x7d"])).run
        ⟨⟨"1.0.1", {}, [], [], none, [], none⟩, [], []⟩).1 =
          .error (.missing "$response.header.Token" (.header .response "Token")) ∧
      ∃ text expression absence,
        (Json.arr [.str "as \x7b$response.header.Token\x7d"]).Asks text ∧
          ResolveError.missing "$response.header.Token" (.header .response "Token") =
            .missing text absence ∧ Expression.parse text = .ok expression ∧
          Lacks (some ⟨"w", .null, some {}, [], []⟩) expression absence ∧ absence.OfPart := by
  have hcheck : Template.checkValue (.arr [.str "as \x7b$response.header.Token\x7d"]) = .ok () := by
    rfl
  have herror : ((resolveValue (some ⟨"w", .null, some {}, [], []⟩)
      (.arr [.str "as \x7b$response.header.Token\x7d"])).run
        ⟨⟨"1.0.1", {}, [], [], none, [], none⟩, [], []⟩).1 =
      .error (.missing "$response.header.Token" (.header .response "Token")) := by
    rfl
  obtain ⟨-, text, expression, absence, hasks, he, hparse, hlacks, hpart⟩ :=
    resolveValue_lacking hcheck _ _ herror
  exact ⟨hcheck, herror, text, expression, absence, hasks, he, hparse, hlacks, hpart nofun⟩

/-- Without an exchange even its status code is missing, which every exchange has. -/
theorem resolveValue_unsent :
    Template.checkValue (.str "$statusCode") = .ok () ∧
      ((resolveValue none (.str "$statusCode")).run
        ⟨⟨"1.0.1", {}, [], [], none, [], none⟩, [], []⟩).1 =
          .error (.missing "$statusCode" .exchange) ∧ ¬ Absence.exchange.OfPart := by
  exact ⟨rfl, rfl, id⟩

end Resolver
end Arazzo
