import Arazzo.Proofs.Leads
import Arazzo.Proofs.Text
import Arazzo.Resolver

/-! Texts that were checked before are read when they are resolved: what may still go wrong is that
something they name is not there. -/

namespace Arazzo

def ResolveError.Malformed : ResolveError → Prop
  | .syntaxError _ _ => True
  | .missing _ _ => False
  | .templateError _ _ => True

theorem Expression.parse_trim (text : String) : parse (Text.trim text) = parse text := by
  simp only [parse, parseChars, Text.trim, String.toList_ofList, Text.trimChars_trimChars]

/-- An expression, a place among the components, or a text in which all expressions are such. -/
inductive Legible (text : String) : Prop where
  | expression {expression : Expression} (hdollar : (Text.trim text).toList.head? = some '$')
    (h : Expression.parse (Text.trim text) = .ok expression)
  | components (h : Text.startsWith componentsLead (Text.trim text).toList = true)
  | template {segments : List Segment} (hdollar : (Text.trim text).toList.head? ≠ some '$')
    (h : Template.parse text = .ok segments)

/-- The error is that of reading the text as a template: it cannot be cut up, or one of the expressions
in it is none. -/
inductive Unread (text : String) : ResolveError → Prop where
  | uncut {reason : TemplateError} (h : Template.split text = .error reason) :
    Unread text (.templateError text reason)
  | expression {segments : List Segment} {inner : String} {reason : ExpressionError}
    (cut : Template.split text = .ok segments) (hmem : .expression inner ∈ segments)
    (h : Expression.parse (Text.trim inner) = .error reason) :
    Unread text (.syntaxError (Text.trim inner) reason)

/-- The text is the value or stands somewhere within it; names of members do not count. -/
inductive Json.Holds (text : String) : Json → Prop
  | here : Holds text (.str text)
  | item {items : List Json} {item : Json} (h : item ∈ items) (inner : Holds text item) :
      Holds text (.arr items)
  | member {members : Table Json} {member : String × Json} (h : member ∈ members)
      (inner : Holds text member.2) : Holds text (.obj members)

variable {α : Type} {text : String} {context : Option Context}

abbrev Reads (work : Resolving ResolveError α) : Prop := StopsOnly (fun e => ¬ e.Malformed) work

namespace Resolver

theorem afterLead?_dollar {cs : List Char} (htext : text.toList = '$' :: cs) :
    Text.afterLead? componentsLead text.toList = none := by
  rw [htext]
  rfl

theorem evaluateText_malformed {document : Document} {published : Table Json} {e : ResolveError}
    (h : (evaluateText document published context text).1 = .error e) (malformed : e.Malformed) :
    Text.startsWith componentsLead text.toList = false ∧
      ∃ reason, e = .syntaxError text reason ∧ Expression.parse text = .error reason := by
  unfold evaluateText at h
  split at h
  · cases h
  · rename_i hlead
    have hother : Text.startsWith componentsLead text.toList = false := by
      refine Bool.eq_false_iff.2 fun hstart => ?_
      obtain ⟨rest, hrest⟩ := Text.afterLead?_of_startsWith hstart
      rw [hrest] at hlead
      cases hlead
    refine ⟨hother, ?_⟩
    split at h
    · cases h
    · cases h
    · rename_i error _ _ hparse
      cases h
      exact ⟨error, rfl, hparse⟩
    · split at h <;> cases h
      exact malformed.elim

/-- What is remembered stops nothing, so only a text that cannot be evaluated does. -/
theorem resolve_stopsOnly {P : ResolveError → Prop}
    (h : ∀ document published e,
      (evaluateText document published context (Text.trim text)).1 = .error e → P e) :
    StopsOnly P (resolve text context) := by
  unfold resolve
  refine .bind_get fun r => ?_
  split
  · exact .of_pure _
  · split
    · rename_i error _ hvalue
      have herror : (evaluateText r.document r.published context (Text.trim text)).1 =
          .error error := by rw [hvalue]
      exact .of_throw (h _ _ _ herror)
    · rename_i value fixed _
      cases fixed with
      | true => exact .bind_set (.of_pure _)
      | false => exact .of_pure _

theorem resolve_stops (expression : String) (context : Option Context) :
    StopsOnly (fun e => e.Malformed →
      Text.startsWith componentsLead (Text.trim expression).toList = false ∧
      ∃ reason, e = .syntaxError (Text.trim expression) reason ∧
        Expression.parse (Text.trim expression) = .error reason) (resolve expression context) :=
  resolve_stopsOnly fun _ _ _ => evaluateText_malformed

theorem resolve_reads {expression : Expression} (h : Expression.parse text = .ok expression)
    (context : Option Context) : Reads (resolve text context) := by
  refine (resolve_stops text context).mono fun e he malformed => ?_
  obtain ⟨-, reason, -, hparse⟩ := he malformed
  rw [Expression.parse_trim, h] at hparse
  cases hparse

theorem resolve_components_reads (h : Text.startsWith componentsLead (Text.trim text).toList = true)
    (context : Option Context) : Reads (resolve text context) := by
  refine (resolve_stops text context).mono fun e he malformed => ?_
  rw [(he malformed).1] at h
  cases h

theorem split_of_parse {segments : List Segment} (h : Template.parse text = .ok segments) :
    Template.split text = .ok segments ∧
      ∀ segment ∈ segments, Template.checkSegment segment = .ok () := by
  obtain ⟨found, hsplit, h⟩ := exists_of_bind_ok h
  obtain ⟨u, hchecks, h⟩ := exists_of_bind_ok h
  obtain rfl : found = segments := Except.ok.inj h
  exact ⟨hsplit, fun segment hmem => ok_of_forM_ok hchecks hmem⟩

theorem expression_of_check (h : Template.checkExpression text = .ok ()) :
    ∃ expression, Expression.parse text = .ok expression := by
  unfold Template.checkExpression at h
  split at h
  · exact ⟨_, ‹_›⟩
  · cases h

theorem segmentText_reads {segment : Segment} (h : Template.checkSegment segment = .ok ()) :
    Reads (segmentText context segment) := by
  cases segment with
  | literal text => exact .of_pure text
  | expression text =>
    obtain ⟨expression, hparse⟩ := expression_of_check h
    exact (resolve_reads hparse context).bind fun value => .of_pure _

theorem resolveTemplate_reads {segments : List Segment} (h : Template.parse text = .ok segments)
    (context : Option Context) : Reads (resolveTemplate text context) := by
  obtain ⟨hsplit, hchecked⟩ := split_of_parse h
  unfold resolveTemplate
  rw [hsplit]
  have hsegments : Reads (segments.mapM (segmentText context)) :=
    .mapM fun segment hmem => segmentText_reads (hchecked segment hmem)
  exact hsegments.bind fun texts => .of_pure _

theorem resolve_reads_whole (h : Legible text) (hwhole : isExpressionText (Text.trim text) = true)
    (context : Option Context) : Reads (resolve (Text.trim text) context) := by
  have place (hstart : Text.startsWith componentsLead (Text.trim text).toList = true) :
      Reads (resolve (Text.trim text) context) :=
    resolve_components_reads (by rwa [Text.trim_trim]) context
  cases h with
  | expression hdollar hparse => exact resolve_reads hparse context
  | components hstart => exact place hstart
  | template hdollar hparse => exact place (by simpa [isExpressionText, hdollar] using hwhole)

theorem resolveText_reads (h : Legible text) (context : Option Context) :
    Reads (resolveText text context) := by
  unfold resolveText
  dsimp only
  split
  · rename_i hwhole
    exact (resolve_reads_whole h hwhole context).bind fun value => .of_pure _
  · rename_i hwhole
    -- What is not read as a whole starts neither as an expression nor as a place.
    simp only [isExpressionText, Bool.or_eq_true, not_or, Bool.not_eq_true, beq_iff_eq] at hwhole
    cases h with
    | expression hdollar => exact absurd hdollar hwhole.1
    | components hstart =>
      rw [hwhole.2] at hstart
      cases hstart
    | template hdollar hparse =>
      split
      · exact (resolveTemplate_reads hparse context).bind fun filled => .of_pure _
      · exact .of_pure _

theorem resolveText_unread (hwhole : isExpressionText (Text.trim text) = false)
    (context : Option Context) :
    StopsOnly (fun e => e.Malformed → Unread text e) (resolveText text context) := by
  unfold resolveText
  dsimp only
  rw [hwhole, if_neg Bool.false_ne_true]
  split
  · refine StopsOnly.bind ?_ fun filled => .of_pure _
    unfold resolveTemplate
    cases cut : Template.split text with
    | error reason => exact .of_throw fun _ => .uncut cut
    | ok segments =>
      refine StopsOnly.bind (StopsOnly.mapM fun segment hmem => ?_) fun texts => .of_pure _
      cases segment with
      | literal text => exact .of_pure text
      | expression inner =>
        refine StopsOnly.bind ((resolve_stops inner context).mono fun e he malformed => ?_)
          fun value => .of_pure _
        obtain ⟨-, reason, rfl, hparse⟩ := he malformed
        exact .expression cut hmem hparse
  · exact .of_pure _

theorem legible_of_checkText (h : Template.checkText text = .ok ()) : Legible text := by
  unfold Template.checkText at h
  dsimp only at h
  split at h
  · rename_i hdollar
    obtain ⟨expression, hparse⟩ := expression_of_check h
    exact .expression hdollar hparse
  · rename_i hdollar
    cases hparse : Template.parse text with
    | error e =>
      rw [hparse] at h
      cases h
    | ok segments => exact .template hdollar hparse

mutual

theorem resolveValue_stopsOnly {P : ResolveError → Prop} : ∀ v : Json,
    (∀ text, v.Holds text → StopsOnly P (resolveText text context)) →
      StopsOnly P (resolveValue context v)
  | .str text => by
    intro h
    unfold resolveValue
    exact h text .here
  | .arr items => by
    intro h
    unfold resolveValue
    refine (resolveItems_stopsOnly items fun item hitem text htext => ?_).bind fun values => .of_pure _
    exact h text (.item hitem htext)
  | .obj members => by
    intro h
    unfold resolveValue
    refine (resolveMembers_stopsOnly members fun member hmember text htext => ?_).bind
      fun values => .of_pure _
    exact h text (.member hmember htext)
  | .null | .bool _ | .num _ => by
    intro _
    unfold resolveValue
    exact .of_pure _

theorem resolveItems_stopsOnly {P : ResolveError → Prop} : ∀ items : List Json,
    (∀ item ∈ items, ∀ text, item.Holds text → StopsOnly P (resolveText text context)) →
      StopsOnly P (resolveItems context items)
  | [] => by
    intro _
    unfold resolveItems
    exact .of_pure _
  | item :: rest => by
    intro h
    obtain ⟨hitem, hrest⟩ := List.forall_mem_cons.1 h
    unfold resolveItems
    refine (resolveValue_stopsOnly item hitem).bind fun first => ?_
    exact (resolveItems_stopsOnly rest hrest).bind fun values => .of_pure _

theorem resolveMembers_stopsOnly {P : ResolveError → Prop} : ∀ members : Table Json,
    (∀ member ∈ members, ∀ text, member.2.Holds text → StopsOnly P (resolveText text context)) →
      StopsOnly P (resolveMembers context members)
  | [] => by
    intro _
    unfold resolveMembers
    exact .of_pure _
  | (key, value) :: rest => by
    intro h
    obtain ⟨hvalue, hrest⟩ := List.forall_mem_cons.1 h
    unfold resolveMembers
    refine (resolveValue_stopsOnly value hvalue).bind fun first => ?_
    exact (resolveMembers_stopsOnly rest hrest).bind fun values => .of_pure _

end

theorem checkItems_eq (items : List Json) :
    Template.checkItems items = items.forM Template.checkValue := by
  induction items with
  | nil => rfl
  | cons item rest ih =>
    rw [Template.checkItems, ih]
    rfl

theorem checkMembers_eq (members : Table Json) :
    Template.checkMembers members = members.forM fun member => Template.checkValue member.2 := by
  induction members with
  | nil => rfl
  | cons member rest ih =>
    rw [Template.checkMembers, ih]
    rfl

theorem checkText_of_holds {v : Json} (h : Template.checkValue v = .ok ()) (hholds : v.Holds text) :
    Template.checkText text = .ok () := by
  induction hholds with
  | here => rwa [Template.checkValue] at h
  | item hitem _ ih =>
    rw [Template.checkValue, checkItems_eq] at h
    exact ih (ok_of_forM_ok h hitem)
  | member hmember _ ih =>
    rw [Template.checkValue, checkMembers_eq] at h
    exact ih (ok_of_forM_ok h hmember)

theorem resolveValue_reads (context : Option Context) (v : Json)
    (h : Template.checkValue v = .ok ()) : Reads (resolveValue context v) :=
  resolveValue_stopsOnly v fun _ hholds =>
    resolveText_reads (legible_of_checkText (checkText_of_holds h hholds)) context

end Resolver
end Arazzo
