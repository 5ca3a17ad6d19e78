import Arazzo.Criterion
import Arazzo.Proofs.Resolver.Reading

/-! The operands of criteria, which no check has read before: they alone can turn out to be no
expressions. -/

namespace Arazzo

namespace Condition

mutual

def operands : Condition → List String
  | .empty => []
  | .any parts => operandsOfAll parts
  | .all parts => operandsOfAll parts
  | .not condition => condition.operands
  | .compare _ left _ right => [left, right]
  | .holds text => [text]

def operandsOfAll : List Condition → List String
  | [] => []
  | part :: rest => part.operands ++ operandsOfAll rest

end

end Condition

def Criterion.operands (c : Criterion) : List String :=
  let condition := Text.trim c.condition
  match c.kind with
  | .simple => (Condition.parse condition).operands
  | .jsonpath =>
    match Condition.cut? condition.toList with
    | some (_, _, right) => [String.ofList right]
    | none => []
  | .regex => []
  | .xpath => []

/-- If the criterion fails over a text that cannot be read, the text is one of these. -/
def CriterionError.Misreads (texts : List String) (error : CriterionError) : Prop :=
  ∀ e, error = .resolve e → e.Malformed →
    ∃ raw ∈ texts, ∃ reason, e = .syntaxError (Text.trim raw) reason ∧
      Expression.parse (Text.trim raw) = .error reason

variable {texts : List String} {context : Context}

theorem CriterionError.Misreads.mono {others : List String} {error : CriterionError}
    (h : error.Misreads texts) (hsub : texts ⊆ others) : error.Misreads others := by
  intro e he malformed
  obtain ⟨raw, hraw, found⟩ := h e he malformed
  exact ⟨raw, hsub hraw, found⟩

abbrev Judging {α : Type} (texts : List String) (work : Resolving CriterionError α) : Prop :=
  StopsOnly (CriterionError.Misreads texts) work

theorem judging_throw {α : Type} {error : CriterionError} (h : ∀ e, error ≠ .resolve e) :
    Judging texts (throw error : Resolving CriterionError α) :=
  .of_throw fun e he => absurd he (h e)

theorem judging_except {α : Type} {result : Except CriterionError α}
    (h : ∀ e, result ≠ .error (.resolve e)) :
    Judging texts (liftM result : Resolving CriterionError α) := by
  refine .of_except fun error herror e he => ?_
  subst he
  exact absurd herror (h e)

theorem Judging.mono {α : Type} {others : List String} {work : Resolving CriterionError α}
    (h : Judging texts work) (hsub : texts ⊆ others) : Judging others work :=
  StopsOnly.mono h fun _ he => he.mono hsub

namespace Condition

theorem operand_judging (raw : String) : Judging [raw] (operand context raw) := by
  unfold operand
  dsimp only
  split
  · exact judging_throw (by simp)
  · split
    · refine StopsOnly.bind (.of_adapt ?_) fun value => .of_pure _
      refine (Resolver.resolve_stops _ _).mono fun e he other hother malformed => ?_
      obtain rfl : e = other := CriterionError.resolve.inj hother
      obtain ⟨-, reason, htext, hparse⟩ := he malformed
      rw [Text.trim_trim] at htext hparse
      exact ⟨raw, List.mem_singleton_self raw, reason, htext, hparse⟩
    · split <;> exact .of_pure _

theorem compareValues_ne_resolve {condition : String} {left right : Json} {op : Operator}
    (e : ResolveError) : compareValues condition left right op ≠ .error (.resolve e) := by
  unfold compareValues
  split
  · split <;> simp
  · split <;> simp

mutual

theorem evaluate_judging : ∀ c : Condition, Judging c.operands (evaluate context c)
  | .empty => judging_throw (by simp)
  | .any parts => by
    unfold evaluate operands
    exact evaluateAny_judging parts
  | .all parts => by
    unfold evaluate operands
    exact evaluateAll_judging parts
  | .not condition => by
    unfold evaluate operands
    exact (evaluate_judging condition).bind fun value => .of_pure _
  | .compare text left op right => by
    unfold evaluate operands
    have hleft : Judging [left, right] (operand context left) :=
      (operand_judging left).mono (by simp)
    have hright : Judging [left, right] (operand context right) :=
      (operand_judging right).mono (by simp)
    exact hleft.bind fun l => hright.bind fun r => judging_except compareValues_ne_resolve
  | .holds text => by
    unfold evaluate operands
    refine (operand_judging text).bind fun value => ?_
    split
    · exact .of_pure _
    · exact judging_throw (by simp)

theorem evaluateAny_judging :
    ∀ parts : List Condition, Judging (operandsOfAll parts) (evaluateAny context parts)
  | [] => .of_pure _
  | part :: rest => by
    unfold evaluateAny operandsOfAll
    refine ((evaluate_judging part).mono (List.subset_append_left ..)).bind fun holds => ?_
    cases holds with
    | true => exact .of_pure _
    | false => exact (evaluateAny_judging rest).mono (List.subset_append_right ..)

theorem evaluateAll_judging :
    ∀ parts : List Condition, Judging (operandsOfAll parts) (evaluateAll context parts)
  | [] => .of_pure _
  | part :: rest => by
    unfold evaluateAll operandsOfAll
    refine ((evaluate_judging part).mono (List.subset_append_left ..)).bind fun holds => ?_
    cases holds with
    | true => exact (evaluateAll_judging rest).mono (List.subset_append_right ..)
    | false => exact .of_pure _

end

end Condition

namespace Criterion

/-- The context, if there is one, is an expression. -/
def ContextReads (c : Criterion) : Prop :=
  ∀ text, c.context = some text → ∃ expression, Expression.parse text = .ok expression

variable {c : Criterion}

theorem subject_judging (h : c.ContextReads) : Judging [] (subject context c) := by
  unfold subject
  split
  · exact judging_throw (by simp)
  · rename_i text htext
    obtain ⟨expression, hparse⟩ := h text htext
    refine StopsOnly.bind (.of_adapt ?_) fun value => .of_pure _
    refine (Resolver.resolve_reads hparse _).mono fun e he other hother malformed => ?_
    obtain rfl : e = other := CriterionError.resolve.inj hother
    exact absurd malformed he

theorem matchRegex_ne_resolve {limits : Regex.Limits} {pattern text : String} (e : ResolveError) :
    matchRegex limits pattern text ≠ .error (.resolve e) := by
  unfold matchRegex
  split <;> simp

theorem matchXPath_ne_resolve {condition xml : String} (e : ResolveError) :
    matchXPath condition xml ≠ .error (.resolve e) := by
  unfold matchXPath
  split
  · simp
  · split <;> simp

theorem select_ne_resolve {query : String} {value : Json} (e : ResolveError) :
    select query value ≠ .error (.resolve e) := by
  unfold select
  split
  · split <;> simp
  · split <;> simp

theorem holds_judging (h : c.ContextReads) : Judging c.operands (holds context c) := by
  have hsubject : Judging c.operands (subject context c) :=
    (subject_judging h).mono (List.nil_subset _)
  unfold holds
  dsimp only
  cases hkind : c.kind with
  | simple =>
    have hoperands : c.operands = (Condition.parse (Text.trim c.condition)).operands := by
      simp only [operands, hkind]
    rw [hoperands]
    exact Condition.evaluate_judging _
  | regex => exact hsubject.bind fun value => judging_except matchRegex_ne_resolve
  | xpath => exact hsubject.bind fun value => judging_except matchXPath_ne_resolve
  | jsonpath =>
    refine hsubject.bind fun value => ?_
    unfold matchJsonPath
    split
    · rename_i left op right hcut
      have hoperands : c.operands = [String.ofList right] := by
        simp only [operands, hkind, hcut]
      refine (judging_except select_ne_resolve).bind fun found => ?_
      split
      · exact .of_pure _
      · rw [hoperands]
        refine (Condition.operand_judging _).bind fun expected => ?_
        exact judging_except Condition.compareValues_ne_resolve
    · exact (judging_except select_ne_resolve).bind fun found => .of_pure _

theorem allHold_judging {cs : List Criterion} (h : ∀ c ∈ cs, c.ContextReads) :
    Judging (cs.flatMap operands) (allHold context cs) := by
  induction cs with
  | nil => exact .of_pure _
  | cons c rest ih =>
    unfold allHold
    rw [List.flatMap_cons]
    have hfirst : Judging c.operands (holds context c) := holds_judging (h c (List.mem_cons_self ..))
    refine (hfirst.mono (List.subset_append_left ..)).bind fun holds => ?_
    cases holds with
    | true =>
      have hrest := ih fun c hc => h c (List.mem_cons_of_mem _ hc)
      exact hrest.mono (List.subset_append_right ..)
    | false => exact .of_pure _

end Criterion
end Arazzo
