import Arazzo.Proofs.Resolver.Memory
import Arazzo.Run.Action
import Arazzo.Request

/-! What work with a resolver leaves as it was. Resolving publishes nothing: criteria, actions and
requests only add to what is remembered. -/

namespace Arazzo
namespace Resolver

def Onward (keys : String → Prop) (r r' : Resolver) : Prop :=
  r.Truthful → r'.Truthful ∧ r'.document = r.document ∧
    ∀ key, ¬ keys key → Table.get? key r'.published = Table.get? key r.published

variable {keys keys' : String → Prop} {r r' r'' : Resolver}

namespace Onward

theorem refl (keys : String → Prop) (r : Resolver) : Onward keys r r :=
  fun h => ⟨h, rfl, fun _ _ => rfl⟩

theorem trans (h : Onward keys r r') (h' : Onward keys r' r'') : Onward keys r r'' := by
  intro truthful
  obtain ⟨truthful', hdocument, hkept⟩ := h truthful
  obtain ⟨truthful'', hdocument', hkept'⟩ := h' truthful'
  exact ⟨truthful'', hdocument'.trans hdocument,
    fun key hkey => (hkept' key hkey).trans (hkept key hkey)⟩

theorem mono (h : Onward keys r r') (hkeys : ∀ key, keys key → keys' key) : Onward keys' r r' := by
  intro truthful
  obtain ⟨truthful', hdocument, hkept⟩ := h truthful
  exact ⟨truthful', hdocument, fun key hkey => hkept key fun hother => hkey (hkeys key hother)⟩

theorem publish {key : String} {value : Json} (hkey : keys key) :
    Onward keys r (r.publish key value) := by
  refine fun h => ⟨h, rfl, fun other hother => ?_⟩
  rw [Resolver.publish, Table.get?_insert, if_neg]
  rintro rfl
  exact hother hkey

instance : Std.Refl (Onward keys) := ⟨refl keys⟩

instance : Trans (Onward keys) (Onward keys) (Onward keys) := ⟨trans⟩

end Onward

/-- All that may have changed is what is remembered, be it true or not. -/
structure Learned (r r' : Resolver) : Prop where
  document : r'.document = r.document
  published : r'.published = r.published

namespace Learned

theorem refl (r : Resolver) : Learned r r := ⟨rfl, rfl⟩

theorem trans (h : Learned r r') (h' : Learned r' r'') : Learned r r'' :=
  ⟨h'.document.trans h.document, h'.published.trans h.published⟩

theorem remember (text : String) (value : Option Json) : Learned r (r.remember text value) := by
  obtain ⟨memory, hmemory⟩ := r.remember_eq text value
  rw [hmemory]
  exact ⟨rfl, rfl⟩

instance : Std.Refl Learned := ⟨refl⟩

instance : Trans Learned Learned Learned := ⟨trans⟩

end Learned
end Resolver

open Resolver

variable {ε α : Type}

abbrev Gentle (work : Resolving ε α) : Prop := Keeps (Onward fun _ => False) work

theorem Resolver.Blind.gentle {work : Resolving ε α} (h : Blind work) : Gentle work := by
  intro r
  have after (truthful : r.Truthful) := (h r r truthful.alike).2.1
  have onward {r' : Resolver} (hafter : r.Truthful → Alike r r') : Onward (fun _ => False) r r' :=
    fun truthful => ⟨(hafter truthful).truthful', (hafter truthful).document.symm, fun key _ => by
      rw [(hafter truthful).published]⟩
  refine .intro (fun a r' hrun => onward ?_) fun e r' hrun => onward ?_
  · rw [hrun] at after
    exact after
  · rw [hrun] at after
    exact after

theorem gentle_resolve (text : String) (context : Option Context) : Gentle (resolve text context) :=
  (blind_resolve text context).gentle

theorem learned_resolve (text : String) (context : Option Context) :
    Keeps Learned (resolve text context) := by
  intro r
  unfold resolve
  refine .bind_get ?_
  split
  · exact .of_pure (.refl r)
  · split
    · exact .of_throw (.refl r)
    · rename_i value fixed heval
      cases fixed with
      | false => exact .of_pure (.refl r)
      | true => exact .bind_set (.of_pure (.remember _ value))

/-- Answering keeps the relation, whatever is asked. -/
abbrev KeptByAnswers (R : Resolver → Resolver → Prop) : Prop :=
  ∀ text context, Keeps R (resolve text context)

section

variable {R : Resolver → Resolver → Prop} [Std.Refl R] [Trans R R R]

namespace Resolver

theorem keeps_segmentText (answers : KeptByAnswers R) (context : Option Context)
    (segment : Segment) : Keeps R (segmentText context segment) := by
  cases segment with
  | literal text => exact .of_pure text
  | expression text => exact (answers text context).bind fun _ => .of_pure _

theorem keeps_resolveTemplate (answers : KeptByAnswers R) (text : String)
    (context : Option Context) : Keeps R (resolveTemplate text context) := by
  unfold resolveTemplate
  split
  · exact .of_throw _
  · exact (Keeps.mapM (keeps_segmentText answers context) _).bind fun _ => .of_pure _

theorem keeps_resolveText (answers : KeptByAnswers R) (text : String) (context : Option Context) :
    Keeps R (resolveText text context) := by
  unfold resolveText
  dsimp only
  split
  · exact (answers _ context).bind fun _ => .of_pure _
  · split
    · exact (keeps_resolveTemplate answers text context).bind fun _ => .of_pure _
    · exact .of_pure _

mutual

theorem keeps_resolveValue (answers : KeptByAnswers R) (context : Option Context) :
    ∀ value, Keeps R (resolveValue context value)
  | .str text => by
    rw [resolveValue]
    exact keeps_resolveText answers text context
  | .arr items => by
    rw [resolveValue]
    exact (keeps_resolveItems answers context items).bind fun _ => .of_pure _
  | .obj members => by
    rw [resolveValue]
    exact (keeps_resolveMembers answers context members).bind fun _ => .of_pure _
  | .null => by
    rw [resolveValue]
    exact .of_pure _
    all_goals simp
  | .bool b => by
    rw [resolveValue]
    exact .of_pure _
    all_goals simp
  | .num n => by
    rw [resolveValue]
    exact .of_pure _
    all_goals simp

theorem keeps_resolveItems (answers : KeptByAnswers R) (context : Option Context) :
    ∀ items, Keeps R (resolveItems context items)
  | [] => by
    rw [resolveItems]
    exact .of_pure []
  | item :: rest => by
    rw [resolveItems]
    exact (keeps_resolveValue answers context item).bind fun _ =>
      (keeps_resolveItems answers context rest).bind fun _ => .of_pure _

theorem keeps_resolveMembers (answers : KeptByAnswers R) (context : Option Context) :
    ∀ members, Keeps R (resolveMembers context members)
  | [] => by
    rw [resolveMembers]
    exact .of_pure []
  | (key, value) :: rest => by
    rw [resolveMembers]
    exact (keeps_resolveValue answers context value).bind fun _ =>
      (keeps_resolveMembers answers context rest).bind fun _ => .of_pure _

end

end Resolver

namespace Condition

theorem keeps_operand (answers : KeptByAnswers R) (context : Context) (raw : String) :
    Keeps R (operand context raw) := by
  unfold operand
  dsimp only
  split
  · exact .of_throw _
  · split
    · exact (Keeps.of_adapt (answers _ _)).bind fun value => .of_pure _
    · split <;> exact .of_pure _

mutual

theorem keeps_evaluate (answers : KeptByAnswers R) (context : Context) :
    ∀ c : Condition, Keeps R (evaluate context c)
  | .empty => by
    unfold evaluate
    exact .of_throw _
  | .any parts => by
    unfold evaluate
    exact keeps_evaluateAny answers context parts
  | .all parts => by
    unfold evaluate
    exact keeps_evaluateAll answers context parts
  | .not condition => by
    unfold evaluate
    exact (keeps_evaluate answers context condition).bind fun value => .of_pure _
  | .compare text left op right => by
    unfold evaluate
    exact (keeps_operand answers context left).bind fun l =>
      (keeps_operand answers context right).bind fun r => .of_except _
  | .holds text => by
    unfold evaluate
    refine (keeps_operand answers context text).bind fun value => ?_
    split
    · exact .of_pure _
    · exact .of_throw _

theorem keeps_evaluateAny (answers : KeptByAnswers R) (context : Context) :
    ∀ parts : List Condition, Keeps R (evaluateAny context parts)
  | [] => .of_pure _
  | part :: rest => by
    unfold evaluateAny
    refine (keeps_evaluate answers context part).bind fun holds => ?_
    cases holds with
    | true => exact .of_pure _
    | false => exact keeps_evaluateAny answers context rest

theorem keeps_evaluateAll (answers : KeptByAnswers R) (context : Context) :
    ∀ parts : List Condition, Keeps R (evaluateAll context parts)
  | [] => .of_pure _
  | part :: rest => by
    unfold evaluateAll
    refine (keeps_evaluate answers context part).bind fun holds => ?_
    cases holds with
    | true => exact keeps_evaluateAll answers context rest
    | false => exact .of_pure _

end

end Condition

namespace Criterion

theorem keeps_subject (answers : KeptByAnswers R) (context : Context) (c : Criterion) :
    Keeps R (subject context c) := by
  unfold subject
  split
  · exact .of_throw _
  · exact (Keeps.of_adapt (answers _ _)).bind fun value => .of_pure _

theorem keeps_matchJsonPath (answers : KeptByAnswers R) (context : Context) (condition : String)
    (value : Json) : Keeps R (matchJsonPath context condition value) := by
  unfold matchJsonPath
  split
  · refine (Keeps.of_except _).bind fun found => ?_
    split
    · exact .of_pure _
    · exact (Condition.keeps_operand answers context _).bind fun expected => .of_except _
  · exact (Keeps.of_except _).bind fun found => .of_pure _

theorem keeps_holds (answers : KeptByAnswers R) (context : Context) (c : Criterion) :
    Keeps R (holds context c) := by
  unfold holds
  dsimp only
  split
  · exact Condition.keeps_evaluate answers context _
  · exact (keeps_subject answers context c).bind fun value => .of_except _
  · exact (keeps_subject answers context c).bind fun value =>
      keeps_matchJsonPath answers context _ _
  · exact (keeps_subject answers context c).bind fun value => .of_except _

theorem keeps_allHold (answers : KeptByAnswers R) (context : Context) (cs : List Criterion) :
    Keeps R (allHold context cs) := by
  induction cs with
  | nil => exact .of_pure _
  | cons c rest ih =>
    unfold allHold
    refine (keeps_holds answers context c).bind fun holds => ?_
    cases holds with
    | true => exact ih
    | false => exact .of_pure _

end Criterion

theorem Run.keeps_firstHolding (answers : KeptByAnswers R)
    {resolve : Entry α → Except ReferenceError α} {criteria : α → List Criterion}
    (context : Context) (entries : List (Entry α)) :
    Keeps R (Run.firstHolding resolve criteria context entries) := by
  induction entries with
  | nil => exact .of_pure _
  | cons entry rest ih =>
    unfold firstHolding
    split
    · exact .of_throw _
    · refine (Keeps.of_adapt (Criterion.keeps_allHold answers context _)).bind fun holds => ?_
      cases holds with
      | true => exact .of_pure _
      | false => exact ih

namespace Request

theorem keeps_resolveReplacements (answers : KeptByAnswers R) (context : Context)
    (replacements : List Replacement) : Keeps R (resolveReplacements context replacements) := by
  induction replacements with
  | nil => exact .of_pure _
  | cons r rest ih =>
    unfold resolveReplacements
    exact (Keeps.of_adapt (keeps_resolveValue answers _ _)).bind fun value =>
      ih.bind fun values => .of_pure _

theorem keeps_replacedPayload (answers : KeptByAnswers R) (context : Context) (body : RequestBody) :
    Keeps R (replacedPayload context body) := by
  unfold replacedPayload
  dsimp only
  split
  case' h_1 payload hpayload =>
    have resolved : Keeps R ((resolveValue (some context) payload).adapt RequestError.resolve) :=
      .of_adapt (keeps_resolveValue answers _ _)
    refine (resolved.bind fun value => .of_pure (some value)).bind fun payload => ?_
  -- With the payload resolved, or none, what remains is the same.
  all_goals
    split
    · exact .of_pure _
    · refine (keeps_resolveReplacements answers context _).bind fun replacements => ?_
      split
      · exact .of_pure _
      · exact .of_throw _

theorem keeps_buildPayload (answers : KeptByAnswers R) (context : Context) (fields : Table Json)
    (body : Option RequestBody) : Keeps R (buildPayload context fields body) := by
  unfold buildPayload
  cases body with
  | none => exact .of_except _
  | some body => exact (keeps_replacedPayload answers context body).bind fun payload => .of_except _

theorem keeps_build (answers : KeptByAnswers R) (config : Config) (operation : Operation)
    (place : String) (parameters : List Parameter) (body : Option RequestBody) (context : Context) :
    Keeps R (build config operation place parameters body context) := by
  have added : Keeps R (parameters.foldlM (addParameter operation context) {}) :=
    .foldlM (fun parts p =>
      (Keeps.of_adapt (keeps_resolveValue answers _ _)).bind fun value => .of_pure _) _ _
  unfold build
  refine added.bind fun parts => (Keeps.of_except _).bind fun url => ?_
  exact (keeps_buildPayload answers context parts.body body).bind fun payload => .of_pure _

end Request

end

end Arazzo
