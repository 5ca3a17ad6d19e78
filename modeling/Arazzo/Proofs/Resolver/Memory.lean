import Arazzo.Proofs.Leads
import Arazzo.Proofs.Table
import Arazzo.Resolver

/-! What a resolver remembers never shows. All that it remembers is what the document alone says, so
that two resolvers with the same document and the same published outputs answer alike. -/

namespace Arazzo

theorem run_get_bind {ε σ β : Type} (next : σ → ExceptT ε (StateM σ) β) (s : σ) :
    (get >>= next).run s = (next s).run s := rfl

/-- A fixed expression means the same whatever was published and wherever it is asked. -/
theorem Expression.value_of_isFixed {expression : Expression} (h : expression.isFixed)
    (document : Document) (published published' : Table Json) (context context' : Option Context) :
    expression.value document published context =
      expression.value document published' context' := by
  cases expression with
  | named scope path =>
    cases scope with
    | sourceDescriptions => rfl
    | components => rfl
    | _ => cases h
  | componentParameter name => rfl
  | _ => cases h

theorem evaluateText_fixed {document : Document} {published : Table Json}
    {context : Option Context} {text : String} {value : Option Json}
    (h : evaluateText document published context text = (.ok value, true))
    (published' : Table Json) (context' : Option Context) :
    evaluateText document published' context' text = (.ok value, true) := by
  unfold evaluateText at h ⊢
  split at h
  · exact h
  · split at h
    · cases h
    · cases h
    · cases h
    · rename_i expression _
      split at h
      · rename_i found hvalue
        obtain ⟨hfound, hfixed⟩ := Prod.mk.inj h
        rw [expression.value_of_isFixed hfixed document published' published context' context,
          hvalue]
        exact h
      · cases h

namespace Resolver

/-- All that is remembered is what the document alone says. -/
def Truthful (r : Resolver) : Prop :=
  ∀ text value, Table.get? text r.memory = some value →
    ∀ published context, evaluateText r.document published context text = (.ok (some value), true)

/-- Two resolvers that may remember different things, but nothing false. -/
structure Alike (r r' : Resolver) : Prop where
  document : r.document = r'.document
  published : r.published = r'.published
  truthful : r.Truthful
  truthful' : r'.Truthful

variable {ε α β : Type} {r r' r'' : Resolver}

theorem truthful_nil (document : Document) (published : Table Json) :
    Truthful { document, published } := by
  intro text value hget
  cases hget

namespace Alike

theorem symm (h : Alike r r') : Alike r' r :=
  ⟨h.document.symm, h.published.symm, h.truthful', h.truthful⟩

theorem trans (h : Alike r r') (h' : Alike r' r'') : Alike r r'' :=
  ⟨h.document.trans h'.document, h.published.trans h'.published, h.truthful, h'.truthful'⟩

end Alike

theorem Truthful.remember {text : String} {value : Option Json} {published : Table Json}
    {context : Option Context} (h : r.Truthful)
    (heval : evaluateText r.document published context text = (.ok value, true)) :
    (r.remember text value).Truthful := by
  unfold Resolver.remember
  split
  · exact h
  · rename_i found
    split
    · exact h
    · intro text' value' hget
      rw [Table.get?_insert] at hget
      split at hget
      · rename_i hsame
        cases hget
        exact hsame ▸ evaluateText_fixed heval
      · exact h text' value' hget

theorem remember_eq (text : String) (value : Option Json) :
    ∃ memory, r.remember text value = { r with memory } := by
  unfold remember
  split
  · exact ⟨r.memory, rfl⟩
  · split
    · exact ⟨r.memory, rfl⟩
    · exact ⟨_, rfl⟩

/-- An expression is answered as the document, the published outputs and the context say, and nothing
false is remembered afterwards. -/
theorem resolve_run (h : r.Truthful) (expression : String) (context : Option Context) :
    ∃ memory, (resolve expression context).run r =
        ((evaluateText r.document r.published context (Text.trim expression)).1,
          { r with memory }) ∧
      Truthful { r with memory } := by
  unfold resolve
  dsimp only
  rw [run_get_bind]
  split
  · rename_i value hget
    rw [h _ _ hget]
    exact ⟨r.memory, rfl, h⟩
  · split
    · rename_i error _ heval
      rw [heval]
      exact ⟨r.memory, rfl, h⟩
    · rename_i value fixed heval
      rw [heval]
      cases fixed with
      | false => exact ⟨r.memory, rfl, h⟩
      | true =>
        obtain ⟨memory, hmemory⟩ := r.remember_eq (Text.trim expression) value
        have truthful := h.remember heval
        rw [hmemory] at truthful
        refine ⟨memory, ?_, truthful⟩
        rw [if_pos rfl, ← hmemory]
        rfl

theorem resolve_run_of_unfixed (h : r.Truthful) {expression : String} {context : Option Context}
    {answer : Except ResolveError (Option Json)}
    (heval : evaluateText r.document r.published context (Text.trim expression) = (answer, false)) :
    (resolve expression context).run r = (answer, r) := by
  unfold resolve
  dsimp only
  rw [run_get_bind]
  split
  · rename_i value hget
    cases (h _ _ hget r.published context).symm.trans heval
  · rw [heval]
    cases answer <;> rfl

/-- Work whose answer does not show what is remembered, and that changes nothing else. -/
def Blind (work : Resolving ε α) : Prop :=
  ∀ r r', Alike r r' →
    (work.run r).1 = (work.run r').1 ∧ Alike r (work.run r).2 ∧ Alike r' (work.run r').2

theorem Truthful.alike (h : r.Truthful) : Alike r r := ⟨rfl, rfl, h, h⟩

namespace Blind

theorem of_pure (a : α) : Blind (pure a : Resolving ε α) :=
  fun _ _ h => ⟨rfl, h.truthful.alike, h.truthful'.alike⟩

theorem of_throw (e : ε) : Blind (throw e : Resolving ε α) :=
  fun _ _ h => ⟨rfl, h.truthful.alike, h.truthful'.alike⟩

theorem bind {work : Resolving ε α} {next : α → Resolving ε β} (h : Blind work)
    (hnext : ∀ a, Blind (next a)) : Blind (work >>= next) := by
  intro r r' halike
  obtain ⟨hanswer, hs, hs'⟩ := h r r' halike
  rcases hrun : work.run r with ⟨e | a, s⟩ <;> rcases hrun' : work.run r' with ⟨e' | a', s'⟩ <;>
    simp only [hrun, hrun'] at hanswer hs hs'
  · rw [run_bind_error hrun, run_bind_error hrun']
    obtain rfl : e = e' := Except.error.inj hanswer
    exact ⟨rfl, hs, hs'⟩
  · cases hanswer
  · cases hanswer
  · obtain rfl : a = a' := Except.ok.inj hanswer
    rw [run_bind_ok hrun, run_bind_ok hrun']
    obtain ⟨hlast, ht, ht'⟩ := hnext a s s' (hs.symm.trans (halike.trans hs'))
    exact ⟨hlast, hs.trans ht, hs'.trans ht'⟩

theorem mapM {f : α → Resolving ε β} (h : ∀ a, Blind (f a)) (as : List α) :
    Blind (as.mapM f) := by
  induction as with
  | nil => exact of_pure []
  | cons a as ih =>
    rw [List.mapM_cons]
    exact (h a).bind fun b => ih.bind fun bs => of_pure (b :: bs)

theorem foldlM {f : β → α → Resolving ε β} (h : ∀ b a, Blind (f b a)) (init : β) (as : List α) :
    Blind (as.foldlM f init) := by
  induction as generalizing init with
  | nil => exact of_pure init
  | cons a as ih =>
    rw [List.foldlM_cons]
    exact (h init a).bind ih

theorem adapt {ε' : Type} {f : ε → ε'} {work : Resolving ε α} (h : Blind work) :
    Blind (work.adapt f) := by
  intro r r' halike
  obtain ⟨hanswer, hafter⟩ := h r r' halike
  exact ⟨congrArg (Except.mapError f) hanswer, hafter⟩

end Blind

theorem blind_resolve (expression : String) (context : Option Context) :
    Blind (resolve expression context) := by
  intro r r' h
  obtain ⟨memory, hrun, truthful⟩ := resolve_run h.truthful expression context
  obtain ⟨memory', hrun', truthful'⟩ := resolve_run h.truthful' expression context
  rw [hrun, hrun']
  refine ⟨?_, ⟨rfl, rfl, h.truthful, truthful⟩, ⟨rfl, rfl, h.truthful', truthful'⟩⟩
  dsimp only
  rw [h.document, h.published]

theorem blind_segmentText (context : Option Context) (segment : Segment) :
    Blind (segmentText context segment) := by
  cases segment with
  | literal text => exact .of_pure text
  | expression text => exact (blind_resolve text context).bind fun _ => .of_pure _

theorem blind_resolveTemplate (text : String) (context : Option Context) :
    Blind (resolveTemplate text context) := by
  unfold resolveTemplate
  split
  · exact .of_throw _
  · exact (Blind.mapM (blind_segmentText context) _).bind fun _ => .of_pure _

theorem blind_resolveText (text : String) (context : Option Context) :
    Blind (resolveText text context) := by
  unfold resolveText
  dsimp only
  split
  · exact (blind_resolve _ context).bind fun _ => .of_pure _
  · split
    · exact (blind_resolveTemplate text context).bind fun _ => .of_pure _
    · exact .of_pure _

mutual

theorem blind_resolveValue (context : Option Context) :
    ∀ value, Blind (resolveValue context value)
  | .str text => by
    rw [resolveValue]
    exact blind_resolveText text context
  | .arr items => by
    rw [resolveValue]
    exact (blind_resolveItems context items).bind fun _ => .of_pure _
  | .obj members => by
    rw [resolveValue]
    exact (blind_resolveMembers context members).bind fun _ => .of_pure _
  | .null => by
    rw [resolveValue]
    exact .of_pure _
    all_goals simp
  | .bool b => by
    rw [resolveValue]
    exact .of_pure _
    all_goals simp
  | .num n => by
    rw [resolveValue]
    exact .of_pure _
    all_goals simp

theorem blind_resolveItems (context : Option Context) :
    ∀ items, Blind (resolveItems context items)
  | [] => by
    rw [resolveItems]
    exact .of_pure []
  | item :: rest => by
    rw [resolveItems]
    exact (blind_resolveValue context item).bind fun _ =>
      (blind_resolveItems context rest).bind fun _ => .of_pure _

theorem blind_resolveMembers (context : Option Context) :
    ∀ members, Blind (resolveMembers context members)
  | [] => by
    rw [resolveMembers]
    exact .of_pure []
  | (key, value) :: rest => by
    rw [resolveMembers]
    exact (blind_resolveValue context value).bind fun _ =>
      (blind_resolveMembers context rest).bind fun _ => .of_pure _

end

/-- What a resolver is asked to do; the context may be another one each time. -/
inductive Call where
  | resolve (expression : String) (context : Option Context)
  | template (text : String) (context : Option Context)
  | json (value : Json) (context : Option Context)
  | publish (key : String) (value : Json)

inductive Answer where
  | found (result : Except ResolveError (Option Json))
  | rendered (result : Except ResolveError String)
  | built (result : Except ResolveError Json)
  | published

namespace Call

def answer : Call → StateM Resolver Answer
  | .resolve expression context => Answer.found <$> (Resolver.resolve expression context).run
  | .template text context => Answer.rendered <$> (resolveTemplate text context).run
  | .json value context => Answer.built <$> (resolveValue context value).run
  | .publish key value => do
    modify (Resolver.publish key value)
    return .published

def publishing (published : Table Json) : Call → Table Json
  | .publish key value => Table.insert key value published
  | _ => published

end Call

/-- The answers to calls in order, by one resolver that remembers. -/
def answers (calls : List Call) : StateM Resolver (List Answer) := calls.mapM Call.answer

/-- The answers to calls in order, each by a resolver that remembers nothing but has the same
document and the same published outputs. -/
def answersAfresh (document : Document) : Table Json → List Call → List Answer
  | _, [] => []
  | published, call :: rest =>
    (call.answer.run { document, published }).1 ::
      answersAfresh document (call.publishing published) rest

theorem Blind.answer_run {work : Resolving ε α} (hblind : Blind work) (h : r.Truthful)
    (wrap : Except ε α → Answer) :
    ∃ memory, (wrap <$> work.run).run r =
        (((wrap <$> work.run).run { document := r.document, published := r.published }).1,
          { r with memory }) ∧
      Truthful { r with memory } := by
  have afresh : Alike r { document := r.document, published := r.published } :=
    ⟨rfl, rfl, h, truthful_nil _ _⟩
  obtain ⟨hanswer, hafter, -⟩ := hblind r _ afresh
  have hstate : { r with memory := (work.run r).2.memory } = (work.run r).2 := by
    rw [hafter.document, hafter.published]
  refine ⟨(work.run r).2.memory, Prod.ext (congrArg wrap hanswer) hstate.symm, ?_⟩
  rw [hstate]
  exact hafter.truthful'

theorem Call.answer_run (h : r.Truthful) (call : Call) :
    ∃ memory, call.answer.run r =
        ((call.answer.run { document := r.document, published := r.published }).1,
          { r with published := call.publishing r.published, memory }) ∧
      Truthful { r with published := call.publishing r.published, memory } := by
  cases call with
  | resolve expression context => exact (blind_resolve expression context).answer_run h .found
  | template text context => exact (blind_resolveTemplate text context).answer_run h .rendered
  | json value context => exact (blind_resolveValue context value).answer_run h .built
  | publish key value => exact ⟨r.memory, rfl, h⟩

theorem answers_cons (call : Call) (rest : List Call) (r : Resolver) :
    ((answers (call :: rest)).run r).1 =
      (call.answer.run r).1 :: ((answers rest).run (call.answer.run r).2).1 := by
  rw [answers, List.mapM_cons]
  rfl

def Reached (r : Resolver) : Prop := ∃ document calls, r = ((answers calls).run { document }).2

theorem answers_truthful (h : r.Truthful) (calls : List Call) : ((answers calls).run r).2.Truthful := by
  induction calls generalizing r with
  | nil => exact h
  | cons call rest ih =>
    obtain ⟨memory, hrun, truthful⟩ := call.answer_run h
    have hnext : ((answers (call :: rest)).run r).2 = ((answers rest).run (call.answer.run r).2).2 := by
      rw [answers, List.mapM_cons]
      rfl
    rw [hnext, hrun]
    exact ih truthful

theorem Reached.truthful (h : Reached r) : r.Truthful := by
  obtain ⟨document, calls, rfl⟩ := h
  exact answers_truthful (truthful_nil document []) calls

theorem answers_run (h : r.Truthful) (calls : List Call) :
    ((answers calls).run r).1 = answersAfresh r.document r.published calls := by
  induction calls generalizing r with
  | nil => rfl
  | cons call rest ih =>
    obtain ⟨memory, hrun, truthful⟩ := call.answer_run h
    rw [answers_cons, hrun, answersAfresh, ih truthful]

/-- Memory is invisible: in every series of calls each call is answered as if it were the first. -/
theorem answers_eq_afresh (document : Document) (calls : List Call) :
    ((answers calls).run { document }).1 = answersAfresh document [] calls :=
  answers_run (truthful_nil document []) calls

end Resolver
end Arazzo
