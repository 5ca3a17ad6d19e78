import Arazzo.Proofs.Condition.Outline
import Arazzo.Proofs.Text

/-! Where any text is cut, closed or not: at the first marks outside of its quotes and brackets, and
again after them. A cut leaves no quote and no bracket open, so each part is read from its start as
a text of its own, and reading always goes on with shorter texts. -/

namespace Arazzo

namespace Nesting

theorem atTop_iff {n : Nesting} : n.atTop = true ↔ n = {} := by
  obtain ⟨quote, depth⟩ := n
  cases quote <;> simp [atTop]

theorem natAbs_depth_feed_le (n : Nesting) (c : Char) :
    (n.feed c).depth.natAbs ≤ n.depth.natAbs + 1 := by
  unfold feed
  split
  · split <;> simp
  · split
    · simp
    · split
      · exact Int.natAbs_add_le n.depth 1
      · split
        · exact Int.natAbs_sub_le n.depth 1
        · simp

/-- A counter of 32 bits is wide enough for any text of fewer than `2 ^ 31` characters. -/
theorem natAbs_depth_foldl_le (n : Nesting) (cs : List Char) :
    (cs.foldl feed n).depth.natAbs ≤ n.depth.natAbs + cs.length := by
  induction cs generalizing n with
  | nil => exact le_rfl
  | cons c cs ih =>
    have hfeed := n.natAbs_depth_feed_le c
    have hrest := ih (n.feed c)
    rw [List.foldl_cons, List.length_cons]
    omega

end Nesting

namespace Condition

variable {mark : Char} {n : Nesting} {c : Char} {cs part rest : List Char}
  {parts : List (List Char)}

/-- Somewhere in the text, which is read on from `n`, the marks stand outside quotes and brackets. -/
def Shows (mark : Char) (n : Nesting) (cs : List Char) : Prop :=
  ∃ before after, cs = before ++ mark :: mark :: after ∧ (before.foldl Nesting.feed n).atTop = true

theorem not_shows_nil : ¬ Shows mark n [] := by
  rintro ⟨before, after, h, -⟩
  simp at h

theorem shows_cons : Shows mark n (c :: cs) ↔
    (n.atTop = true ∧ [mark, mark] <+: c :: cs) ∨ Shows mark (n.feed c) cs := by
  constructor
  · rintro ⟨before, after, h, htop⟩
    cases before with
    | nil => exact .inl ⟨htop, after, h.symm⟩
    | cons b before =>
      obtain ⟨rfl, rfl⟩ := List.cons.inj h
      exact .inr ⟨before, after, rfl, htop⟩
  · rintro (⟨htop, after, h⟩ | ⟨before, after, rfl, htop⟩)
    · exact ⟨[], after, h.symm, htop⟩
    · exact ⟨c :: before, after, rfl, htop⟩

theorem not_shows_single : ¬ Shows mark n [c] := by
  rw [shows_cons, not_or]
  refine ⟨fun h => ?_, not_shows_nil⟩
  simpa using h.2.length_le

theorem Shows.append (h : Shows mark n cs) (rest : List Char) : Shows mark n (cs ++ rest) := by
  obtain ⟨before, after, rfl, htop⟩ := h
  exact ⟨before, after ++ rest, by simp, htop⟩

theorem splitFrom_of_not_shows (h : ¬ Shows mark n cs) : splitFrom mark n cs = [cs] := by
  induction cs generalizing n with
  | nil => rfl
  | cons c cs ih =>
    rw [shows_cons, not_or] at h
    rw [splitFrom_step fun htop hmarks => h.1 ⟨htop, hmarks⟩, ih h.2]
    rfl

/-- Two marks that begin before the cut do not reach beyond its first mark. -/
theorem prefix_concat (h : [mark, mark] <+: c :: (part ++ mark :: mark :: rest)) :
    [mark, mark] <+: c :: (part ++ [mark]) := by
  cases part with
  | nil => simpa [List.cons_prefix_cons] using h
  | cons d part => simpa [List.cons_prefix_cons] using h

theorem splitFrom_cut (h : ¬ Shows mark n (part ++ [mark]))
    (htop : (part.foldl Nesting.feed n).atTop = true) :
    splitFrom mark n (part ++ mark :: mark :: rest) = part :: splitTop mark rest := by
  induction part generalizing n with
  | nil =>
    -- Outside of everything there is one state only, the one that every text begins in.
    obtain rfl : n = {} := Nesting.atTop_iff.1 htop
    simp only [List.nil_append, splitFrom, Nesting.atTop_zero, and_self, if_true]
    rfl
  | cons c part ih =>
    rw [List.cons_append, shows_cons, not_or] at h
    rw [List.cons_append, splitFrom_step fun hn hmarks => h.1 ⟨hn, prefix_concat hmarks⟩,
      ih h.2 htop]
    rfl

theorem Shows.exists_first (h : Shows mark n cs) : ∃ part rest, cs = part ++ mark :: mark :: rest ∧
    ¬ Shows mark n (part ++ [mark]) ∧ (part.foldl Nesting.feed n).atTop = true := by
  induction cs generalizing n with
  | nil => exact absurd h not_shows_nil
  | cons c cs ih =>
    by_cases hhere : n.atTop = true ∧ [mark, mark] <+: c :: cs
    · obtain ⟨htop, rest, hrest⟩ := hhere
      exact ⟨[], rest, hrest.symm, not_shows_single, htop⟩
    · obtain ⟨part, rest, rfl, hclear, htop⟩ := ih ((shows_cons.1 h).resolve_left hhere)
      refine ⟨c :: part, rest, rfl, ?_, htop⟩
      rw [List.cons_append, shows_cons, not_or]
      refine ⟨fun hmarks => hhere ⟨hmarks.1, hmarks.2.trans ?_⟩, hclear⟩
      exact ⟨mark :: rest, by simp⟩

/-- The parts between the marks that stand outside quotes and brackets, taken from the left. -/
inductive Cuts (mark : Char) : List Char → List (List Char) → Prop where
  | last {cs : List Char} (clear : ¬ Shows mark {} cs) : Cuts mark cs [cs]
  | cut {part rest : List Char} {parts : List (List Char)} (clear : ¬ Shows mark {} (part ++ [mark]))
    (top : (part.foldl Nesting.feed {}).atTop = true) (onward : Cuts mark rest parts) :
    Cuts mark (part ++ mark :: mark :: rest) (part :: parts)

namespace Cuts

theorem splitTop_eq (h : Cuts mark cs parts) : splitTop mark cs = parts := by
  induction h with
  | last clear => exact splitFrom_of_not_shows clear
  | cut clear top _ ih => rw [splitTop, splitFrom_cut clear top, ih]

theorem exists_parts (mark : Char) (cs : List Char) : ∃ parts, Cuts mark cs parts := by
  induction hlength : cs.length using Nat.strong_induction_on generalizing cs with
  | _ length ih =>
    subst hlength
    by_cases hshows : Shows mark {} cs
    · obtain ⟨part, rest, rfl, hclear, htop⟩ := hshows.exists_first
      obtain ⟨parts, onward⟩ := ih rest.length (by simp; omega) rest rfl
      exact ⟨part :: parts, .cut hclear htop onward⟩
    · exact ⟨[cs], .last hshows⟩

theorem of_splitTop (mark : Char) (cs : List Char) : Cuts mark cs (splitTop mark cs) := by
  obtain ⟨parts, h⟩ := exists_parts mark cs
  rwa [h.splitTop_eq]

theorem ne_nil (h : Cuts mark cs parts) : parts ≠ [] := by
  cases h <;> exact List.cons_ne_nil _ _

theorem joinWith_eq (h : Cuts mark cs parts) : Text.joinWith [mark, mark] parts = cs := by
  induction h with
  | last clear => rfl
  | cut clear top onward ih =>
    rw [Text.joinWith_cons onward.ne_nil, ih, List.append_assoc]
    rfl

theorem not_shows (h : Cuts mark cs parts) (hpart : part ∈ parts) : ¬ Shows mark {} part := by
  induction h with
  | last clear =>
    obtain rfl := List.mem_singleton.1 hpart
    exact clear
  | cut clear _ _ ih =>
    rcases List.mem_cons.1 hpart with rfl | hpart
    · exact fun hshows => clear (hshows.append [mark])
    · exact ih hpart

theorem length_le (h : Cuts mark cs parts) (hpart : part ∈ parts) : part.length ≤ cs.length := by
  induction h with
  | last clear => rw [List.mem_singleton.1 hpart]
  | cut clear top onward ih =>
    rw [List.length_append, List.length_cons, List.length_cons]
    rcases List.mem_cons.1 hpart with rfl | hpart
    · omega
    · have hrest := ih hpart
      omega

theorem length_lt (h : Cuts mark cs parts) (hmany : 2 ≤ parts.length) (hpart : part ∈ parts) :
    part.length < cs.length := by
  cases h with
  | last clear => simp at hmany
  | cut clear top onward =>
    rw [List.length_append, List.length_cons, List.length_cons]
    rcases List.mem_cons.1 hpart with rfl | hpart
    · omega
    · have hrest := onward.length_le hpart
      omega

end Cuts

/-- One level of a condition, with the texts inside it unread. -/
inductive Level where
  | empty
  | any (parts : List (List Char))
  | all (parts : List (List Char))
  | not (text : List Char)
  | parens (text : List Char)
  | compare (text left : List Char) (op : Operator) (right : List Char)
  | holds (text : List Char)

namespace Level

def texts : Level → List (List Char)
  | .any parts => parts
  | .all parts => parts
  | .not text => [text]
  | .parens text => [text]
  | _ => []

def build (read : List Char → Condition) : Level → Condition
  | .empty => .empty
  | .any parts => .any (parts.map read)
  | .all parts => .all (parts.map read)
  | .not text => .not (read text)
  | .parens text => read text
  | .compare text left op right =>
    .compare (String.ofList text) (String.ofList left) op (String.ofList right)
  | .holds text => .holds (String.ofList text)

theorem build_congr {read read' : List Char → Condition} {level : Level}
    (h : ∀ s ∈ level.texts, read s = read' s) : level.build read = level.build read' := by
  cases level with
  | any parts => exact congrArg Condition.any (List.map_congr_left h)
  | all parts => exact congrArg Condition.all (List.map_congr_left h)
  | not text => exact congrArg Condition.not (h text (List.mem_singleton_self _))
  | parens text => exact h text (List.mem_singleton_self _)
  | empty => rfl
  | compare text left op right => rfl
  | holds text => rfl

def single (cs : List Char) : Level :=
  match ofChars.negated? cs with
  | some rest => .not rest
  | none =>
    match insideParens? cs with
    | some inner => .parens inner
    | none =>
      match cut? cs with
      | some (left, op, right) => .compare cs left op right
      | none => .holds cs

def of (cs : List Char) : Level :=
  let cs := Text.trimChars cs
  if cs.isEmpty then .empty
  else if 2 ≤ (splitTop '|' cs).length then .any (splitTop '|' cs)
  else if 2 ≤ (splitTop '&' cs).length then .all (splitTop '&' cs)
  else single cs

end Level

theorem single_eq_build (fuel : Nat) (cs : List Char) :
    ofChars.single fuel cs = (Level.single cs).build (ofChars fuel) := by
  unfold ofChars.single Level.single
  cases ofChars.negated? cs with
  | some rest => rfl
  | none =>
    cases insideParens? cs with
    | some inner => rfl
    | none => cases cut? cs <;> rfl

theorem ofChars_succ (fuel : Nat) (cs : List Char) :
    ofChars (fuel + 1) cs = (Level.of cs).build (ofChars fuel) := by
  rw [ofChars, Level.of, apply_ite (Level.build (ofChars fuel))]
  refine if_congr Iff.rfl rfl ?_
  -- A match on two parts or more is the question whether there are two at least.
  split
  · rename_i a b rest hparts
    rw [hparts, if_pos (by simp)]
    rfl
  · rename_i hone
    rw [if_neg fun hmany => ?_]
    · split
      · rename_i a b rest hparts
        rw [hparts, if_pos (by simp)]
        rfl
      · rename_i hone'
        rw [if_neg fun hmany => ?_]
        · exact single_eq_build fuel _
        · obtain ⟨a, b, rest, hparts⟩ := many_eq hmany
          exact hone' a b rest hparts
    · obtain ⟨a, b, rest, hparts⟩ := many_eq hmany
      exact hone a b rest hparts

theorem length_trimChars_le (cs : List Char) : (Text.trimChars cs).length ≤ cs.length := by
  obtain ⟨first, last, hcs, -⟩ := Text.exists_trimChars cs
  have hlength := congrArg List.length hcs
  simp only [List.length_append] at hlength
  omega

theorem length_of_negated? (h : ofChars.negated? cs = some rest) : rest.length < cs.length := by
  unfold ofChars.negated? at h
  split at h
  · cases h
  · obtain rfl := Option.some.inj h
    exact Nat.lt_succ_self _
  · cases h

theorem length_of_insideParens? (h : insideParens? cs = some rest) : rest.length < cs.length := by
  unfold insideParens? at h
  split at h
  · split at h
    · obtain rfl := Option.some.inj h
      rw [List.length_dropLast, List.length_cons]
      omega
    · cases h
  · cases h

theorem Level.length_single {s : List Char} (h : s ∈ (single cs).texts) : s.length < cs.length := by
  unfold single at h
  split at h
  · rename_i rest hrest
    rw [List.mem_singleton.1 h]
    exact length_of_negated? hrest
  · split at h
    · rename_i inner hinner
      rw [List.mem_singleton.1 h]
      exact length_of_insideParens? hinner
    · split at h <;> exact absurd h List.not_mem_nil

theorem Level.length_of {s : List Char} (h : s ∈ (of cs).texts) : s.length < cs.length := by
  refine Nat.lt_of_lt_of_le ?_ (length_trimChars_le cs)
  unfold of at h
  dsimp only at h
  split at h
  · exact absurd h List.not_mem_nil
  · split at h
    · rename_i hmany
      exact (Cuts.of_splitTop '|' _).length_lt hmany h
    · split at h
      · rename_i hmany
        exact (Cuts.of_splitTop '&' _).length_lt hmany h
      · exact length_single h

/-- As the texts get shorter, the length of the first one is fuel enough. -/
theorem ofChars_eq_parse {fuel : Nat} (h : cs.length < fuel) :
    ofChars fuel cs = parse (String.ofList cs) := by
  rw [parse, String.toList_ofList, String.length_ofList]
  induction hlength : cs.length using Nat.strong_induction_on generalizing cs fuel with
  | _ length ih =>
    subst hlength
    obtain ⟨fuel, rfl⟩ := Nat.exists_eq_succ_of_ne_zero (Nat.ne_zero_of_lt h)
    rw [ofChars_succ, ofChars_succ]
    refine Level.build_congr fun s hs => ?_
    have hshorter := Level.length_of hs
    have hfuel : s.length < fuel := by omega
    rw [ih s.length hshorter hfuel rfl, ih s.length hshorter hshorter rfl]

theorem parse_eq_build (cs : List Char) :
    parse (String.ofList cs) = (Level.of cs).build fun s => parse (String.ofList s) := by
  rw [← ofChars_eq_parse (Nat.lt_succ_self cs.length), ofChars_succ]
  exact Level.build_congr fun s hs => ofChars_eq_parse (Level.length_of hs)

/--
Joined by the marks the parts are the whole text again, and in none of them do the marks stand
outside quotes and brackets, so that a part is not cut any further. All that reading a condition
goes on with is shorter than the condition.
-/
theorem splitTop_complete (mark : Char) (cs : List Char) :
    Text.joinWith [mark, mark] (splitTop mark cs) = cs ∧ Cuts mark cs (splitTop mark cs) ∧
      (∀ part ∈ splitTop mark cs, ¬ Shows mark {} part ∧ splitTop mark part = [part]) ∧
      parse (String.ofList cs) = (Level.of cs).build (fun s => parse (String.ofList s)) ∧
      ∀ s ∈ (Level.of cs).texts, s.length < cs.length := by
  have cuts := Cuts.of_splitTop mark cs
  refine ⟨cuts.joinWith_eq, cuts, fun part hpart => ?_, parse_eq_build cs, fun s => Level.length_of⟩
  have hclear := cuts.not_shows hpart
  exact ⟨hclear, splitFrom_of_not_shows hclear⟩

theorem splitTop_complete_unbalanced :
    let cs := "(a||b)||)||c".toList
    let part := ")||c".toList
    part ∈ splitTop '|' cs ∧ ¬ Shows '|' {} part ∧ splitTop '|' part = [part] ∧
      part ∈ (Level.of cs).texts ∧ part.length < cs.length := by
  intro cs part
  have hpart : part ∈ splitTop '|' cs := by decide
  have hinner : part ∈ (Level.of cs).texts := by decide
  obtain ⟨-, -, hparts, -, hshorter⟩ := splitTop_complete '|' cs
  obtain ⟨hclear, halone⟩ := hparts part hpart
  exact ⟨hpart, hclear, halone, hinner, hshorter part hinner⟩

end Condition
end Arazzo
