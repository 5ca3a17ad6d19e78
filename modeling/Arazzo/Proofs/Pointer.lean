import Arazzo.Pointer
import Arazzo.Proofs.Text
import Arazzo.Proofs.Text.Replace

/-! Tokens of pointers: escaping takes the slashes away, and unescaping gives the token back. So a
pointer is made of its tokens, and every list of tokens makes a pointer. -/

namespace Arazzo.Pointer

variable {c : Char} {cs : List Char}

theorem escapeChars_tilde (cs : List Char) : escapeChars ('~' :: cs) = '~' :: '0' :: escapeChars cs := by
  rw [escapeChars, if_pos rfl]

theorem escapeChars_slash (cs : List Char) : escapeChars ('/' :: cs) = '~' :: '1' :: escapeChars cs := by
  rw [escapeChars, if_neg (by decide), if_pos rfl]

theorem escapeChars_other (htilde : c ≠ '~') (hslash : c ≠ '/') (cs : List Char) :
    escapeChars (c :: cs) = c :: escapeChars cs := by
  rw [escapeChars, if_neg htilde, if_neg hslash]

theorem escapeChars_eq_self (h : ∀ c ∈ cs, c ≠ '~' ∧ c ≠ '/') : escapeChars cs = cs := by
  induction cs with
  | nil => rfl
  | cons c cs ih =>
    obtain ⟨⟨htilde, hslash⟩, hcs⟩ := List.forall_mem_cons.1 h
    rw [escapeChars_other htilde hslash, ih hcs]

theorem slash_not_mem_escapeChars (cs : List Char) : '/' ∉ escapeChars cs := by
  induction cs with
  | nil => exact List.not_mem_nil
  | cons c cs ih =>
    rw [escapeChars]
    split
    · simpa using ih
    · split
      · simpa using ih
      · rename_i hslash
        simpa [Ne.symm hslash] using ih

theorem escapeChars_ne_nil (h : cs ≠ []) : escapeChars cs ≠ [] := by
  cases cs with
  | nil => exact absurd rfl h
  | cons c cs =>
    rw [escapeChars]
    split
    · exact List.cons_ne_nil _ _
    · split <;> exact List.cons_ne_nil _ _

def tildesEscaped (cs : List Char) : List Char :=
  cs.flatMap fun c => if c = '~' then ['~', '0'] else [c]

theorem replaceAll_slashes (cs : List Char) :
    Text.replaceAll ['~', '1'] ['/'] (escapeChars cs) = tildesEscaped cs := by
  induction cs with
  | nil => exact Text.replaceAll_nil ..
  | cons c cs ih =>
    by_cases htilde : c = '~'
    · subst htilde
      have hother : ¬ ['~', '1'] <+: '~' :: '0' :: escapeChars cs := by simp
      rw [escapeChars_tilde, Text.replaceAll_cons hother, Text.replaceAll_cons_ne (by decide), ih]
      rfl
    · by_cases hslash : c = '/'
      · subst hslash
        have hlead : Text.replaceAll ['~', '1'] ['/'] (['~', '1'] ++ escapeChars cs) =
            ['/'] ++ Text.replaceAll ['~', '1'] ['/'] (escapeChars cs) :=
          Text.replaceAll_lead (List.cons_ne_nil _ _) _
        rw [ih] at hlead
        rw [escapeChars_slash]
        exact hlead
      · rw [escapeChars_other htilde hslash, Text.replaceAll_cons_ne htilde, ih]
        simp [tildesEscaped, htilde]

theorem replaceAll_tildes (cs : List Char) :
    Text.replaceAll ['~', '0'] ['~'] (tildesEscaped cs) = cs := by
  induction cs with
  | nil => exact Text.replaceAll_nil ..
  | cons c cs ih =>
    by_cases htilde : c = '~'
    · subst htilde
      have hlead : Text.replaceAll ['~', '0'] ['~'] (['~', '0'] ++ tildesEscaped cs) =
          ['~'] ++ Text.replaceAll ['~', '0'] ['~'] (tildesEscaped cs) :=
        Text.replaceAll_lead (List.cons_ne_nil _ _) _
      rw [ih] at hlead
      exact hlead
    · have hrest : tildesEscaped (c :: cs) = c :: tildesEscaped cs := by simp [tildesEscaped, htilde]
      rw [hrest, Text.replaceAll_cons_ne htilde, ih]

theorem unescapeChars_escapeChars (cs : List Char) : unescapeChars (escapeChars cs) = cs := by
  rw [unescapeChars, replaceAll_slashes, replaceAll_tildes]

theorem unescapeChars_of_not_mem (h : '~' ∉ cs) : unescapeChars cs = cs := by
  have same (more : List Char) (replacement : List Char) :
      Text.replaceAll ('~' :: more) replacement cs = cs := by
    have hall : Text.replaceAll ('~' :: more) replacement (cs ++ []) =
        cs ++ Text.replaceAll ('~' :: more) replacement [] :=
      Text.replaceAll_append_of_not_mem h []
    rwa [Text.replaceAll_nil, List.append_nil] at hall
  rw [unescapeChars, same, same]

theorem unescapeChars_eq_self (hslash : '/' ∉ unescapeChars cs) (htilde : '~' ∉ unescapeChars cs) :
    unescapeChars cs = cs := by
  have hinner : '/' ∉ Text.replaceAll ['~', '1'] ['/'] cs := fun h =>
    hslash (Text.mem_replaceAll (List.cons_ne_nil _ _) (by decide) h)
  have hslashes : Text.replaceAll ['~', '1'] ['/'] cs = cs :=
    Text.replaceAll_eq_self (List.cons_ne_nil _ _) (List.mem_singleton.2 rfl) hinner
  rw [unescapeChars, hslashes] at htilde ⊢
  exact Text.replaceAll_eq_self (List.cons_ne_nil _ _) (List.mem_singleton.2 rfl) htilde

def Escaped (cs : List Char) : Prop :=
  ∀ lead rest, cs = lead ++ '~' :: rest → ∃ c ∈ rest.head?, c = '0' ∨ c = '1'

theorem escaped_nil : Escaped [] := by
  intro lead rest h
  cases lead <;> cases h

theorem escaped_cons :
    Escaped (c :: cs) ↔ (c = '~' → ∃ d ∈ cs.head?, d = '0' ∨ d = '1') ∧ Escaped cs := by
  constructor
  · intro h
    refine ⟨fun hc => h [] cs (by rw [hc]; rfl), fun lead rest hcs => ?_⟩
    exact h (c :: lead) rest (by rw [hcs]; rfl)
  · rintro ⟨hhere, hrest⟩ (_ | ⟨d, lead⟩) rest heq
    · obtain ⟨hc, rfl⟩ := List.cons.inj heq
      exact hhere hc
    · exact hrest lead rest (List.cons.inj heq).2

theorem escapesOk_iff : escapesOk cs = true ↔ Escaped cs := by
  fun_induction escapesOk cs with
  | case1 => simp [escaped_nil]
  | case2 cs ih => simp [ih, escaped_cons]
  | case3 cs ih => simp [ih, escaped_cons]
  | case4 c cs hzero hone ih =>
    rw [Bool.and_eq_true, ih, escaped_cons]
    refine and_congr_left fun _ => ?_
    by_cases hc : c = '~'
    · subst hc
      -- A digit behind the tilde is one of the cases before.
      have hdigit : ¬ ∃ d ∈ cs.head?, d = '0' ∨ d = '1' := by
        rintro ⟨d, hd, hdigits⟩
        obtain ⟨rest, rfl⟩ := List.head?_eq_some_iff.1 hd
        rcases hdigits with rfl | rfl
        · exact hzero rest rfl rfl
        · exact hone rest rfl rfl
      exact iff_of_false (by decide) fun h => hdigit (h rfl)
    · simp [hc]

theorem escapesOk_other (h : c ≠ '~') (cs : List Char) : escapesOk (c :: cs) = escapesOk cs := by
  rw [escapesOk]
  · simp [h]
  · exact fun rest hc => absurd hc h
  · exact fun rest hc => absurd hc h

theorem escapesOk_escapeChars (cs rest : List Char) :
    escapesOk (escapeChars cs ++ rest) = escapesOk rest := by
  induction cs with
  | nil => rfl
  | cons c cs ih =>
    by_cases htilde : c = '~'
    · subst htilde
      rw [escapeChars_tilde]
      exact ih
    · by_cases hslash : c = '/'
      · subst hslash
        rw [escapeChars_slash]
        exact ih
      · rw [escapeChars_other htilde hslash, List.cons_append, escapesOk_other htilde, ih]

def written (tokens : List (List Char)) : List Char :=
  tokens.flatMap fun token => '/' :: escapeChars token

theorem written_cons (token : List Char) (tokens : List (List Char)) :
    written (token :: tokens) = '/' :: (escapeChars token ++ written tokens) := rfl

theorem toList_ofTokens (tokens : List String) :
    (ofTokens tokens).text.toList = written (tokens.map String.toList) := by
  rw [ofTokens, String.toList_ofList, written, List.flatMap_map]

theorem escapesOk_written (tokens : List (List Char)) : escapesOk (written tokens) = true := by
  induction tokens with
  | nil => rfl
  | cons token tokens ih =>
    rw [written_cons, escapesOk_other (by decide), escapesOk_escapeChars, ih]

theorem splitAll_written (token : List Char) (tokens : List (List Char)) :
    Text.splitAll '/' (escapeChars token ++ written tokens) =
      (token :: tokens).map escapeChars := by
  induction tokens generalizing token with
  | nil =>
    rw [written, List.flatMap_nil, List.append_nil,
      Text.splitAll_of_not_mem (slash_not_mem_escapeChars token)]
    rfl
  | cons other tokens ih =>
    rw [written_cons, Text.splitAll_append (slash_not_mem_escapeChars token), ih]
    rfl

/-- Whatever has its escapes in order is written so, behind a first slash. -/
theorem exists_written (h : escapesOk cs = true) :
    ∃ token tokens, cs = escapeChars token ++ written tokens := by
  fun_induction escapesOk cs with
  | case1 => exact ⟨[], [], rfl⟩
  | case2 cs ih =>
    obtain ⟨token, tokens, rfl⟩ := ih h
    exact ⟨'~' :: token, tokens, by rw [escapeChars_tilde]; rfl⟩
  | case3 cs ih =>
    obtain ⟨token, tokens, rfl⟩ := ih h
    exact ⟨'/' :: token, tokens, by rw [escapeChars_slash]; rfl⟩
  | case4 c cs _ _ ih =>
    obtain ⟨htilde, hrest⟩ := Bool.and_eq_true_iff.1 h
    obtain ⟨token, tokens, rfl⟩ := ih hrest
    by_cases hslash : c = '/'
    · subst hslash
      exact ⟨[], token :: tokens, rfl⟩
    · exact ⟨c :: token, tokens, by
        rw [escapeChars_other (by simpa using htilde) hslash, List.cons_append]⟩

theorem tokens_ofTokens (tokens : List String) : (ofTokens tokens).tokens = tokens := by
  rw [Pointer.tokens, toList_ofTokens]
  cases tokens with
  | nil => rfl
  | cons token tokens =>
    rw [List.map_cons, written_cons]
    dsimp only
    rw [splitAll_written, List.map_map, ← List.map_cons, List.map_map]
    refine (List.map_congr_left fun token _ => ?_).trans (List.map_id _)
    simp [unescapeChars_escapeChars]

theorem parse_slash {text : String} (htext : text.toList = '/' :: cs) (h : escapesOk cs = true) :
    parse text = .ok ⟨text⟩ := by
  have hread : parseChars ('/' :: cs) =
      if escapesOk ('/' :: cs) then .ok ⟨String.ofList ('/' :: cs)⟩ else .error .badEscape := rfl
  rw [escapesOk_other (by decide), if_pos h, ← htext, String.ofList_toList] at hread
  rw [parse, htext]
  rw [htext] at hread
  exact hread

theorem parse_ofTokens (tokens : List String) :
    parse (ofTokens tokens).text = .ok (ofTokens tokens) := by
  cases tokens with
  | nil => rfl
  | cons token tokens =>
    have hescapes : escapesOk
        (escapeChars token.toList ++ written (tokens.map String.toList)) = true := by
      rw [escapesOk_escapeChars, escapesOk_written]
    exact parse_slash (toList_ofTokens (token :: tokens)) hescapes

theorem exists_ofTokens {text : String} {pointer : Pointer} (h : parse text = .ok pointer) :
    ∃ tokens, pointer = ofTokens tokens := by
  have hread {cs : List Char} (h : parseChars cs = .ok pointer) : ∃ tokens, pointer = ofTokens tokens := by
    unfold parseChars at h
    split at h
    · exact ⟨[], (Except.ok.inj h).symm⟩
    · rename_i rest
      split at h
      · rename_i hescapes
        rw [escapesOk_other (by decide)] at hescapes
        obtain ⟨token, tokens, rfl⟩ := exists_written hescapes
        refine ⟨(token :: tokens).map String.ofList, ?_⟩
        rw [← Except.ok.inj h, ofTokens, List.flatMap_map]
        simp [written]
      · cases h
    · cases h
  unfold parse at h
  split at h
  · exact hread h
  · exact hread h

theorem toList_of_parseChars {pointer : Pointer} (h : parseChars cs = .ok pointer) :
    pointer.text.toList = cs := by
  unfold parseChars at h
  split at h
  · rw [← Except.ok.inj h]
    rfl
  · split at h
    · rw [← Except.ok.inj h, String.toList_ofList]
    · cases h
  · cases h

theorem head?_ofTokens (tokens : List String) :
    ∀ c ∈ (ofTokens tokens).text.toList.head?, c = '/' := by
  rw [toList_ofTokens]
  cases tokens with
  | nil => simp [written]
  | cons token tokens => simp [written_cons]

theorem parse_mark {text : String} (htext : text.toList.head? ≠ some '#') :
    parse ("#" ++ text) = parse text := by
  have hmarked : ("#" ++ text).toList = '#' :: text.toList := by rw [String.toList_append]; rfl
  have hread : parse ("#" ++ text) = parseChars text.toList := by rw [parse, hmarked]; rfl
  rw [hread, parse]
  split
  · rename_i rest heq
    rw [heq] at htext
    exact absurd rfl htext
  · rfl

theorem parse_eq_ok_iff {text : String} {pointer : Pointer} :
    parse text = .ok pointer ↔
      parse pointer.text = .ok pointer ∧ (text = pointer.text ∨ text = "#" ++ pointer.text) := by
  constructor
  · intro h
    obtain ⟨tokens, rfl⟩ := exists_ofTokens h
    refine ⟨parse_ofTokens tokens, ?_⟩
    unfold parse at h
    split at h
    · rename_i rest htext
      right
      rw [← String.toList_inj, htext, String.toList_append, toList_of_parseChars h]
      rfl
    · left
      rw [← String.toList_inj, toList_of_parseChars h]
  · rintro ⟨h, rfl | rfl⟩
    · exact h
    · obtain ⟨tokens, rfl⟩ := exists_ofTokens h
      have hhead : (ofTokens tokens).text.toList.head? ≠ some '#' := fun hmark =>
        absurd (head?_ofTokens tokens '#' hmark) (by decide)
      rw [parse_mark hhead, h]

/--
Every list of tokens makes a pointer that is read back as itself and as these tokens, and every
pointer that is read is the one that its tokens make.
-/
theorem tokens_round_trip :
    (∀ tokens, parse (ofTokens tokens).text = .ok (ofTokens tokens) ∧
      (ofTokens tokens).tokens = tokens) ∧
    ∀ text pointer, parse text = .ok pointer → ofTokens pointer.tokens = pointer := by
  refine ⟨fun tokens => ⟨parse_ofTokens tokens, tokens_ofTokens tokens⟩, fun text pointer h => ?_⟩
  obtain ⟨tokens, rfl⟩ := exists_ofTokens h
  rw [tokens_ofTokens]

theorem tokens_round_trip_fragment :
    ∃ pointer, parse "#/paths/~1pet~01/-" = .ok pointer ∧ pointer.tokens = ["paths", "/pet~1", "-"] ∧
      ofTokens pointer.tokens = pointer := by
  have hread : parse "#/paths/~1pet~01/-" = .ok ⟨"/paths/~1pet~01/-"⟩ := by decide
  exact ⟨_, hread, by decide, tokens_round_trip.2 _ _ hread⟩

end Arazzo.Pointer
