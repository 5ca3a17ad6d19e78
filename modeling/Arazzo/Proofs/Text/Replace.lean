import Arazzo.Proofs.Text

/-! Replacing every occurrence of a needle: one law for each way in which a text can begin. -/

namespace Arazzo.Text

variable {needle replacement cs rest : List Char} {c : Char}

/-- What is left after an occurrence is shorter, so any fuel for the whole text suffices. -/
theorem replaceAll_go_eq (hneedle : needle ≠ []) {fuel more : Nat} (h : cs.length ≤ fuel)
    (h' : cs.length ≤ more) :
    replaceAll.go needle replacement fuel cs = replaceAll.go needle replacement more cs := by
  induction fuel generalizing cs more with
  | zero =>
    obtain rfl : cs = [] := List.length_eq_zero_iff.1 (Nat.le_zero.1 h)
    cases more <;> rfl
  | succ fuel ih =>
    cases cs with
    | nil => cases more <;> rfl
    | cons c cs =>
      cases more with
      | zero => cases h'
      | succ more =>
        have hrest : cs.length ≤ fuel := Nat.le_of_succ_le_succ h
        have hrest' : cs.length ≤ more := Nat.le_of_succ_le_succ h'
        rw [replaceAll.go, replaceAll.go]
        split
        · rename_i after hafter
          have hlength := congrArg List.length (afterLead?_eq_some_iff.1 hafter)
          have hpos : 0 < needle.length := List.length_pos_iff.2 hneedle
          rw [List.length_append, List.length_cons] at hlength
          have hafter : after.length ≤ cs.length := by omega
          rw [ih (hafter.trans hrest) (hafter.trans hrest')]
        · rw [ih hrest hrest']

@[simp] theorem replaceAll_nil (needle replacement : List Char) :
    replaceAll needle replacement [] = [] := by
  rw [replaceAll]
  split <;> rfl

theorem replaceAll_lead (hneedle : needle ≠ []) (rest : List Char) :
    replaceAll needle replacement (needle ++ rest) =
      replacement ++ replaceAll needle replacement rest := by
  have hempty : ¬ needle.isEmpty = true := by simpa using hneedle
  obtain ⟨c, cs, hcs⟩ := List.exists_cons_of_ne_nil (List.append_ne_nil_of_left_ne_nil hneedle rest)
  rw [replaceAll, replaceAll, if_neg hempty, if_neg hempty, hcs, List.length_cons, replaceAll.go,
    ← hcs, afterLead?_eq_some_iff.2 rfl]
  have hlength := congrArg List.length hcs
  have hpos : 0 < needle.length := List.length_pos_iff.2 hneedle
  rw [List.length_append, List.length_cons] at hlength
  exact congrArg (replacement ++ ·) (replaceAll_go_eq hneedle (by omega) (Nat.le_refl _))

theorem replaceAll_cons (h : ¬ needle <+: c :: cs) :
    replaceAll needle replacement (c :: cs) = c :: replaceAll needle replacement cs := by
  have hneedle : needle ≠ [] := fun hnil => h (hnil ▸ List.nil_prefix)
  have hempty : ¬ needle.isEmpty = true := by simpa using hneedle
  have hnone : afterLead? needle (c :: cs) = none := by
    refine Option.eq_none_iff_forall_ne_some.2 fun after hafter => h ?_
    exact ⟨after, (afterLead?_eq_some_iff.1 hafter).symm⟩
  rw [replaceAll, replaceAll, if_neg hempty, if_neg hempty, List.length_cons, replaceAll.go, hnone]

theorem replaceAll_cons_ne {first : Char} {others : List Char} (h : c ≠ first) :
    replaceAll (first :: others) replacement (c :: cs) =
      c :: replaceAll (first :: others) replacement cs :=
  replaceAll_cons fun hlead => h (List.cons_prefix_cons.1 hlead).1.symm

theorem replaceAll_append_of_not_mem {first : Char} {others before : List Char}
    (h : first ∉ before) (cs : List Char) :
    replaceAll (first :: others) replacement (before ++ cs) =
      before ++ replaceAll (first :: others) replacement cs := by
  induction before with
  | nil => rfl
  | cons b before ih =>
    rw [List.mem_cons, not_or] at h
    rw [List.cons_append, replaceAll_cons_ne (Ne.symm h.1), ih h.2]
    rfl

/-- How a text begins, by what its replacement begins with. -/
theorem replaceAll_cases (hneedle : needle ≠ []) (cs : List Char) :
    cs = [] ∨
      (∃ rest, cs = needle ++ rest ∧
        replaceAll needle replacement cs = replacement ++ replaceAll needle replacement rest) ∨
      ∃ c rest, cs = c :: rest ∧
        replaceAll needle replacement cs = c :: replaceAll needle replacement rest := by
  cases cs with
  | nil => exact .inl rfl
  | cons c cs =>
    by_cases hlead : needle <+: c :: cs
    · obtain ⟨rest, hrest⟩ := hlead
      exact .inr (.inl ⟨rest, hrest.symm, hrest ▸ replaceAll_lead hneedle rest⟩)
    · exact .inr (.inr ⟨c, cs, rfl, replaceAll_cons hlead⟩)

theorem mem_replaceAll (hneedle : needle ≠ []) (hc : c ∉ needle) (h : c ∈ cs) :
    c ∈ replaceAll needle replacement cs := by
  induction hn : cs.length using Nat.strong_induction_on generalizing cs with
  | _ n ih =>
    have shorter {rest : List Char} (hlength : rest.length < cs.length) (hrest : c ∈ rest) :
        c ∈ replaceAll needle replacement rest := ih _ (hn ▸ hlength) hrest rfl
    rcases @replaceAll_cases needle replacement hneedle cs with
      rfl | ⟨rest, rfl, hall⟩ | ⟨d, rest, rfl, hall⟩
    · exact absurd h List.not_mem_nil
    · have hpos : 0 < needle.length := List.length_pos_iff.2 hneedle
      rw [hall]
      refine List.mem_append_right _ (shorter ?_ ((List.mem_append.1 h).resolve_left hc))
      rw [List.length_append]
      omega
    · rw [hall]
      rcases List.mem_cons.1 h with rfl | hrest
      · exact List.mem_cons_self ..
      · exact List.mem_cons_of_mem _ (shorter (Nat.lt_succ_self _) hrest)

theorem replaceAll_eq_self (hneedle : needle ≠ []) (hc : c ∈ replacement)
    (h : c ∉ replaceAll needle replacement cs) : replaceAll needle replacement cs = cs := by
  induction cs with
  | nil => exact replaceAll_nil ..
  | cons d cs ih =>
    rcases @replaceAll_cases needle replacement hneedle (d :: cs) with
      hnil | ⟨rest, -, hall⟩ | ⟨e, rest, hsame, hall⟩
    · cases hnil
    · rw [hall] at h
      exact absurd (List.mem_append_left _ hc) h
    · obtain ⟨rfl, rfl⟩ := List.cons.inj hsame
      rw [hall] at h ⊢
      rw [ih fun hrest => h (List.mem_cons_of_mem _ hrest)]

end Arazzo.Text
