import Arazzo.Regex.Reader
import Mathlib.Data.List.Infix

/-! How reading goes on when more text stands behind a pattern: the same way, unless a comment at the end
takes the text in, or the pattern ends before an item does. -/

namespace Arazzo.Regex

open Text

/-- What may be written behind a pattern: nothing, or what closes a group around it. -/
inductive Tail : List Char → Prop
  | nothing : Tail []
  | closing : Tail [')']
  | ending : Tail [')', '$']

namespace Tail

variable {t : List Char}

theorem eq_nil_or_cons (ht : Tail t) : t = [] ∨ ∃ u, t = ')' :: u := by
  cases ht with
  | nothing => exact .inl rfl
  | closing => exact .inr ⟨_, rfl⟩
  | ending => exact .inr ⟨_, rfl⟩

theorem dropWhile {p : Char → Bool} (ht : Tail t) (hp : p ')' = false) : t.dropWhile p = t := by
  cases ht with
  | nothing => rfl
  | closing => exact List.dropWhile_cons_of_neg (by simp [hp])
  | ending => exact List.dropWhile_cons_of_neg (by simp [hp])

theorem withoutSpace (ht : Tail t) (fuel : Nat) : Pattern.withoutSpace fuel t = t := by
  cases fuel with
  | zero => rfl
  | succ fuel => cases ht <;> rfl

end Tail

def PatternState.append (s : PatternState) (t : List Char) : PatternState := { s with rest := s.rest ++ t }

namespace Pattern

variable {α β : Type} {s s' : PatternState} {t cs : List Char} {c : Char} {a : α}
variable {m m' : Pattern α} {f f' : α → Pattern β}

theorem length_le_append (s : PatternState) (t : List Char) :
    s.rest.length ≤ (s.append t).rest.length := by
  rw [PatternState.append, List.length_append]
  exact Nat.le_add_right ..

theorem append_nil (s : PatternState) : s.append [] = s := by
  rw [PatternState.append, List.append_nil]

theorem run_bind_some (h : m.run s = some (a, s')) : (m >>= f).run s = (f a).run s' := by
  change (m.run s).bind (fun p => (f p.1).run p.2) = _
  rw [h]
  rfl

theorem run_bind_none (h : m.run s = none) : (m >>= f).run s = none := by
  change (m.run s).bind (fun p => (f p.1).run p.2) = _
  rw [h]
  rfl

theorem run_bind_eq_some {b : β} (h : (m >>= f).run s = some (b, s')) :
    ∃ a s₁, m.run s = some (a, s₁) ∧ (f a).run s₁ = some (b, s') := by
  change (m.run s).bind (fun p => (f p.1).run p.2) = _ at h
  obtain ⟨⟨a, s₁⟩, hm, hf⟩ := Option.bind_eq_some_iff.mp h
  exact ⟨a, s₁, hm, hf⟩

theorem run_get (s : PatternState) : (get : Pattern PatternState).run s = some (s, s) := rfl

theorem run_peek (h : s.rest = c :: cs) : peek.run s = some (c, s) := by
  unfold peek
  rw [run_bind_some (run_get s), h]
  rfl

theorem run_peek_nil (h : s.rest = []) : peek.run s = none := by
  unfold peek
  rw [run_bind_some (run_get s), h]
  rfl

def Fails (m : Pattern α) : Prop := ∀ s, m.run s = none

theorem fails_failure : Fails (failure : Pattern α) := fun _ => rfl

theorem Fails.ne (h : Fails m) : m.run s ≠ some (a, s') := by
  rw [h s]
  exact Option.some_ne_none _ |>.symm

theorem Fails.after (h : ∀ a, Fails (f a)) : Fails (m >>= f) := by
  intro s
  cases hm : m.run s with
  | none => exact run_bind_none hm
  | some p =>
    obtain ⟨a, s'⟩ := p
    rw [run_bind_some hm]
    exact h a s'

theorem Fails.ite {p : Prop} [Decidable p] (h : Fails m) (h' : Fails m') : Fails (if p then m else m') := by
  split
  · exact h
  · exact h'

/-- Reading leaves an end of the text, shorter by `k` characters at least. -/
def Takes (k : Nat) (m : Pattern α) (s : PatternState) : Prop :=
  ∀ a s', m.run s = some (a, s') → s'.rest <:+ s.rest ∧ s'.rest.length + k ≤ s.rest.length

/-- Two readings of one text, the second with a tail behind it. They come to the same, and the tail is left;
or a comment has taken the tail in; or the first has missed something, and the second stands in the tail, `j`
characters behind its start at least, unless it is odd. -/
def Agrees (j : Nat) (odd : α → PatternState → Prop) (t : List Char) :
    Option (α × PatternState) → Option (α × PatternState) → Prop
  | some (a, s), y => y = some (a, s.append t) ∨ s.rest = [] ∧ y = some (a, s)
  | none, y => ∀ a s, y = some (a, s) →
    t ≠ [] ∧ (s.rest <:+ t ∧ s.rest.length + j ≤ t.length ∨ odd a s)

def never : α → PatternState → Prop := fun _ _ => False

namespace Agrees

variable {x y : Option (α × PatternState)} {j j' : Nat} {odd : α → PatternState → Prop}

theorem mono (h : Agrees j odd t x y) (hj : j' ≤ j) : Agrees j' odd t x y := by
  cases x with
  | some p => exact h
  | none =>
    intro a s hy
    obtain ⟨hne, ⟨hsuffix, hless⟩ | hodd⟩ := h a s hy
    · exact ⟨hne, .inl ⟨hsuffix, (Nat.add_le_add_left hj _).trans hless⟩⟩
    · exact ⟨hne, .inr hodd⟩

theorem even (h : Agrees j never t x y) : Agrees j odd t x y := by
  cases x with
  | some p => exact h
  | none =>
    intro a s hy
    exact ⟨(h a s hy).1, .inl ((h a s hy).2.resolve_right id)⟩

end Agrees

def Starts (head : Option Char) (cs : List Char) : Prop := ∀ c ∈ head, ∃ rest, cs = c :: rest

/-- The second program takes `k` characters from any text that begins as it should, and agrees with the first
on those of less than `n` characters. -/
structure Reads (head : Option Char) (n j k : Nat) (odd : α → PatternState → Prop)
    (m m' : Pattern α) : Prop where
  takes : ∀ s, Starts head s.rest → Takes k m' s
  agrees : ∀ s, Starts head s.rest → s.rest.length < n → ∀ t, Tail t →
    Agrees j odd t (m.run s) (m'.run (s.append t))

variable {head : Option Char} {n n' i j j' k k' : Nat} {odd : α → PatternState → Prop}
variable {odd' : β → PatternState → Prop}

theorem starts_none (cs : List Char) : Starts none cs := fun _ h => absurd h (Option.not_mem_none _)

theorem starts_cons (c : Char) (cs : List Char) : Starts (some c) (c :: cs) := by
  rintro _ ⟨⟩
  exact ⟨cs, rfl⟩

theorem Takes.mono (h : Takes k m s) (hk : k' ≤ k) : Takes k' m s := fun a s' hrun =>
  ⟨(h a s' hrun).1, (Nat.add_le_add_left hk _).trans (h a s' hrun).2⟩

theorem Takes.bind (h : Takes k m s) (hf : ∀ a s', m.run s = some (a, s') → Takes k' (f a) s') :
    Takes (k + k') (m >>= f) s := by
  intro b s'' hrun
  obtain ⟨a, s', hm, hrun⟩ := run_bind_eq_some hrun
  obtain ⟨hsuffix, hlength⟩ := h a s' hm
  obtain ⟨hsuffix', hlength'⟩ := hf a s' hm b s'' hrun
  exact ⟨hsuffix'.trans hsuffix, by omega⟩

theorem takes_pure : Takes 0 (pure a : Pattern α) s := by
  rintro _ _ ⟨⟩
  exact ⟨List.suffix_refl _, Nat.le_refl _⟩

namespace Reads

theorem mono (h : Reads head n j k odd m m') (hn : n' ≤ n) (hj : j' ≤ j) (hk : k' ≤ k) :
    Reads head n' j' k' odd m m' where
  takes s hs := (h.takes s hs).mono hk
  agrees s hs hlength t ht := (h.agrees s hs (hlength.trans_le hn) t ht).mono hj

theorem run_eq (h : Reads head n j k odd m m') (hs : Starts head s.rest) (hlength : s.rest.length < n) :
    m'.run s = m.run s := by
  have hsame := h.agrees s hs hlength [] .nothing
  rw [append_nil] at hsame
  cases hx : m.run s with
  | none =>
    rw [hx] at hsame
    refine Option.eq_none_iff_forall_ne_some.mpr fun p hp => ?_
    exact absurd rfl (hsame p.1 p.2 hp).1
  | some p =>
    rw [hx] at hsame
    rcases hsame with hlive | ⟨-, hdead⟩
    · rwa [append_nil] at hlive
    · exact hdead

theorem loose (h : Reads head n j k odd m m') : Reads head n j 0 odd m m' :=
  h.mono (Nat.le_refl n) (Nat.le_refl j) (Nat.zero_le k)

theorem anyHead (h : Reads none n j k odd m m') : Reads head n j k odd m m' where
  takes s _ := h.takes s (starts_none _)
  agrees s _ := h.agrees s (starts_none _)

theorem even (h : Reads head n j k never m m') : Reads head n j k odd m m' where
  takes := h.takes
  agrees s hs hlength t ht := (h.agrees s hs hlength t ht).even

theorem congr {m'' : Pattern α} (h : Reads head n j k odd m m')
    (hsame : ∀ s, Starts head s.rest → s.rest.length < n → m''.run s = m.run s) :
    Reads head n j k odd m'' m' where
  takes := h.takes
  agrees s hs hlength t ht := by
    rw [hsame s hs hlength]
    exact h.agrees s hs hlength t ht

theorem pure : Reads head n j 0 odd (Pure.pure a : Pattern α) (Pure.pure a) where
  takes _ _ := takes_pure
  agrees _ _ _ _ _ := .inl rfl

theorem failure : Reads head n j k odd (Alternative.failure : Pattern α) Alternative.failure where
  takes s _ := by rintro _ _ ⟨⟩
  agrees _ _ _ _ _ := by rintro _ _ ⟨⟩

theorem stopped : Reads head n j k odd' (Alternative.failure >>= f) (Alternative.failure >>= f') where
  takes s _ := by rintro _ _ ⟨⟩
  agrees _ _ _ _ _ := by rintro _ _ ⟨⟩

/-- What the first work misses has to be missed still when the second work is done, and what is odd after the
first has to be odd after both. -/
theorem bindOdd (hm : Reads head n j k odd m m') (hf : ∀ a, Reads none (n - k) j' k' odd' (f a) (f' a))
    (hi : i ≤ j + k') (hi' : i ≤ j')
    (hodd : ∀ a s b s', odd a s → (f' a).run s = some (b, s') → odd' b s') :
    Reads head n i (k + k') odd' (m >>= f) (m' >>= f') where
  takes s hs := (hm.takes s hs).bind fun a s' _ => (hf a).takes s' (starts_none _)
  agrees s hs hlength t ht := by
    have hagrees := hm.agrees s hs hlength t ht
    cases hx : m.run s with
    | none =>
      rw [hx] at hagrees
      rw [run_bind_none hx]
      intro b s'' hrun
      obtain ⟨a, s', hy, hrun⟩ := run_bind_eq_some hrun
      obtain ⟨hne, ⟨hsuffix, hless⟩ | hstrange⟩ := hagrees a s' hy
      · obtain ⟨hsuffix', hless'⟩ := (hf a).takes s' (starts_none _) b s'' hrun
        exact ⟨hne, .inl ⟨hsuffix'.trans hsuffix, by omega⟩⟩
      · exact ⟨hne, .inr (hodd a s' b s'' hstrange hrun)⟩
    | some p =>
      obtain ⟨a, s'⟩ := p
      have hless := (hm.takes s hs a s' ((hm.run_eq hs hlength).trans hx)).2
      have hshort : s'.rest.length < n - k := by omega
      have hsame := (hf a).run_eq (starts_none _) hshort
      rw [hx] at hagrees
      rw [run_bind_some hx]
      rcases hagrees with hlive | ⟨hempty, hdead⟩
      · rw [run_bind_some hlive]
        exact ((hf a).agrees s' (starts_none _) hshort t ht).mono hi'
      · -- The comment has taken the tail in, so that both go on from the end of the text.
        rw [run_bind_some hdead, hsame]
        cases hx' : (f a).run s' with
        | none => rintro _ _ ⟨⟩
        | some p =>
          have hrest := ((hf a).takes s' (starts_none _) p.1 p.2 (hsame.trans hx')).1
          rw [hempty] at hrest
          exact .inr ⟨List.suffix_nil.mp hrest, rfl⟩

theorem bind (hm : Reads head n j k never m m') (hf : ∀ a, Reads none (n - k) j' k' odd' (f a) (f' a))
    (hi : i ≤ j + k') (hi' : i ≤ j') : Reads head n i (k + k') odd' (m >>= f) (m' >>= f') :=
  bindOdd hm hf hi hi' fun _ _ _ _ h => h.elim

theorem andThen (hm : Reads head n j 0 never m m') (hf : ∀ a, Reads none n j k odd' (f a) (f' a)) :
    Reads head n j k odd' (m >>= f) (m' >>= f') := by
  have hboth := bind hm hf (Nat.le_add_right j k) (Nat.le_refl j)
  rwa [Nat.zero_add] at hboth

theorem firstOdd (hm : Reads head n j 1 odd m m') (hf : ∀ a, Reads none (n - 1) j 0 odd' (f a) (f' a))
    (hodd : ∀ a s b s', odd a s → (f' a).run s = some (b, s') → odd' b s') :
    Reads head n j 1 odd' (m >>= f) (m' >>= f') :=
  bindOdd hm hf (Nat.le_refl j) (Nat.le_refl j) hodd

theorem first (hm : Reads head n j 1 never m m') (hf : ∀ a, Reads none (n - 1) j 0 odd' (f a) (f' a)) :
    Reads head n j 1 odd' (m >>= f) (m' >>= f') :=
  firstOdd hm hf fun _ _ _ _ h => h.elim

theorem weak (hm : Reads head n 0 0 never m m') (hf : ∀ a, Reads none n 1 1 odd' (f a) (f' a)) :
    Reads head n 1 1 odd' (m >>= f) (m' >>= f') :=
  bind hm hf (Nat.le_refl 1) (Nat.le_refl 1)

theorem ite {p : Prop} [Decidable p] {a a' b b' : Pattern α} (ha : p → Reads head n j k odd a a')
    (hb : ¬ p → Reads head n j k odd b b') :
    Reads head n j k odd (if p then a else b) (if p then a' else b') := by
  split
  · exact ha ‹_›
  · exact hb ‹_›

theorem peek {f f' : Char → Pattern β} (hjk : j ≤ k)
    (hf : ∀ c, Reads (some c) n j k odd' (f c) (f' c)) :
    Reads none n j k odd' (peek >>= f) (peek >>= f') where
  takes s _ := by
    intro b s' hrun
    cases hrest : s.rest with
    | nil =>
      rw [run_bind_none (run_peek_nil hrest)] at hrun
      cases hrun
    | cons c cs =>
      rw [run_bind_some (run_peek hrest)] at hrun
      rw [← hrest]
      exact (hf c).takes s (hrest ▸ starts_cons c cs) b s' hrun
  agrees s _ hlength t ht := by
    cases hrest : s.rest with
    | cons c cs =>
      have happend : (s.append t).rest = c :: (cs ++ t) := by
        rw [PatternState.append, hrest]
        rfl
      rw [run_bind_some (run_peek hrest), run_bind_some (run_peek happend)]
      exact (hf c).agrees s (hrest ▸ starts_cons c cs) hlength t ht
    | nil =>
      have happend : (s.append t).rest = t := by
        rw [PatternState.append, hrest]
        rfl
      rw [run_bind_none (run_peek_nil hrest)]
      intro b s' hrun
      rcases ht.eq_nil_or_cons with rfl | ⟨u, rfl⟩
      · rw [run_bind_none (run_peek_nil happend)] at hrun
        cases hrun
      · have hstarts : Starts (some ')') (s.append (')' :: u)).rest := by
          rw [happend]
          exact starts_cons _ u
        rw [run_bind_some (run_peek happend)] at hrun
        obtain ⟨hsuffix, hless⟩ := (hf _).takes _ hstarts b s' hrun
        rw [happend] at hsuffix hless
        exact ⟨List.cons_ne_nil _ _, .inl ⟨hsuffix, by omega⟩⟩

/-- A closing parenthesis that comes next is treated like the end of the text. -/
theorem peek? {f f' : Option Char → Pattern β}
    (hsome : ∀ c, Reads (some c) n j k odd' (f (some c)) (f' (some c)))
    (hnone : Reads none n j k odd' (f none) (f' none)) (hclosing : f' (some ')') = f' none) :
    Reads none n j k odd' (Pattern.peek? >>= f) (Pattern.peek? >>= f') where
  takes s _ := by
    change Takes k (f' s.rest.head?) s
    cases hrest : s.rest with
    | nil => exact hnone.takes s (starts_none _)
    | cons c cs => exact (hsome c).takes s (hrest ▸ starts_cons c cs)
  agrees s _ hlength t ht := by
    change Agrees j odd' t ((f s.rest.head?).run s) ((f' (s.rest ++ t).head?).run (s.append t))
    cases hrest : s.rest with
    | cons c cs => exact (hsome c).agrees s (hrest ▸ starts_cons c cs) hlength t ht
    | nil =>
      have hseen : f' t.head? = f' none := by
        rcases ht.eq_nil_or_cons with rfl | ⟨u, rfl⟩
        · rfl
        · exact hclosing
      rw [List.nil_append, hseen]
      exact hnone.agrees s (starts_none _) hlength t ht

theorem flags {f f' : Flags → Pattern β} (hf : ∀ flags, Reads head n j k odd' (f flags) (f' flags)) :
    Reads head n j k odd' (Pattern.flags >>= f) (Pattern.flags >>= f') where
  takes s := (hf s.flags).takes s
  agrees s := (hf s.flags).agrees s

theorem setFlags {odd : Unit → PatternState → Prop} (flags : Flags) :
    Reads head n j 0 odd (setFlags flags) (setFlags flags) where
  takes s _ := by
    rintro _ _ ⟨⟩
    exact ⟨List.suffix_refl _, Nat.le_refl _⟩
  agrees _ _ _ _ _ := .inl rfl

theorem bump {odd : Unit → PatternState → Prop} (c : Char) :
    Reads (some c) n j 1 odd bump bump where
  takes s hs := by
    obtain ⟨cs, hrest⟩ := hs c rfl
    rintro _ _ ⟨⟩
    change s.rest.drop 1 <:+ s.rest ∧ (s.rest.drop 1).length + 1 ≤ s.rest.length
    rw [hrest]
    exact ⟨List.suffix_cons c cs, Nat.le_refl _⟩
  agrees s hs _ t _ := by
    obtain ⟨cs, hrest⟩ := hs c rfl
    refine .inl ?_
    change some ((), { s with rest := (s.rest ++ t).drop 1 }) =
      some ((), { s with rest := s.rest.drop 1 ++ t })
    rw [hrest]
    rfl

end Reads

end Pattern
end Arazzo.Regex
