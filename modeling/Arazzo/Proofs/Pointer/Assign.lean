import Arazzo.Pointer
import Arazzo.Proofs.Json.Sound

/-! Writing where a pointer leads: it changes nothing, or what stands there and nothing beside it. -/

namespace Arazzo
namespace Json

inductive Key where
  | member (name : String)
  | item (index : Nat)
deriving DecidableEq, Repr

def under? : Key → Json → Option Json
  | .member name, .obj members => Table.get? name members
  | .item index, .arr items => items[index]?
  | _, _ => none

def at? : List Key → Json → Option Json
  | [], value => some value
  | key :: rest, value => (under? key value).bind (at? rest)

theorem at?_cons (key : Key) (rest : List Key) (value : Json) :
    at? (key :: rest) value = (under? key value).bind (at? rest) := rfl

/-- The container holds the same but under the key, in the same order; an array may have become
longer by one item at its end. -/
inductive KeepsOthers : Key → Json → Json → Prop
  | object {name : String} {before after : Table Json}
      (others : after.filter (fun entry => entry.1 != name) =
        before.filter fun entry => entry.1 != name) :
      KeepsOthers (.member name) (.obj before) (.obj after)
  | item {i : Nat} {items : List Json} (present : i < items.length) (child : Json) :
      KeepsOthers (.item i) (.arr items) (.arr (items.set i child))
  | atEnd (items : List Json) (child : Json) :
      KeepsOthers (.item items.length) (.arr items) (.arr (items ++ [child]))

/-- The container with `child` under the key. -/
inductive Puts (child : Json) : Key → Json → Json → Prop
  | member (name : String) (members : Table Json) :
      Puts child (.member name) (.obj members) (.obj (Table.insert name child members))
  | item {i : Nat} {items : List Json} (present : i < items.length) :
      Puts child (.item i) (.arr items) (.arr (items.set i child))
  | atEnd (items : List Json) :
      Puts child (.item items.length) (.arr items) (.arr (items ++ [child]))

variable {child before after : Json} {key other : Key}

theorem Puts.keepsOthers (h : Puts child key before after) : KeepsOthers key before after := by
  cases h with
  | member name members => exact .object (Table.filter_insert name child members)
  | item present => exact .item present child
  | atEnd items => exact .atEnd items child

theorem Puts.under?_same (h : Puts child key before after) : under? key after = some child := by
  cases h with
  | member name members => rw [under?, Table.get?_insert, if_pos rfl]
  | item present => rw [under?, List.getElem?_set_self present]
  | atEnd items => rw [under?, List.getElem?_concat_length]

theorem Puts.under?_other (h : Puts child key before after) (hother : other ≠ key) :
    under? other after = under? other before := by
  cases h with
  | member name members =>
    cases other with
    | member name' =>
      have hname : name ≠ name' := fun heq => hother (by rw [heq])
      rw [under?, Table.get?_insert, if_neg hname, under?]
    | item => rfl
  | item present =>
    cases other with
    | member => rfl
    | item j =>
      rw [under?, List.getElem?_set_ne fun heq => hother (by rw [heq]), under?]
  | atEnd items =>
    cases other with
    | member => rfl
    | item j =>
      have hindex : j ≠ items.length := fun heq => hother (by rw [heq])
      rw [under?, under?]
      by_cases hj : j < items.length
      · rw [List.getElem?_append_left hj]
      · rw [List.getElem?_eq_none (by simp; omega), List.getElem?_eq_none (by omega)]

theorem Sound.under? (h : before.Sound) (hchild : under? key before = some child) : child.Sound := by
  cases key <;> cases before <;> try cases hchild
  · exact h.get? hchild
  · exact h.items _ (List.mem_of_getElem? hchild)

theorem Puts.eq_of_present (h : Puts child key before after) (hsound : before.Sound)
    (hpresent : under? key before = some child) : after = before := by
  cases h with
  | member name members =>
    obtain ⟨first, last, hmembers, hinsert⟩ := hsound.ascending.insert_present hpresent
    rw [hinsert, ← hmembers]
  | item present =>
    obtain ⟨_, rfl⟩ := List.getElem?_eq_some_iff.1 hpresent
    rw [List.set_getElem_self]
  | atEnd items =>
    rw [under?, List.getElem?_eq_none (Nat.le_refl _)] at hpresent
    cases hpresent

end Json

namespace Pointer

open Json

variable {token : String} {tokens rest : List String} {new value held : Json}

def slotOf : List String → Json → List Key
  | [], _ => []
  | token :: rest, value =>
    match openedFor (token :: rest) value with
    | .obj members =>
      .member token :: slotOf rest ((Table.get? token members).getD (freshFor rest))
    | .arr items =>
      if token = "-" then .item items.length :: slotOf rest (freshFor rest)
      else
        match writeIndex? token items.length with
        | none => []
        | some i => .item i :: slotOf rest (items[i]?.getD .null)
    | _ => []

/-- What the first token comes to. -/
inductive Turn (new : Json) (token : String) (rest : List String) (value : Json) : Prop
  | blocked (error : PointerError)
      (h : assignTokens new (token :: rest) value = (.error error, value))
  | onward (key : Key) (held : Json)
      (hheld : held = (under? key (openedFor (token :: rest) value)).getD (freshFor rest))
      (hslot : slotOf (token :: rest) value = key :: slotOf rest held)
      (houtcome : (assignTokens new (token :: rest) value).1 = (assignTokens new rest held).1)
      (hputs : Puts (assignTokens new rest held).2 key (openedFor (token :: rest) value)
        (assignTokens new (token :: rest) value).2)

theorem lt_of_writeIndex? {length i : Nat} (h : writeIndex? token length = some i) : i < length := by
  obtain ⟨j, -, hj⟩ := Option.bind_eq_some_iff.1 h
  split at hj
  · exact Option.some.inj hj ▸ ‹_›
  · cases hj

theorem openedFor_cases (tokens : List String) (value : Json) :
    openedFor tokens value = value ∨
      value = .null ∧ (openedFor tokens value = .obj [] ∨
        openedFor tokens value = .arr [] ∧ tokens.head? = some "-") := by
  cases value with
  | null =>
    refine .inr ⟨rfl, ?_⟩
    rw [openedFor]
    split
    · unfold freshFor
      split
      · exact .inr ⟨rfl, rfl⟩
      · exact .inl rfl
    · exact .inl rfl
  | _ => exact .inl rfl

theorem Turn.of_put {opened : Json} {put : Json → Json} (key : Key)
    (hopened : openedFor (token :: rest) value = opened)
    (hheld : held = (under? key opened).getD (freshFor rest))
    (hslot : slotOf (token :: rest) value = key :: slotOf rest held)
    (hassign : assignTokens new (token :: rest) value = (assignTokens new rest held).map id put)
    (hputs : ∀ child, Puts child key opened (put child)) : Turn new token rest value := by
  subst hopened
  refine .onward key held hheld hslot ?_ ?_
  · rw [hassign]
    rfl
  · rw [hassign]
    exact hputs _

theorem turn (new : Json) (token : String) (rest : List String) (value : Json) :
    Turn new token rest value := by
  have hcases := openedFor_cases (token :: rest) value
  cases hopened : openedFor (token :: rest) value with
  | obj members =>
    refine .of_put (.member token) hopened rfl ?_ ?_ fun child => .member token members
    · rw [slotOf, hopened]
      rfl
    · rw [assignTokens, hopened]
      rfl
  | arr items =>
    by_cases htoken : token = "-"
    · have hheld : freshFor rest =
          (under? (.item items.length) (.arr items)).getD (freshFor rest) := by
        rw [under?, List.getElem?_eq_none (Nat.le_refl _), Option.getD_none]
      refine .of_put (.item items.length) hopened hheld ?_ ?_ fun child => .atEnd items
      · rw [slotOf, hopened]
        exact if_pos htoken
      · rw [assignTokens, hopened]
        exact if_pos htoken
    · cases hindex : writeIndex? token items.length with
      | none =>
        -- The array was there before: a null is opened as an array for `-` alone.
        have hvalue : value = .arr items := by
          rcases hcases with hsame | ⟨-, hnew | ⟨-, hdash⟩⟩
          · rw [← hsame, hopened]
          · rw [hopened] at hnew
            cases hnew
          · exact absurd (Option.some.inj hdash) htoken
        refine .blocked (.badIndex token) ?_
        rw [assignTokens, hopened]
        dsimp only
        rw [if_neg htoken, hindex, hvalue]
      | some i =>
        have hpresent : i < items.length := lt_of_writeIndex? hindex
        have hheld : items[i]?.getD .null = (under? (.item i) (.arr items)).getD (freshFor rest) := by
          rw [under?, List.getElem?_eq_getElem hpresent, Option.getD_some, Option.getD_some]
        refine .of_put (.item i) hopened hheld ?_ ?_ fun child => .item hpresent
        · rw [slotOf, hopened]
          dsimp only
          rw [if_neg htoken, hindex]
        · rw [assignTokens, hopened]
          dsimp only
          rw [if_neg htoken, hindex]
  | _ =>
    have hvalue : openedFor (token :: rest) value = value := by
      rcases hcases with hsame | ⟨-, hnew | ⟨hnew, -⟩⟩
      · exact hsame
      all_goals
        rw [hopened] at hnew
        cases hnew
    refine .blocked (.notAContainer token) ?_
    rw [assignTokens, hopened, ← hvalue, hopened]

theorem assignTokens_fresh (new : Json) (tokens : List String) :
    (assignTokens new tokens (freshFor tokens)).1 = .ok () := by
  induction tokens with
  | nil => rfl
  | cons token rest ih =>
    by_cases htoken : token = "-"
    · subst htoken
      exact ih
    · have hfresh : freshFor (token :: rest) = .obj [] := by
        unfold freshFor
        split
        · rename_i htokens
          exact absurd (List.cons.inj htokens).1 htoken
        · rfl
      rw [hfresh]
      exact ih

theorem under?_freshFor (key : Key) (tokens : List String) : under? key (freshFor tokens) = none := by
  unfold freshFor
  cases key <;> split <;> rfl

theorem under?_openedFor (key : Key) (tokens : List String) (value : Json) :
    under? key (openedFor tokens value) = under? key value := by
  rcases openedFor_cases tokens value with hsame | ⟨rfl, hnew | ⟨hnew, -⟩⟩
  · rw [hsame]
  all_goals
    rw [hnew]
    cases key <;> rfl

/-- A failure below a new container cannot be, so nothing was written when there is one. -/
theorem assignTokens_error (hsound : value.Sound) {error : PointerError}
    (h : (assignTokens new tokens value).1 = .error error) :
    (assignTokens new tokens value).2 = value := by
  induction tokens generalizing value with
  | nil => cases h
  | cons token rest ih =>
    cases turn new token rest value with
    | blocked error hblocked => rw [hblocked]
    | onward key held hheld hslot houtcome hputs =>
      rw [houtcome] at h
      cases hunder : under? key (openedFor (token :: rest) value) with
      | none =>
        rw [hunder, Option.getD_none] at hheld
        rw [hheld, assignTokens_fresh] at h
        cases h
      | some found =>
        rw [hunder, Option.getD_some] at hheld
        subst hheld
        have hopened : openedFor (token :: rest) value = value := by
          rcases openedFor_cases (token :: rest) value with hsame | ⟨rfl, -⟩
          · exact hsame
          · rw [under?_openedFor] at hunder
            cases key <;> cases hunder
        rw [hopened] at hputs hunder
        rw [ih (hsound.under? hunder) h] at hputs
        exact hputs.eq_of_present hsound hunder

theorem at?_slotOf (h : (assignTokens new tokens value).1 = .ok ()) :
    at? (slotOf tokens value) (assignTokens new tokens value).2 = some new := by
  induction tokens generalizing value with
  | nil => rfl
  | cons token rest ih =>
    cases turn new token rest value with
    | blocked error hblocked =>
      rw [hblocked] at h
      cases h
    | onward key held hheld hslot houtcome hputs =>
      rw [houtcome] at h
      rw [hslot, at?_cons, hputs.under?_same, Option.bind_some, ih h]

/-- Beside the slot nothing is changed, and nothing is added. -/
theorem at?_assignTokens_beside {place : List Key}
    (h : (assignTokens new tokens value).1 = .ok ()) (hbelow : ¬ slotOf tokens value <+: place)
    (habove : ¬ place <+: slotOf tokens value) :
    at? place (assignTokens new tokens value).2 = at? place value := by
  induction tokens generalizing value place with
  | nil => exact absurd List.nil_prefix hbelow
  | cons token rest ih =>
    cases turn new token rest value with
    | blocked error hblocked =>
      rw [hblocked] at h
      cases h
    | onward key held hheld hslot houtcome hputs =>
      rw [houtcome] at h
      rw [hslot] at hbelow habove
      cases place with
      | nil => exact absurd List.nil_prefix habove
      | cons other place =>
        rw [at?_cons, at?_cons, ← under?_openedFor other (token :: rest) value]
        by_cases hother : other = key
        · subst hother
          rw [List.cons_prefix_cons, not_and] at hbelow habove
          rw [hputs.under?_same, Option.bind_some, ih h (hbelow rfl) (habove rfl), hheld]
          cases under? other (openedFor (token :: rest) value) with
          | some found => rfl
          | none =>
            -- A new container holds nothing, and the place leads into it.
            cases place with
            | nil => exact absurd List.nil_prefix (habove rfl)
            | cons key place => rw [Option.getD_none, at?_cons, under?_freshFor]; rfl
        · rw [hputs.under?_other hother]

theorem keepsOthers_assignTokens {place below : List Key} {key : Key}
    (h : (assignTokens new tokens value).1 = .ok ())
    (hslot : slotOf tokens value = place ++ key :: below) (hheld : at? place value = some held)
    (hnull : held ≠ .null) :
    ∃ held', at? place (assignTokens new tokens value).2 = some held' ∧
      KeepsOthers key held held' := by
  induction tokens generalizing value place with
  | nil => simp [slotOf] at hslot
  | cons token rest ih =>
    cases turn new token rest value with
    | blocked error hblocked =>
      rw [hblocked] at h
      cases h
    | onward first found hfound hturn houtcome hputs =>
      rw [houtcome] at h
      rw [hturn] at hslot
      cases place with
      | nil =>
        obtain ⟨rfl, -⟩ := List.cons.inj hslot
        obtain rfl := Option.some.inj hheld
        have hopened : openedFor (token :: rest) value = value :=
          (openedFor_cases (token :: rest) value).resolve_right fun hnew => hnull hnew.1
        rw [hopened] at hputs
        exact ⟨_, rfl, hputs.keepsOthers⟩
      | cons step place =>
        obtain ⟨rfl, hrest⟩ := List.cons.inj hslot
        rw [at?_cons, ← under?_openedFor first (token :: rest) value] at hheld
        obtain ⟨inner, hinner, hheld⟩ := Option.bind_eq_some_iff.1 hheld
        rw [hinner, Option.getD_some] at hfound
        subst hfound
        rw [at?_cons, hputs.under?_same, Option.bind_some]
        exact ih h hrest hheld

def slot (pointer : Pointer) (value : Json) : List Key := slotOf pointer.tokens value

/--
An assignment that fails leaves the value as it was. One that succeeds puts the new value into its
slot, changes nothing at a location beside the slot, and on the way to it keeps what every object or
array holds under other keys, where an array can grow by one item at its end.
-/
theorem assign_local (pointer : Pointer) (new : Json) (hsound : value.Sound) :
    (∀ error, (pointer.assign new value).1 = .error error → (pointer.assign new value).2 = value) ∧
    ((pointer.assign new value).1 = .ok () →
      at? (pointer.slot value) (pointer.assign new value).2 = some new ∧
      (∀ place, ¬ pointer.slot value <+: place → ¬ place <+: pointer.slot value →
        at? place (pointer.assign new value).2 = at? place value) ∧
      ∀ place key below, pointer.slot value = place ++ key :: below → ∀ held,
        at? place value = some held → held ≠ .null →
        ∃ held', at? place (pointer.assign new value).2 = some held' ∧
          KeepsOthers key held held') := by
  refine ⟨fun error herror => assignTokens_error hsound herror, fun h => ⟨at?_slotOf h, ?_, ?_⟩⟩
  · exact fun place hbelow habove => at?_assignTokens_beside h hbelow habove
  · exact fun place key below hslot held hheld hnull => keepsOthers_assignTokens h hslot hheld hnull

def basket : Json :=
  .obj [("items", .arr [.null, .str "pen"]), ("owner", .str "ann")]

theorem basket_sound : basket.Sound := by
  have items : Json.Sound (.arr [.null, .str "pen"]) :=
    .arr (by simpa using ⟨.null, .str "pen"⟩)
  exact .obj (by decide) (by simpa using ⟨items, .str "ann"⟩)

theorem assign_local_basket :
    ((assign ⟨"/items/-/tags/-"⟩ (.str "red") basket).1 = .ok () ∧
      slot ⟨"/items/-/tags/-"⟩ basket = [.member "items", .item 2, .member "tags", .item 0] ∧
      at? (slot ⟨"/items/-/tags/-"⟩ basket) (assign ⟨"/items/-/tags/-"⟩ (.str "red") basket).2 =
        some (.str "red")) ∧
    (assign ⟨"/items/+1/x"⟩ (.str "red") basket).1 = .error (.notAContainer "x") ∧
      (assign ⟨"/items/+1/x"⟩ (.str "red") basket).2 = basket := by
  have hok : (assign ⟨"/items/-/tags/-"⟩ (.str "red") basket).1 = .ok () := by decide +kernel
  have herror : (assign ⟨"/items/+1/x"⟩ (.str "red") basket).1 = .error (.notAContainer "x") := by
    decide +kernel
  refine ⟨⟨hok, by decide +kernel, ?_⟩, herror, ?_⟩
  · exact ((assign_local ⟨"/items/-/tags/-"⟩ (.str "red") basket_sound).2 hok).1
  · exact (assign_local ⟨"/items/+1/x"⟩ (.str "red") basket_sound).1 _ herror

end Pointer
end Arazzo
