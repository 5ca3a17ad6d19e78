import Arazzo.Proofs.Pointer.ReadBack

/-! Null members on the way of a pointer: they are filled as missing ones are, but for the container
that becomes an array. -/

namespace Arazzo

namespace Json

variable {child value found : Json} {key : Key} {place : List Key}

def withoutMember (name : String) (place : List Key) (value : Json) : Json :=
  match at? place value with
  | some (.obj members) => withPart (.obj (Table.erase name members)) place value
  | _ => value

theorem Puts.isArr_eq (h : Puts child key value found) : found.isArr = value.isArr := by
  cases h <;> rfl

theorem withoutMember_eq {name : String} {members : Table Json}
    (h : at? place value = some (.obj members)) :
    withoutMember name place value = withPart (.obj (Table.erase name members)) place value := by
  rw [withoutMember, h]

end Json

namespace Pointer

open Json

variable {token name next : String} {before after rest : List String} {key : Key}
  {new value child part found : Json} {members : Table Json}

theorem exists_reaches (hfound : at? (slotOf (token :: before) value) value = some (.obj members)) :
    ∃ key child, Reaches token child key value ∧
      at? (slotOf before child) child = some (.obj members) := by
  cases hslot : slotOf (token :: before) value with
  | nil =>
    -- In an object there is always a way on.
    rw [hslot] at hfound
    obtain rfl := Option.some.inj hfound
    cases hslot
  | cons key keys =>
    rw [hslot] at hfound
    obtain ⟨child, hchild, hrest⟩ := Option.bind_eq_some_iff.1 hfound
    have hway := way_of_slotOf hslot
    have hopened : openedFor (token :: before) value = value := by
      rcases openedFor_cases (token :: before) value with hsame | ⟨rfl, -⟩
      · exact hsame
      · cases key <;> cases hchild
    rw [hopened] at hway
    have hreaches := hway.reaches hchild
    rw [hreaches.slotOf_cons] at hslot
    obtain ⟨-, rfl⟩ := List.cons.inj hslot
    exact ⟨key, child, hreaches, hrest⟩

theorem assignTokens_withPart (new : Json)
    (hfound : at? (slotOf before value) value = some (.obj members)) (rest : List String)
    (part : Json) :
    assignTokens new (before ++ rest) (withPart part (slotOf before value) value) =
      (assignTokens new rest part).map id fun part => withPart part (slotOf before value) value := by
  induction before generalizing value with
  | nil => rfl
  | cons token before ih =>
    obtain ⟨key, child, hreaches, hrest⟩ := exists_reaches hfound
    have hheld := hreaches.under?_eq
    rw [hreaches.slotOf_cons, List.cons_append, withPart_cons hheld,
      (hreaches.putUnder _).assignTokens_cons, ih hrest, Prod.map_map]
    simp only [Function.comp_def, id, putUnder_putUnder, withPart_cons hheld]
    rfl

theorem freshFor_cons (token : String) (rest : List String) :
    freshFor (token :: rest) = if token = "-" then .arr [] else .obj [] := by
  unfold freshFor
  split
  · rename_i htokens
    rw [if_pos (List.cons.inj htokens).1]
  · rename_i hnot
    rw [if_neg fun htoken => hnot rest (by rw [htoken])]

theorem openedFor_freshFor (tokens rest : List String) :
    openedFor tokens (freshFor rest) = freshFor rest := by
  unfold freshFor
  split <;> rfl

theorem openedFor_null (token : String) (rest : List String) :
    openedFor (token :: rest) .null = if rest = [] then freshFor [token] else .obj [] := by
  cases rest <;> rfl

theorem assignTokens_congr {other : Json}
    (h : openedFor (token :: rest) value = openedFor (token :: rest) other) :
    assignTokens new (token :: rest) value = assignTokens new (token :: rest) other := by
  rw [assignTokens, assignTokens, h]

/-- A null is opened as the container that is missing would be, unless a token between it and the last
one is `-`. -/
theorem openedFor_null_eq (h : next = "-" → after = []) :
    openedFor (next :: after) .null = openedFor (next :: after) (freshFor (next :: after)) := by
  rw [openedFor_freshFor, openedFor_null]
  split
  · rename_i hlast
    rw [hlast]
  · rename_i hmore
    rw [freshFor_cons, if_neg fun hdash => hmore (h hdash)]

theorem assignTokens_null_ok (new : Json) (next : String) (after : List String) :
    (assignTokens new (next :: after) .null).1 = .ok () := by
  by_cases h : next = "-" → after = []
  · rw [assignTokens_congr (openedFor_null_eq h), assignTokens_fresh]
  · have hmore : after ≠ [] := fun hlast => h fun _ => hlast
    rw [assignTokens, openedFor_null, if_neg hmore]
    exact assignTokens_fresh new after

theorem isArr_assignTokens (h : (assignTokens new (token :: rest) value).1 = .ok ()) :
    (assignTokens new (token :: rest) value).2.isArr = (openedFor (token :: rest) value).isArr := by
  cases turn new token rest value with
  | blocked error hblocked =>
    rw [hblocked] at h
    cases h
  | onward key held hheld hslot houtcome hputs => exact hputs.isArr_eq

theorem isArr_null (new : Json) (next : String) (after : List String) :
    (assignTokens new (next :: after) .null).2.isArr = true ↔ next = "-" ∧ after = [] := by
  rw [isArr_assignTokens (assignTokens_null_ok new next after), openedFor_null]
  by_cases hlast : after = []
  · rw [if_pos hlast, freshFor_cons]
    by_cases hdash : next = "-" <;> simp [hdash, hlast, isArr, asArr?]
  · simp [hlast, isArr, asArr?]

theorem isArr_missing (new : Json) (next : String) (after : List String) :
    (assignTokens new (next :: after) (freshFor (next :: after))).2.isArr = true ↔ next = "-" := by
  rw [isArr_assignTokens (assignTokens_fresh new _), openedFor_freshFor, freshFor_cons]
  by_cases hdash : next = "-" <;> simp [hdash, isArr, asArr?]

theorem exists_filled (hordered : value.Ordered)
    (hnull : at? (slotOf before value ++ [.member name]) value = some .null) :
    ∃ fill : Json → Json,
      (∀ part, at? (slotOf before value ++ [.member name]) (fill part) = some part) ∧
      ∀ new rest,
        assignTokens new (before ++ name :: rest) value = (assignTokens new rest .null).map id fill ∧
        assignTokens new (before ++ name :: rest)
            (withoutMember name (slotOf before value) value) =
          (assignTokens new rest (freshFor rest)).map id fill := by
  rw [at?_append] at hnull
  obtain ⟨found, hfound, hmember⟩ := Option.bind_eq_some_iff.1 hnull
  obtain ⟨inner, hinner, hlast⟩ := Option.bind_eq_some_iff.1 hmember
  obtain rfl := Option.some.inj hlast
  cases found <;> try cases hinner
  rename_i members
  have hget : Table.get? name members = some .null := hinner
  have hascending : Table.Ascending members := (hordered.at? hfound).ascending
  refine ⟨fun part => withPart (.obj (Table.insert name part members)) (slotOf before value) value,
    fun part => ?_, fun new rest => ⟨?_, ?_⟩⟩
  · rw [at?_append, at?_withPart hfound, Option.bind_some, at?_cons, under?, Table.get?_insert,
      if_pos rfl]
    rfl
  · have hself := assignTokens_withPart new hfound (name :: rest) (.obj members)
    rw [withPart_self hordered hfound, (Reaches.member hget).assignTokens_cons, Prod.map_map] at hself
    exact hself
  · have hgone : Table.get? name (Table.erase name members) = none := by
      rw [hascending.get?_erase, if_pos rfl]
    have herased := assignTokens_withPart new hfound (name :: rest)
      (.obj (Table.erase name members))
    rw [withoutMember_eq hfound, herased, assignTokens]
    simp only [openedFor, hgone, Option.getD_none, Prod.map_map, Function.comp_def, id,
      hascending.insert_erase]
    rfl

/--
A null member on the way counts as a missing one, unless the token behind it is a `-` that is not the
last token: then an object is created for the null, and an array for what is missing. With either, the
assignment succeeds.
-/
theorem assign_null_member (pointer : Pointer) (new : Json) (hordered : value.Ordered)
    (htokens : pointer.tokens = before ++ name :: next :: after)
    (hnull : at? (slotOf before value ++ [.member name]) value = some .null) :
    (pointer.assign new (withoutMember name (slotOf before value) value) =
        pointer.assign new value ↔ (next = "-" → after = [])) ∧
      (∃ made filled, pointer.assign new value = (.ok (), filled) ∧
        at? (slotOf before value ++ [.member name]) filled = some made ∧
        (made.isArr = true ↔ next = "-" ∧ after = [])) ∧
      ∃ made filled,
        pointer.assign new (withoutMember name (slotOf before value) value) = (.ok (), filled) ∧
        at? (slotOf before value ++ [.member name]) filled = some made ∧
        (made.isArr = true ↔ next = "-") := by
  obtain ⟨fill, hfill, hassign⟩ := exists_filled hordered hnull
  obtain ⟨hheld, hmissing⟩ := hassign new (next :: after)
  rw [Pointer.assign, Pointer.assign, htokens, hheld, hmissing]
  have hnullOk := assignTokens_null_ok new next after
  have hmissingOk := assignTokens_fresh new (next :: after)
  refine ⟨⟨fun hsame => ?_, fun h => ?_⟩, ⟨_, _, Prod.ext hnullOk rfl, hfill _, isArr_null ..⟩,
    ⟨_, _, Prod.ext hmissingOk rfl, hfill _, isArr_missing ..⟩⟩
  · -- Equal outcomes have equal containers at the member.
    have hfilled := congrArg (fun outcome => at? (slotOf before value ++ [.member name]) outcome.2) hsame
    have hmade : (assignTokens new (next :: after) (freshFor (next :: after))).2 =
        (assignTokens new (next :: after) .null).2 := by
      simpa only [Prod.map_snd, hfill, Option.some.injEq] using hfilled
    intro hdash
    have harr := (isArr_missing new next after).2 hdash
    rw [hmade] at harr
    exact ((isArr_null new next after).1 harr).2
  · rw [assignTokens_congr (openedFor_null_eq h)]

def blank : Json := .obj [("a", .null)]

theorem blank_ordered : blank.Ordered :=
  .obj (by decide) (by simpa using .null)

theorem assign_null_member_blank :
    tokens ⟨"/a/-"⟩ = ["a", "-"] ∧ at? [.member "a"] blank = some .null ∧
      assign ⟨"/a/-"⟩ (.str "x") (withoutMember "a" [] blank) = assign ⟨"/a/-"⟩ (.str "x") blank := by
  have htokens : tokens ⟨"/a/-"⟩ = [] ++ "a" :: "-" :: [] := by decide +kernel
  have hnull : at? (slotOf [] blank ++ [.member "a"]) blank = some .null := rfl
  exact ⟨htokens, hnull,
    (assign_null_member ⟨"/a/-"⟩ (.str "x") blank_ordered htokens hnull).1.2 fun _ => rfl⟩

/-- An array is created for the missing member, and an object for the null. -/
theorem assign_null_inner :
    tokens ⟨"/a/-/b"⟩ = ["a", "-", "b"] ∧ at? [.member "a"] blank = some .null ∧
      assign ⟨"/a/-/b"⟩ (.str "x") blank =
        (.ok (), .obj [("a", .obj [("-", .obj [("b", .str "x")])])]) ∧
      assign ⟨"/a/-/b"⟩ (.str "x") (withoutMember "a" [] blank) =
        (.ok (), .obj [("a", .arr [.obj [("b", .str "x")]])]) ∧
      assign ⟨"/a/-/b"⟩ (.str "x") (withoutMember "a" [] blank) ≠ assign ⟨"/a/-/b"⟩ (.str "x") blank := by
  have hheld : assign ⟨"/a/-/b"⟩ (.str "x") blank =
      (.ok (), .obj [("a", .obj [("-", .obj [("b", .str "x")])])]) := by rfl
  have hmissing : assign ⟨"/a/-/b"⟩ (.str "x") (withoutMember "a" [] blank) =
      (.ok (), .obj [("a", .arr [.obj [("b", .str "x")]])]) := by rfl
  refine ⟨by decide +kernel, rfl, hheld, hmissing, ?_⟩
  rw [hheld, hmissing]
  simp

end Pointer
end Arazzo
