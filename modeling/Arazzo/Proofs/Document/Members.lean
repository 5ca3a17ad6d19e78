import Arazzo.Proofs.Document.Written

/-! Readers of single members, of lists and of tables: what they yield from a sound object, and that
they read again what was written of it. -/

namespace Arazzo

namespace ObjectReader

variable {α : Type} {kind? : Json → Option α} {expected : String} {required : Bool}
  {reader : ObjectReader} {key : String}

theorem member?_value : (reader.member? kind? expected required key).value =
    (reader.raw? key).bind kind? := by
  rw [member?]
  split
  · rename_i hraw
    rw [hraw]
    cases required <;> rfl
  · rename_i value hraw
    rw [hraw, Option.bind_some]
    split
    · rename_i found hkind
      rw [hkind]
      rfl
    · rename_i hkind
      rw [hkind]
      rfl

theorem member?_eq_some {value : Json} {found : α} (hkind : kind? value = some found)
    (hraw : reader.raw? key = some value) :
    reader.member? kind? expected required key = ⟨some found, []⟩ := by
  rw [member?, hraw]
  simp only [hkind]
  rfl

theorem member?_eq_none (hraw : reader.raw? key = none) :
    reader.member? kind? expected false key = ⟨none, []⟩ := by
  rw [member?, hraw]
  rfl

theorem member?_written {write : α → Json} {x : Option α}
    (hkind : ∀ y ∈ x, kind? (write y) = some y) (hraw : reader.raw? key = x.map write) :
    reader.member? kind? expected false key = ⟨x, []⟩ := by
  cases x with
  | some y => exact member?_eq_some (hkind y rfl) hraw
  | none => exact member?_eq_none hraw

theorem member?_text {text : String} (hraw : reader.raw? key = some (.str text)) :
    reader.member? Json.asStr? expected required key = ⟨some text, []⟩ :=
  member?_eq_some rfl hraw

theorem required?_written {value : Json} (hraw : reader.raw? key = some value) :
    reader.required? key = ⟨some value, []⟩ :=
  member?_eq_some rfl hraw

theorem requiredText_written {text : String} (hraw : reader.raw? key = some (.str text)) :
    reader.requiredText key = ⟨text, []⟩ := by
  rw [requiredText, member?_text hraw]
  rfl

theorem optionalText_written {text : Option String} (hraw : reader.raw? key = writeText text) :
    reader.optionalText key = ⟨text, []⟩ :=
  member?_written (fun _ _ => rfl) hraw

theorem version_written {text : String} (hraw : reader.raw? key = some (.str text)) :
    reader.version key = ⟨text, []⟩ := by
  have hmember : reader.member? versionText? "string" true key = ⟨some text, []⟩ :=
    member?_eq_some rfl hraw
  rw [version, hmember]
  rfl

theorem smallNat?_ofNat {n : Nat} (h : n < 2 ^ 32) : smallNat? (.ofNat n) = some n := by
  have hnat : (Json.ofNat n).asNat? = some n := by simp [Json.ofNat, Json.asNat?]
  rw [smallNat?, hnat]
  exact if_pos h

theorem optionalNat_lt {n : Nat} (h : n ∈ (reader.optionalNat key).value) : n < 2 ^ 32 := by
  rw [optionalNat, member?_value] at h
  obtain ⟨value, -, hvalue⟩ := Option.bind_eq_some_iff.mp h
  obtain ⟨m, -, hm⟩ := Option.bind_eq_some_iff.mp hvalue
  split at hm
  · rename_i hlt
    cases hm
    exact hlt
  · cases hm

theorem optionalNat_written {n : Option Nat} (h : ∀ m ∈ n, m < 2 ^ 32)
    (hraw : reader.raw? key = n.map .ofNat) : reader.optionalNat key = ⟨n, []⟩ :=
  member?_written (fun m hm => smallNat?_ofNat (h m hm)) hraw

theorem Sound.optionalNumber_isFinite {x : Float} (hsound : reader.Sound)
    (h : x ∈ (reader.optionalNumber key).value) : x.isFinite = true := by
  rw [optionalNumber, member?_value] at h
  obtain ⟨value, hraw, hvalue⟩ := Option.bind_eq_some_iff.mp h
  cases value with
  | num n =>
    cases hvalue
    exact (hsound.raw? hraw).number.toFloat_isFinite
  | _ => cases hvalue

theorem optionalNumber_written {x : Option Float} (h : ∀ y ∈ x, y.isFinite = true)
    (hraw : reader.raw? key = x.map .ofFloat) : reader.optionalNumber key = ⟨x, []⟩ := by
  refine member?_written (fun y hy => ?_) hraw
  rw [Json.ofFloat, if_pos (h y hy)]
  rfl

theorem Sound.items {items : List Json} (hsound : reader.Sound)
    (h : (reader.raw? key).bind Json.asArr? = some items) : ∀ item ∈ items, item.Sound := by
  obtain ⟨value, hraw, hvalue⟩ := Option.bind_eq_some_iff.mp h
  cases value with
  | arr items =>
    cases hvalue
    exact (hsound.raw? hraw).items
  | _ => cases hvalue

theorem Sound.entries {members : Table Json} (hsound : reader.Sound)
    (h : (reader.raw? key).bind Json.asObj? = some members) :
    ∀ member ∈ members, member.2.Sound := by
  obtain ⟨value, hraw, hvalue⟩ := Option.bind_eq_some_iff.mp h
  cases value with
  | obj members =>
    cases hvalue
    exact (hsound.raw? hraw).members
  | _ => cases hvalue

variable {read : Json → Place → Checked (Option α)} {write : α → Json}

theorem Sound.of_optionalPart {x : α} (hsound : reader.Sound)
    (h : x ∈ (reader.optionalPart read key).value) :
    ∃ value : Json, value.Sound ∧ (read value reader.location).value = some x := by
  unfold optionalPart at h
  split at h
  · rename_i value hraw
    exact ⟨value, hsound.raw? hraw, h⟩
  · cases h

theorem optionalPart_written {x : Option α}
    (hread : ∀ y ∈ x, read (write y) reader.location = ⟨some y, []⟩)
    (hraw : reader.raw? key = x.map write) : reader.optionalPart read key = ⟨x, []⟩ := by
  rw [optionalPart, hraw]
  cases x with
  | some y => exact hread y rfl
  | none => rfl

theorem Sound.of_requiredPart {x : α} (hsound : reader.Sound)
    (h : x ∈ (reader.requiredPart read key).value) :
    ∃ value : Json, value.Sound ∧ (read value reader.location).value = some x := by
  rw [requiredPart, Checked.value_bind, required?, member?_value] at h
  split at h
  · rename_i value hfound
    rw [Option.bind_fun_some] at hfound
    exact ⟨value, hsound.raw? hfound, h⟩
  · cases h

theorem requiredPart_written {x : α} (hread : read (write x) reader.location = ⟨some x, []⟩)
    (hraw : reader.raw? key = some (write x)) : reader.requiredPart read key = ⟨some x, []⟩ := by
  rw [requiredPart, required?_written hraw, Checked.clean_bind]
  exact hread

end ObjectReader

namespace Document

open ObjectReader

structure Stable {α : Type} (read : ItemReader α) (write : α → Json) (Readable : α → Prop) :
    Prop where
  yields : ∀ {value : Json} {location : Place} {key : Option PlaceStep} {x : α}, value.Sound →
    (read value location key).value = some x → Readable x
  again : ∀ {x : α}, Readable x → ∀ (location : Place) (key : Option PlaceStep),
    read (write x) location key = ⟨some x, []⟩

namespace Stable

variable {α : Type} {read : ItemReader α} {write : α → Json} {Readable : α → Prop}
  {reader : ObjectReader} {key : String}

theorem readItems_value (h : Stable read write Readable) (location : Place) (i : Nat)
    {items : List Json} (hitems : ∀ item ∈ items, item.Sound) :
    ∀ x ∈ (readItems read location i items).value, Readable x := by
  induction items generalizing i with
  | nil => intro x hx; cases hx
  | cons item rest ih =>
    intro x hx
    simp only [readItems, Checked.value_bind, Checked.value_pure, List.mem_append,
      Option.mem_toList] at hx
    rcases hx with hfirst | hrest
    · exact h.yields (hitems item (List.mem_cons_self ..)) hfirst
    · exact ih (i + 1) (fun other hother => hitems other (List.mem_cons_of_mem _ hother)) x hrest

theorem readItems_written (h : Stable read write Readable) (location : Place) (i : Nat)
    {items : List α} (hitems : ∀ x ∈ items, Readable x) :
    readItems read location i (items.map write) = ⟨items, []⟩ := by
  induction items generalizing i with
  | nil => rfl
  | cons x rest ih =>
    have hrest := ih (i + 1) fun other hother => hitems other (List.mem_cons_of_mem _ hother)
    rw [List.map_cons, readItems, h.again (hitems x (List.mem_cons_self ..)), Checked.clean_bind,
      hrest]
    rfl

theorem readEntries_value (h : Stable read write Readable) (location : Place)
    {members : Table Json} (hmembers : ∀ member ∈ members, member.2.Sound) :
    ∀ entry ∈ (readEntries read location members).value, Readable entry.2 := by
  induction members with
  | nil => intro entry hentry; cases hentry
  | cons member rest ih =>
    intro entry hentry
    simp only [readEntries, Checked.value_bind, Checked.value_pure, List.mem_append,
      Option.mem_toList, Option.map_eq_some_iff] at hentry
    rcases hentry with ⟨x, hx, rfl⟩ | hrest
    · exact h.yields (hmembers member (List.mem_cons_self ..)) hx
    · exact ih (fun other hother => hmembers other (List.mem_cons_of_mem _ hother)) entry hrest

theorem readEntries_written (h : Stable read write Readable) (location : Place)
    {table : Table α} (htable : ∀ entry ∈ table, Readable entry.2) :
    readEntries read location (Table.mapValues write table) = ⟨table, []⟩ := by
  induction table with
  | nil => rfl
  | cons entry rest ih =>
    have hrest := ih fun other hother => htable other (List.mem_cons_of_mem _ hother)
    change readEntries read location ((entry.1, write entry.2) :: Table.mapValues write rest) = _
    rw [readEntries, h.again (htable entry (List.mem_cons_self ..)), Checked.clean_bind, hrest]
    rfl

theorem optionalList_value (h : Stable read write Readable) (hsound : reader.Sound) :
    ∀ x ∈ (reader.optionalList read key).value, Readable x := by
  rw [optionalList, Checked.value_bind, optionalItems, member?_value]
  split
  · rename_i items hitems
    exact h.readItems_value _ 0 (hsound.items hitems)
  · intro x hx
    cases hx

theorem optionalList_written (h : Stable read write Readable) {items : List α}
    (hitems : ∀ x ∈ items, Readable x) (hraw : reader.raw? key = writeList write items) :
    reader.optionalList read key = ⟨items, []⟩ := by
  cases items with
  | nil =>
    have hnone : reader.optionalItems key = ⟨none, []⟩ := member?_eq_none hraw
    rw [optionalList, hnone]
    rfl
  | cons x rest =>
    have hsome : reader.optionalItems key = ⟨some ((x :: rest).map write), []⟩ :=
      member?_eq_some rfl hraw
    rw [optionalList, hsome]
    exact h.readItems_written _ 0 hitems

theorem requiredList_value (h : Stable read write Readable) (hsound : reader.Sound) :
    ∀ x ∈ (reader.requiredList read key).value, Readable x := by
  rw [requiredList, Checked.value_bind, requiredItems, member?_value]
  split
  · rename_i items hitems
    exact h.readItems_value _ 0 (hsound.items hitems)
  · intro x hx
    cases hx

theorem requiredList_written (h : Stable read write Readable) {items : List α}
    (hitems : ∀ x ∈ items, Readable x) (hraw : reader.raw? key = some (.arr (items.map write))) :
    reader.requiredList read key = ⟨items, []⟩ := by
  have hsome : reader.requiredItems key = ⟨some (items.map write), []⟩ := member?_eq_some rfl hraw
  rw [requiredList, hsome]
  exact h.readItems_written _ 0 hitems

theorem optionalTable_value (h : Stable read write Readable) (hsound : reader.Sound) :
    ∀ entry ∈ (reader.optionalTable read key).value, Readable entry.2 := by
  rw [optionalTable, Checked.value_bind, optionalMembers, member?_value]
  split
  · rename_i members hmembers
    exact h.readEntries_value _ (hsound.entries hmembers)
  · intro entry hentry
    cases hentry

theorem optionalTable_written (h : Stable read write Readable) {table : Table α}
    (htable : ∀ entry ∈ table, Readable entry.2) (hraw : reader.raw? key = writeTable write table) :
    reader.optionalTable read key = ⟨table, []⟩ := by
  cases table with
  | nil =>
    have hnone : reader.optionalMembers key = ⟨none, []⟩ := member?_eq_none hraw
    rw [optionalTable, hnone]
    rfl
  | cons entry rest =>
    have hsome : reader.optionalMembers key = ⟨some (Table.mapValues write (entry :: rest)), []⟩ :=
      member?_eq_some rfl hraw
    rw [optionalTable, hsome]
    exact h.readEntries_written _ htable

end Stable

end Document
end Arazzo
