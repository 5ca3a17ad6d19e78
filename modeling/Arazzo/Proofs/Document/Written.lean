import Arazzo.Document.Reader
import Arazzo.Document.Writer
import Arazzo.Proofs.Json.Sound
import Arazzo.Proofs.Table

/-! What the readers of members find, and that they find again in an object what was written
there. -/

namespace Arazzo

namespace Checked

variable {α β : Type}

@[simp] theorem value_pure (a : α) : (pure a : Checked α).value = a := rfl

@[simp] theorem value_bind (first : Checked α) (next : α → Checked β) :
    (first >>= next).value = (next first.value).value := rfl

theorem pure_eq (a : α) : (pure a : Checked α) = ⟨a, []⟩ := rfl

@[simp] theorem clean_bind (a : α) (next : α → Checked β) :
    (⟨a, []⟩ : Checked α) >>= next = next a := rfl

theorem eq_clean {checked : Checked α} {a : α} (hvalue : checked.value = a)
    (hclean : checked.diagnostics = []) : checked = ⟨a, []⟩ := by
  cases checked
  subst hvalue hclean
  rfl

@[simp] theorem bind_pure_map (first : Checked α) (f : α → β) :
    (first >>= fun a => pure (f a)) = ⟨f first.value, first.diagnostics⟩ := by
  change (⟨f first.value, first.diagnostics ++ []⟩ : Checked β) = _
  rw [List.append_nil]

end Checked

namespace ObjectReader

structure Kept (permitReserved : Bool) (extensions : Extensions) : Prop where
  ascending : Table.Ascending extensions
  named : ∀ entry ∈ extensions, isExtensionKey entry.1 = true
  permitted : ∀ entry ∈ extensions, (permitReserved || !isReservedKey entry.1) = true

theorem Kept.nil (permitReserved : Bool) : Kept permitReserved [] where
  ascending := Table.ascending_nil
  named := by simp
  permitted := by simp

variable {permitReserved : Bool} {allowed : List String} {location : Place} {reader : ObjectReader}
  {key : String}

def keeps (permitReserved : Bool) (allowed : List String) (key : String) : Bool :=
  !allowed.contains key && isExtensionKey key && (permitReserved || !isReservedKey key)

theorem keepExtension_eq (value : Json) (h : (permitReserved || !isReservedKey key) = true) :
    keepExtension permitReserved location key value = ⟨[(key, value)], []⟩ := by
  have hreserved : (!permitReserved && isReservedKey key) = false := by
    rw [← Bool.not_eq_true', Bool.not_and, Bool.not_not]
    exact h
  rw [keepExtension, hreserved]
  rfl

theorem keepExtension_value_of_reserved (value : Json)
    (h : (permitReserved || !isReservedKey key) = false) :
    (keepExtension permitReserved location key value).value = [] := by
  have hreserved : (!permitReserved && isReservedKey key) = true := by
    rw [← Bool.not_eq_false', Bool.not_and, Bool.not_not]
    exact h
  rw [keepExtension, hreserved]
  rfl

theorem ownExtensions_cons_allowed (value : Json) (rest : Table Json) (h : key ∈ allowed) :
    ownExtensions permitReserved allowed location ((key, value) :: rest) =
      ownExtensions permitReserved allowed location rest := by
  rw [ownExtensions, if_pos (List.contains_iff_mem.mpr h)]
  simp only [Checked.pure_eq, Checked.clean_bind, List.nil_append]
  exact Checked.bind_pure_map _ id

theorem ownExtensions_cons_kept (value : Json) (rest : Table Json)
    (h : keeps permitReserved allowed key = true) :
    ownExtensions permitReserved allowed location ((key, value) :: rest) =
      ⟨(key, value) :: (ownExtensions permitReserved allowed location rest).value,
        (ownExtensions permitReserved allowed location rest).diagnostics⟩ := by
  simp only [keeps, Bool.and_eq_true, Bool.not_eq_true'] at h
  obtain ⟨⟨hallowed, hkey⟩, hpermitted⟩ := h
  rw [ownExtensions, if_neg (by rw [hallowed]; decide), if_pos hkey,
    keepExtension_eq value hpermitted]
  exact Checked.bind_pure_map _ _

theorem ownExtensions_cons_value (value : Json) (rest : Table Json)
    (h : keeps permitReserved allowed key = false) :
    (ownExtensions permitReserved allowed location ((key, value) :: rest)).value =
      (ownExtensions permitReserved allowed location rest).value := by
  rw [ownExtensions]
  split
  · rfl
  · rename_i hallowed
    split
    · rename_i hkey
      have hreserved : (permitReserved || !isReservedKey key) = false := by
        simpa only [keeps, hallowed, hkey, Bool.not_false, Bool.true_and] using h
      simp only [Checked.value_bind, keepExtension_value_of_reserved value hreserved]
      rfl
    · split <;> rfl

theorem ownExtensions_value (members : Table Json) :
    (ownExtensions permitReserved allowed location members).value =
      members.filter fun member => keeps permitReserved allowed member.1 := by
  induction members with
  | nil => rfl
  | cons member rest ih =>
    obtain ⟨key, value⟩ := member
    rw [List.filter_cons, ← ih]
    cases hkeeps : keeps permitReserved allowed key with
    | true => rw [if_pos rfl, ownExtensions_cons_kept value rest hkeeps]
    | false => rw [if_neg (by decide), ownExtensions_cons_value value rest hkeeps]

theorem nestedExtensions_value (members : Table Json) :
    (nestedExtensions permitReserved location members).value =
      members.filter fun member => keeps permitReserved [] member.1 := by
  induction members with
  | nil => rfl
  | cons member rest ih =>
    obtain ⟨key, value⟩ := member
    have hkeeps : keeps permitReserved [] key =
        (isExtensionKey key && (permitReserved || !isReservedKey key)) := rfl
    rw [List.filter_cons, ← ih, hkeeps, nestedExtensions]
    cases hkey : isExtensionKey key with
    | false => rfl
    | true =>
      cases hpermitted : permitReserved || !isReservedKey key with
      | true =>
        simp only [keepExtension_eq value hpermitted]
        rfl
      | false =>
        simp only [if_true, Checked.value_bind, keepExtension_value_of_reserved value hpermitted]
        rfl

theorem kept_filter {members : Table Json} (h : Table.Ascending members) :
    Kept permitReserved (members.filter fun member => keeps permitReserved allowed member.1) where
  ascending := h.filter _
  named := by
    intro entry hentry
    have hkeeps := (List.mem_filter.mp hentry).2
    simp only [keeps, Bool.and_eq_true] at hkeeps
    exact hkeeps.1.2
  permitted := by
    intro entry hentry
    have hkeeps := (List.mem_filter.mp hentry).2
    simp only [keeps, Bool.and_eq_true] at hkeeps
    exact hkeeps.2

def Sound (reader : ObjectReader) : Prop := Json.Sound (.obj reader.members)

theorem Sound.raw? {value : Json} (h : reader.Sound) (hraw : reader.raw? key = some value) :
    value.Sound :=
  Json.Sound.get? h hraw

theorem Sound.extensions_kept (h : reader.Sound) :
    Kept permitReserved (reader.extensions permitReserved allowed).value := by
  unfold extensions
  rw [Checked.value_bind]
  split
  · split
    · rename_i members hraw
      rw [nestedExtensions_value]
      exact kept_filter (h.raw? hraw).ascending
    · exact Kept.nil _
    · exact Kept.nil _
  · rw [Checked.value_pure, ownExtensions_value]
    exact kept_filter h.ascending

def present (members : List (String × Option Json)) : Table Json :=
  members.filterMap fun (name, value) => value.map fun value => (name, value)

theorem writeObject_eq (members : List (String × Option Json)) (extensions : Extensions) :
    writeObject members extensions =
      .obj (Table.union (Table.ofList (present members)) extensions) := rfl

theorem present_cons_none (name : String) (rest : List (String × Option Json)) :
    present ((name, none) :: rest) = present rest := rfl

theorem present_cons_some (name : String) (value : Json) (rest : List (String × Option Json)) :
    present ((name, some value) :: rest) = (name, value) :: present rest := rfl

theorem keys_present_sublist (members : List (String × Option Json)) :
    List.Sublist (Table.keys (present members)) (members.map (·.1)) := by
  induction members with
  | nil => exact .slnil
  | cons member rest ih =>
    obtain ⟨name, _ | value⟩ := member
    · exact ih.cons _
    · exact ih.cons_cons _

theorem get?_present {members : List (String × Option Json)} {name : String} {value : Option Json}
    (h : (members.map (·.1)).Nodup) (hmem : (name, value) ∈ members) :
    Table.get? name (present members) = value := by
  induction members with
  | nil => cases hmem
  | cons member rest ih =>
    obtain ⟨other, written⟩ := member
    obtain ⟨hfresh, hrest⟩ := List.nodup_cons.mp h
    rcases List.mem_cons.mp hmem with hsame | hlater
    · obtain ⟨rfl, rfl⟩ := Prod.mk.inj hsame
      cases value with
      | some value => rw [present_cons_some, Table.get?_cons, if_pos rfl]
      | none =>
        rw [present_cons_none]
        exact Table.get?_eq_none fun hkey => hfresh ((keys_present_sublist rest).subset hkey)
    · have hne : other ≠ name := by
        rintro rfl
        exact hfresh (List.mem_map_of_mem (f := (·.1)) hlater)
      cases written with
      | some value => rw [present_cons_some, Table.get?_cons, if_neg hne, ih hrest hlater]
      | none => rw [present_cons_none, ih hrest hlater]

def Plain (names : List String) : Prop :=
  names.Nodup ∧ "extensions" ∉ names ∧ ∀ name ∈ names, isExtensionKey name = false

instance (names : List String) : Decidable (Plain names) := by
  unfold Plain
  infer_instance

theorem ownExtensions_clean {members : Table Json}
    (h : ∀ member ∈ members, member.1 ∈ allowed ∨ keeps permitReserved allowed member.1 = true) :
    (ownExtensions permitReserved allowed location members).diagnostics = [] := by
  induction members with
  | nil => rfl
  | cons member rest ih =>
    obtain ⟨key, value⟩ := member
    have hrest := ih fun member hmember => h member (List.mem_cons_of_mem _ hmember)
    rcases h _ (List.mem_cons_self ..) with hallowed | hkept
    · rw [ownExtensions_cons_allowed value rest hallowed, hrest]
    · rw [ownExtensions_cons_kept value rest hkept, hrest]

variable {members : List (String × Option Json)} {extensions : Extensions}

theorem Kept.get?_eq_none (h : Kept permitReserved extensions)
    (hkey : isExtensionKey key = false) : Table.get? key extensions = none := by
  refine Table.get?_eq_none fun hmem => ?_
  obtain ⟨entry, hentry, rfl⟩ := List.mem_map.mp hmem
  rw [h.named entry hentry] at hkey
  cases hkey

theorem Kept.keeps (h : Kept permitReserved extensions) (hplain : Plain allowed)
    {entry : String × Json} (hentry : entry ∈ extensions) :
    keeps permitReserved allowed entry.1 = true := by
  have hforeign : allowed.contains entry.1 = false := by
    rw [← Bool.not_eq_true, List.contains_iff_mem]
    intro hmem
    have hnamed := h.named entry hentry
    rw [hplain.2.2 _ hmem] at hnamed
    cases hnamed
  simp only [ObjectReader.keeps, hforeign, h.named entry hentry, h.permitted entry hentry]
  rfl

theorem get?_written (hplain : Plain (members.map (·.1)))
    (hext : Kept permitReserved extensions) (hkey : isExtensionKey key = false) :
    Table.get? key (Table.union (Table.ofList (present members)) extensions) =
      Table.get? key (present members) := by
  have hnodup := hplain.1.sublist (keys_present_sublist members)
  rw [Table.get?_union _ _ _ hext.ascending.nodup, hext.get?_eq_none hkey, Option.none_or,
    Table.get?_ofList _ _ hnodup]

theorem get?_written_of_mem (hplain : Plain (members.map (·.1)))
    (hext : Kept permitReserved extensions) {name : String} {value : Option Json}
    (hmem : (name, value) ∈ members) :
    Table.get? name (Table.union (Table.ofList (present members)) extensions) = value := by
  have hname := List.mem_map_of_mem (f := (·.1)) hmem
  rw [get?_written hplain hext (hplain.2.2 _ hname), get?_present hplain.1 hmem]

theorem get?_written_of_absent (hplain : Plain (members.map (·.1)))
    (hext : Kept permitReserved extensions) (hkey : isExtensionKey key = false)
    (habsent : key ∉ members.map (·.1)) :
    Table.get? key (Table.union (Table.ofList (present members)) extensions) = none := by
  rw [get?_written hplain hext hkey]
  exact Table.get?_eq_none fun hmem => habsent ((keys_present_sublist members).subset hmem)

theorem ownExtensions_written (hplain : Plain (members.map (·.1)))
    (hext : Kept permitReserved extensions) :
    ownExtensions permitReserved (members.map (·.1)) location
      (Table.union (Table.ofList (present members)) extensions) = ⟨extensions, []⟩ := by
  have hnames := keys_present_sublist members
  apply Checked.eq_clean
  · rw [ownExtensions_value]
    refine Table.eq_of_get?_eq (((Table.ascending_ofList _).union _).filter _) hext.ascending
      fun key => ?_
    rw [Table.get?_filter, Table.get?_union _ _ _ hext.ascending.nodup,
      Table.get?_ofList _ _ (hplain.1.sublist hnames)]
    cases hget : Table.get? key extensions with
    | some value => rw [if_pos (hext.keeps hplain (Table.mem_of_get? hget)), Option.some_or]
    | none =>
      split
      · rename_i hkeeps
        simp only [keeps, Bool.and_eq_true, Bool.not_eq_true'] at hkeeps
        have habsent : key ∉ members.map (·.1) := by
          rw [← List.contains_iff_mem, hkeeps.1.1]
          decide
        exact Table.get?_eq_none fun hmem => habsent (hnames.subset hmem)
      · rfl
  · refine ownExtensions_clean fun member hmember => ?_
    rcases Table.mem_union hmember with hfield | hextension
    · have hname := List.mem_map_of_mem (f := (·.1)) (Table.mem_of_mem_ofList hfield)
      exact .inl (hnames.subset hname)
    · exact .inr (hext.keeps hplain hextension)

theorem extensions_eq_own (hown : ownExtensions permitReserved allowed reader.location
      reader.members = ⟨extensions, []⟩) (hgroup : reader.raw? "extensions" = none) :
    reader.extensions permitReserved allowed = ⟨extensions, []⟩ := by
  rw [ObjectReader.extensions, hown, Checked.clean_bind]
  split
  · rename_i hempty
    rw [hgroup, List.isEmpty_iff.mp hempty]
    rfl
  · rfl

/-- What the readers find in an object that was written with these members and extensions. -/
structure Written (permitReserved : Bool) (names : List String)
    (members : List (String × Option Json)) (extensions : Extensions) (reader : ObjectReader) :
    Prop where
  field : ∀ {name : String} {value : Option Json}, (name, value) ∈ members →
    reader.raw? name = value
  extensions : reader.extensions permitReserved names = ⟨extensions, []⟩

theorem written_opens (names : List String) (hplain : Plain names)
    (hnames : members.map (·.1) = names) (hext : Kept permitReserved extensions)
    (location : Place) (key : Option PlaceStep) (required : Bool) :
    ∃ reader, open? (writeObject members extensions) location key required = ⟨some reader, []⟩ ∧
      Written permitReserved names members extensions reader := by
  subst hnames
  refine ⟨⟨Table.union (Table.ofList (present members)) extensions, location ++ key.toList⟩, rfl,
    ?_, ?_⟩
  · exact get?_written_of_mem hplain hext
  · exact extensions_eq_own (ownExtensions_written hplain hext)
      (get?_written_of_absent hplain hext (by decide) hplain.2.1)

theorem isReusable_of_reference (names : List String) (hplain : Plain names)
    (hnames : members.map (·.1) = names) (hext : Kept permitReserved extensions) {value : Json}
    (hreference : ("reference", some value) ∈ members) :
    Document.isReusable (writeObject members extensions) = true := by
  subst hnames
  rw [Document.isReusable, writeObject_eq, Json.get?, get?_written_of_mem hplain hext hreference]
  rfl

/-- Nothing that is written in place can be taken for a reference. -/
theorem isReusable_writeObject (names : List String) (hplain : Plain names)
    (hnames : members.map (·.1) = names) (hreference : "reference" ∉ names)
    (hext : Kept permitReserved extensions) :
    Document.isReusable (writeObject members extensions) = false := by
  subst hnames
  have habsent := get?_written_of_absent hplain hext (by decide) hreference
  rw [Document.isReusable, writeObject_eq, Json.get?, habsent]
  rfl

end ObjectReader

end Arazzo
