import Arazzo.Proofs.Leads
import Arazzo.Proofs.Request.Template

/-! What the path of a request is filled with: each place gets the value of its own name, whatever the
values hold and however they are ordered, and a place without a value is told by its name. -/

namespace Arazzo.Request

variable {config : Config} {operation : Operation} {location : String} {values : Table String}
  {pieces : List Piece} {name : String} {query : List (String × String)}

/-- The place of this name has no value, and every place before it has one. -/
def LacksFirst (values : Table String) (pieces : List Piece) (name : String) : Prop :=
  ∃ before after, pieces = before ++ .place name :: after ∧ name ∉ Table.keys values ∧
    ∀ other, .place other ∈ before → other ∈ Table.keys values

def urlOf (config : Config) (base : Url) (filled : List Char) (query : List (String × String)) : Url :=
  let base := withLocalPort config base
  (base.setPath (String.ofList (joinPaths base.path.text.toList filled))).addToQuery query

theorem openName_eq_some_iff {p : Piece} :
    (p.name?.filter fun name => !Table.contains name values) = some name ↔
      p = .place name ∧ name ∉ Table.keys values := by
  cases p with
  | char c => simp [Piece.name?]
  | place other =>
    rw [Piece.name?, Option.filter_some, ← Table.contains_iff]
    cases hother : Table.contains other values with
    | true =>
      refine iff_of_false (by simp) ?_
      rintro ⟨⟨⟩, habsent⟩
      exact habsent hother
    | false =>
      constructor
      · rintro ⟨⟩
        exact ⟨rfl, by simp [hother]⟩
      · rintro ⟨⟨⟩, -⟩
        rfl

theorem openName_eq_none_iff {p : Piece} :
    (p.name?.filter fun name => !Table.contains name values) = none ↔
      ∀ other, p = .place other → other ∈ Table.keys values := by
  rw [Option.eq_none_iff_forall_ne_some]
  constructor
  · intro h other hplace
    by_contra habsent
    exact h other (openName_eq_some_iff.2 ⟨hplace, habsent⟩)
  · intro h other hopen
    obtain ⟨hplace, habsent⟩ := openName_eq_some_iff.1 hopen
    exact habsent (h other hplace)

theorem openPlaceholder?_eq_some_iff (hplain : Plain pieces)
    (hnames : ∀ entry ∈ values, Braceless entry.1.toList) :
    openPlaceholder? (fillPath values (textOf pieces)) = some name ↔
      LacksFirst values pieces name := by
  rw [openPlaceholder?_fillPath hplain hnames, List.findSome?_eq_some_iff]
  constructor
  · rintro ⟨before, p, after, rfl, hopen, hbefore⟩
    obtain ⟨rfl, habsent⟩ := openName_eq_some_iff.1 hopen
    refine ⟨before, after, rfl, habsent, fun other hother => ?_⟩
    exact openName_eq_none_iff.1 (hbefore _ hother) other rfl
  · rintro ⟨before, after, rfl, habsent, hbefore⟩
    refine ⟨before, .place name, after, rfl, openName_eq_some_iff.2 ⟨rfl, habsent⟩, fun p hp => ?_⟩
    apply openName_eq_none_iff.2
    rintro other rfl
    exact hbefore other hp

theorem openPlaceholder?_eq_none_iff (hplain : Plain pieces)
    (hnames : ∀ entry ∈ values, Braceless entry.1.toList) :
    openPlaceholder? (fillPath values (textOf pieces)) = none ↔
      ∀ name, .place name ∈ pieces → name ∈ Table.keys values := by
  rw [openPlaceholder?_fillPath hplain hnames, List.findSome?_eq_none_iff]
  constructor
  · intro h name hplace
    exact openName_eq_none_iff.1 (h _ hplace) name rfl
  · intro h p hp
    apply openName_eq_none_iff.2
    rintro other rfl
    exact h other hp

theorem exists_lacksFirst_iff (hplain : Plain pieces)
    (hnames : ∀ entry ∈ values, Braceless entry.1.toList) :
    (∃ name, LacksFirst values pieces name) ↔
      ∃ name, .place name ∈ pieces ∧ name ∉ Table.keys values := by
  constructor
  · rintro ⟨name, before, after, rfl, habsent, -⟩
    exact ⟨name, List.mem_append_right _ (List.mem_cons_self ..), habsent⟩
  · rintro ⟨name, hplace, habsent⟩
    cases hopen : openPlaceholder? (fillPath values (textOf pieces)) with
    | none =>
      have hgiven := (openPlaceholder?_eq_none_iff hplain hnames).1 hopen
      exact absurd (hgiven name hplace) habsent
    | some first => exact ⟨first, (openPlaceholder?_eq_some_iff hplain hnames).1 hopen⟩

theorem fillPath_perm {others : Table String} (hplain : Plain pieces)
    (hnames : ∀ entry ∈ values, Braceless entry.1.toList) (hdistinct : (Table.keys values).Nodup)
    (hperm : others.Perm values) :
    fillPath others (textOf pieces) = fillPath values (textOf pieces) := by
  have hnames' : ∀ entry ∈ others, Braceless entry.1.toList := fun entry hentry =>
    hnames entry (hperm.mem_iff.1 hentry)
  have hsame : Piece.fill others = Piece.fill values := by
    funext p
    cases p with
    | char c => rfl
    | place name => rw [Piece.fill, Piece.fill, Table.get?_perm hperm.symm hdistinct]
  rw [fillPath_textOf hplain hnames', fillPath_textOf hplain hnames, hsame]

theorem server_error {written : String} {error : RequestError}
    (h : server config location written = .error error) : error = .badUrl written := by
  unfold server at h
  split at h
  · cases h
  · exact (Except.error.inj h).symm
  · split at h
    · cases h
    · exact (Except.error.inj h).symm

theorem buildUrl_eq (config : Config) (operation : Operation) (location : String)
    (values : Table String) (query : List (String × String)) :
    buildUrl config operation location values query =
      (server config location (operation.baseUrl.getD "/")).bind fun base =>
        match openPlaceholder? (fillPath values operation.path.toList) with
        | some name => .error (.missingPathParameter name)
        | none => .ok (urlOf config base (fillPath values operation.path.toList) query) := by
  unfold buildUrl
  cases server config location (operation.baseUrl.getD "/") with
  | error error => rfl
  | ok base =>
    dsimp only [bind, Except.bind]
    cases openPlaceholder? (fillPath values operation.path.toList) <;> rfl

/--
A template of literal text and places is filled as if all places were filled at once: with braces,
percent signs or other places in the values each place holds the code of its own value and nothing else
has changed, in whatever order the values come. A request whose server can be read fails for a place
without a value and for nothing else, and tells the first such place.
-/
theorem buildUrl_fills (hplain : Plain pieces) (htext : operation.path.toList = textOf pieces)
    (hnames : ∀ entry ∈ values, Braceless entry.1.toList) (hdistinct : (Table.keys values).Nodup)
    (config : Config) (location : String) (query : List (String × String)) :
    (∀ base, server config location (operation.baseUrl.getD "/") = .ok base →
      ((∀ name, .place name ∈ pieces → name ∈ Table.keys values) →
        fillPath values operation.path.toList = pieces.flatMap (Piece.filled values) ∧
        buildUrl config operation location values query =
          .ok (urlOf config base (pieces.flatMap (Piece.filled values)) query)) ∧
      ((∃ name, buildUrl config operation location values query =
          .error (.missingPathParameter name)) ↔
        ∃ name, .place name ∈ pieces ∧ name ∉ Table.keys values) ∧
      ∀ name, buildUrl config operation location values query =
        .error (.missingPathParameter name) ↔ LacksFirst values pieces name) ∧
    (∀ error, server config location (operation.baseUrl.getD "/") = .error error →
      buildUrl config operation location values query = .error error ∧
      ∀ name, error ≠ .missingPathParameter name) ∧
    ∀ others : Table String, others.Perm values →
      fillPath others operation.path.toList = fillPath values operation.path.toList ∧
      buildUrl config operation location others query =
        buildUrl config operation location values query := by
  -- The name that is told is the first one that the filled path still has in braces.
  have hmissing {base : Url} (hbase : server config location (operation.baseUrl.getD "/") = .ok base)
      (name : String) : buildUrl config operation location values query =
        .error (.missingPathParameter name) ↔ LacksFirst values pieces name := by
    rw [← openPlaceholder?_eq_some_iff hplain hnames, ← htext, buildUrl_eq, hbase, Except.bind]
    cases openPlaceholder? (fillPath values operation.path.toList) with
    | none => simp
    | some other => simp
  refine ⟨fun base hbase => ⟨fun hgiven => ?_, ?_, hmissing hbase⟩, fun error herror => ⟨?_, ?_⟩,
    fun others hperm => ?_⟩
  · have hfilled : fillPath values operation.path.toList = pieces.flatMap (Piece.filled values) := by
      rw [htext]
      apply fillPath_eq_filled hplain hnames
      exact fun name hname => Table.contains_iff.2 (hgiven name hname)
    have hopen : openPlaceholder? (fillPath values operation.path.toList) = none := by
      rw [htext]
      exact (openPlaceholder?_eq_none_iff hplain hnames).2 hgiven
    refine ⟨hfilled, ?_⟩
    rw [buildUrl_eq, hbase, Except.bind, hopen, hfilled]
  · rw [← exists_lacksFirst_iff hplain hnames]
    exact exists_congr (hmissing hbase)
  · rw [buildUrl_eq, herror, Except.bind]
  · rw [server_error herror]
    simp
  · have hsame : fillPath others operation.path.toList = fillPath values operation.path.toList := by
      rw [htext]
      exact fillPath_perm hplain hnames hdistinct hperm
    exact ⟨hsame, by rw [buildUrl_eq, buildUrl_eq, hsame]⟩

def twisted : Operation :=
  ⟨"api", some "https://api.example", "GET", "/\x7ba\x7d/\x7bb\x7d", none, []⟩

def twistedPieces : List Piece := [.char '/', .place "a", .char '/', .place "b"]

def twistedValues : Table String := [("a", "\x7bb\x7d"), ("b", "%7B")]

theorem buildUrl_fills_twisted :
    ∃ base, server {} "" "https://api.example" = .ok base ∧
      buildUrl {} twisted "" twistedValues [] = .ok (urlOf {} base "/%7Bb%7D/%257B".toList []) ∧
      buildUrl {} twisted "" twistedValues.reverse [] =
        .ok (urlOf {} base "/%7Bb%7D/%257B".toList []) ∧
      buildUrl {} twisted "" [("a", "\x7bb\x7d")] [] = .error (.missingPathParameter "b") := by
  have hread : (server {} "" "https://api.example").toOption.isSome = true := by decide +kernel
  obtain ⟨base, hbase⟩ := Option.isSome_iff_exists.1 hread
  have hserver : server {} "" "https://api.example" = .ok base := eq_ok_of_toOption hbase
  have hplain : Plain twistedPieces := by decide
  have htext : twisted.path.toList = textOf twistedPieces := by decide
  have hplaces {name : String} (hname : .place name ∈ twistedPieces) : name = "a" ∨ name = "b" := by
    simpa [twistedPieces] using hname
  have hall : ∀ name, .place name ∈ twistedPieces → name ∈ Table.keys twistedValues := by
    intro name hname
    rcases hplaces hname with rfl | rfl <;> decide
  have hfilled : twistedPieces.flatMap (Piece.filled twistedValues) = "/%7Bb%7D/%257B".toList := by
    decide
  have hnames : ∀ entry ∈ twistedValues, Braceless entry.1.toList := by decide
  have hdistinct : (Table.keys twistedValues).Nodup := by decide
  obtain ⟨hserved, -, hordered⟩ := buildUrl_fills hplain htext hnames hdistinct {} "" []
  obtain ⟨hbuilt, -⟩ := hserved base hserver
  have htwisted := (hbuilt hall).2
  rw [hfilled] at htwisted
  have hlacks : LacksFirst [("a", "\x7bb\x7d")] twistedPieces "b" := by
    refine ⟨[.char '/', .place "a", .char '/'], [], rfl, by decide, fun other hother => ?_⟩
    obtain rfl : other = "a" := by simpa using hother
    decide
  have hfirst : ∀ entry ∈ [("a", "\x7bb\x7d")], Braceless entry.1.toList := by decide
  obtain ⟨hpartly, -⟩ := buildUrl_fills hplain htext hfirst (by decide) {} "" []
  refine ⟨base, hserver, htwisted, ?_, ((hpartly base hserver).2.2 "b").2 hlacks⟩
  exact (hordered _ (List.reverse_perm _)).2.trans htwisted

end Arazzo.Request
