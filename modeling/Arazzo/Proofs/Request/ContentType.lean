import Arazzo.Proofs.Leads
import Arazzo.Proofs.Table
import Arazzo.Request
import Mathlib.Data.List.Nodup

/-! What a request says its content is, and what its body is encoded as: the same, unless a parameter
among the headers tells the type. -/

namespace Arazzo
namespace Request

variable {config : Config} {operation : Operation} {location : String}
  {parameters : List Parameter} {body : Option RequestBody} {context : Context} {r r' : Resolver}
  {built : BuiltRequest} {payload : Json} {headers : Table String} {name told : String}

def tellsContent (name : String) : Bool := Text.sameIgnoringCase name "Content-Type"

/-- The type that is written with the body, else the one of the settings. -/
def bodyType (config : Config) (body : Option RequestBody) : String :=
  (body.bind (·.contentType)).getD config.contentType

/-- One header tells the type of the content, and the body is encoded as it says. -/
def Declared (request : HttpRequest) (payload : Json) : Prop :=
  ∃ header, request.headers.filter (tellsContent ·.1) = [header] ∧
    request.body = encodeBody header.2 payload

def IsHeader (operation : Operation) (parameters : List Parameter) (name : String) : Prop :=
  ∃ p ∈ parameters, locationOf operation p = .header ∧ p.name = name

/-- The headers are those that there were, and those of the parameters. -/
structure Gathers (operation : Operation) (parameters : List Parameter) (first last : Parts) :
    Prop where
  ascending : Table.Ascending first.headers → Table.Ascending last.headers
  names : ∀ name, Table.contains name last.headers = true ↔
    Table.contains name first.headers = true ∨ IsHeader operation parameters name

theorem gathers_nil (parts : Parts) : Gathers operation [] parts parts := by
  refine ⟨fun h => h, fun name => ?_⟩
  simp [IsHeader]

theorem gathers_add (p : Parameter) (value : Json) (parts : Parts) :
    Gathers operation [p] parts (parts.add (locationOf operation p) p.name value) := by
  have hone (name : String) :
      IsHeader operation [p] name ↔ locationOf operation p = .header ∧ p.name = name := by
    simp [IsHeader]
  -- Only parameters of one location touch the headers.
  cases hlocation : locationOf operation p with
  | header =>
    refine ⟨fun h => h.insert p.name value.plainText, fun name => ?_⟩
    rw [hone, hlocation]
    simp [Parts.add, Table.contains_insert, or_comm]
  | _ =>
    refine ⟨fun h => h, fun name => ?_⟩
    rw [hone, hlocation]
    simp [Parts.add]

theorem Gathers.cons {p : Parameter} {first middle last : Parts}
    (h : Gathers operation [p] first middle) (h' : Gathers operation parameters middle last) :
    Gathers operation (p :: parameters) first last := by
  refine ⟨fun hfirst => h'.ascending (h.ascending hfirst), fun name => ?_⟩
  rw [h'.names, h.names]
  simp [IsHeader, or_assoc]

theorem addParameters_leads (parts : Parts) (r : Resolver) :
    Leads (parameters.foldlM (addParameter operation context) parts) r
      (fun last _ => Gathers operation parameters parts last) fun _ _ => True := by
  induction parameters generalizing parts r with
  | nil => exact .of_pure (gathers_nil parts)
  | cons p parameters ih =>
    have hadd : Leads (addParameter operation context parts p) r
        (fun middle _ => Gathers operation [p] parts middle) fun _ _ => True :=
      (Leads.anything _ r).bind fun value _ _ => .of_pure (gathers_add p value parts)
    rw [List.foldlM_cons]
    refine hadd.bind fun middle r' hmiddle => ?_
    exact (ih middle r').mono (fun _ _ hlast => hmiddle.cons hlast) fun _ _ _ => trivial

theorem tellsContent_iff :
    tellsContent name = true ↔ name.toList.map Text.asciiLower = "content-type".toList := by
  have hplain : (Text.toAsciiLower "Content-Type").toList = "content-type".toList := by
    rw [Text.toAsciiLower, String.toList_map]
    decide
  rw [tellsContent, Text.sameIgnoringCase, beq_iff_eq, ← String.toList_inj, hplain,
    Text.toAsciiLower, String.toList_map]

theorem tellsContent_self : tellsContent "Content-Type" = true := tellsContent_iff.2 (by decide)

theorem not_tellsContent_cookie : ¬ tellsContent "Cookie" = true :=
  fun h => absurd (tellsContent_iff.1 h) (by decide)

theorem contains_allHeaders (parts : Parts) (h : tellsContent name = true) :
    Table.contains name parts.allHeaders = Table.contains name parts.headers := by
  have hcookie : "Cookie" ≠ name := fun hname => not_tellsContent_cookie (hname ▸ h)
  rw [Parts.allHeaders]
  split
  · rfl
  · rw [Table.contains_insert, decide_eq_false hcookie, Bool.false_or]

theorem ascending_allHeaders {parts : Parts} (h : Table.Ascending parts.headers) :
    Table.Ascending parts.allHeaders := by
  rw [Parts.allHeaders]
  split
  · exact h
  · exact h.insert ..

theorem get?_withContentType (contentType : String) (headers : Table String) :
    Table.get? "Content-Type" (withContentType contentType headers) =
      some ((Table.get? "Content-Type" headers).getD contentType) := by
  rw [withContentType]
  split
  · rename_i hcontains
    obtain ⟨value, hvalue⟩ := Option.isSome_iff_exists.1 hcontains
    rw [hvalue]
    rfl
  · rename_i habsent
    have hnone : Table.get? "Content-Type" headers = none := by
      simpa [Table.contains] using habsent
    rw [Table.get?_insert, if_pos rfl, hnone]
    rfl

theorem contains_withContentType (contentType : String) (headers : Table String) (name : String) :
    Table.contains name (withContentType contentType headers) = true ↔
      name = "Content-Type" ∨ Table.contains name headers = true := by
  rw [withContentType]
  split
  · rename_i hcontains
    refine ⟨.inr, ?_⟩
    rintro (rfl | h)
    · exact hcontains
    · exact h
  · rw [Table.contains_insert, Bool.or_eq_true, decide_eq_true_eq, eq_comm]

theorem ascending_withContentType (h : Table.Ascending headers) (contentType : String) :
    Table.Ascending (withContentType contentType headers) := by
  rw [withContentType]
  split
  · exact h
  · exact h.insert ..

theorem filter_eq_singleton_iff (h : Table.Ascending headers)
    (htold : Table.get? name headers = some told) {p : String → Bool} (hp : p name = true) :
    headers.filter (fun header => p header.1) = [(name, told)] ↔
      ∀ other, Table.contains other headers = true → p other = true → other = name := by
  have hmem : (name, told) ∈ headers := Table.mem_of_get? htold
  constructor
  · intro hfilter other hother hpother
    obtain ⟨value, hvalue⟩ := Option.isSome_iff_exists.1 hother
    have hin : (other, value) ∈ headers.filter fun header => p header.1 :=
      List.mem_filter.2 ⟨Table.mem_of_get? hvalue, hpother⟩
    rw [hfilter, List.mem_singleton] at hin
    exact congrArg Prod.fst hin
  · intro honly
    have hsame : ∀ header ∈ headers, p header.1 = decide (header = (name, told)) := by
      intro header hheader
      have hget := h.get?_of_mem (show (header.1, header.2) ∈ headers from hheader)
      by_cases hkey : header.1 = name
      · rw [hkey] at hget ⊢
        have hvalue : header.2 = told := Option.some.inj (hget.symm.trans htold)
        rw [hp, decide_eq_true (Prod.ext hkey hvalue)]
      · have hother : ¬ p header.1 = true := fun hpheader =>
          hkey (honly _ (Option.isSome_iff_exists.2 ⟨_, hget⟩) hpheader)
        rw [Bool.eq_false_iff.2 hother, decide_eq_false fun hheader => hkey (congrArg Prod.fst hheader)]
    have honce : headers.count (name, told) = 1 :=
      List.count_eq_one_of_mem (List.Nodup.of_map _ h.nodup) hmem
    rw [List.filter_congr hsame, List.filter_eq, honce]
    rfl

theorem build_leads (r : Resolver) :
    Leads (build config operation location parameters body context) r
      (fun built _ => ∃ parts, Gathers operation parameters {} parts ∧
        ∀ payload, built.exchange.requestBody = some payload →
          built.request.headers = withContentType (bodyType config body) parts.allHeaders ∧
          built.request.body = encodeBody (bodyType config body) payload)
      fun _ _ => True := by
  unfold build
  refine (addParameters_leads {} r).bind fun parts r₁ hparts => ?_
  refine (Leads.anything _ r₁).bind fun url r₂ _ => ?_
  refine (Leads.anything _ r₂).bind fun found r₃ _ => .of_pure ⟨parts, hparts, ?_⟩
  rintro payload rfl
  exact ⟨rfl, rfl⟩

theorem Gathers.get?_eq_none {parts : Parts} (h : Gathers operation parameters {} parts)
    (habsent : ¬ IsHeader operation parameters "Content-Type") :
    Table.get? "Content-Type" parts.allHeaders = none := by
  have hcontains : Table.contains "Content-Type" parts.allHeaders = false := by
    rw [contains_allHeaders parts tellsContent_self, Bool.eq_false_iff, ne_eq, h.names]
    simpa [Table.contains] using habsent
  simpa [Table.contains] using hcontains

theorem Gathers.tells_iff {parts : Parts} (h : Gathers operation parameters {} parts)
    (contentType : String) (htells : tellsContent name = true) :
    Table.contains name (withContentType contentType parts.allHeaders) = true ↔
      name = "Content-Type" ∨ IsHeader operation parameters name := by
  rw [contains_withContentType, contains_allHeaders parts htells, h.names]
  simp [Table.contains]

theorem declared_iff {request : HttpRequest} (hsorted : Table.Ascending request.headers)
    (htold : Table.get? "Content-Type" request.headers = some told) :
    Declared request payload ↔
      (∀ name, Table.contains name request.headers = true → tellsContent name = true →
        name = "Content-Type") ∧ request.body = encodeBody told payload := by
  rw [← filter_eq_singleton_iff hsorted htold tellsContent_self, Declared]
  constructor
  · rintro ⟨header, hfilter, hencoded⟩
    have hin : ("Content-Type", told) ∈ request.headers.filter (tellsContent ·.1) :=
      List.mem_filter.2 ⟨Table.mem_of_get? htold, tellsContent_self⟩
    obtain rfl := List.mem_singleton.1 (hfilter ▸ hin)
    exact ⟨hfilter, hencoded⟩
  · rintro ⟨hfilter, hencoded⟩
    exact ⟨_, hfilter, hencoded⟩

/--
A request with a payload tells a type of its content, and where no parameter does so, it tells one
type only, as which the body is encoded. A parameter with that name replaces what is told, but not the
encoding, and one with the name in another spelling is told beside it.
-/
theorem build_contentType
    (hrun : (build config operation location parameters body context).run r = (.ok built, r'))
    (hpayload : built.exchange.requestBody = some payload) :
    ((∀ name, IsHeader operation parameters name → tellsContent name = false) →
        Declared built.request payload) ∧
      built.request.body = encodeBody (bodyType config body) payload ∧
      ∃ told, Table.get? "Content-Type" built.request.headers = some told ∧
        (¬ IsHeader operation parameters "Content-Type" → told = bodyType config body) ∧
        (Declared built.request payload ↔
          (∀ name, IsHeader operation parameters name → tellsContent name = true →
            name = "Content-Type") ∧
          encodeBody told payload = encodeBody (bodyType config body) payload) := by
  obtain ⟨parts, hparts, hbuilt⟩ := (build_leads r).of_ok hrun
  obtain ⟨hheaders, hbody⟩ := hbuilt payload hpayload
  have hsorted : Table.Ascending built.request.headers := by
    rw [hheaders]
    exact ascending_withContentType (ascending_allHeaders (hparts.ascending Table.ascending_nil)) _
  have htold := get?_withContentType (bodyType config body) parts.allHeaders
  rw [← hheaders] at htold
  have hplain (habsent : ¬ IsHeader operation parameters "Content-Type") :
      (Table.get? "Content-Type" parts.allHeaders).getD (bodyType config body) =
        bodyType config body := by
    rw [hparts.get?_eq_none habsent, Option.getD_none]
  -- The table holds what is told by parameters, and the one type that is put in.
  have honly : (∀ name, Table.contains name built.request.headers = true →
      tellsContent name = true → name = "Content-Type") ↔
      ∀ name, IsHeader operation parameters name → tellsContent name = true →
        name = "Content-Type" := by
    rw [hheaders]
    refine forall_congr' fun name => ⟨fun h hheader htells => ?_, fun h hin htells => ?_⟩
    · exact h ((hparts.tells_iff _ htells).2 (.inr hheader)) htells
    · rcases (hparts.tells_iff _ htells).1 hin with hname | hheader
      · exact hname
      · exact h hheader htells
  have hdeclared : Declared built.request payload ↔ _ := declared_iff hsorted htold
  rw [honly, hbody, eq_comm] at hdeclared
  refine ⟨fun hsilent => hdeclared.2 ⟨fun name hheader htells => ?_, ?_⟩, hbody, _, htold, hplain,
    hdeclared⟩
  · rw [hsilent name hheader] at htells
    cases htells
  · have habsent : ¬ IsHeader operation parameters "Content-Type" := fun hheader => by
      have hnot := hsilent _ hheader
      rw [tellsContent_self] at hnot
      cases hnot
    rw [hplain habsent]

def upload : Operation := ⟨"api", some "https://api.example", "POST", "/p", none, []⟩

def uploading (parameters : List Parameter) : Except RequestError BuiltRequest × Resolver :=
  (build {} upload "" parameters (some ⟨none, some (.str "hello"), [], []⟩)
    { workflowId := "w", inputs := .null }).run { document := ⟨"1.0.1", {}, [], [], none, [], none⟩ }

def carries (headers : Table String) : Except RequestError BuiltRequest × Resolver → Bool
  | (.ok built, _) => built.exchange.requestBody.isSome && built.request.headers == headers
  | _ => false

theorem exists_of_carries {result : Except RequestError BuiltRequest × Resolver}
    (h : carries headers result = true) :
    ∃ built r' payload, result = (.ok built, r') ∧ built.exchange.requestBody = some payload ∧
      built.request.headers = headers := by
  unfold carries at h
  split at h
  · rename_i built r'
    obtain ⟨hpayload, hheaders⟩ := Bool.and_eq_true_iff.1 h
    obtain ⟨payload, hpayload⟩ := Option.isSome_iff_exists.1 hpayload
    exact ⟨built, r', payload, rfl, hpayload, eq_of_beq hheaders⟩
  · cases h

theorem build_contentType_upload :
    ∃ built r' payload, uploading [] = (.ok built, r') ∧
      built.exchange.requestBody = some payload ∧ Declared built.request payload := by
  have hcarries : carries [("Content-Type", "application/json")] (uploading []) = true := by
    decide +kernel
  obtain ⟨built, r', payload, hrun, hpayload, -⟩ := exists_of_carries hcarries
  obtain ⟨hdeclared, -⟩ := build_contentType hrun hpayload
  refine ⟨built, r', payload, hrun, hpayload, hdeclared ?_⟩
  rintro name ⟨p, hp, -⟩
  cases hp

def smallTyped : Parameter := ⟨"content-type", some .header, .str "text/plain", []⟩

/-- Two headers tell two types. -/
theorem contentType_doubled :
    ∃ built r' payload, uploading [smallTyped] = (.ok built, r') ∧
      built.exchange.requestBody = some payload ∧
      built.request.headers =
        [("Content-Type", "application/json"), ("content-type", "text/plain")] ∧
      ¬ Declared built.request payload := by
  have hcarries : carries [("Content-Type", "application/json"), ("content-type", "text/plain")]
      (uploading [smallTyped]) = true := by
    decide +kernel
  obtain ⟨built, r', payload, hrun, hpayload, hheaders⟩ := exists_of_carries hcarries
  refine ⟨built, r', payload, hrun, hpayload, hheaders, ?_⟩
  rintro ⟨header, hfilter, -⟩
  have htells : tellsContent "content-type" = true := tellsContent_iff.2 (by decide)
  rw [hheaders] at hfilter
  simp [tellsContent_self, htells] at hfilter

end Request
end Arazzo
