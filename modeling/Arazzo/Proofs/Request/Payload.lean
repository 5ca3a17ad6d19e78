import Arazzo.Proofs.Json.Quoted
import Arazzo.Proofs.Replacement
import Arazzo.Proofs.Request.ContentType
import Arazzo.Proofs.Resolver.Parts
import Arazzo.Proofs.Text.Utf8
import Arazzo.Proofs.Url.Percent

/-! A replacement by the value that is there already: an array or an object is sent as without it, and a
text that holds one is sent as what it holds, no longer as a text. -/

namespace Arazzo

open Json

namespace Payload

variable {target : String} {pointer : Pointer} {payload document new result : Json} {text : String}
  {cs : List Char} {c : Char}

def pointsInto (target : String) : Bool :=
  (Text.trim target).toList.head? = some '/' ∨ Text.startsWith ['#', '/'] (Text.trim target).toList

theorem head?_trimStartChars (h : (skipSpace cs).head? = some c) (hc : Text.isBlank c = false) :
    (Text.trimStartChars cs).head? = some c := by
  induction cs with
  | nil => cases h
  | cons d cs ih =>
    rw [skipSpace, List.dropWhile_cons] at h
    rw [Text.trimStartChars, List.dropWhile_cons]
    split at h
    · rename_i hspace
      simp only [isSpace, Bool.or_eq_true, beq_iff_eq] at hspace
      have hblank : Text.isBlank d = true := by
        rcases hspace with ((rfl | rfl) | rfl) | rfl <;> rfl
      rw [if_pos hblank]
      exact ih h
    · obtain rfl := Option.some.inj h
      rw [hc]
      rfl

theorem structured_text (h : structured target (.str text) = .ok document) :
    parse? text = some document ∧ (document.opening? = some '\x7b' ∨ document.opening? = some '[') := by
  rw [structured] at h
  split at h
  · cases h
    exact ⟨‹_›, .inl rfl⟩
  · cases h
    exact ⟨‹_›, .inr rfl⟩
  · cases h

theorem xmlText?_of_structured (h : structured target payload = .ok document) :
    xmlText? payload = none := by
  cases payload with
  | str text =>
    obtain ⟨hparse, hopening⟩ := structured_text h
    have hnot : (Text.trimStartChars text.toList).head? ≠ some '<' := by
      rcases hopening with hopening | hopening
      all_goals
        rw [head?_trimStartChars (head?_of_parse? hparse hopening) rfl]
        decide
    rw [xmlText?, if_neg hnot]
  | _ => rfl

theorem replace_pointer (htarget : pointsInto target = true)
    (hpointer : Pointer.parse (Text.trim target) = .ok pointer)
    (hdocument : structured (Text.trim target) payload = .ok document)
    (hassign : pointer.assign new document = (.ok (), result)) :
    replace target new payload = .ok result := by
  have hslash : ((Text.trim target).toList.head? = some '/' ||
      Text.startsWith ['#', '/'] (Text.trim target).toList) = true := by
    simpa [pointsInto] using htarget
  have hdollar : (Text.trim target).toList.head? ≠ some '$' := by
    intro hdollar
    cases htext : (Text.trim target).toList with
    | nil => simp [htext] at hdollar
    | cons c cs =>
      rw [htext] at hdollar hslash
      obtain rfl := Option.some.inj hdollar
      simp [Text.startsWith] at hslash
  unfold replace
  dsimp only
  rw [if_neg hdollar, xmlText?_of_structured hdocument]
  dsimp only
  rw [if_pos hslash, replacePointer, hpointer, hdocument]
  dsimp only
  rw [hassign]

/-- The replacement puts back the value that its pointer finds in what the payload holds. -/
structure Idle (replacement : Replacement) (pointer : Pointer) (payload document : Json) : Prop where
  pointsInto : pointsInto replacement.target = true
  parse : Pointer.parse (Text.trim replacement.target) = .ok pointer
  structured : structured (Text.trim replacement.target) payload = .ok document
  resolve? : pointer.resolve? document = some replacement.value

end Payload

namespace Request

open Resolver

variable {config : Config} {operation : Operation} {location : String}
  {parameters : List Parameter} {body : RequestBody} {context : Context} {r : Resolver}
  {replacement : Replacement} {pointer : Pointer} {payload value document new result : Json}
  {contentType text : String} {fields : Table Json}

def bodyValue? (bytes : List UInt8) : Option Json :=
  (Text.decode? bytes).bind fun cs => parse? (String.ofList cs)

def namesJson (contentType : String) : Bool :=
  Text.contains "json".toList (Text.toAsciiLower contentType).toList

theorem bodyValue?_utf8 (cs : List Char) : bodyValue? (Text.utf8 cs) = parse? (String.ofList cs) := by
  rw [bodyValue?, Text.decode?_utf8, Option.bind_some]

/-- Where JSON is asked for, a text is sent as a text of JSON, whatever it holds. -/
theorem bodyValue?_text (h : namesJson contentType = true) (text : String) :
    bodyValue? (encodeBody contentType (.str text)) = some (.str text) := by
  rw [encodeBody]
  rw [namesJson] at h
  rw [if_pos h, bodyValue?_utf8, String.ofList_toList]
  exact parse?_quote text

theorem bodyValue?_ne_str (h : document.opening? = some '\x7b' ∨ document.opening? = some '[')
    (contentType text : String) :
    bodyValue? (encodeBody contentType document) ≠ some (.str text) := by
  have hrender : bodyValue? (Text.utf8 document.render.toList) ≠ some (.str text) := by
    rw [bodyValue?_utf8, String.ofList_toList]
    rcases h with h | h
    · exact parse?_render_ne_str h (by decide) rfl text
    · exact parse?_render_ne_str h (by decide) rfl text
  cases document with
  | arr items => exact hrender
  | obj members =>
    rw [encodeBody]
    dsimp only
    split
    · rw [bodyValue?_utf8]
      intro hform
      have hquote := mem_of_parse?_str hform
      rw [String.toList_ofList] at hquote
      exact absurd (Percent.standsInForm_of_mem_form hquote) (by decide)
    · exact hrender
  | _ => simp [opening?] at h

theorem resolved_payload (h : Becomes (some context) r payload value) :
    ((some <$> (resolveValue (some context) payload).adapt RequestError.resolve).run r).1 =
      .ok (some value) := by
  rw [run_map, run_adapt, h]
  rfl

theorem replacedPayload_plain (hpayload : body.payload = some payload)
    (h : Becomes (some context) r payload value) :
    ((replacedPayload context { body with replacements := [] }).run r).1 = .ok (some value) := by
  unfold replacedPayload
  simp only [hpayload]
  rw [run_bind_of_ok (resolved_payload h)]
  rfl

theorem resolveReplacements_single (h : Becomes (some context) r replacement.value new) :
    ((resolveReplacements context [replacement]).run r).1 = .ok [(replacement.target, new)] := by
  have hadapt : (((resolveValue (some context) replacement.value).adapt
      RequestError.resolve).run r).1 = .ok new := by
    rw [run_adapt, h]
    rfl
  rw [resolveReplacements, run_bind_of_ok hadapt]
  rfl

theorem replacedPayload_single (truthful : r.Truthful) (hpayload : body.payload = some payload)
    (h : Becomes (some context) r payload value)
    (hnew : Becomes (some context) r replacement.value new)
    (hreplace : Payload.replace replacement.target new value = .ok result) :
    ((replacedPayload context { body with replacements := [replacement] }).run r).1 =
      .ok (some result) := by
  unfold replacedPayload
  simp only [hpayload]
  rw [run_bind_of_ok (resolved_payload h)]
  simp only [List.isEmpty_cons, Bool.false_eq_true, if_false]
  have halike : Alike r ((some <$> (resolveValue (some context) payload).adapt
      RequestError.resolve).run r).2 := by
    rw [run_map, run_adapt]
    exact (blind_resolveValue (some context) payload).alike_after truthful
  rw [run_bind_of_ok (resolveReplacements_single (hnew.of_alike halike))]
  simp only [Option.getD_some, Payload.replaceAll, hreplace]
  rfl

theorem replacedPayload_error {error : ResolveError} (hpayload : body.payload = some payload)
    (h : ((resolveValue (some context) payload).run r).1 = .error error)
    (replacements : List Replacement) :
    ((replacedPayload context { body with replacements }).run r).1 = .error (.resolve error) := by
  unfold replacedPayload
  simp only [hpayload]
  refine run_bind_of_error ?_
  rw [run_map, run_adapt, h]
  rfl

theorem structured_of_becomes (truthful : r.Truthful) (hnotext : ∀ text, payload ≠ .str text)
    (h : Becomes (some context) r payload value) (target : String) :
    Payload.structured target value = .ok value := by
  cases payload with
  | str text => exact absurd rfl (hnotext text)
  | arr items =>
    obtain ⟨items', rfl, -⟩ := h.arr truthful
    rfl
  | obj members =>
    obtain ⟨members', rfl, -⟩ := h.obj truthful
    rfl
  | _ =>
    rw [Becomes, resolveValue_literal (by constructor)] at h
    cases h
    rfl

theorem replacedPayload_idle (truthful : r.Truthful) (hpayload : body.payload = some payload)
    (hidle : Payload.Idle replacement pointer payload payload) (hnotext : ∀ text, payload ≠ .str text)
    (hordered : payload.Ordered) (hfits : payload.Addressable) :
    ((replacedPayload context { body with replacements := [replacement] }).run r).1 =
      ((replacedPayload context { body with replacements := [] }).run r).1 := by
  cases hresolved : ((resolveValue (some context) payload).run r).1 with
  | error error => rw [replacedPayload_error hpayload hresolved, replacedPayload_error hpayload hresolved]
  | ok value =>
    have hvalue : Becomes (some context) r payload value := hresolved
    obtain ⟨new, hnew, hassign⟩ := hvalue.assignTokens truthful hordered hfits hidle.resolve?
    have hdocument := structured_of_becomes truthful hnotext hvalue (Text.trim replacement.target)
    rw [replacedPayload_plain hpayload hvalue, replacedPayload_single truthful hpayload hvalue hnew
      (Payload.replace_pointer hidle.pointsInto hidle.parse hdocument hassign)]

theorem buildPayload_congr {other : RequestBody}
    (h : ((replacedPayload context body).run r).1 = ((replacedPayload context other).run r).1) :
    ((buildPayload context fields (some body)).run r).1 =
      ((buildPayload context fields (some other)).run r).1 := by
  unfold buildPayload
  refine run_bind_congr h fun payload t t' => ?_
  rw [run_except, run_except]

theorem buildPayload_ok {payload : Option Json}
    (h : ((replacedPayload context body).run r).1 = .ok payload) :
    ((buildPayload context fields (some body)).run r).1 = mergeBody fields payload := by
  unfold buildPayload
  rw [run_bind_of_ok h, run_except]

/-- Members are only added to objects. -/
theorem mergeBody_text {merged : Option Json} (h : mergeBody fields (some (.str text)) = .ok merged)
    (document : Json) :
    merged = some (.str text) ∧ mergeBody fields (some document) = .ok (some document) := by
  unfold mergeBody at h ⊢
  split at h
  · rename_i hnone
    cases h
    exact ⟨rfl, if_pos hnone⟩
  · cases h

/-! Requests -/

def assembled (config : Config) (operation : Operation) (contentType : String) (parts : Parts)
    (url : Url) (payload : Option Json) : BuiltRequest :=
  let headers := match payload with
    | some _ => withContentType contentType parts.allHeaders
    | none => parts.allHeaders
  { request :=
      { method := operation.method, url, headers,
        body := (payload.map (encodeBody contentType)).getD [],
        timeout := config.requestTimeout, maxBytes := config.maxResponseBytes }
    exchange :=
      { method := operation.method, url := url.text, requestHeaders := headers,
        pathParams := parts.path, queryParams := Table.ofList parts.query,
        requestBody := payload } }

theorem blind_addParameters (operation : Operation) (context : Context)
    (parameters : List Parameter) (parts : Parts) :
    Blind (parameters.foldlM (addParameter operation context) parts) :=
  .foldlM (fun _ _ => (blind_resolveValue _ _).adapt.bind fun _ => .of_pure _) _ _

def outcome (config : Config) (operation : Operation) (location : String)
    (parameters : List Parameter) (context : Context) (r : Resolver) (body : RequestBody) :
    Except RequestError BuiltRequest :=
  ((build config operation location parameters (some body) context).run r).1

/-- Nothing but the payload depends on the replacements. -/
theorem outcome_cases (config : Config) (operation : Operation) (location : String)
    (parameters : List Parameter) (context : Context) (truthful : r.Truthful) (body : RequestBody) :
    (∃ error, ∀ replacements, outcome config operation location parameters context r
      { body with replacements } = .error error) ∨
    ∃ parts url r', Alike r r' ∧ ∀ replacements,
      outcome config operation location parameters context r { body with replacements } =
        ((buildPayload context parts.body (some { body with replacements })).run r').1.map
          (assembled config operation (bodyType config (some body)) parts url) := by
  have halike := (blind_addParameters operation context parameters {}).alike_after truthful
  unfold outcome
  -- The parameters and the URL come first, whatever is to be replaced.
  cases hparts : ((parameters.foldlM (addParameter operation context) {}).run r).1 with
  | error error => exact .inl ⟨error, fun replacements => run_bind_of_error hparts⟩
  | ok parts =>
    cases hurl : buildUrl config operation location parts.path parts.query with
    | error error =>
      refine .inl ⟨error, fun replacements => ?_⟩
      unfold build
      rw [run_bind_of_ok hparts]
      refine run_bind_of_error ?_
      rw [run_except, hurl]
    | ok url =>
      refine .inr ⟨parts, url, _, halike, fun replacements => ?_⟩
      unfold build
      rw [run_bind_of_ok hparts, hurl, run_bind_of_ok (a := url) rfl]
      cases hpayload : ((buildPayload context parts.body (some { body with replacements })).run _).1 with
      | error error => exact run_bind_of_error hpayload
      | ok payload => exact run_bind_of_ok hpayload

theorem outcome_idle (truthful : r.Truthful) (hpayload : body.payload = some payload)
    (hidle : Payload.Idle replacement pointer payload payload) (hnotext : ∀ text, payload ≠ .str text)
    (hordered : payload.Ordered) (hfits : payload.Addressable) :
    outcome config operation location parameters context r { body with replacements := [replacement] } =
      outcome config operation location parameters context r { body with replacements := [] } := by
  rcases outcome_cases config operation location parameters context truthful body with
    ⟨error, herror⟩ | ⟨parts, url, r', halike, hbuilt⟩
  · rw [herror, herror]
  · rw [hbuilt, hbuilt, buildPayload_congr
      (replacedPayload_idle halike.truthful' hpayload hidle hnotext hordered hfits)]

theorem outcome_idle_text (truthful : r.Truthful) (hpayload : body.payload = some (.str text))
    (hidle : Payload.Idle replacement pointer (.str text) document) (hfits : document.Addressable)
    (hstays : Becomes (some context) r (.str text) (.str text))
    (hkept : Becomes (some context) r replacement.value replacement.value) {built : BuiltRequest}
    (hbuilt : outcome config operation location parameters context r
      { body with replacements := [] } = .ok built) :
    built.request.body = encodeBody (bodyType config (some body)) (.str text) ∧
      ∃ built', outcome config operation location parameters context r
          { body with replacements := [replacement] } = .ok built' ∧
        built'.request =
          { built.request with body := encodeBody (bodyType config (some body)) document } := by
  have hordered : document.Ordered := Payload.ordered_structured (.str text) hidle.structured
  have hreplace := Payload.replace_pointer hidle.pointsInto hidle.parse hidle.structured
    (Pointer.assignTokens_self hordered hfits hidle.resolve?)
  rcases outcome_cases config operation location parameters context truthful body with
    ⟨error, herror⟩ | ⟨parts, url, r', halike, hcases⟩
  · rw [herror] at hbuilt
    cases hbuilt
  · have hplain := replacedPayload_plain hpayload (hstays.of_alike halike)
    have hreplaced := replacedPayload_single halike.truthful' hpayload (hstays.of_alike halike)
      (hkept.of_alike halike) hreplace
    rw [hcases, buildPayload_ok hplain] at hbuilt
    obtain ⟨merged, hmerged, rfl⟩ := exists_of_map_ok hbuilt
    -- Parameters of the body would have no object to go into, so there are none.
    obtain ⟨rfl, hmerged'⟩ := mergeBody_text hmerged document
    refine ⟨rfl, assembled config operation (bodyType config (some body)) parts url (some document),
      ?_, rfl⟩
    rw [hcases, buildPayload_ok hreplaced, hmerged']
    rfl

/--
A replacement puts the value that a pointer finds back in its place. For a payload that is no text the
same comes of building the request as without the replacement. A text that holds an array or an object is
sent under a type of JSON as a text of JSON without the replacement, and with it as what it holds, which is
not read as a text.
-/
theorem outcome_idle_replacement (config : Config) (operation : Operation) (location : String)
    (parameters : List Parameter) (context : Context) (body : RequestBody)
    (truthful : r.Truthful) (hpayload : body.payload = some payload)
    (hidle : Payload.Idle replacement pointer payload document) (hordered : payload.Ordered)
    (hfits : document.Addressable) :
    ((∀ text, payload ≠ .str text) →
      outcome config operation location parameters context r
          { body with replacements := [replacement] } =
        outcome config operation location parameters context r { body with replacements := [] }) ∧
    ∀ text, payload = .str text → Becomes (some context) r payload payload →
      Becomes (some context) r replacement.value replacement.value →
      namesJson (bodyType config (some body)) = true →
      ∀ built, outcome config operation location parameters context r
          { body with replacements := [] } = .ok built →
        ∃ built', outcome config operation location parameters context r
            { body with replacements := [replacement] } = .ok built' ∧
          built'.request =
            { built.request with body := encodeBody (bodyType config (some body)) document } ∧
          bodyValue? built.request.body = some payload ∧
          ∀ text', bodyValue? built'.request.body ≠ some (.str text') := by
  constructor
  · intro hnotext
    have hsame : document = payload := by
      have hstructured := hidle.structured
      cases payload with
      | str text => exact absurd rfl (hnotext text)
      | _ => exact (Except.ok.inj hstructured).symm
    subst hsame
    exact outcome_idle truthful hpayload hidle hnotext hordered hfits
  · rintro text rfl hstays hkept hjson built hbuilt
    obtain ⟨hbody, built', hbuilt', hrequest⟩ := outcome_idle_text truthful hpayload hidle hfits hstays
      hkept hbuilt
    refine ⟨built', hbuilt', hrequest, ?_, fun text' => ?_⟩
    · rw [hbody]
      exact bodyValue?_text hjson text
    · rw [hrequest]
      exact bodyValue?_ne_str (Payload.structured_text hidle.structured).2 _ text'

def noteText : String := "\x7b\"a\":1\x7d"

def noteObject : Json := .obj [("a", .ofNat 1)]

def keepNote : Replacement := ⟨"/a", .ofNat 1, []⟩

def noting (payload : Json) (replacements : List Replacement) : Except RequestError BuiltRequest :=
  outcome {} upload "" [] { workflowId := "w", inputs := .null }
    { document := ⟨"1.0.1", {}, [], [], none, [], none⟩ }
    ⟨some "application/json", some payload, replacements, []⟩

def sends (text : String) : Except RequestError BuiltRequest → Bool
  | .ok built => built.request.body == Text.utf8 text.toList
  | .error _ => false

theorem exists_of_sends {result : Except RequestError BuiltRequest} (h : sends text result = true) :
    ∃ built, result = .ok built ∧ built.request.body = Text.utf8 text.toList := by
  cases result with
  | error error => cases h
  | ok built => exact ⟨built, rfl, eq_of_beq h⟩

theorem parse?_noteText : parse? noteText = some noteObject := by rfl

theorem literal_noteText : (Json.str noteText).Literal := .str (by decide +kernel) (by decide +kernel)

theorem idle_keepNote {payload : Json}
    (h : Payload.structured (Text.trim keepNote.target) payload = .ok noteObject) :
    Payload.Idle keepNote ⟨"/a"⟩ payload noteObject :=
  ⟨by decide +kernel, by decide +kernel, h, rfl⟩

theorem structured_noteText :
    Payload.structured (Text.trim keepNote.target) (.str noteText) = .ok noteObject := by
  rw [Payload.structured, parse?_noteText]
  rfl

theorem outcome_idle_replacement_note :
    noting noteObject [keepNote] = noting noteObject [] ∧
      ∃ built built', noting (.str noteText) [] = .ok built ∧
        noting (.str noteText) [keepNote] = .ok built' ∧
        bodyValue? built.request.body = some (.str noteText) ∧
        ∀ text, bodyValue? built'.request.body ≠ some (.str text) := by
  have hsends : sends (quote noteText) (noting (.str noteText) []) = true := by decide +kernel
  obtain ⟨built, hbuilt, -⟩ := exists_of_sends hsends
  have truthful : Truthful { document := ⟨"1.0.1", {}, [], [], none, [], none⟩ } := truthful_nil _ _
  have hordered : noteObject.Ordered := ordered_of_parse? parse?_noteText
  have hfits : noteObject.Addressable := .obj (by simpa using .num _)
  obtain ⟨hsame, -⟩ := outcome_idle_replacement {} upload "" [] { workflowId := "w", inputs := .null }
    ⟨some "application/json", some noteObject, [], []⟩ truthful rfl (idle_keepNote rfl) hordered hfits
  obtain ⟨-, htext⟩ := outcome_idle_replacement {} upload "" [] { workflowId := "w", inputs := .null }
    ⟨some "application/json", some (.str noteText), [], []⟩ truthful rfl
    (idle_keepNote structured_noteText) (.str _) hfits
  obtain ⟨built', hbuilt', -, hplain, hreplaced⟩ := htext noteText rfl (becomes_literal literal_noteText)
    (becomes_literal (.num _)) (by decide +kernel) built hbuilt
  exact ⟨hsame (fun text h => by cases h), built, built', hbuilt, hbuilt', hplain, hreplaced⟩

/-- A text that holds an object is sent as a text, and with its member put back as an object. -/
theorem noteText_sent_otherwise :
    (Json.str noteText).Literal ∧ namesJson "application/json" = true ∧
      Payload.Idle keepNote ⟨"/a"⟩ (.str noteText) noteObject ∧
      ∃ built built', noting (.str noteText) [] = .ok built ∧
        noting (.str noteText) [keepNote] = .ok built' ∧
        bodyValue? built.request.body = some (.str noteText) ∧
        bodyValue? built'.request.body = some noteObject ∧
        bodyValue? built.request.body ≠ bodyValue? built'.request.body := by
  have hsends : sends (quote noteText) (noting (.str noteText) []) = true := by decide +kernel
  have hsends' : sends noteText (noting (.str noteText) [keepNote]) = true := by decide +kernel
  obtain ⟨built, hbuilt, hbody⟩ := exists_of_sends hsends
  obtain ⟨built', hbuilt', hbody'⟩ := exists_of_sends hsends'
  have hplain : bodyValue? built.request.body = some (.str noteText) := by
    rw [hbody, bodyValue?_utf8, String.ofList_toList, parse?_quote]
  have hreplaced : bodyValue? built'.request.body = some noteObject := by
    rw [hbody', bodyValue?_utf8, String.ofList_toList, parse?_noteText]
  refine ⟨literal_noteText, by decide +kernel, idle_keepNote structured_noteText, built, built', hbuilt,
    hbuilt', hplain, hreplaced, ?_⟩
  rw [hplain, hreplaced]
  exact fun h => by cases h

end Request

end Arazzo
