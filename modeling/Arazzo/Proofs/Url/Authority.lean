import Arazzo.Proofs.Leads
import Arazzo.Proofs.Text.Digits
import Arazzo.Url.Reader
import Mathlib.Data.List.TakeWhile

/-! Addresses of the web as they are written, and what the reader of URLs takes for their hosts and
ports. -/

namespace Arazzo

namespace Text

variable {mark : Char} {cs : List Char}

theorem takeWhile_of_splitOnce? {before after : List Char}
    (h : splitOnce? mark cs = some (before, after)) : cs.takeWhile (· != mark) = before := by
  obtain ⟨rfl, hbefore⟩ := splitOnce?_eq_some_iff.1 h
  have hkept : ∀ c ∈ before, (c != mark) = true := by
    intro c hc
    rw [bne_iff_ne]
    rintro rfl
    exact hbefore hc
  rw [List.takeWhile_append_of_pos hkept, List.takeWhile_cons_of_neg (by simp), List.append_nil]

theorem takeWhile_of_splitOnce?_none (h : splitOnce? mark cs = none) :
    cs.takeWhile (· != mark) = cs := by
  have habsent : mark ∉ cs := splitOnce?_eq_none_iff.1 h
  rw [List.takeWhile_eq_self_iff]
  intro c hc
  rw [bne_iff_ne]
  rintro rfl
  exact habsent hc

end Text

namespace Url

variable {naming : Naming} {scheme : String} {cs address host user : List Char} {written : Option (List Char)}
  {inside : Bool}

def inHead (c : Char) : Bool := c != '?' && c != '#'

def inAuthority (c : Char) : Bool := !isSlash true c && inHead c

theorem inHead_of_isSlash {c : Char} (h : isSlash true c = true) : inHead c = true := by
  have hkinds : c = '/' ∨ c = '\\' := by simpa [isSlash] using h
  rcases hkinds with rfl | rfl <;> decide

theorem cut_head (cs : List Char) : (cut cs).head = cs.takeWhile inHead := by
  have hboth : cs.takeWhile inHead = (cs.takeWhile (· != '#')).takeWhile (· != '?') := by
    rw [List.takeWhile_takeWhile]
    congr 1
    funext c
    rw [inHead, Bool.eq_iff_iff]
    simp
  rw [hboth]
  unfold cut
  rcases hfragment : Text.splitOnce? '#' cs with _ | ⟨rest, fragment⟩
  · rw [Text.takeWhile_of_splitOnce?_none hfragment]
    rcases hquery : Text.splitOnce? '?' cs with _ | ⟨head, query⟩
    · simp only [hquery, Text.takeWhile_of_splitOnce?_none hquery]
    · simp only [hquery, Text.takeWhile_of_splitOnce? hquery]
  · rw [Text.takeWhile_of_splitOnce? hfragment]
    rcases hquery : Text.splitOnce? '?' rest with _ | ⟨head, query⟩
    · simp only [hquery, Text.takeWhile_of_splitOnce?_none hquery]
    · simp only [hquery, Text.takeWhile_of_splitOnce? hquery]

theorem authority_cut (cs : List Char) :
    ((cut cs).head.dropWhile (isSlash true)).takeWhile (fun c => !isSlash true c) =
      (cs.dropWhile (isSlash true)).takeWhile inAuthority := by
  rw [cut_head]
  induction cs with
  | nil => rfl
  | cons c cs ih =>
    by_cases hslash : isSlash true c = true
    · rw [List.takeWhile_cons_of_pos (inHead_of_isSlash hslash), List.dropWhile_cons_of_pos hslash,
        List.dropWhile_cons_of_pos hslash, ih]
    · have hkept : ((c :: cs).takeWhile inHead).dropWhile (isSlash true) =
          (c :: cs).takeWhile inHead := by
        by_cases hhead : inHead c = true
        · rw [List.takeWhile_cons_of_pos hhead, List.dropWhile_cons_of_neg hslash]
        · rw [List.takeWhile_cons_of_neg hhead]
          rfl
      rw [hkept, List.dropWhile_cons_of_neg hslash, List.takeWhile_takeWhile]
      congr 1
      funext d
      simp [inAuthority]

theorem cutUserinfo?_eq_some_iff :
    cutUserinfo? cs = some (user, address) ↔ cs = user ++ '@' :: address ∧ '@' ∉ address := by
  unfold cutUserinfo?
  simp only [Option.map_eq_some_iff, Prod.exists, Text.splitOnce?_eq_some_iff, Prod.mk.injEq]
  constructor
  · rintro ⟨after, before, ⟨hcs, hafter⟩, rfl, rfl⟩
    refine ⟨?_, by simpa using hafter⟩
    rw [← List.reverse_inj, hcs]
    simp
  · rintro ⟨rfl, haddress⟩
    exact ⟨address.reverse, user.reverse, ⟨by simp, by simpa using haddress⟩, by simp, by simp⟩

theorem cutUserinfo?_eq_none_iff : cutUserinfo? cs = none ↔ '@' ∉ cs := by
  unfold cutUserinfo?
  rw [Option.map_eq_none_iff, Text.splitOnce?_eq_none_iff, List.mem_reverse]

def turn (inside : Bool) (c : Char) : Bool :=
  if c = '[' then true else if c = ']' then false else inside

def Guarded (inside : Bool) (host : List Char) : Prop :=
  ∀ before after, host = before ++ ':' :: after → before.foldl turn inside = true

theorem guarded_nil (inside : Bool) : Guarded inside [] := by
  intro before after h
  simp at h

theorem guarded_cons {c : Char} : Guarded inside (c :: cs) ↔
    (c = ':' → inside = true) ∧ Guarded (turn inside c) cs := by
  constructor
  · intro h
    refine ⟨?_, fun before after hcs => ?_⟩
    · rintro rfl
      exact h [] cs rfl
    · exact h (c :: before) after (by rw [hcs]; rfl)
  · rintro ⟨hfirst, hrest⟩ before after hcs
    cases before with
    | nil => exact hfirst (List.cons.inj hcs).1
    | cons b before =>
      obtain ⟨rfl, rfl⟩ := List.cons.inj hcs
      exact hrest before after rfl

def writtenPort : Option (List Char) → List Char
  | some port => ':' :: port
  | none => []

theorem cutPort_cons {c : Char} (h : c = ':' → inside = true) : cutPort inside (c :: cs) =
    (c :: (cutPort (turn inside c) cs).1, (cutPort (turn inside c) cs).2) := by
  rw [cutPort, if_neg]
  · rfl
  · rintro ⟨rfl, hout⟩
    simp [h rfl] at hout

theorem cutPort_parts {port : Option (List Char)} (h : cutPort inside cs = (host, port)) :
    cs = host ++ writtenPort port ∧ Guarded inside host ∧
      (port.isSome → host.foldl turn inside = false) := by
  induction cs generalizing inside host with
  | nil =>
    obtain ⟨rfl, rfl⟩ := Prod.mk.inj h
    exact ⟨rfl, guarded_nil inside, fun hport => by cases hport⟩
  | cons c cs ih =>
    by_cases hfirst : c = ':' → inside = true
    · rw [cutPort_cons hfirst] at h
      obtain ⟨rfl, rfl⟩ := Prod.mk.inj h
      obtain ⟨hcs, hguarded, hclosed⟩ := ih rfl
      exact ⟨congrArg (c :: ·) hcs, guarded_cons.2 ⟨hfirst, hguarded⟩, hclosed⟩
    · obtain ⟨rfl, hout⟩ := Classical.not_imp.1 hfirst
      have hout : inside = false := by simpa using hout
      subst hout
      obtain ⟨rfl, rfl⟩ := Prod.mk.inj h
      exact ⟨rfl, guarded_nil false, fun _ => rfl⟩

theorem cutPort_append {port : Option (List Char)} (hguarded : Guarded inside host)
    (hclosed : port.isSome → host.foldl turn inside = false) :
    cutPort inside (host ++ writtenPort port) = (host, port) := by
  induction host generalizing inside with
  | nil =>
    cases port with
    | none => rfl
    | some port =>
      have hout : inside = false := hclosed rfl
      subst hout
      rfl
  | cons c host ih =>
    obtain ⟨hfirst, hrest⟩ := guarded_cons.1 hguarded
    rw [List.cons_append, cutPort_cons hfirst, ih hrest hclosed]

/-! Reading an authority -/

def addressIn (authority : List Char) : List Char :=
  ((cutUserinfo? authority).getD ([], authority)).2

def withUser : Option (List Char) → List Char → List Char
  | some user, address => user ++ '@' :: address
  | none, address => address

theorem addressIn_withUser (h : '@' ∉ address) (user : Option (List Char)) :
    addressIn (withUser user address) = address := by
  unfold addressIn withUser
  cases user with
  | none => simp only [cutUserinfo?_eq_none_iff.2 h, Option.getD_none]
  | some user => simp only [cutUserinfo?_eq_some_iff.2 ⟨rfl, h⟩, Option.getD_some]

theorem exists_withUser (authority : List Char) :
    ∃ user, authority = withUser user (addressIn authority) ∧ '@' ∉ addressIn authority := by
  unfold addressIn
  rcases huser : cutUserinfo? authority with _ | ⟨user, address⟩
  · exact ⟨none, rfl, cutUserinfo?_eq_none_iff.1 huser⟩
  · obtain ⟨hauthority, hplain⟩ := cutUserinfo?_eq_some_iff.1 huser
    exact ⟨some user, hauthority, hplain⟩

theorem readAuthority_scheme {c : Cut} {u : Url} (h : readAuthority naming scheme c = .ok u) :
    u.scheme = scheme := by
  unfold readAuthority at h
  simp only [] at h
  split at h
  · cases h
  · obtain ⟨read, -, h⟩ := exists_of_bind_ok h
    obtain ⟨port, -, h⟩ := exists_of_bind_ok h
    cases h
    rfl

theorem readAuthority_ok {c : Cut} {u : Url} (hspecial : isSpecial scheme = true)
    (hcut : cutPort false (addressIn (c.head.takeWhile fun d => !isSlash true d)) = (host, written))
    (h : readAuthority naming scheme c = .ok u) :
    host ≠ [] ∧ (∃ read, Host.read? naming host = some read ∧ u.host = some read) ∧
      readPort scheme written = .ok u.port := by
  unfold addressIn at hcut
  unfold readAuthority readHost at h
  simp only [hspecial, hcut, Bool.true_or, Bool.and_true, if_true] at h
  split at h
  · cases h
  · rename_i hfilled
    obtain ⟨read, hread, h⟩ := exists_of_bind_ok h
    obtain ⟨port, hport, h⟩ := exists_of_bind_ok h
    cases h
    refine ⟨?_, ⟨read, ?_, rfl⟩, hport⟩
    · rintro rfl
      exact hfilled rfl
    · cases hfound : Host.read? naming host with
      | none =>
        rw [hfound] at hread
        cases hread
      | some found =>
        rw [hfound] at hread
        rw [Except.ok.inj hread]

theorem readHost_error {error : UrlError} (h : readHost naming scheme cs = .error error) :
    error = .malformed := by
  unfold readHost at h
  split at h <;> cases h
  rfl

theorem readPort_error {error : UrlError} (h : readPort scheme written = .error error) :
    error = .malformed := by
  unfold readPort at h
  split at h
  · cases h
  · cases h
  · split at h
    · split at h <;> cases h
      rfl
    · cases h
      rfl

theorem readAuthority_error {c : Cut} {error : UrlError}
    (h : readAuthority naming scheme c = .error error) :
    error = .malformed := by
  unfold readAuthority at h
  simp only [] at h
  split at h
  · cases h
    rfl
  · rcases cases_of_bind_error h with hhost | ⟨host, -, h⟩
    · exact readHost_error hhost
    · rcases cases_of_bind_error h with hport | ⟨port, -, h⟩
      · exact readPort_error hport
      · cases h

theorem readPort_ok {port : Option Nat} (h : readPort scheme written = .ok port) :
    (written.getD [] = [] ∧ port = none) ∨ ∃ digits n, written = some digits ∧
      Text.Writes digits n ∧ n ≤ 65535 ∧
        port = if defaultPort? scheme = some n then none else some n := by
  rcases written with _ | ⟨_ | ⟨c, cs⟩⟩
  · exact .inl ⟨rfl, (Except.ok.inj h).symm⟩
  · exact .inl ⟨rfl, (Except.ok.inj h).symm⟩
  · right
    simp only [readPort] at h
    split at h
    · rename_i n hn
      split at h
      · cases h
      · rename_i hsmall
        refine ⟨c :: cs, n, rfl, Text.readNat?_eq_some_iff.1 hn, Nat.le_of_not_gt hsmall, ?_⟩
        exact (Except.ok.inj h).symm
    · cases h

theorem isAlpha_of_asciiLower {c : Char} (h : (Text.asciiLower c).isAlpha = true) :
    c.isAlpha = true := by
  unfold Text.asciiLower at h
  split at h
  · rename_i hupper
    have hupper : c.isUpper = true := decide_eq_true hupper
    show (c.isUpper || c.isLower) = true
    rw [hupper, Bool.true_or]
  · exact h

theorem cutScheme?_web {name : List Char}
    (hweb : isWeb (String.ofList (name.map Text.asciiLower)) = true) (rest : List Char) :
    cutScheme? (name ++ ':' :: rest) = some (String.ofList (name.map Text.asciiLower), rest) := by
  have hlower : name.map Text.asciiLower = "http".toList ∨
      name.map Text.asciiLower = "https".toList := by
    simpa [isWeb, ← String.toList_inj] using hweb
  have hletters : ∀ c ∈ name, c.isAlpha = true := by
    intro c hc
    have hmem : Text.asciiLower c ∈ name.map Text.asciiLower := List.mem_map_of_mem hc
    have hall : (name.map Text.asciiLower).all Char.isAlpha = true := by
      rcases hlower with hlower | hlower <;> rw [hlower] <;> decide
    exact isAlpha_of_asciiLower (List.all_eq_true.1 hall _ hmem)
  have hcolon : ':' ∉ name := fun hmem => absurd (hletters _ hmem) (by decide)
  have hsplit : Text.splitOnce? ':' (name ++ ':' :: rest) = some (name, rest) :=
    Text.splitOnce?_eq_some_iff.2 ⟨rfl, hcolon⟩
  unfold cutScheme?
  rw [hsplit]
  cases name with
  | nil => rcases hlower with hlower | hlower <;> cases hlower
  | cons c name =>
    have hfirst := hletters c (List.mem_cons_self ..)
    have hname : name.all isSchemeChar = true := by
      rw [List.all_eq_true]
      intro d hd
      simp [isSchemeChar, Char.isAlphanum, hletters d (List.mem_cons_of_mem _ hd)]
    simp only [hfirst, hname, Bool.and_self, if_true]

theorem cutScheme?_parts {rest : List Char} (h : cutScheme? cs = some (scheme, rest)) :
    ∃ name : List Char, cs = name ++ ':' :: rest ∧
      scheme = String.ofList (name.map Text.asciiLower) := by
  unfold cutScheme? at h
  split at h
  · rename_i c name after hsplit
    split at h
    · obtain ⟨rfl, rfl⟩ := Prod.mk.inj (Option.some.inj h)
      exact ⟨c :: name, (Text.splitOnce?_eq_some_iff.1 hsplit).1, rfl⟩
    · cases h
  · cases h

theorem isSpecial_of_isWeb (h : isWeb scheme = true) : isSpecial scheme = true := by
  simp [isSpecial, h]

theorem parse_web {s : String} (hscheme : cutScheme? (cleaned s) = some (scheme, cs))
    (hweb : isWeb scheme = true) :
    parse naming s =
      readAuthority naming scheme { cut cs with head := (cut cs).head.dropWhile (isSlash true) } := by
  have hfile : (scheme == "file") = false := by
    rw [beq_eq_false_iff_ne]
    rintro rfl
    cases hweb
  unfold parse readWith
  simp only [hscheme, readAfterScheme, hfile, isSpecial_of_isWeb hweb, Option.filter_none, if_true,
    Bool.false_eq_true, if_false]

theorem readFile_scheme {u : Url} (h : readFile naming none cs = .ok u) : u.scheme = "file" := by
  unfold readFile at h
  simp only [] at h
  split at h
  · unfold readFileAuthority at h
    simp only [] at h
    split at h
    · cases h
      rfl
    · obtain ⟨host, -, h⟩ := exists_of_bind_ok h
      cases h
      rfl
  · cases h
    rfl

theorem readAfterScheme_scheme {u : Url} (h : readAfterScheme naming none scheme cs = .ok u) :
    u.scheme = scheme := by
  unfold readAfterScheme at h
  simp only [Option.filter_none] at h
  split at h
  · rename_i hfile
    exact (readFile_scheme h).trans (beq_iff_eq.1 hfile).symm
  · split at h
    · exact readAuthority_scheme h
    · split at h
      · exact readAuthority_scheme h
      · split at h
        · cases h
          rfl
        · cases h
          rfl

theorem parse_scheme {s : String} {u : Url} (h : parse naming s = .ok u) :
    ∃ cs, cutScheme? (cleaned s) = some (u.scheme, cs) := by
  unfold parse readWith at h
  simp only [] at h
  split at h
  · rename_i scheme rest hscheme
    exact ⟨rest, by rw [hscheme, readAfterScheme_scheme h]⟩
  · cases h
  · rename_i hbase
    cases hbase

structure WebAddress where
  scheme : List Char
  slashes : List Char
  user : Option (List Char)
  host : List Char
  port : Option (List Char)
  rest : List Char

namespace WebAddress

variable {a : WebAddress}

def authority (a : WebAddress) : List Char := withUser a.user (a.host ++ writtenPort a.port)

def text (a : WebAddress) : List Char :=
  a.scheme ++ ':' :: (a.slashes ++ (a.authority ++ a.rest))

def schemeName (a : WebAddress) : String := String.ofList (a.scheme.map Text.asciiLower)

/-- The parts are where a reader looks for them: the authority from the slashes to the next slash or
mark, the user before its last `@`, the port behind its first colon outside of brackets. -/
structure Formed (a : WebAddress) : Prop where
  web : isWeb a.schemeName = true
  slashes : ∀ c ∈ a.slashes, isSlash true c = true
  authority : ∀ c ∈ a.authority, inAuthority c = true
  rest : ∀ c ∈ a.rest.head?, inAuthority c = false
  host : a.host ≠ []
  plain : '@' ∉ a.host ++ writtenPort a.port
  guarded : Guarded false a.host
  closed : a.port.isSome → a.host.foldl turn false = false

theorem Formed.authority_ne_nil (formed : a.Formed) : a.authority ≠ [] := by
  unfold WebAddress.authority withUser
  cases a.user with
  | none => simp [formed.host]
  | some user => simp

theorem Formed.authority_eq (formed : a.Formed) :
    ((a.slashes ++ (a.authority ++ a.rest)).dropWhile (isSlash true)).takeWhile inAuthority =
      a.authority := by
  have hfirst : (a.authority ++ a.rest).dropWhile (isSlash true) = a.authority ++ a.rest := by
    obtain ⟨c, cs, hauthority⟩ := List.exists_cons_of_ne_nil formed.authority_ne_nil
    have hmem : c ∈ a.authority := by
      rw [hauthority]
      exact List.mem_cons_self ..
    have hin : inAuthority c = true := formed.authority c hmem
    have hslash : ¬ isSlash true c = true := by
      intro hslash
      simp [inAuthority, hslash] at hin
    rw [hauthority, List.cons_append, List.dropWhile_cons_of_neg hslash]
  have hstop : a.rest.takeWhile inAuthority = [] := by
    cases hrest : a.rest with
    | nil => rfl
    | cons c rest =>
      have hout : inAuthority c = false := formed.rest c (by rw [hrest]; rfl)
      rw [List.takeWhile_cons_of_neg (by simp [hout])]
  rw [List.dropWhile_append_of_pos formed.slashes, hfirst,
    List.takeWhile_append_of_pos formed.authority, hstop, List.append_nil]

end WebAddress

theorem WebAddress.Formed.parse_eq {s : String} {a : WebAddress} (formed : a.Formed)
    (htext : cleaned s = a.text) : ∃ c, parse naming s = readAuthority naming a.schemeName c ∧
      c.head.takeWhile (fun d => !isSlash true d) = a.authority := by
  have hscheme : cutScheme? (cleaned s) =
      some (a.schemeName, a.slashes ++ (a.authority ++ a.rest)) := by
    rw [htext]
    exact cutScheme?_web formed.web _
  exact ⟨_, parse_web hscheme formed.web, (authority_cut _).trans formed.authority_eq⟩

theorem parse_address {s : String} {u : Url} {a : WebAddress} (formed : a.Formed)
    (htext : cleaned s = a.text) (h : parse naming s = .ok u) :
    u.scheme = a.schemeName ∧ (∃ read, Host.read? naming a.host = some read ∧ u.host = some read) ∧
      readPort a.schemeName a.port = .ok u.port := by
  obtain ⟨c, hparse, hauthority⟩ := formed.parse_eq htext
  rw [hparse] at h
  have hcut : cutPort false (addressIn a.authority) = (a.host, a.port) := by
    rw [WebAddress.authority, addressIn_withUser formed.plain]
    exact cutPort_append formed.guarded formed.closed
  rw [← hauthority] at hcut
  obtain ⟨-, hhost, hport⟩ := readAuthority_ok (isSpecial_of_isWeb formed.web) hcut h
  exact ⟨readAuthority_scheme h, hhost, hport⟩

/-- Whatever is read as an address of the web is written in this form. -/
theorem exists_address {s : String} {u : Url} (h : parse naming s = .ok u) (hweb : isWeb u.scheme = true) :
    ∃ a : WebAddress, a.Formed ∧ cleaned s = a.text := by
  obtain ⟨cs, hscheme⟩ := parse_scheme h
  rw [parse_web hscheme hweb] at h
  obtain ⟨name, htext, hname⟩ := cutScheme?_parts hscheme
  let after := cs.dropWhile (isSlash true)
  rcases hcut : cutPort false (addressIn (after.takeWhile inAuthority)) with ⟨host, port⟩
  obtain ⟨user, hauthority, hplain⟩ := exists_withUser (after.takeWhile inAuthority)
  obtain ⟨haddress, hguarded, hclosed⟩ := cutPort_parts hcut
  rw [haddress] at hauthority hplain
  have hfilled : host ≠ [] := by
    rw [← authority_cut] at hcut
    exact (readAuthority_ok (isSpecial_of_isWeb hweb) hcut h).1
  refine ⟨⟨name, cs.takeWhile (isSlash true), user, host, port, after.dropWhile inAuthority⟩, ?_, ?_⟩
  · have hname : isWeb (String.ofList (name.map Text.asciiLower)) = true := hname ▸ hweb
    refine ⟨hname, ?_, ?_, ?_, hfilled, hplain, hguarded, hclosed⟩
    · exact fun c hc => List.mem_takeWhile_imp hc
    · intro c hc
      rw [WebAddress.authority, ← hauthority] at hc
      exact List.mem_takeWhile_imp hc
    · intro c hc
      have hstop := List.head?_dropWhile_not inAuthority after
      rw [Option.mem_def.1 hc] at hstop
      simpa using hstop
  · rw [htext, WebAddress.text, WebAddress.authority, ← hauthority, List.takeWhile_append_dropWhile,
      List.takeWhile_append_dropWhile]

end Url
end Arazzo
