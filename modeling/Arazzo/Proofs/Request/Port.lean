import Arazzo.Proofs.Text.Utf8
import Arazzo.Proofs.Url.Authority
import Arazzo.Request

/-! The port that a request goes to: the one that the server's address writes, except that this
machine is asked at another one where the address writes none or the scheme's own. -/

namespace Arazzo
namespace Url

/-- Where a request for the URL goes. -/
def portInUse (u : Url) : Option Nat := u.port.or (defaultPort? u.scheme)

theorem portInUse_setPort (port : Nat) (u : Url) : (u.setPort port).portInUse = some port := by
  by_cases hown : defaultPort? u.scheme = some port
  · have hport : (u.setPort port).port = none := if_pos hown
    rw [portInUse, hport]
    exact hown
  · have hport : (u.setPort port).port = some port := if_neg hown
    rw [portInUse, hport]
    rfl

theorem portInUse_congr {u u' : Url} (hscheme : u.scheme = u'.scheme) (hport : u.port = u'.port) :
    u.portInUse = u'.portInUse := by
  rw [portInUse, portInUse, hscheme, hport]

theorem setPath_frame (path : String) (u : Url) : (u.setPath path).scheme = u.scheme ∧
    (u.setPath path).host = u.host ∧ (u.setPath path).port = u.port := by
  unfold setPath
  simp only []
  split <;> exact ⟨rfl, rfl, rfl⟩

theorem addToQuery_frame (pairs : List (String × String)) (u : Url) :
    (u.addToQuery pairs).scheme = u.scheme ∧ (u.addToQuery pairs).host = u.host ∧
      (u.addToQuery pairs).port = u.port := by
  unfold addToQuery
  split
  · exact ⟨rfl, rfl, rfl⟩
  · simp only []
    split <;> exact ⟨rfl, rfl, rfl⟩

end Url

namespace Request

open Url

variable {config : Config} {operation : Operation} {location : String} {values : Table String}
  {query : List (String × String)} {url : Url}

def localhost : Host := .domain "localhost"

/-- A name of ASCII characters as they are, in which no label stands for others. -/
structure IsPlainHost (cs : List Char) : Prop where
  percent : '%' ∉ cs
  bracket : '[' ∉ cs
  name : Host.isPlainName cs = true

theorem decodeBytes_plain {cs : List Char} (h : '%' ∉ cs) : Percent.decodeBytes cs = Text.utf8 cs := by
  induction cs with
  | nil => rfl
  | cons c cs ih =>
    have hc : c ≠ '%' := fun heq => h (heq ▸ List.mem_cons_self ..)
    have hrest : Percent.decodeBytes cs = Text.utf8 cs := ih fun hin => h (List.mem_cons_of_mem _ hin)
    unfold Percent.decodeBytes
    split
    · rename_i heq
      exact absurd (List.cons.inj heq).1 hc
    · rename_i heq
      obtain ⟨rfl, rfl⟩ := List.cons.inj heq
      rw [hrest]
      rfl
    · rename_i heq
      cases heq

/-- However other names are written in ASCII, a plain name is this machine's in lower case alone. -/
theorem read?_eq_localhost_iff {naming : Naming} {cs : List Char} (h : IsPlainHost cs) :
    Host.read? naming cs = some localhost ↔ cs.map Text.asciiLower = "localhost".toList := by
  have hbracket : Host.bracketed? cs = none := by
    cases cs with
    | nil => rfl
    | cons c cs =>
      unfold Host.bracketed?
      split
      · rename_i heq
        exact absurd (List.mem_cons_self ..) ((List.cons.inj heq).1 ▸ h.bracket)
      · rfl
  have hname : Host.readDomain? naming cs = Host.allowed? (cs.map Text.asciiLower) := by
    rw [Host.readDomain?, decodeBytes_plain h.percent, Text.decode?_utf8]
    exact naming.plain cs h.name
  unfold Host.read?
  rw [hbracket, hname]
  constructor
  · intro hread
    obtain ⟨name, hallowed, hname⟩ := Option.bind_eq_some_iff.1 hread
    split at hname
    · obtain ⟨address, -, ⟨⟩⟩ := Option.map_eq_some_iff.1 hname
    · obtain ⟨⟩ := hname
      obtain ⟨-, hlower⟩ := Option.ite_none_left_eq_some.1 hallowed
      rw [← Option.some.inj hlower, String.toList_ofList]
  · intro hlower
    rw [hlower]
    decide

theorem withLocalPort_frame (config : Config) (u : Url) :
    (withLocalPort config u).scheme = u.scheme ∧ (withLocalPort config u).host = u.host ∧
      (withLocalPort config u).portInUse =
        if u.host = some localhost ∧ u.port = none then some config.localhostPort
        else u.portInUse := by
  unfold withLocalPort
  by_cases hlocal : u.host = some localhost ∧ u.port = none
  · have hnone : u.host = some (.domain "localhost") ∧ u.port.isNone := ⟨hlocal.1, by simp [hlocal.2]⟩
    rw [if_pos hnone, if_pos hlocal]
    exact ⟨rfl, rfl, portInUse_setPort ..⟩
  · have hnot : ¬ (u.host = some (.domain "localhost") ∧ u.port.isNone) := by
      rintro ⟨hhost, hport⟩
      exact hlocal ⟨hhost, Option.isNone_iff_eq_none.1 hport⟩
    rw [if_neg hnot, if_neg hlocal]
    exact ⟨rfl, rfl, rfl⟩

theorem buildUrl_port_server (h : buildUrl config operation location values query = .ok url) :
    ∃ base, server config location (operation.baseUrl.getD "/") = .ok base ∧
      url.scheme = base.scheme ∧ url.host = base.host ∧
      url.portInUse = if base.host = some localhost ∧ base.port = none then some config.localhostPort
        else base.portInUse := by
  unfold buildUrl at h
  obtain ⟨base, hbase, h⟩ := exists_of_bind_ok h
  simp only [] at h
  split at h
  · cases h
  · obtain rfl := Except.ok.inj h
    obtain ⟨hscheme, hhost, hport⟩ := withLocalPort_frame config base
    refine ⟨base, hbase, ?_, ?_, ?_⟩
    · rw [(addToQuery_frame ..).1, (setPath_frame ..).1, hscheme]
    · rw [(addToQuery_frame ..).2.1, (setPath_frame ..).2.1, hhost]
    · rw [← hport]
      refine portInUse_congr ?_ ?_
      · rw [(addToQuery_frame ..).1, (setPath_frame ..).1]
      · rw [(addToQuery_frame ..).2.2, (setPath_frame ..).2.2]

theorem server_of_address {written : String} {a : WebAddress} {base : Url} (formed : a.Formed)
    (htext : cleaned written = a.text) (h : server config location written = .ok base) :
    Url.parse config.naming written = .ok base := by
  unfold server at h
  split at h
  · rename_i u hparse
    rw [hparse, Except.ok.inj h]
  · cases h
  · rename_i hparse
    obtain ⟨c, hread, -⟩ := formed.parse_eq htext
    rw [hread] at hparse
    cases readAuthority_error hparse

/-- The port that is read in place of a written one: none where the scheme has it by default. -/
theorem portInUse_of_written {base : Url} {n : Nat}
    (hport : base.port = if defaultPort? base.scheme = some n then none else some n) :
    (if base.host = some localhost ∧ base.port = none then some config.localhostPort
      else base.portInUse) =
      some (if base.host = some localhost ∧ defaultPort? base.scheme = some n
        then config.localhostPort else n) := by
  by_cases hown : defaultPort? base.scheme = some n
  · rw [if_pos hown] at hport
    have huse : base.portInUse = some n := by
      rw [portInUse, hport]
      exact hown
    by_cases hlocal : base.host = some localhost
    · rw [if_pos ⟨hlocal, hport⟩, if_pos ⟨hlocal, hown⟩]
    · rw [if_neg fun h => hlocal h.1, if_neg fun h => hlocal h.1, huse]
  · rw [if_neg hown] at hport
    have huse : base.portInUse = some n := by
      rw [portInUse, hport]
      rfl
    have hsome : base.port ≠ none := by simp [hport]
    rw [if_neg fun h => hsome h.2, if_neg fun h => hown h.2, huse]

/--
Nothing but the rule for this machine comes between the server that is read and the request. A server's
address of the web is read in the parts in which it is written, and a request goes to the port that is
written there. This machine is asked at the port of the settings instead, where the address writes no
port and where it writes the one that its scheme has by default.
-/
theorem buildUrl_port (config : Config) (operation : Operation) (location : String)
    (values : Table String) (query : List (String × String)) (url : Url) (written : String)
    (hwritten : operation.baseUrl = some written)
    (hbuilt : buildUrl config operation location values query = .ok url) :
    (∃ base, server config location written = .ok base ∧
        url.scheme = base.scheme ∧ url.host = base.host ∧
        url.portInUse = if base.host = some localhost ∧ base.port = none
          then some config.localhostPort else base.portInUse) ∧
      (∀ u, Url.parse config.naming written = .ok u → isWeb u.scheme = true →
        ∃ a : WebAddress, a.Formed ∧ cleaned written = a.text) ∧
      ∀ a : WebAddress, a.Formed → cleaned written = a.text →
        url.scheme = a.schemeName ∧ url.host = Host.read? config.naming a.host ∧
        (IsPlainHost a.host →
          (url.host = some localhost ↔ a.host.map Text.asciiLower = "localhost".toList)) ∧
        ((a.port.getD [] = [] ∧ url.portInUse =
            if url.host = some localhost then some config.localhostPort
            else defaultPort? url.scheme) ∨
          ∃ digits n, a.port = some digits ∧ Text.Writes digits n ∧ n ≤ 65535 ∧
            url.portInUse = some
              (if url.host = some localhost ∧ defaultPort? url.scheme = some n
                then config.localhostPort else n)) := by
  obtain ⟨base, hserver, hscheme, hhost, huse⟩ := buildUrl_port_server hbuilt
  rw [hwritten] at hserver
  refine ⟨⟨base, hserver, hscheme, hhost, huse⟩, fun u hparse hweb => exists_address hparse hweb,
    fun a formed htext => ?_⟩
  have hparse := server_of_address formed htext hserver
  obtain ⟨hname, ⟨read, hread, hbase⟩, hport⟩ := parse_address formed htext hparse
  rw [← hname] at hport
  have hwritten : url.host = Host.read? config.naming a.host := by rw [hhost, hbase, hread]
  refine ⟨hscheme.trans hname, hwritten, fun hplain => ?_, ?_⟩
  · rw [hwritten]
    exact read?_eq_localhost_iff hplain
  rcases readPort_ok hport with ⟨hnone, hport⟩ | ⟨digits, n, hdigits, hwrites, hsmall, hport⟩
  · refine .inl ⟨hnone, ?_⟩
    rw [huse, hhost, hscheme, portInUse, hport]
    simp
  · refine .inr ⟨digits, n, hdigits, hwrites, hsmall, ?_⟩
    rw [huse, hhost, hscheme]
    exact portInUse_of_written hport

def service (scheme host port : String) : WebAddress :=
  ⟨scheme.toList, "//".toList, none, host.toList, some port.toList, "/api".toList⟩

theorem service_formed {scheme host port : String}
    (hweb : isWeb (service scheme host port).schemeName = true)
    (hauthority : (service scheme host port).authority.all inAuthority = true)
    (hplain : '@' ∉ (service scheme host port).authority)
    (hfilled : host.toList ≠ []) (hcolon : ':' ∉ host.toList)
    (hclosed : host.toList.foldl turn false = false) : (service scheme host port).Formed := by
  refine ⟨hweb, ?_, List.all_eq_true.1 hauthority, ?_, hfilled, hplain, ?_, fun _ => hclosed⟩
  · have hslashes : "//".toList.all (isSlash true) = true := by decide
    exact List.all_eq_true.1 hslashes
  · show ∀ c ∈ some '/', inAuthority c = false
    rintro c ⟨⟩
    decide
  · rintro before after hhost
    have hmem : ':' ∈ host.toList := by
      rw [show host.toList = before ++ ':' :: after from hhost]
      simp
    exact absurd hmem hcolon

theorem formed_localhost : (service "http" "localhost" "80").Formed :=
  service_formed (by decide) (by decide) (by decide) (by decide) (by decide) (by decide)

theorem formed_example : (service "https" "api.example" "8443").Formed :=
  service_formed (by decide) (by decide) (by decide) (by decide) (by decide) (by decide)

def served (written : String) : Operation := ⟨"api", some written, "GET", "/p", none, []⟩

/-- The port is written, and the request goes to another one. -/
theorem buildUrl_port_default :
    ∃ url, buildUrl {} (served "http://localhost:80/api") "" [] [] = .ok url ∧
      cleaned "http://localhost:80/api" = (service "http" "localhost" "80").text ∧
      (service "http" "localhost" "80").Formed ∧ Text.Writes "80".toList 80 ∧
      url.portInUse = some 8080 := by
  have hbuilt : (buildUrl {} (served "http://localhost:80/api") "" [] []).toOption.any
      (fun url => url.portInUse == some 8080) = true := by decide +kernel
  obtain ⟨url, hurl, hport⟩ := (Option.any_eq_true _ _).1 hbuilt
  exact ⟨url, eq_ok_of_toOption hurl, by decide, formed_localhost, ⟨by decide, by simp, by decide⟩,
    beq_iff_eq.1 hport⟩

theorem buildUrl_port_example :
    ∃ url, (served "https://api.example:8443/api").baseUrl = some "https://api.example:8443/api" ∧
      buildUrl {} (served "https://api.example:8443/api") "" [] [] = .ok url ∧
      url.host ≠ some localhost ∧ url.portInUse = some 8443 := by
  have hbuilt : (buildUrl {} (served "https://api.example:8443/api") "" [] []).toOption.any
      (fun url => url.host != some localhost) = true := by decide +kernel
  obtain ⟨url, hurl, hhost⟩ := (Option.any_eq_true _ _).1 hbuilt
  have hhost : url.host ≠ some localhost := bne_iff_ne.1 hhost
  have hurl := eq_ok_of_toOption hurl
  have htext : cleaned "https://api.example:8443/api" =
      (service "https" "api.example" "8443").text := by decide
  obtain ⟨-, -, hport⟩ := buildUrl_port {} _ "" [] [] url _ rfl hurl
  obtain ⟨-, -, -, hport⟩ := hport _ formed_example htext
  refine ⟨url, rfl, hurl, hhost, ?_⟩
  rcases hport with ⟨hnone, -⟩ | ⟨digits, n, hdigits, hwrites, -, huse⟩
  · cases hnone
  · obtain rfl := Option.some.inj hdigits
    rw [huse, if_neg fun h => hhost h.1, ← hwrites.value]
    decide

end Request
end Arazzo
