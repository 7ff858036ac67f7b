import ControlPlaneKit.Client.ReadBack
import ControlPlaneKit.Server.Surfaces

/-!
# Bodies that raise

The HTTP boundary with the decoder of the interpreter in place of a parameter. A request on which it
raises has a body with more opening brackets than may be nested, or with a long run of digits
(`httpHandle_of_plain`). Bodies of nested lists and long numbers do raise on every command route
(`httpHandle_brackets`, `httpHandle_digits`).
-/

namespace ControlPlaneKit

namespace Server

/-- A text whose brackets can be nested, and without a long run of digits. -/
structure PlainText (ip : Interpreter) (cs : List Char) : Prop where
  nested : cs.countP Scan.isOpening ≤ ip.depthLimit
  digits : ¬ Scan.LongDigits cs

section Bodies

variable {P : Type} {platform : Platform} {composition : Composition} {application : Application P}
  {ip : Interpreter} {method path : String} {headers : Headers} {body query : List UInt8}
  {route : Route} {parameters : List (String × String)} {principal : P}

/-- What a request that is not decoded shows of its body. -/
theorem HttpUndecodable.shows (hloads : platform.loads = (Hooks.plain ip).loadsBytes ip.depthLimit)
    (h : HttpUndecodable platform composition application.verify method path headers body query) :
    ∃ s, decodeUtf8 body = some s ∧ ¬ PlainText ip s.toList := by
  obtain ⟨route, parameters, principal, -, -, -, -, -, -, hraises⟩ := h
  rw [hloads] at hraises
  rcases hraises with hrecursion | hvalue
  · obtain ⟨s, hs, hdeep⟩ := Hooks.loadsBytes_raised (e := .recursion)
      (Hooks.not_raises_plain ip) nofun hrecursion
    exact ⟨s, hs, fun hplain => absurd hdeep (Nat.not_lt.mpr hplain.nested)⟩
  · obtain ⟨s, hs, hlong⟩ := Hooks.loadsBytes_raised (e := .value)
      (Hooks.not_raises_plain ip) nofun hvalue
    exact ⟨s, hs, fun hplain => hplain.digits hlong⟩

/-- **A body of plain text is answered**, whatever the request. -/
theorem httpHandle_of_plain (hloads : platform.loads = (Hooks.plain ip).loadsBytes ip.depthLimit)
    (hbody : ∀ s, decodeUtf8 body = some s → PlainText ip s.toList) :
    ∃ response, httpHandle platform composition application method path headers body query =
      .ok response := by
  refine (httpHandle_ok_iff.trans httpRequest_ok_iff).mpr fun h => ?_
  obtain ⟨s, hs, hraises⟩ := h.shows hloads
  exact hraises (hbody s hs)

/-- A body that the decoder refuses with another exception, on a command route. -/
theorem httpHandle_raises {cs : List Char} {e : LoadsError} (he : e ≠ .decode)
    (hloads : platform.loads = (Hooks.plain ip).loadsBytes ip.depthLimit)
    (hroute : matchHttpRoute platform composition method path = some (route, parameters))
    (hprincipal : authenticate platform application.verify headers = some principal)
    (hcommand : route.method ≠ "GET") (hascii : ∀ c ∈ cs, c.toNat < 128) (hne : cs ≠ [])
    (hsize : cs.length ≤ route.maxBytes)
    (hraised : (Hooks.plain ip).loads ip.depthLimit cs = .error e) :
    ¬ ∃ response, httpHandle platform composition application method path headers
      (Json.asciiBytes cs) [] = .ok response := by
  have hbytes : platform.loads (Json.asciiBytes cs) = e.loaded := by
    rw [hloads, Hooks.loadsBytes_refused hascii hraised]
  rw [httpHandle_ok_iff, httpRequest_ok_iff, not_not]
  refine ⟨route, parameters, principal, hroute, hprincipal, hcommand, rfl, ?_, ?_, ?_⟩
  · rwa [Json.asciiBytes, Ne, List.map_eq_nil_iff]
  · rwa [Json.length_asciiBytes]
  · cases e with
    | decode => exact absurd rfl he
    | value => exact .inr hbytes
    | recursion => exact .inl hbytes

/-- **Nested lists** that are too deep raise on every command route whose bound they meet. -/
theorem httpHandle_brackets {n : ℕ}
    (hloads : platform.loads = (Hooks.plain ip).loadsBytes ip.depthLimit)
    (hroute : matchHttpRoute platform composition method path = some (route, parameters))
    (hprincipal : authenticate platform application.verify headers = some principal)
    (hcommand : route.method ≠ "GET") (hn : ip.depthLimit < n) (hsize : n ≤ route.maxBytes) :
    ¬ ∃ response, httpHandle platform composition application method path headers
      (Json.asciiBytes (List.replicate n '[')) [] = .ok response := by
  have hraised : (Hooks.plain ip).loads ip.depthLimit (List.replicate n '[' ++ []) =
      .error .recursion := Hooks.loads_brackets hn
  rw [List.append_nil] at hraised
  refine httpHandle_raises (e := .recursion) nofun hloads hroute hprincipal hcommand ?_ ?_ ?_ hraised
  · intro c hc
    rw [List.eq_of_mem_replicate hc]
    decide
  · rw [Ne, List.replicate_eq_nil_iff]
    omega
  · rwa [List.length_replicate]

/-- **Numbers of too many digits** raise there too. -/
theorem httpHandle_digits {c : Char} {ds : List Char}
    (hloads : platform.loads = (Hooks.plain ip).loadsBytes ip.depthLimit)
    (hroute : matchHttpRoute platform composition method path = some (route, parameters))
    (hprincipal : authenticate platform application.verify headers = some principal)
    (hcommand : route.method ≠ "GET") (hfirst : c ≠ '0')
    (hdigits : ∀ d ∈ c :: ds, Scan.isDigit d = true) (hlong : 4300 < (c :: ds).length)
    (hsize : (c :: ds).length ≤ route.maxBytes) :
    ¬ ∃ response, httpHandle platform composition application method path headers
      (Json.asciiBytes (c :: ds)) [] = .ok response := by
  refine httpHandle_raises (e := .value) nofun hloads hroute hprincipal hcommand ?_
    (List.cons_ne_nil c ds) hsize (Hooks.loads_digits hfirst hdigits hlong)
  intro d hd
  have hrange : ('0' ≤ d && d ≤ '9') = true := hdigits d hd
  rw [Bool.and_eq_true, decide_eq_true_eq, decide_eq_true_eq] at hrange
  exact Nat.lt_of_le_of_lt hrange.2 (by decide)

end Bodies

end Server

end ControlPlaneKit
