import ControlPlaneKit.Python.Urlsplit

/-!
# `urllib.request.Request` and what the text of a URL leads to

A request is made from the text of its URL, and `http.client` refuses some texts before it asks the
network: a port that is no number, characters that may not be sent, and names without an `idna` form.
What Unicode has to say in this is a parameter `Tables`. No proxy is configured.
-/

namespace ControlPlaneKit

namespace Url

/-- What the standard library takes from Unicode: the checks of a network location in `urlsplit`, the
decimal digits of `int`, and which names beyond ASCII the `idna` codec encodes. -/
structure Tables where
  admits : List ℕ → Bool
  digit : ℕ → Option ℕ
  encodes : List ℕ → Bool

/-! ### UTF-8 with replacement -/

/-- A character of several bytes under way: the bytes that it still needs, the range of the next one,
and its value so far. -/
structure Pending where
  needed : ℕ
  lower : ℕ
  upper : ℕ
  value : ℕ

/-- The first byte of a character: what it decodes to, or what it starts. -/
def firstByte (b : ℕ) : List ℕ × Option Pending :=
  if b < 0x80 then ([b], none)
  else if 0xC2 ≤ b ∧ b ≤ 0xDF then ([], some ⟨1, 0x80, 0xBF, b - 0xC0⟩)
  else if 0xE0 ≤ b ∧ b ≤ 0xEF then
    ([], some ⟨2, if b = 0xE0 then 0xA0 else 0x80, if b = 0xED then 0x9F else 0xBF, b - 0xE0⟩)
  else if 0xF0 ≤ b ∧ b ≤ 0xF4 then
    ([], some ⟨3, if b = 0xF0 then 0x90 else 0x80, if b = 0xF4 then 0x8F else 0xBF, b - 0xF0⟩)
  else ([0xFFFD], none)

/-- `bytes.decode("utf-8", "replace")`. -/
def decodeReplace : Option Pending → List ℕ → List ℕ
  | none, [] => []
  | some _, [] => [0xFFFD]
  | none, b :: rest => (firstByte b).1 ++ decodeReplace (firstByte b).2 rest
  | some p, b :: rest =>
    if p.lower ≤ b ∧ b ≤ p.upper then
      let value := p.value * 64 + (b - 0x80)
      if p.needed = 1 then value :: decodeReplace none rest
      else decodeReplace (some ⟨p.needed - 1, 0x80, 0xBF, value⟩) rest
    -- the character ends before this byte, which is the first one of another
    else 0xFFFD :: (firstByte b).1 ++ decodeReplace (firstByte b).2 rest

/-! ### `unquote` -/

/-- The value of a hexadecimal digit. -/
def hexValue (n : ℕ) : Option ℕ :=
  if 48 ≤ n ∧ n ≤ 57 then some (n - 48)
  else if 65 ≤ n ∧ n ≤ 70 then some (n - 55)
  else if 97 ≤ n ∧ n ≤ 102 then some (n - 87)
  else none

/-- `unquote_to_bytes`, for characters of ASCII. -/
def unquoteToBytes : List ℕ → List ℕ
  | 37 :: a :: b :: rest =>
    match hexValue a, hexValue b with
    | some high, some low => (16 * high + low) :: unquoteToBytes rest
    | _, _ => 37 :: unquoteToBytes (a :: b :: rest)
  | n :: rest => n :: unquoteToBytes rest
  | [] => []

/-- A character of ASCII. -/
def isAscii (n : ℕ) : Bool :=
  n < 128

/-- `unquote`: the runs of ASCII are decoded, what is between them is kept. -/
def unquote (value : List ℕ) : List ℕ :=
  (value.splitBy fun a b => isAscii a == isAscii b).flatMap fun run =>
    if run.all isAscii then decodeReplace none (unquoteToBytes run) else run

/-! ### Requests -/

/-- `unwrap`. -/
def unwrap (url : List ℕ) : List ℕ :=
  let url := Strip.strip url
  let url := if url.head? = some 60 ∧ url.getLast? = some 62 then Strip.strip url.tail.dropLast
    else url
  if url.take 4 = codesOf "URL:" then Strip.strip (url.drop 4) else url

/-- `_splittag`; the tag is empty where it is `None`. -/
def splittag (url : List ℕ) : List ℕ × List ℕ :=
  let mark := rpartition 35 url
  if mark.2.1 then (mark.1, mark.2.2) else (url, [])

/-- `_splittype`. -/
def splittype (url : List ℕ) : Option (List ℕ) × List ℕ :=
  let type := url.takeWhile fun n => n != 47 && n != 58
  match url.drop type.length with
  | 58 :: rest => if type.isEmpty then (none, url) else (some (type.flatMap Lower.lower), rest)
  | _ => (none, url)

/-- `_splithost`. -/
def splithost : List ℕ → Option (List ℕ) × List ℕ
  | 47 :: 47 :: rest =>
    let path := rest.dropWhile isNetlocCharacter
    (some (rest.takeWhile isNetlocCharacter),
      if path.head?.any (· != 47) then 47 :: path else path)
  | url => (none, url)

/-- `Request`, for `GET` without data. -/
structure Request where
  type : List ℕ
  host : Option (List ℕ)
  selector : List ℕ
deriving DecidableEq

/-- The exceptions outside `OSError` that the text of a URL leads to. `UnicodeEncodeError` is a
`UnicodeError`. -/
inductive Raised where
  | valueError
  | invalidUrl
  | unicodeError
  | overflowError
deriving DecidableEq

section Requests

variable (tables : Tables)

/-- `Request(url)`; `none` where it raises `ValueError`. `request_host` parses the URL once more, without
an empty fragment. -/
def makeRequest (url : List ℕ) : Option Request :=
  let tagged := splittag (unwrap url)
  let typed := splittype tagged.1
  let fullUrl := if tagged.2.isEmpty then tagged.1 else tagged.1 ++ 35 :: tagged.2
  match typed.1, urlsplit tables.admits fullUrl with
  | some type, some _ => some ⟨type, (splithost typed.2).1.map unquote, (splithost typed.2).2⟩
  | _, _ => none

/-! ### Opening -/

/-- `int(text)`; `none` where it raises. -/
def toInt (text : List ℕ) : Option ℤ :=
  intOfText tables.digit (.ofCodes text)

/-- A host without the brackets around it. -/
def unbracket (host : List ℕ) : List ℕ :=
  if host.head? = some 91 ∧ host.getLast? = some 93 then host.tail.dropLast else host

/-- `HTTPConnection._get_hostport`; `none` where it raises `InvalidURL`. -/
def getHostport (defaultPort : ℤ) (host : List ℕ) : Option (List ℕ × ℤ) :=
  let colon := rpartition 58 host
  -- the last colon is behind the last bracket
  if colon.2.1 && !colon.2.2.contains 93 then
    match toInt tables colon.2.2 with
    | some port => some (unbracket colon.1, port)
    | none => if colon.2.2.isEmpty then some (unbracket colon.1, defaultPort) else none
  else some (unbracket host, defaultPort)

/-- `[\x00-\x20\x7f]`. -/
def isDisallowed (n : ℕ) : Bool :=
  n ≤ 32 || n == 127

/-- A character of Latin-1. -/
def isLatin (n : ℕ) : Bool :=
  n < 256

/-- `_is_illegal_header_value`: `\n(?![ \t])|\r(?![ \t\n])`. -/
def isIllegalHeaderValue : List ℕ → Bool
  | [] => false
  | n :: rest =>
    (n == 10 && !rest.head?.any fun m => m == 32 || m == 9) ||
      (n == 13 && !rest.head?.any fun m => m == 32 || m == 9 || m == 10) ||
      isIllegalHeaderValue rest

/-- The `idna` codec encodes a name: of one in ASCII it looks at the lengths of its labels only. -/
def encodesName (name : List ℕ) : Bool :=
  if name.all isAscii then
    let labels := name.splitOn 46
    (labels.dropLast.all fun label => !label.isEmpty && decide (label.length < 64)) &&
      decide ((labels.getLastD []).length < 64)
  else tables.encodes name

/-- A number in the range of a C `long`. -/
def isLong (n : ℤ) : Bool :=
  -9223372036854775808 ≤ n && n ≤ 9223372036854775807

/-- What opening a request comes to before the network is asked. -/
inductive Opening where
  /-- The network is asked for the port of a name. -/
  | sent (name : List ℕ) (port : ℤ)
  /-- A handler raises `URLError`. -/
  | urlError
  | raised (e : Raised)
deriving DecidableEq

/-- `selector or "/"`. -/
def Request.target (request : Request) : List ℕ :=
  if request.selector.isEmpty then [47] else request.selector

/-- `http_class(host)` and its `request`, up to `getaddrinfo`. -/
def Request.connect (request : Request) (host : List ℕ) : Opening :=
  match getHostport tables (if request.type = codesOf "https" then 443 else 80) host with
  | none => .raised .invalidUrl
  | some (name, port) =>
    if name.any isDisallowed then .raised .invalidUrl
    else if request.target.any isDisallowed then .raised .invalidUrl
    else if !request.target.all isAscii then .raised .unicodeError
    else if !host.all isLatin then .raised .unicodeError
    else if isIllegalHeaderValue host then .raised .valueError
    else if !encodesName tables name then .raised .unicodeError
    else if !isLong port then .raised .overflowError
    else .sent name port

/-- The host of a request that is sent: one without a host is not, and neither is one whose type no
handler opens. -/
def Request.destination (request : Request) : Option (List ℕ) :=
  if ["http", "https"].any fun type => request.type == codesOf type then
    request.host.filter (!·.isEmpty)
  else none

/-- `opener.open(request)`, before the network is asked. -/
def Request.opening (request : Request) : Opening :=
  match request.destination with
  | none => .urlError
  | some host => request.connect tables host

/-! ### The texts that are sent -/

/-- `http.client` accepts a host and a target: the port is a number in range, name and target have no
characters that may not be sent, the host is a value of a header, and the name has an `idna` form. -/
structure Request.Accepted (request : Request) (host : List ℕ) : Prop where
  port : ∃ name port, getHostport tables (if request.type = codesOf "https" then 443 else 80) host =
    some (name, port) ∧ isLong port = true ∧ name.any isDisallowed = false ∧
      encodesName tables name = true
  target : ∀ n ∈ request.target, isAscii n = true ∧ isDisallowed n = false
  latin : ∀ n ∈ host, isLatin n = true
  legal : isIllegalHeaderValue host = false

end Requests

end Url

end ControlPlaneKit
