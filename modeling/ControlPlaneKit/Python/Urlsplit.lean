import ControlPlaneKit.Python.Codes
import ControlPlaneKit.Python.Strip

/-!
# `urllib.parse.urlsplit`

The parts of a URL, on code points. The checks of a network location (its brackets, the address
between them, characters that NFKC turns into delimiters) are a parameter `admits`. The last part is
about appending a path to a URL: the scheme and the network location stay, and the path is appended
to whichever part the URL ends in (`urlsplit_append`).
-/

namespace ControlPlaneKit

namespace Url

/-! ### Partition -/

/-- `value.partition(separator)`, with the separator as whether it was found. -/
def partition (separator : ℕ) (value : List ℕ) : List ℕ × Bool × List ℕ :=
  (value.takeWhile (· != separator), value.contains separator,
    (value.dropWhile (· != separator)).drop 1)

/-- `value.rpartition(separator)`. -/
def rpartition (separator : ℕ) (value : List ℕ) : List ℕ × Bool × List ℕ :=
  let backward := partition separator value.reverse
  if backward.2.1 then (backward.2.2.reverse, true, backward.1.reverse) else ([], false, value)

/-! ### Splitting -/

/-- `SplitResult`. -/
structure SplitResult where
  scheme : List ℕ
  netloc : List ℕ
  path : List ℕ
  query : List ℕ
  fragment : List ℕ
deriving DecidableEq

/-- A character that `urlsplit` keeps: neither a tab nor a line feed nor a carriage return. -/
def kept (n : ℕ) : Bool :=
  n != 9 && n != 10 && n != 13

/-- The URL without leading control characters and spaces, and without tabs and line ends. -/
def cleaned (url : List ℕ) : List ℕ :=
  (url.dropWhile fun n => decide (n ≤ 32)).filter kept

/-- A letter of ASCII. -/
def isLetter (n : ℕ) : Bool :=
  (65 ≤ n && n ≤ 90) || (97 ≤ n && n ≤ 122)

/-- `scheme_chars`. -/
def isSchemeCharacter (n : ℕ) : Bool :=
  isLetter n || (48 ≤ n && n ≤ 57) || n == 43 || n == 45 || n == 46

/-- The scheme in front of the first colon, and the rest. -/
def splitScheme (url : List ℕ) : List ℕ × List ℕ :=
  let colon := partition 58 url
  if colon.2.1 && colon.1.head?.any isLetter && colon.1.all isSchemeCharacter then
    (colon.1.flatMap Lower.lower, colon.2.2)
  else ([], url)

/-- A character inside a network location. -/
def isNetlocCharacter (n : ℕ) : Bool :=
  n != 47 && n != 63 && n != 35

/-- The network location after two slashes, and the rest. -/
def splitNetloc : List ℕ → List ℕ × List ℕ
  | 47 :: 47 :: rest => (rest.takeWhile isNetlocCharacter, rest.dropWhile isNetlocCharacter)
  | url => ([], url)

section Split

variable (admits : List ℕ → Bool)

/-- `urlsplit`; `none` where it raises `ValueError`. -/
def urlsplit (url : List ℕ) : Option SplitResult :=
  let scheme := splitScheme (cleaned url)
  let netloc := splitNetloc scheme.2
  let fragment := partition 35 netloc.2
  let query := partition 63 fragment.1
  if netloc.1 = [] ∨ admits netloc.1 then
    some ⟨scheme.1, netloc.1, query.1, query.2.2, fragment.2.2⟩
  else none

end Split

namespace SplitResult

variable (parts : SplitResult)

/-- `_userinfo`: the user name and the password. -/
def userinfo : Option (List ℕ) × Option (List ℕ) :=
  let at_ := rpartition 64 parts.netloc
  if at_.2.1 then
    let colon := partition 58 at_.1
    (some colon.1, if colon.2.1 then some colon.2.2 else none)
  else (none, none)

/-- `parsed.username or parsed.password`. -/
def hasCredentials : Bool :=
  parts.userinfo.1.any (!·.isEmpty) || parts.userinfo.2.any (!·.isEmpty)

/-- `hostname or ""`. -/
def hostname : List ℕ :=
  let hostinfo := (rpartition 64 parts.netloc).2.2
  let bracket := partition 91 hostinfo
  let name := if bracket.2.1 then (partition 93 bracket.2.2).1 else (partition 58 hostinfo).1
  let zone := partition 37 name
  zone.1.flatMap Lower.lower ++ (if zone.2.1 then [37] else []) ++ zone.2.2

/-- The text of the port: `_hostinfo[1]`, empty where it is `None`. -/
def portText : List ℕ :=
  let hostinfo := (rpartition 64 parts.netloc).2.2
  let bracket := partition 91 hostinfo
  let rest := if bracket.2.1 then (partition 93 bracket.2.2).2.2 else hostinfo
  (partition 58 rest).2.2

/-- `int(port)`, for decimal digits of ASCII. -/
def portValue : ℕ :=
  parts.portText.foldl (fun value n => 10 * value + (n - 48)) 0

/-- The port can be read: it is missing, or decimal digits that `int` converts to at most 65535. -/
def portValid : Bool :=
  parts.portText.isEmpty ||
    (parts.portText.all (fun n => 48 ≤ n && n ≤ 57) && decide (parts.portText.length ≤ 4300) &&
      decide (parts.portValue ≤ 65535))

/-- `port`; the outer `none` where it raises `ValueError`. -/
def port : Option (Option ℕ) :=
  if parts.portValid then some (if parts.portText.isEmpty then none else some parts.portValue)
  else none

end SplitResult

/-! ### Appending a path -/

variable {p : ℕ → Bool} {a b : List ℕ}

theorem takeWhile_append_stop (hb : b.head?.any p = false) :
    (a ++ b).takeWhile p = a.takeWhile p := by
  induction a with
  | nil =>
    cases b with
    | nil => rfl
    | cons n b => simpa [List.takeWhile_cons] using hb
  | cons n a ih =>
    by_cases hn : p n = true
    · simp [hn, ih]
    · simp [hn]

theorem dropWhile_append_stop (hb : b.head?.any p = false) :
    (a ++ b).dropWhile p = a.dropWhile p ++ b := by
  induction a with
  | nil =>
    cases b with
    | nil => rfl
    | cons n b =>
      have hn : p n = false := by simpa using hb
      simp [hn]
  | cons n a ih =>
    by_cases hn : p n = true
    · simp [hn, ih]
    · simp [hn]

theorem partition_of_notMem {separator : ℕ} (h : separator ∉ a) :
    partition separator a = (a, false, []) := by
  have hne : ∀ n ∈ a, (n != separator) = true := by
    intro n hn
    rw [bne_iff_ne]
    exact fun heq => h (heq ▸ hn)
  simp [partition, List.takeWhile_eq_self_iff.mpr hne, List.dropWhile_eq_nil_iff.mpr hne, h]

/-- The first separator splits. -/
theorem partition_split {separator : ℕ} (h : separator ∉ a) :
    partition separator (a ++ separator :: b) = (a, true, b) := by
  have hne : ∀ n ∈ a, (n != separator) = true := by
    intro n hn
    rw [bne_iff_ne]
    exact fun heq => h (heq ▸ hn)
  simp [partition, List.takeWhile_append_of_pos hne, List.dropWhile_append_of_pos hne]

/-- Splitting at a separator that occurs leaves what is appended in the second part. -/
theorem partition_append {separator : ℕ} (h : separator ∈ a) : partition separator (a ++ b) =
    ((partition separator a).1, true, (partition separator a).2.2 ++ b) := by
  obtain ⟨s, t, rfl, hs⟩ := List.eq_append_cons_of_mem h
  rw [List.append_assoc, List.cons_append, partition_split hs, partition_split hs]

/-- The parts of a URL after its network location. -/
def tail (rest : List ℕ) : List ℕ × List ℕ × List ℕ :=
  let fragment := partition 35 rest
  let query := partition 63 fragment.1
  (query.1, query.2.2, fragment.2.2)

/-- Without `?` and `#` everything is the path. -/
theorem tail_of_plain {rest : List ℕ} (h : ∀ n ∈ rest, n ≠ 63 ∧ n ≠ 35) :
    tail rest = (rest, [], []) := by
  have hfragment : 35 ∉ rest := fun hmem => (h 35 hmem).2 rfl
  have hquery : 63 ∉ rest := fun hmem => (h 63 hmem).1 rfl
  simp [tail, partition_of_notMem hfragment, partition_of_notMem hquery]

/-- After a `?` or a `#` what is appended is no part of the path. -/
theorem tail_of_marked {rest : List ℕ} (h : ∃ n ∈ rest, n = 63 ∨ n = 35) (hb : b ≠ [])
    (hplain : 35 ∉ b) : ¬ ((tail (rest ++ b)).2.1 = [] ∧ (tail (rest ++ b)).2.2 = []) := by
  rintro ⟨hquery, hfragment⟩
  by_cases hmem : 35 ∈ rest
  · simp only [tail, partition_append hmem] at hfragment
    exact hb (List.append_eq_nil_iff.mp hfragment).2
  · have hmark : 63 ∈ rest := by
      obtain ⟨n, hn, rfl | rfl⟩ := h
      · exact hn
      · exact absurd hn hmem
    have hall : 35 ∉ rest ++ b := by
      rw [List.mem_append]
      exact fun h => h.elim hmem hplain
    simp only [tail, partition_of_notMem hall, partition_append hmark] at hquery
    exact hb (List.append_eq_nil_iff.mp hquery).2

/-- A scheme was found: a name of scheme characters in front of a colon. -/
theorem splitScheme_of_ne {url : List ℕ} (h : (splitScheme url).1 ≠ []) :
    ∃ name rest, url = name ++ 58 :: rest ∧ name.head?.any isLetter = true ∧
      (∀ n ∈ name, isSchemeCharacter n = true) ∧ splitScheme url = (name.flatMap Lower.lower, rest) := by
  unfold splitScheme at h ⊢
  simp only at h ⊢
  split at h
  next hcond =>
    rw [if_pos hcond]
    simp only [Bool.and_eq_true] at hcond
    obtain ⟨⟨hcolon, hletter⟩, hall⟩ := hcond
    have hmem : 58 ∈ url := by simpa [partition] using hcolon
    obtain ⟨name, rest, rfl, hname⟩ := List.eq_append_cons_of_mem hmem
    rw [partition_split hname] at hletter hall ⊢
    exact ⟨name, rest, rfl, hletter, List.all_eq_true.mp hall, rfl⟩
  next => exact absurd rfl h

theorem splitScheme_found {name rest : List ℕ} (hletter : name.head?.any isLetter = true)
    (hall : ∀ n ∈ name, isSchemeCharacter n = true) :
    splitScheme (name ++ 58 :: rest) = (name.flatMap Lower.lower, rest) := by
  have hcolon : 58 ∉ name := fun hmem => absurd (hall 58 hmem) (by decide)
  simp only [splitScheme, partition_split hcolon, hletter, List.all_eq_true.mpr hall, Bool.and_self,
    if_true]

/-- A network location was found. -/
theorem splitNetloc_of_ne {url netloc rest : List ℕ} (h : splitNetloc url = (netloc, rest))
    (hne : netloc ≠ []) : url = 47 :: 47 :: (netloc ++ rest) ∧
      (∀ n ∈ netloc, isNetlocCharacter n = true) ∧ ∀ b : List ℕ, b.head? = some 47 →
        splitNetloc (url ++ b) = (netloc, rest ++ b) := by
  unfold splitNetloc at h
  split at h
  next rest' =>
    simp only [Prod.mk.injEq] at h
    obtain ⟨rfl, rfl⟩ := h
    refine ⟨by rw [List.takeWhile_append_dropWhile], fun n hn => List.mem_takeWhile_imp hn, ?_⟩
    intro b hb
    have hstop : b.head?.any isNetlocCharacter = false := by
      rw [hb]
      rfl
    simp only [splitNetloc, List.cons_append, takeWhile_append_stop hstop,
      dropWhile_append_stop hstop]
  next =>
    cases h
    exact absurd rfl hne

theorem mem_dropWhile {n : ℕ} (hn : n ∈ a) (hp : p n = false) : n ∈ a.dropWhile p := by
  induction a with
  | nil => cases hn
  | cons m a ih =>
    rw [List.dropWhile_cons]
    split
    next hm =>
      rcases List.mem_cons.mp hn with rfl | hn
      · rw [hp] at hm
        cases hm
      · exact ih hn
    next => exact hn

section Append

variable {admits : List ℕ → Bool} {url path : List ℕ} {parts : SplitResult}

/-- An absolute URL: it cleans up to `name://netloc` and a rest. -/
structure Absolute (admits : List ℕ → Bool) (url name netloc rest : List ℕ) : Prop where
  cleaned_eq : cleaned url = name ++ 58 :: 47 :: 47 :: (netloc ++ rest)
  letter : name.head?.any isLetter = true
  inScheme : ∀ n ∈ name, isSchemeCharacter n = true
  inNetloc : ∀ n ∈ netloc, isNetlocCharacter n = true
  located : ∀ b : List ℕ, b = [] ∨ b.head? = some 47 →
    splitNetloc (47 :: 47 :: (netloc ++ rest ++ b)) = (netloc, rest ++ b)
  admitted : netloc = [] ∨ admits netloc = true
  netloc_ne : netloc ≠ []

/-- A URL with a scheme and a network location is absolute. -/
theorem absolute_of_urlsplit (h : urlsplit admits url = some parts) (hscheme : parts.scheme ≠ [])
    (hnetloc : parts.netloc ≠ []) : ∃ name rest, Absolute admits url name parts.netloc rest ∧
      parts.scheme = name.flatMap Lower.lower ∧
      tail rest = (parts.path, parts.query, parts.fragment) := by
  have hparts : parts.scheme = (splitScheme (cleaned url)).1 := by
    simp only [urlsplit] at h
    split at h
    next =>
      cases h
      rfl
    next => cases h
  rw [hparts] at hscheme
  obtain ⟨name, behind, hurl, hletter, hall, hsplit⟩ := splitScheme_of_ne hscheme
  obtain ⟨netloc, rest, hloc⟩ : ∃ netloc rest, splitNetloc behind = (netloc, rest) := ⟨_, _, rfl⟩
  simp only [urlsplit, hsplit, hloc] at h
  split at h
  next hadmits =>
    cases h
    obtain ⟨hbehind, hchars, happend⟩ := splitNetloc_of_ne hloc hnetloc
    refine ⟨name, rest, ⟨?_, hletter, hall, hchars, ?_, hadmits, hnetloc⟩, rfl, rfl⟩
    · rw [hurl, hbehind]
    · rintro b (rfl | hb)
      · rw [List.append_nil, List.append_nil, ← hbehind, hloc]
      · have hlocated := happend b hb
        rw [hbehind] at hlocated
        exact hlocated
  next => cases h

/-- The parts of an absolute URL with a path appended to it. -/
theorem Absolute.urlsplit_append {name netloc rest : List ℕ}
    (h : Absolute admits url name netloc rest) (hpath : path.head? = some 47) :
    urlsplit admits (url ++ path) = some ⟨name.flatMap Lower.lower, netloc,
      (tail (rest ++ path.filter kept)).1, (tail (rest ++ path.filter kept)).2.1,
      (tail (rest ++ path.filter kept)).2.2⟩ := by
  have hhead : (path.filter kept).head? = some 47 := by
    cases path with
    | nil => cases hpath
    | cons n path =>
      cases hpath
      rfl
  -- the URL has a character that is kept in front
  have hcleaned : cleaned (url ++ path) = cleaned url ++ path.filter kept := by
    have hne : url.dropWhile (fun n => decide (n ≤ 32)) ≠ [] := by
      intro hnil
      have hempty := h.cleaned_eq
      rw [cleaned, hnil, List.filter_nil] at hempty
      simp at hempty
    rw [cleaned, List.dropWhile_append, cleaned]
    simp [hne]
  have hscheme : splitScheme (cleaned (url ++ path)) = (name.flatMap Lower.lower,
      47 :: 47 :: (netloc ++ rest ++ path.filter kept)) := by
    rw [hcleaned, h.cleaned_eq, ← splitScheme_found h.letter h.inScheme]
    simp
  simp only [urlsplit, hscheme, h.located _ (.inr hhead), if_pos h.admitted, tail]

/-- Every mark of an absolute URL is behind its network location. -/
theorem Absolute.marked_iff {name netloc rest : List ℕ} (h : Absolute admits url name netloc rest) :
    (∃ n ∈ rest, n = 63 ∨ n = 35) ↔ ∃ n ∈ url, n = 63 ∨ n = 35 := by
  constructor
  · rintro ⟨n, hn, hmark⟩
    have hmem : n ∈ cleaned url := by
      rw [h.cleaned_eq]
      simp [hn]
    exact ⟨n, (List.dropWhile_suffix _).subset (List.mem_of_mem_filter hmem), hmark⟩
  · rintro ⟨n, hn, hmark⟩
    have hmem : n ∈ cleaned url := by
      refine List.mem_filter.mpr ⟨mem_dropWhile hn ?_, ?_⟩ <;> rcases hmark with rfl | rfl <;> rfl
    rw [h.cleaned_eq] at hmem
    simp only [List.mem_append, List.mem_cons] at hmem
    rcases hmem with hname | hcolon | hslash | hslash | hnetloc | hrest
    · have hchar := h.inScheme n hname
      rcases hmark with rfl | rfl <;> cases hchar
    · omega
    · omega
    · omega
    · have hchar := h.inNetloc n hnetloc
      rcases hmark with rfl | rfl <;> cases hchar
    · exact ⟨n, hrest, hmark⟩

/-- An absolute URL ends in a slash exactly when the part behind its network location does. -/
theorem Absolute.getLast?_iff {name netloc rest : List ℕ}
    (h : Absolute admits url name netloc rest) :
    (url.filter kept).getLast? = some 47 ↔ rest.getLast? = some 47 := by
  have hurl : url.filter kept = (url.takeWhile fun n => decide (n ≤ 32)).filter kept ++
      (name ++ 58 :: 47 :: 47 :: (netloc ++ rest)) := by
    rw [← h.cleaned_eq, cleaned, ← List.filter_append, List.takeWhile_append_dropWhile]
  have hlast : (url.filter kept).getLast? = (netloc ++ rest).getLast? := by
    rw [hurl]
    obtain ⟨n, netloc, rfl⟩ := List.exists_cons_of_ne_nil h.netloc_ne
    simp only [List.getLast?_append, List.getLast?_cons_cons, List.cons_append]
    cases hlast : (n :: (netloc ++ rest)).getLast? with
    | none => simp at hlast
    | some m => simp
  rw [hlast, List.getLast?_append]
  cases hrest : rest.getLast? with
  | some n => simp
  | none =>
    constructor
    · intro hslash
      have hmem : 47 ∈ netloc := List.mem_of_getLast? (by simpa using hslash)
      exact absurd (h.inNetloc 47 hmem) (by decide)
    · intro hnone
      cases hnone

theorem filter_kept_eq {rest path : List ℕ} (h : rest ++ path.filter kept =
    rest.rdropWhile (· == 47) ++ path) : path.filter kept = path ∧ rest.getLast? ≠ some 47 := by
  -- `k` slashes are dropped, so the kept part of the path is `k` characters shorter
  obtain ⟨slashes, hrest, hall⟩ : ∃ slashes, rest = rest.rdropWhile (· == 47) ++ slashes ∧
      ∀ n ∈ slashes, n = 47 := by
    refine ⟨rest.rtakeWhile (· == 47), List.rdropWhile_append_rtakeWhile.symm, ?_⟩
    intro n hn
    simpa using List.mem_rtakeWhile_imp hn
  have hpath : slashes ++ path.filter kept = path := by
    nth_rewrite 1 [hrest] at h
    rw [List.append_assoc] at h
    exact List.append_cancel_left h
  have hkept : slashes.filter kept = slashes := by
    rw [List.filter_eq_self]
    intro n hn
    rw [hall n hn]
    rfl
  have hfilter : slashes ++ path.filter kept = path.filter kept := by
    nth_rewrite 2 [← hpath]
    rw [List.filter_append, List.filter_filter, hkept]
    simp
  have hnil : slashes = [] := by simpa using hfilter
  subst hnil
  refine ⟨hpath, fun hlast => ?_⟩
  rw [List.append_nil] at hrest
  have hne : rest ≠ [] := by
    rintro rfl
    cases hlast
  have hend := List.rdropWhile_last_not (p := (· == 47)) (l := rest) (by rwa [← hrest])
  rw [List.getLast_congr _ hne hrest.symm] at hend
  rw [List.getLast?_eq_some_getLast hne] at hlast
  exact hend (by simpa using hlast)

/-- A path is appended to the path of a URL, without its trailing slashes, exactly when the URL has
no `?` and no `#` and does not end in a slash, and the path has no tab and no line end. -/
theorem urlsplit_append_iff (h : urlsplit admits url = some parts) (hscheme : parts.scheme ≠ [])
    (hnetloc : parts.netloc ≠ []) (hpath : path.head? = some 47)
    (hplain : ∀ n ∈ path, n ≠ 63 ∧ n ≠ 35) :
    urlsplit admits (url ++ path) = some ⟨parts.scheme, parts.netloc,
        parts.path.rdropWhile (· == 47) ++ path, [], []⟩ ↔
      (∀ n ∈ url, n ≠ 63 ∧ n ≠ 35) ∧ (url.filter kept).getLast? ≠ some 47 ∧
        ∀ n ∈ path, kept n = true := by
  obtain ⟨name, rest, habsolute, hname, htail⟩ := absolute_of_urlsplit h hscheme hnetloc
  have hplain' : ∀ n ∈ path.filter kept, n ≠ 63 ∧ n ≠ 35 := fun n hn =>
    hplain n (List.mem_of_mem_filter hn)
  have hne : path.filter kept ≠ [] := by
    cases path with
    | nil => cases hpath
    | cons n path =>
      cases hpath
      simp [kept]
  have hmarked := habsolute.marked_iff
  rw [habsolute.urlsplit_append hpath, hname, Option.some.injEq, SplitResult.mk.injEq]
  -- a mark in the URL takes the path into its query or fragment
  by_cases hmark : ∃ n ∈ rest, n = 63 ∨ n = 35
  · have hlost := tail_of_marked hmark hne fun hmem => (hplain' 35 hmem).2 rfl
    obtain ⟨n, hn, hn'⟩ := hmarked.mp hmark
    constructor
    · exact fun heq => absurd heq.2.2.2 hlost
    · rintro ⟨hurl, -⟩
      have hno := hurl n hn
      omega
  · have hurl : ∀ n ∈ url, n ≠ 63 ∧ n ≠ 35 := by
      intro n hn
      rw [← not_or]
      exact fun hn' => hmark (hmarked.mpr ⟨n, hn, hn'⟩)
    have hrest : ∀ n ∈ rest, n ≠ 63 ∧ n ≠ 35 := by
      intro n hn
      rw [← not_or]
      exact fun hn' => hmark ⟨n, hn, hn'⟩
    have hall : ∀ n ∈ rest ++ path.filter kept, n ≠ 63 ∧ n ≠ 35 :=
      List.forall_mem_append.mpr ⟨hrest, hplain'⟩
    rw [tail_of_plain hrest] at htail
    have hconfigured : parts.path = rest := by
      simp only [Prod.mk.injEq] at htail
      exact htail.1.symm
    -- without marks the path is the configured one, less its slashes, and the new one
    rw [tail_of_plain hall, hconfigured, ne_eq, habsolute.getLast?_iff]
    constructor
    · rintro ⟨-, -, heq, -⟩
      obtain ⟨hkept, hlast⟩ := filter_kept_eq heq
      exact ⟨hurl, hlast, List.filter_eq_self.mp hkept⟩
    · rintro ⟨-, hlast, hkept⟩
      have hdrop : rest.rdropWhile (· == 47) = rest := by
        rw [List.rdropWhile_eq_self_iff]
        intro hne hend
        exact hlast (by rw [List.getLast?_eq_some_getLast hne]; simpa using hend)
      rw [hdrop, List.filter_eq_self.mpr hkept]
      exact ⟨rfl, rfl, rfl, rfl, rfl⟩

end Append

end Url

end ControlPlaneKit
