import Mathlib.Data.List.TakeWhile
import ControlPlaneKit.Client.Transport
import ControlPlaneKit.Python.Pretty
import ControlPlaneKit.Server.Surfaces

/-!
# The grammar of a read query

`_decode_http_read_query` as a parser: what it splits, unescapes, decodes and parses, against a
grammar of its own. The hooks that make the JSON of a cursor strict run on what Python's decoder
reads, a `Raw` tree with its pairs and constants; `decode_query_grammar` has every layer in it.
-/

namespace ControlPlaneKit

namespace Server

open ControlPlaneKit.Json

/-! ### JSON with hooks -/

/-- What Python's decoder reads before its hooks are applied. A number with a fraction or an exponent
may overflow to an infinity. -/
inductive Raw where
  | null
  | bool (b : Bool)
  | int (n : ℤ)
  | float (x : Float64)
  /-- `NaN`, `Infinity` or `-Infinity`. -/
  | constant (name : String)
  | str (t : Text)
  | arr (items : List Raw)
  | obj (pairs : List (Text × Raw))

/-- `_unique_json_object`. -/
def uniqueJsonObject (pairs : List (Text × Json)) : Option Fields :=
  pairs.foldlM (fun result m => if m.1 ∈ result.map (·.1) then none else some (result ++ [m])) []

/-- `_reject_json_constant`. -/
def rejectJsonConstant (_ : String) : Option Json :=
  none

/-- `_parse_finite_json_float`. -/
def parseFiniteJsonFloat : Float64 → Option Json
  | .finite q => some (.float (.finite q))
  | _ => none

mutual

/-- The value that the hooks make of a tree; `none` where one of them raises. -/
def hooked : Raw → Option Json
  | .null => some .null
  | .bool b => some (.bool b)
  | .int n => some (.int n)
  | .float x => parseFiniteJsonFloat x
  | .constant name => rejectJsonConstant name
  | .str t => some (.str t)
  | .arr items => (hookedItems items).map .arr
  | .obj pairs => ((hookedPairs pairs).bind uniqueJsonObject).map .obj

/-- The items of a list. -/
def hookedItems : List Raw → Option (List Json)
  | [] => some []
  | x :: xs => (hooked x).bind fun v => (hookedItems xs).map (v :: ·)

/-- The pairs of an object. -/
def hookedPairs : List (Text × Raw) → Option (List (Text × Json))
  | [] => some []
  | (key, x) :: xs => (hooked x).bind fun v => (hookedPairs xs).map ((key, v) :: ·)

end

/-- `json.loads` with the hooks of a cursor, over a decoder: a hook raises `ValueError`. -/
def strictLoads (decoder : String → Except QueryError Raw) (value : String) :
    Except QueryError Json := do
  let raw ← decoder value
  match hooked raw with
  | none => .error .valueError
  | some v => .ok v

mutual

/-- No object has a key twice, and there is no NaN and no infinity. -/
def Raw.Strict : Raw → Prop
  | .float x => ∃ q, x = .finite q
  | .constant _ => False
  | .arr items => Raw.StrictItems items
  | .obj pairs => (pairs.map (·.1)).Nodup ∧ Raw.StrictPairs pairs
  | _ => True

/-- The items of a list. -/
def Raw.StrictItems : List Raw → Prop
  | [] => True
  | x :: xs => x.Strict ∧ Raw.StrictItems xs

/-- The pairs of an object. -/
def Raw.StrictPairs : List (Text × Raw) → Prop
  | [] => True
  | (_, x) :: xs => x.Strict ∧ Raw.StrictPairs xs

end

mutual

/-- The value of a tree without constants. -/
def Raw.value : Raw → Json
  | .null => .null
  | .bool b => .bool b
  | .int n => .int n
  | .float x => .float x
  | .constant _ => .null
  | .str t => .str t
  | .arr items => .arr (Raw.itemValues items)
  | .obj pairs => .obj (Raw.pairValues pairs)

/-- The values of the items of a list. -/
def Raw.itemValues : List Raw → List Json
  | [] => []
  | x :: xs => x.value :: Raw.itemValues xs

/-- The values of the pairs of an object. -/
def Raw.pairValues : List (Text × Raw) → Fields
  | [] => []
  | (key, x) :: xs => (key, x.value) :: Raw.pairValues xs

end

mutual

/-- How deep lists and objects are nested. -/
def Raw.depth : Raw → ℕ
  | .arr items => Raw.itemsDepth items + 1
  | .obj pairs => Raw.pairsDepth pairs + 1
  | _ => 0

/-- The items of a list. -/
def Raw.itemsDepth : List Raw → ℕ
  | [] => 0
  | x :: xs => max x.depth (Raw.itemsDepth xs)

/-- The pairs of an object. -/
def Raw.pairsDepth : List (Text × Raw) → ℕ
  | [] => 0
  | (_, x) :: xs => max x.depth (Raw.pairsDepth xs)

end

theorem uniqueJsonObject_eq_some {pairs members : List (Text × Json)} :
    uniqueJsonObject pairs = some members ↔ (pairs.map (·.1)).Nodup ∧ members = pairs := by
  have hfold : ∀ result : List (Text × Json), (result.map (·.1)).Nodup →
      (pairs.foldlM (fun result m =>
        if m.1 ∈ result.map (·.1) then none else some (result ++ [m])) result = some members ↔
          ((result ++ pairs).map (·.1)).Nodup ∧ members = result ++ pairs) := by
    induction pairs with
    | nil =>
      intro result hresult
      simp [hresult, eq_comm]
    | cons m pairs ih =>
      intro result hresult
      rw [List.foldlM_cons]
      by_cases hmem : m.1 ∈ result.map (·.1)
      · rw [if_pos hmem]
        simp only [Option.bind_eq_bind, Option.bind_none, reduceCtorEq, false_iff, not_and]
        intro hnodup
        rw [List.map_append, List.map_cons] at hnodup
        exact absurd rfl ((List.nodup_append.mp hnodup).2.2 m.1 hmem m.1 List.mem_cons_self)
      · have hnext : ((result ++ [m]).map (·.1)).Nodup := by
          rw [List.map_append, List.nodup_append]
          refine ⟨hresult, List.nodup_singleton _, fun a ha b hb => ?_⟩
          obtain rfl : b = m.1 := List.mem_singleton.mp hb
          exact fun heq => hmem (heq ▸ ha)
        rw [if_neg hmem]
        simp only [Option.bind_eq_bind, Option.bind_some]
        rw [ih _ hnext, List.append_assoc, List.singleton_append]
  exact hfold [] List.nodup_nil

theorem map_fst_pairValues (pairs : List (Text × Raw)) :
    (Raw.pairValues pairs).map (·.1) = pairs.map (·.1) := by
  induction pairs with
  | nil => rfl
  | cons m pairs ih => simp [Raw.pairValues, ih]

mutual

/-- **The hooks accept** the strict trees, and keep their values. -/
theorem hooked_eq_some (x : Raw) {v : Json} : hooked x = some v ↔ x.Strict ∧ v = x.value := by
  cases x with
  | null => simp [hooked, Raw.Strict, Raw.value, eq_comm]
  | bool b => simp [hooked, Raw.Strict, Raw.value, eq_comm]
  | int n => simp [hooked, Raw.Strict, Raw.value, eq_comm]
  | float x => cases x <;> simp [hooked, parseFiniteJsonFloat, Raw.Strict, Raw.value, eq_comm]
  | constant name => simp [hooked, rejectJsonConstant, Raw.Strict]
  | str t => simp [hooked, Raw.Strict, Raw.value, eq_comm]
  | arr items =>
    rw [hooked, Option.map_eq_some_iff, Raw.Strict, Raw.value]
    constructor
    · rintro ⟨vs, hvs, rfl⟩
      obtain ⟨hstrict, rfl⟩ := (hookedItems_eq_some items).mp hvs
      exact ⟨hstrict, rfl⟩
    · rintro ⟨hstrict, rfl⟩
      exact ⟨_, (hookedItems_eq_some items).mpr ⟨hstrict, rfl⟩, rfl⟩
  | obj pairs =>
    rw [hooked, Option.map_eq_some_iff, Raw.Strict, Raw.value]
    constructor
    · rintro ⟨members, hmembers, rfl⟩
      obtain ⟨vs, hvs, hunique⟩ := Option.bind_eq_some_iff.mp hmembers
      obtain ⟨hstrict, rfl⟩ := (hookedPairs_eq_some pairs).mp hvs
      obtain ⟨hnodup, rfl⟩ := uniqueJsonObject_eq_some.mp hunique
      rw [map_fst_pairValues] at hnodup
      exact ⟨⟨hnodup, hstrict⟩, rfl⟩
    · rintro ⟨⟨hnodup, hstrict⟩, rfl⟩
      rw [← map_fst_pairValues] at hnodup
      refine ⟨_, Option.bind_eq_some_iff.mpr ⟨_, (hookedPairs_eq_some pairs).mpr ⟨hstrict, rfl⟩, ?_⟩, rfl⟩
      exact uniqueJsonObject_eq_some.mpr ⟨hnodup, rfl⟩

theorem hookedItems_eq_some (items : List Raw) {vs : List Json} :
    hookedItems items = some vs ↔ Raw.StrictItems items ∧ vs = Raw.itemValues items := by
  cases items with
  | nil => simp [hookedItems, Raw.StrictItems, Raw.itemValues, eq_comm]
  | cons x xs =>
    rw [hookedItems, Option.bind_eq_some_iff, Raw.StrictItems, Raw.itemValues]
    constructor
    · rintro ⟨v, hv, hrest⟩
      obtain ⟨rest, hvs, rfl⟩ := Option.map_eq_some_iff.mp hrest
      obtain ⟨hx, rfl⟩ := (hooked_eq_some x).mp hv
      obtain ⟨hxs, rfl⟩ := (hookedItems_eq_some xs).mp hvs
      exact ⟨⟨hx, hxs⟩, rfl⟩
    · rintro ⟨⟨hx, hxs⟩, rfl⟩
      refine ⟨_, (hooked_eq_some x).mpr ⟨hx, rfl⟩, ?_⟩
      rw [(hookedItems_eq_some xs).mpr ⟨hxs, rfl⟩]
      rfl

theorem hookedPairs_eq_some (pairs : List (Text × Raw)) {vs : List (Text × Json)} :
    hookedPairs pairs = some vs ↔ Raw.StrictPairs pairs ∧ vs = Raw.pairValues pairs := by
  cases pairs with
  | nil => simp [hookedPairs, Raw.StrictPairs, Raw.pairValues, eq_comm]
  | cons m ms =>
    obtain ⟨key, x⟩ := m
    rw [hookedPairs, Option.bind_eq_some_iff, Raw.StrictPairs, Raw.pairValues]
    constructor
    · rintro ⟨v, hv, hrest⟩
      obtain ⟨rest, hvs, rfl⟩ := Option.map_eq_some_iff.mp hrest
      obtain ⟨hx, rfl⟩ := (hooked_eq_some x).mp hv
      obtain ⟨hxs, rfl⟩ := (hookedPairs_eq_some ms).mp hvs
      exact ⟨⟨hx, hxs⟩, rfl⟩
    · rintro ⟨⟨hx, hxs⟩, rfl⟩
      refine ⟨_, (hooked_eq_some x).mpr ⟨hx, rfl⟩, ?_⟩
      rw [(hookedPairs_eq_some ms).mpr ⟨hxs, rfl⟩]
      rfl

end

mutual

theorem nesting_value (x : Raw) : nesting x.value = x.depth := by
  cases x with
  | arr items => rw [Raw.value, nesting, Raw.depth, nestingItems_itemValues items]
  | obj pairs => rw [Raw.value, nesting, Raw.depth, nestingMembers_pairValues pairs]
  | _ => rfl

theorem nestingItems_itemValues (items : List Raw) :
    nestingItems (Raw.itemValues items) = Raw.itemsDepth items := by
  cases items with
  | nil => rfl
  | cons x xs => rw [Raw.itemValues, nestingItems, Raw.itemsDepth, nesting_value x,
      nestingItems_itemValues xs]

theorem nestingMembers_pairValues (pairs : List (Text × Raw)) :
    nestingMembers (Raw.pairValues pairs) = Raw.pairsDepth pairs := by
  cases pairs with
  | nil => rfl
  | cons m ms =>
    obtain ⟨key, x⟩ := m
    rw [Raw.pairValues, nestingMembers, Raw.pairsDepth, nesting_value x, nestingMembers_pairValues ms]

end

/-! ### The grammar -/

/-- Bytes written as themselves, and complete escapes `%HH`. -/
inductive Escaped : List UInt8 → List UInt8 → Prop where
  | nil : Escaped [] []
  | byte {encoded decoded} (b : UInt8) (hb : b ≠ 37) (h : Escaped encoded decoded) :
      Escaped (b :: encoded) (b :: decoded)
  | escape {encoded decoded high low} (x y : ℕ) (hx : hexValue high = some x)
      (hy : hexValue low = some y) (h : Escaped encoded decoded) :
      Escaped (37 :: high :: low :: encoded) (UInt8.ofNat (16 * x + y) :: decoded)

/-- The bytes of a string in UTF-8. -/
def utf8 (s : String) : List UInt8 :=
  s.toByteArray.data.toList

/-- The arguments: a limit is a positive decimal without leading zeros, of as many digits as `int`
takes; a cursor is a strict JSON object nested at most 64 deep. -/
inductive Argument (decoder : String → Except QueryError Raw) : String → String → Json → Prop where
  | limit {value : String} (n : ℕ) (hpos : 1 ≤ n) (hvalue : value.toList = Nat.toDigits 10 n)
      (hdigits : value.toList.length ≤ 4300) : Argument decoder "limit" value (.int n)
  | after {value : String} (pairs : List (Text × Raw)) (hvalue : decoder value = .ok (.obj pairs))
      (hstrict : (Raw.obj pairs).Strict) (hdepth : (Raw.obj pairs).depth ≤ 64) :
      Argument decoder "after" value (Raw.obj pairs).value

/-- A field: a name, an equals sign, and the value of an argument. -/
inductive FieldOf (decoder : String → Except QueryError Raw) : List UInt8 → Text × Json → Prop where
  | mk {name value : String} {encodedName encodedValue : List UInt8} {v : Json}
      (hsplit : 61 ∉ encodedName) (hname : Escaped encodedName (utf8 name))
      (hvalue : Escaped encodedValue (utf8 value)) (h : Argument decoder name value v) :
      FieldOf decoder (encodedName ++ 61 :: encodedValue) (.utf8 name, v)

/-- The grammar of a query: fields joined by `&`, one for each argument, with distinct names. -/
def QueryOf (decoder : String → Except QueryError Raw) (query : List UInt8) (arguments : Fields) : Prop :=
  ∃ fields : List (List UInt8), fields ≠ [] ∧ query = List.intercalate [38] fields ∧
    (∀ field ∈ fields, 38 ∉ field) ∧ List.Forall₂ (FieldOf decoder) fields arguments ∧
    (arguments.map (·.1)).Nodup

section Grammar

variable {decoder : String → Except QueryError Raw} {platform : Platform}

theorem strictPercentDecode_escaped (high low : UInt8) (rest : List UInt8) {decoded : List UInt8} :
    strictPercentDecode (37 :: high :: low :: rest) = some decoded ↔ ∃ x y tail,
      hexValue high = some x ∧ hexValue low = some y ∧ strictPercentDecode rest = some tail ∧
        decoded = UInt8.ofNat (16 * x + y) :: tail := by
  rw [strictPercentDecode]
  constructor
  · intro h
    split at h
    · rename_i x y tail hx hy htail
      exact ⟨x, y, tail, hx, hy, htail, (Option.some.inj h).symm⟩
    · cases h
  · rintro ⟨x, y, tail, hx, hy, htail, rfl⟩
    rw [hx, hy, htail]

/-- **Strict percent decoding** accepts raw bytes and complete escapes. -/
theorem strictPercentDecode_eq_some : ∀ (encoded : List UInt8) {decoded : List UInt8},
    strictPercentDecode encoded = some decoded ↔ Escaped encoded decoded
  | [], decoded => by
    rw [strictPercentDecode, Option.some.injEq]
    exact ⟨fun h => h ▸ .nil, fun h => by cases h; rfl⟩
  | b :: rest, decoded => by
    by_cases hb : b = 37
    · subst hb
      rcases rest with _ | ⟨high, _ | ⟨low, rest⟩⟩
      · refine ⟨fun h => (by cases h), fun h => ?_⟩
        cases h with
        | byte _ hb _ => exact absurd rfl hb
      · refine ⟨fun h => (by cases h), fun h => ?_⟩
        cases h with
        | byte _ hb _ => exact absurd rfl hb
      · rw [strictPercentDecode_escaped]
        constructor
        · rintro ⟨x, y, tail, hx, hy, htail, rfl⟩
          exact .escape x y hx hy ((strictPercentDecode_eq_some rest).mp htail)
        · intro h
          cases h with
          | byte _ hb _ => exact absurd rfl hb
          | escape x y hx hy h =>
            exact ⟨x, y, _, hx, hy, (strictPercentDecode_eq_some rest).mpr h, rfl⟩
    · rw [Client.strictPercentDecode_cons hb]
      constructor
      · intro h
        obtain ⟨tail, htail, rfl⟩ := Option.map_eq_some_iff.mp h
        exact .byte b hb ((strictPercentDecode_eq_some rest).mp htail)
      · intro h
        cases h with
        | byte _ _ h => rw [(strictPercentDecode_eq_some rest).mpr h, Option.map_some]
        | escape _ _ _ _ _ => exact absurd rfl hb

theorem decodeUtf8_eq_some {bytes : List UInt8} {s : String} :
    decodeUtf8 bytes = some s ↔ bytes = utf8 s := by
  constructor
  · intro h
    rw [decodeUtf8, String.fromUTF8?] at h
    split at h
    · cases h
      rfl
    · cases h
  · rintro rfl
    exact Client.decodeUtf8_toByteArray s

/-- The text of a name or a value. -/
theorem decodeText_eq_ok {encoded : List UInt8} {s : String} :
    decodeText encoded = .ok s ↔ Escaped encoded (utf8 s) := by
  constructor
  · intro h
    unfold decodeText at h
    split at h
    · cases h
    · next decoded hdecoded =>
      split at h
      · cases h
      · next text htext =>
        cases h
        rw [← decodeUtf8_eq_some.mp htext]
        exact (strictPercentDecode_eq_some encoded).mp hdecoded
  · intro h
    rw [decodeText, (strictPercentDecode_eq_some encoded).mpr h]
    dsimp only
    rw [decodeUtf8_eq_some.mpr rfl]

/-! ### Limits -/

theorem digit_cases {c : Char} (h : ('0' ≤ c && c ≤ '9') = true) :
    ∃ d < 10, c = Nat.digitChar d ∧ c.toNat - 48 = d := by
  rw [Bool.and_eq_true, decide_eq_true_eq, decide_eq_true_eq] at h
  have hlow : 48 ≤ c.toNat := h.1
  have hhigh : c.toNat ≤ 57 := h.2
  refine ⟨c.toNat - 48, by omega, ?_, rfl⟩
  have hall : ∀ d < 10, Nat.digitChar d = Char.ofNat (48 + d) := by decide
  rw [hall _ (by omega), Nat.add_sub_cancel' hlow, Char.ofNat_toNat]

/-- Digits after a number are the digits of a larger number. -/
theorem toDigits_concat {n d : ℕ} (hn : 1 ≤ n) (hd : d < 10) :
    Nat.toDigits 10 n ++ [Nat.digitChar d] = Nat.toDigits 10 (10 * n + d) := by
  rw [Nat.toDigits_of_base_le (b := 10) (n := 10 * n + d) (by omega) (by omega)]
  have hdiv : (10 * n + d) / 10 = n := by omega
  have hmod : (10 * n + d) % 10 = d := by omega
  rw [hdiv, hmod]

/-- **What `[1-9][0-9]*` matches** is the text of a positive number. -/
theorem isLimit_iff {cs : List Char} :
    isLimit cs = true ↔ ∃ n, 1 ≤ n ∧ cs = Nat.toDigits 10 n := by
  refine ⟨fun h => ?_, fun ⟨n, hn, hcs⟩ => hcs ▸ Client.isLimit_toDigits hn⟩
  cases cs with
  | nil => cases h
  | cons c rest =>
    rw [isLimit, Bool.and_eq_true] at h
    have hfirst : ∃ n, 1 ≤ n ∧ [c] = Nat.toDigits 10 n := by
      obtain ⟨hone, hnine⟩ : '1' ≤ c ∧ c ≤ '9' := by simpa using h.1
      obtain ⟨d, hd, hc, hcode⟩ := digit_cases (c := c) (by
        rw [Bool.and_eq_true, decide_eq_true_eq, decide_eq_true_eq]
        exact ⟨Char.le_trans (by decide) hone, hnine⟩)
      have hpositive : 49 ≤ c.toNat := hone
      refine ⟨d, by omega, ?_⟩
      rw [Nat.toDigits_of_lt_base hd, hc]
    obtain ⟨n, hn, hc⟩ := hfirst
    -- the number grows with every digit
    have hrest : ∀ (ds : List Char) (n : ℕ), 1 ≤ n → (ds.all fun c => '0' ≤ c && c ≤ '9') = true →
        ∃ m, 1 ≤ m ∧ Nat.toDigits 10 n ++ ds = Nat.toDigits 10 m := by
      intro ds
      induction ds with
      | nil => exact fun n hn _ => ⟨n, hn, List.append_nil _⟩
      | cons d ds ih =>
        intro n hn hall
        rw [List.all_cons, Bool.and_eq_true] at hall
        obtain ⟨k, hk, rfl, -⟩ := digit_cases hall.1
        obtain ⟨m, hm, heq⟩ := ih (10 * n + k) (by omega) hall.2
        refine ⟨m, hm, ?_⟩
        rw [← heq, ← toDigits_concat hn hk, List.append_assoc, List.singleton_append]
    obtain ⟨m, hm, heq⟩ := hrest rest n hn h.2
    exact ⟨m, hm, by rw [← heq, ← hc, List.singleton_append]⟩

/-! ### Fields -/

theorem has_eq_false {arguments : Fields} {name : String} :
    arguments.has name = false ↔ .utf8 name ∉ arguments.map (·.1) := by
  rw [← Bool.not_eq_true, Fields.has_iff, List.mem_map]

theorem attempt_eq_ok {α : Type} {classes : List QueryError} {x : Except QueryError α} {a : α} :
    attempt classes x = .ok a ↔ x = .ok a := by
  cases x with
  | ok b => simp [attempt]
  | error e => simp [attempt]

theorem strictLoads_eq_ok {value : String} {v : Json} :
    strictLoads decoder value = .ok v ↔ ∃ raw, decoder value = .ok raw ∧ raw.Strict ∧ v = raw.value := by
  rw [strictLoads, Raise.bind_eq_ok]
  refine exists_congr fun raw => and_congr_right fun _ => ?_
  rw [← hooked_eq_some raw]
  cases hooked raw with
  | none => simp
  | some w => simp

/-- The number of a limit. -/
theorem intOf_limit {value : String} {n : ℕ} (h : value.toList = Nat.toDigits 10 n) {m : ℕ} :
    intOf value.toList = .ok m ↔ value.toList.length ≤ 4300 ∧ m = n := by
  rw [intOf, h, Client.decimal_toDigits]
  split
  · next hdigits => simp [hdigits, eq_comm]
  · next hdigits => simp [hdigits]

/-- **The argument that a name and a value stand for**, after those before it. -/
theorem decodeArgument_eq_ok (hplatform : platform.loadsCursor = strictLoads decoder)
    {arguments arguments' : Fields} {name value : String} :
    decodeArgument platform arguments name value = .ok arguments' ↔
      ∃ v, Argument decoder name value v ∧ arguments.has name = false ∧
        arguments' = arguments ++ [(.utf8 name, v)] := by
  rw [decodeArgument, hplatform]
  constructor
  · intro h
    split at h
    · next hname =>
      split at h
      · next hlimit =>
        split at h
        · next hvalue =>
          subst hlimit
          obtain ⟨n, hn, hdigits⟩ := isLimit_iff.mp hvalue
          obtain ⟨m, hm, hadded⟩ := Raise.bind_eq_ok.mp h
          obtain ⟨hlength, rfl⟩ := (intOf_limit hdigits).mp (attempt_eq_ok.mp hm)
          cases hadded
          exact ⟨_, .limit m hn hdigits hlength, hname.2, rfl⟩
        · cases h
      · next hlimit =>
        obtain rfl : name = "after" := hname.1.resolve_left hlimit
        obtain ⟨v, hv, h⟩ := Raise.bind_eq_ok.mp h
        -- the hooks refused nothing, so the text denotes a value without duplicates or constants
        obtain ⟨raw, hraw, hstrict, hvalue⟩ := strictLoads_eq_ok.mp (attempt_eq_ok.mp hv)
        split at h
        · next cursor =>
          split at h
          · next hdepth =>
            cases h
            obtain ⟨pairs, rfl⟩ : ∃ pairs, raw = .obj pairs := by
              cases raw <;> first | exact ⟨_, rfl⟩ | simp [Raw.value] at hvalue
            rw [hvalue] at hdepth ⊢
            rw [nesting_value] at hdepth
            exact ⟨_, .after pairs hraw hstrict hdepth, hname.2, rfl⟩
          · cases h
        · cases h
    · cases h
  · rintro ⟨v, hargument, hnew, rfl⟩
    cases hargument with
    | limit n hpos hvalue hdigits =>
      rw [if_pos ⟨.inl rfl, hnew⟩, if_pos rfl, if_pos (isLimit_iff.mpr ⟨n, hpos, hvalue⟩),
        attempt_eq_ok.mpr ((intOf_limit hvalue).mpr ⟨hdigits, rfl⟩)]
      rfl
    | after pairs hvalue hstrict hdepth =>
      have hnesting : nesting (.obj (Raw.pairValues pairs)) ≤ 64 :=
        (nesting_value (.obj pairs)).trans_le hdepth
      rw [if_pos ⟨.inr rfl, hnew⟩, if_neg (by decide),
        attempt_eq_ok.mpr (strictLoads_eq_ok.mpr ⟨_, hvalue, hstrict, rfl⟩), Raise.ok_bind]
      exact if_pos hnesting

/-- The two texts of a field. -/
theorem texts_eq_ok {encodedName encodedValue : List UInt8} {name value : String} :
    (do
      let name ← decodeText encodedName
      let value ← decodeText encodedValue
      return (name, value)) = Except.ok (name, value) ↔
      Escaped encodedName (utf8 name) ∧ Escaped encodedValue (utf8 value) := by
  rw [← decodeText_eq_ok, ← decodeText_eq_ok]
  constructor
  · intro h
    obtain ⟨name', hname, h⟩ := Raise.bind_eq_ok.mp h
    obtain ⟨value', hvalue, h⟩ := Raise.bind_eq_ok.mp h
    cases h
    exact ⟨hname, hvalue⟩
  · rintro ⟨hname, hvalue⟩
    rw [hname, hvalue]
    rfl

/-- **A field is decoded** into one new argument. -/
theorem decodeField_eq_ok (hplatform : platform.loadsCursor = strictLoads decoder)
    {arguments arguments' : Fields} {field : List UInt8} :
    decodeField platform arguments field = .ok arguments' ↔ ∃ m, FieldOf decoder field m ∧
      m.1 ∉ arguments.map (·.1) ∧ arguments' = arguments ++ [m] := by
  unfold decodeField
  constructor
  · intro h
    split at h
    · next hequals =>
      obtain ⟨⟨name, value⟩, htexts, h⟩ := Raise.bind_eq_ok.mp h
      obtain ⟨hname, hvalue⟩ := texts_eq_ok.mp (attempt_eq_ok.mp htexts)
      obtain ⟨v, hargument, hnew, rfl⟩ := (decodeArgument_eq_ok hplatform).mp h
      refine ⟨(.utf8 name, v), ?_, has_eq_false.mp hnew, rfl⟩
      have hrest : field.dropWhile (· != 61) = 61 :: (field.dropWhile (· != 61)).tail := by
        cases hdrop : field.dropWhile (· != 61) with
        | nil =>
          have hall := List.dropWhile_eq_nil_iff.mp hdrop 61 (List.contains_iff_mem.mp hequals)
          simp at hall
        | cons b rest =>
          have hhead := List.head_dropWhile_not (· != 61) (l := field) (by simp [hdrop])
          simp only [hdrop, List.head_cons, bne_eq_false_iff_eq] at hhead
          rw [hhead, List.tail_cons]
      have hfield : field = field.takeWhile (· != 61) ++ 61 :: (field.dropWhile (· != 61)).tail := by
        rw [← hrest, List.takeWhile_append_dropWhile]
      rw [hfield]
      refine .mk (fun hmem => ?_) hname hvalue hargument
      simpa using List.all_eq_true.mp List.all_takeWhile _ hmem
    · cases h
  · rintro ⟨m, hfield, hnew, rfl⟩
    cases hfield with
    | @mk name value encodedName encodedValue v hsplit hname hvalue hargument =>
      have hall : ∀ b ∈ encodedName, (b != 61) = true := fun b hb =>
        bne_iff_ne.mpr fun heq => hsplit (heq ▸ hb)
      have htake : (encodedName ++ 61 :: encodedValue).takeWhile (· != 61) = encodedName := by
        rw [List.takeWhile_append_of_pos hall, List.takeWhile_cons_of_neg (by simp), List.append_nil]
      have hdrop : (encodedName ++ 61 :: encodedValue).dropWhile (· != 61) = 61 :: encodedValue := by
        rw [List.dropWhile_append_of_pos hall, List.dropWhile_cons_of_neg (by simp)]
      rw [if_pos (by simp), htake, hdrop, List.tail_cons,
        attempt_eq_ok.mpr (texts_eq_ok.mpr ⟨hname, hvalue⟩)]
      exact (decodeArgument_eq_ok hplatform).mpr ⟨v, hargument, has_eq_false.mpr hnew, rfl⟩

/-- The loop over the fields. -/
theorem foldlM_decodeField (hplatform : platform.loadsCursor = strictLoads decoder)
    {fields : List (List UInt8)} {arguments arguments' : Fields}
    (hnodup : (arguments.map (·.1)).Nodup) :
    fields.foldlM (decodeField platform) arguments = .ok arguments' ↔ ∃ new,
      List.Forall₂ (FieldOf decoder) fields new ∧ arguments' = arguments ++ new ∧
        (arguments'.map (·.1)).Nodup := by
  -- the arguments grow at their end, and their names stay distinct
  induction fields generalizing arguments with
  | nil =>
    rw [List.foldlM_nil]
    constructor
    · intro h
      cases h
      exact ⟨[], .nil, (List.append_nil _).symm, hnodup⟩
    · rintro ⟨new, hnew, rfl, -⟩
      cases hnew
      rw [List.append_nil]
      rfl
  | cons field fields ih =>
    rw [List.foldlM_cons, Raise.bind_eq_ok]
    constructor
    · rintro ⟨next, hfield, hrest⟩
      obtain ⟨m, hm, hnew, rfl⟩ := (decodeField_eq_ok hplatform).mp hfield
      have hnext : ((arguments ++ [m]).map (·.1)).Nodup := by
        rw [List.map_append, List.map_singleton, List.nodup_append]
        refine ⟨hnodup, List.nodup_singleton _, fun a ha b hb heq => hnew ?_⟩
        rw [List.mem_singleton.mp hb] at heq
        exact heq ▸ ha
      obtain ⟨new, hall, rfl, hdistinct⟩ := (ih hnext).mp hrest
      exact ⟨m :: new, .cons hm hall, by rw [List.append_assoc, List.singleton_append], hdistinct⟩
    · rintro ⟨new, hall, rfl, hdistinct⟩
      cases hall with
      | @cons _ m _ new hm hall =>
        have hsplit := hdistinct
        rw [List.map_append, List.map_cons] at hsplit
        have hnew : m.1 ∉ arguments.map (·.1) := fun hmem =>
          (List.nodup_append.mp hsplit).2.2 m.1 hmem m.1 List.mem_cons_self rfl
        have hnext : ((arguments ++ [m]).map (·.1)).Nodup := by
          rw [← List.singleton_append, ← List.append_assoc, List.map_append] at hdistinct
          exact hdistinct.of_append_left
        refine ⟨arguments ++ [m], (decodeField_eq_ok hplatform).mpr ⟨m, hm, hnew, rfl⟩,
          (ih hnext).mpr ⟨new, hall, ?_, hdistinct⟩⟩
        rw [List.append_assoc, List.singleton_append]

theorem notMem_splitOn {query : List UInt8} : ∀ field ∈ query.splitOn 38, 38 ∉ field := by
  induction query with
  | nil => simp
  | cons b query ih =>
    rw [List.splitOn_cons_eq_if_modifyHead]
    split
    · exact List.forall_mem_cons.mpr ⟨List.not_mem_nil, ih⟩
    · rename_i hb
      cases hsplit : query.splitOn 38 with
      | nil => simp
      | cons field fields =>
        rw [hsplit, List.forall_mem_cons] at ih
        refine List.forall_mem_cons.mpr ⟨fun hmem => ?_, ih.2⟩
        rcases List.mem_cons.mp hmem with rfl | hmem
        · exact hb (by simp)
        · exact ih.1 hmem

/-- **A nonempty query is decoded exactly by its grammar**: the arguments that are returned are those
the grammar gives the query, and where it gives none the answer is a `400`. -/
theorem decode_query_grammar (upper lower : String → String) (loads : List UInt8 → Loaded)
    (decoder : String → Except QueryError Raw) (b : UInt8) (rest : List UInt8) :
    (∀ arguments, decodeHttpReadQuery ⟨upper, lower, loads, strictLoads decoder⟩ (b :: rest) =
      .ok arguments ↔ QueryOf decoder (b :: rest) arguments) ∧
    (decodeHttpReadQuery ⟨upper, lower, loads, strictLoads decoder⟩ (b :: rest) = .error .invalid ↔
      ¬ ∃ arguments, QueryOf decoder (b :: rest) arguments) := by
  have hdecoded : ∀ arguments, decodeHttpReadQuery ⟨upper, lower, loads, strictLoads decoder⟩
      (b :: rest) = .ok arguments ↔ QueryOf decoder (b :: rest) arguments := by
    intro arguments
    rw [decodeHttpReadQuery, if_neg (List.cons_ne_nil b rest), foldlM_decodeField rfl (by simp)]
    constructor
    · rintro ⟨new, hall, rfl, hdistinct⟩
      exact ⟨(b :: rest).splitOn 38, List.splitOn_ne_nil _ _, (List.intercalate_splitOn 38).symm,
        notMem_splitOn, hall, hdistinct⟩
    · rintro ⟨fields, hne, hjoined, hsplit, hall, hdistinct⟩
      rw [hjoined, List.splitOn_intercalate 38 hsplit hne]
      exact ⟨arguments, hall, (List.nil_append _).symm, hdistinct⟩
  refine ⟨hdecoded, ?_⟩
  have hnone : (¬ ∃ arguments, QueryOf decoder (b :: rest) arguments) ↔ ∀ arguments,
      decodeHttpReadQuery ⟨upper, lower, loads, strictLoads decoder⟩ (b :: rest) ≠ .ok arguments := by
    rw [not_exists]
    exact forall_congr' fun arguments => not_congr (hdecoded arguments).symm
  rw [hnone]
  constructor
  · intro h arguments hok
    rw [h] at hok
    cases hok
  · intro h
    -- nothing is raised, so what is not decoded is declined
    cases hresult : decodeHttpReadQuery ⟨upper, lower, loads, strictLoads decoder⟩ (b :: rest) with
    | ok arguments => exact absurd hresult (h arguments)
    | error declined =>
      cases declined with
      | invalid => rfl
      | raised e => exact absurd hresult decodeHttpReadQuery_ne_raised

end Grammar

end Server

end ControlPlaneKit
