import ControlPlaneKit.Python.Dumps
import ControlPlaneKit.Python.Raise
import ControlPlaneKit.Python.Urlencode
import ControlPlaneKit.Server.Boundary

/-!
# The query of a read

`PublicHttpTransport.call` writes the payload of a read into a query string by form encoding, and
`_decode_http_read_query` reads it by strict percent decoding. The two agree on every byte but the
space: the client writes a plus sign for it, and the server leaves a plus sign as it is. So the server
finds the text of a page cursor with plus signs (`decodeHttpReadQuery_page`).
-/

namespace ControlPlaneKit

/-- `value.encode("utf-8")`; `none` where it raises. -/
def Text.encodeUtf8 : Text → Option (List UInt8)
  | .utf8 s => some s.toByteArray.data.toList
  | .surrogate _ => none

namespace Client

open ControlPlaneKit.Json Url Server

/-! ### The client -/

/-- The text of one argument: a limit in decimal, any other value as JSON. -/
def queryArgument (floatText : ℚ → List Char) (name : Text) (value : Json) : List Char :=
  match value with
  | .int n => if name = "limit" then (toString n).toList else dumps floatText value
  | _ => dumps floatText value

/-- The query string that `call` builds for the payload of a read. -/
def queryString (floatText : ℚ → List Char) (payload : Fields) : Option (List UInt8) := do
  let query ← payload.mapM fun m => do
    let name ← m.1.encodeUtf8
    let value ← Text.encodeUtf8 (.utf8 (String.ofList (queryArgument floatText m.1 m.2)))
    return (name, value)
  return urlencode query

/-! ### The server reads what the client quotes -/

theorem hexValue_hexDigit {n : ℕ} (h : n < 16) : hexValue (hexDigit n) = some n := by
  have hall : ∀ n < 16, hexValue (hexDigit n) = some n := by decide
  exact hall n h

theorem strictPercentDecode_cons {b : UInt8} (hb : b ≠ 37) (rest : List UInt8) :
    strictPercentDecode (b :: rest) = (strictPercentDecode rest).map (b :: ·) := by
  rw [strictPercentDecode]
  · rw [if_neg hb]
  · rintro high low rest' h -
    exact hb h

theorem strictPercentDecode_escape (b : UInt8) (rest : List UInt8) :
    strictPercentDecode (37 :: hexDigit (b.toNat / 16) :: hexDigit (b.toNat % 16) :: rest) =
      (strictPercentDecode rest).map (b :: ·) := by
  have hlt := b.toNat_lt
  rw [strictPercentDecode, hexValue_hexDigit (by omega), hexValue_hexDigit (by omega)]
  have hbyte : UInt8.ofNat (16 * (b.toNat / 16) + b.toNat % 16) = b := by
    rw [Nat.div_add_mod, UInt8.ofNat_toNat]
  cases strictPercentDecode rest with
  | none => rfl
  | some decoded => exact congrArg (fun a => some (a :: decoded)) hbyte

/-- A plus sign for a space. -/
def plusByte (b : UInt8) : UInt8 :=
  if b = 32 then 43 else b

/-- **Strict decoding of what `quote_plus` writes** leaves its plus signs. -/
theorem strictPercentDecode_quotePlus (bytes : List UInt8) :
    strictPercentDecode (quotePlus bytes) = some (bytes.map plusByte) := by
  induction bytes with
  | nil => rw [quotePlus, List.flatMap_nil, strictPercentDecode, List.map_nil]
  | cons b bytes ih =>
    rw [quotePlus, List.flatMap_cons, quoteByte, List.map_cons, plusByte]
    by_cases hspace : b = 32
    · rw [if_pos hspace, if_pos hspace, List.singleton_append,
        strictPercentDecode_cons (by decide), ← quotePlus, ih, Option.map_some]
    rw [if_neg hspace, if_neg hspace]
    by_cases hunreserved : isUnreserved b = true
    · have hpercent : b ≠ 37 := by
        rintro rfl
        exact absurd hunreserved (by decide)
      rw [if_pos hunreserved, List.singleton_append, strictPercentDecode_cons hpercent,
        ← quotePlus, ih, Option.map_some]
    · rw [if_neg hunreserved]
      simp only [List.cons_append, List.nil_append]
      rw [strictPercentDecode_escape, ← quotePlus, ih, Option.map_some]

/-! ### Encoded strings -/

theorem decodeUtf8_toByteArray (s : String) : decodeUtf8 s.toByteArray.data.toList = some s := by
  have hvalid : s.toByteArray.IsValidUTF8 := s.isValidUTF8
  rw [decodeUtf8, Array.toArray_toList, String.fromUTF8?]
  exact dif_pos hvalid

/-- The bytes of an ASCII string are its code points. -/
theorem toByteArray_ascii {cs : List Char} (h : ∀ c ∈ cs, c.toNat < 128) :
    (String.ofList cs).toByteArray.data.toList = cs.map fun c => UInt8.ofNat c.toNat := by
  have hchar : ∀ c : Char, c.toNat < 128 → String.utf8EncodeChar c = [UInt8.ofNat c.toNat] := by
    intro c hc
    refine String.utf8EncodeChar_eq_singleton (Char.utf8Size_eq_one_iff.mpr ?_)
    rw [UInt32.le_iff_toNat_le]
    exact Nat.le_of_lt_succ hc
  have hbytes : (String.ofList cs).toByteArray.data.toList = cs.flatMap String.utf8EncodeChar := by
    rw [String.toByteArray_ofList]
    simp [List.utf8Encode]
  rw [hbytes, List.map_eq_flatMap]
  exact List.flatMap_congr fun c hc => hchar c (h c hc)

theorem toByteArray_plus {cs : List Char} (h : ∀ c ∈ cs, c.toNat < 128) :
    (String.ofList cs).toByteArray.data.toList.map plusByte =
      (String.ofList (cs.map plusChar)).toByteArray.data.toList := by
  have hascii : ∀ c ∈ cs.map plusChar, c.toNat < 128 := by
    rw [List.forall_mem_map]
    intro c hc
    rw [plusChar]
    split
    · decide
    · exact h c hc
  rw [toByteArray_ascii h, toByteArray_ascii hascii, List.map_map, List.map_map]
  refine List.map_congr_left fun c hc => ?_
  have hlt := h c hc
  rw [Function.comp_apply, Function.comp_apply, plusByte, plusChar]
  by_cases hspace : c = ' '
  · rw [if_pos hspace, hspace]
    rfl
  · rw [if_neg hspace, if_neg]
    intro hbyte
    have hcode : c.toNat = 32 := by
      have hsame : (UInt8.ofNat c.toNat).toNat = 32 := congrArg UInt8.toNat hbyte
      rw [UInt8.toNat_ofNat'] at hsame
      omega
    refine hspace ?_
    rw [← Char.ofNat_toNat c, hcode]

/-- **An ASCII argument arrives** with plus signs for its spaces. -/
theorem decode_argument {cs : List Char} (h : ∀ c ∈ cs, c.toNat < 128) :
    decodeText (quotePlus (String.ofList cs).toByteArray.data.toList) =
      .ok (String.ofList (cs.map plusChar)) := by
  unfold decodeText
  rw [strictPercentDecode_quotePlus, toByteArray_plus h]
  dsimp only
  rw [decodeUtf8_toByteArray]

/-! ### The limit -/

theorem isLimit_concat {cs : List Char} {c : Char} (h : isLimit cs = true) (hc : c.isDigit = true) :
    isLimit (cs ++ [c]) = true := by
  have hrange : ('0' ≤ c && c ≤ '9') = true := hc
  cases cs with
  | nil => cases h
  | cons d ds =>
    rw [isLimit] at h
    rw [List.cons_append, isLimit, List.all_append, List.all_cons, List.all_nil, Bool.and_true,
      ← Bool.and_assoc, h, hrange, Bool.and_true]

/-- A positive number is written without leading zeros. -/
theorem isLimit_toDigits {n : ℕ} (h : 1 ≤ n) : isLimit (Nat.toDigits 10 n) = true := by
  induction n using Nat.strongRecOn with
  | ind n ih =>
    by_cases hsmall : n < 10
    · have hall : ∀ m < 10, 1 ≤ m → isLimit [Nat.digitChar m] = true := by decide
      rw [Nat.toDigits_of_lt_base hsmall]
      exact hall n hsmall h
    · have hall : ∀ m < 10, (Nat.digitChar m).isDigit = true := by decide
      rw [Nat.toDigits_of_base_le (by omega) (by omega)]
      exact isLimit_concat (ih (n / 10) (by omega) (by omega)) (hall (n % 10) (by omega))

theorem decimal_toDigits (n : ℕ) : decimal (Nat.toDigits 10 n) = n := by
  have hread := Nat.ofDigitChars_ten_toDigits (n := n)
  rwa [Nat.ofDigitChars_eq_foldl] at hread

theorem toList_natText (n : ℕ) : (toString (n : ℤ)).toList = Nat.toDigits 10 n := by
  rw [Int.toString_eq_repr, Int.repr_eq_if, if_pos (Int.natCast_nonneg n), Int.toNat_natCast,
    Nat.toList_repr]

section Query

variable {platform : Platform} {floatText : ℚ → List Char}

theorem contains_field (name value : List UInt8) : (field name value).contains 61 = true :=
  List.contains_iff_mem.mpr (List.mem_append_right _ List.mem_cons_self)

/-- One argument, with the name and the value the server finds. -/
theorem decodeField_field {arguments : Fields} {name cs : List Char}
    (hname : ∀ c ∈ name, 33 ≤ c.toNat ∧ c.toNat < 127) (hascii : ∀ c ∈ cs, c.toNat < 128) :
    decodeField platform arguments (field (String.ofList name).toByteArray.data.toList
      (String.ofList cs).toByteArray.data.toList) =
      decodeArgument platform arguments (String.ofList name) (String.ofList (cs.map plusChar)) := by
  have hsmall : ∀ c ∈ name, c.toNat < 128 := by
    intro c hc
    have hrange := hname c hc
    omega
  unfold decodeField
  rw [if_pos (contains_field _ _), takeWhile_field, dropWhile_field, decode_argument hsmall,
    decode_argument hascii, map_plusChar (not_space_of_graphic hname)]
  rfl

/-- The limit is read first. -/
theorem decodeField_limit {limit : ℕ} (hlimit : 1 ≤ limit)
    (hdigits : (Nat.toDigits 10 limit).length ≤ 4300) :
    decodeField platform [] (field (String.ofList ['l', 'i', 'm', 'i', 't']).toByteArray.data.toList
      (String.ofList (Nat.toDigits 10 limit)).toByteArray.data.toList) =
        .ok ([("limit", .int limit)] : Fields) := by
  have hgraphic := natDigits_graphic limit
  have hascii : ∀ c ∈ Nat.toDigits 10 limit, c.toNat < 128 := by
    intro c hc
    have hrange := hgraphic c hc
    omega
  rw [decodeField_field (by simp) hascii, map_plusChar (not_space_of_graphic hgraphic),
    decodeArgument, if_pos ⟨.inl rfl, rfl⟩, if_pos rfl, String.toList_ofList,
    if_pos (isLimit_toDigits hlimit), intOf, if_pos hdigits, decimal_toDigits]
  rfl

/-- The cursor is what the JSON parser makes of its text with plus signs. -/
theorem decodeField_after {arguments : Fields} {cs : List Char} (hnew : arguments.has "after" = false)
    (hascii : ∀ c ∈ cs, c.toNat < 128) :
    decodeField platform arguments (field (String.ofList ['a', 'f', 't', 'e', 'r']).toByteArray.data.toList
      (String.ofList cs).toByteArray.data.toList) =
      match platform.loadsCursor (String.ofList (cs.map plusChar)) with
      | .ok (.obj cursor) =>
        if nesting (.obj cursor) ≤ 64 then .ok (arguments ++ ([("after", .obj cursor)] : Fields))
        else .error .invalid
      | _ => .error .invalid := by
  rw [decodeField_field (by simp) hascii, decodeArgument, if_pos ⟨.inr rfl, hnew⟩,
    if_neg (by decide)]
  cases platform.loadsCursor (String.ofList (cs.map plusChar)) with
  | ok v => cases v <;> rfl
  | error e => cases e <;> rfl

/-! ### Depth -/

theorem nestingItems_le {items : List Json} {n : ℕ} :
    nestingItems items ≤ n ↔ ∀ x ∈ items, nesting x ≤ n := by
  induction items with
  | nil => simp [nestingItems]
  | cons x xs ih => rw [nestingItems, Nat.max_le, List.forall_mem_cons, ih]

theorem nestingMembers_le {members : List (Text × Json)} {n : ℕ} :
    nestingMembers members ≤ n ↔ ∀ m ∈ members, nesting m.2 ≤ n := by
  induction members with
  | nil => simp [nestingMembers]
  | cons m ms ih => rw [nestingMembers, Nat.max_le, List.forall_mem_cons, ih]

/-- Neither sorting nor plus signs make a value deeper. -/
theorem nesting_sorted_plus {v : Json} {n : ℕ} (h : nesting v ≤ n) : nesting v.sorted.plus ≤ n := by
  induction v using Json.induct generalizing n with
  | null => exact h
  | bool b => exact h
  | int k => exact h
  | float x => exact h
  | str s => exact Nat.zero_le n
  | arr items ih =>
    cases n with
    | zero => exact absurd h (by simp [nesting])
    | succ n =>
      rw [nesting, Nat.add_le_add_iff_right, nestingItems_le] at h
      rw [sorted_arr, plus_arr, nesting, Nat.add_le_add_iff_right, nestingItems_le, List.map_map,
        List.forall_mem_map]
      exact fun x hx => ih x hx (h x hx)
  | obj members ih =>
    cases n with
    | zero => exact absurd h (by simp [nesting])
    | succ n =>
      rw [nesting, Nat.add_le_add_iff_right, nestingMembers_le] at h
      rw [sorted_obj, plus_obj, nesting, Nat.add_le_add_iff_right, nestingMembers_le,
        List.forall_mem_map]
      intro m hm
      obtain ⟨m', hm', rfl⟩ := mem_sorted_members.mp hm
      exact ih m' hm' (h m' hm')

/-! ### The round trip -/

/-- The payload of a page read. -/
def pagePayload (limit : ℕ) (cursor : Fields) : Fields :=
  [("limit", .int limit), ("after", .obj cursor)]

/-- The arguments of a page read, encoded. -/
def pageArguments (floatText : ℚ → List Char) (limit : ℕ) (cursor : Fields) :
    List (List UInt8 × List UInt8) :=
  [((String.ofList ['l', 'i', 'm', 'i', 't']).toByteArray.data.toList,
      (String.ofList (Nat.toDigits 10 limit)).toByteArray.data.toList),
    ((String.ofList ['a', 'f', 't', 'e', 'r']).toByteArray.data.toList,
      (String.ofList (dumps floatText (.obj cursor))).toByteArray.data.toList)]

theorem queryString_page (limit : ℕ) (cursor : Fields) :
    queryString floatText (pagePayload limit cursor) =
      some (urlencode (pageArguments floatText limit cursor)) := by
  have hlimit : queryArgument floatText "limit" (.int limit) = Nat.toDigits 10 limit := by
    rw [queryArgument, if_pos rfl, toList_natText]
  rw [pageArguments, ← hlimit]
  rfl

/-- **The server finds the limit and the text of the cursor**, with plus signs. -/
theorem decodeHttpReadQuery_page {limit : ℕ} {cursor : Fields} (hlimit : 1 ≤ limit)
    (hdigits : (Nat.toDigits 10 limit).length ≤ 4300) (hfloats : PlainFloats floatText) :
    decodeHttpReadQuery platform (urlencode (pageArguments floatText limit cursor)) =
      match platform.loadsCursor
          (String.ofList ((Json.obj cursor).sorted.plus.text floatText)) with
      | .ok (.obj after) =>
        if nesting (.obj after) ≤ 64 then .ok (pagePayload limit after) else .error .invalid
      | _ => .error .invalid := by
  rw [decodeHttpReadQuery, pageArguments, if_neg (urlencode_ne_nil _ _),
    splitOn_urlencode (List.cons_ne_nil _ _)]
  simp only [List.map_cons, List.map_nil, List.foldlM_cons, List.foldlM_nil, bind_pure]
  rw [decodeField_limit hlimit hdigits, Raise.ok_bind, dumps,
    decodeField_after rfl (text_ascii hfloats _), ← text_plus hfloats]
  rfl

end Query

end Client

end ControlPlaneKit
