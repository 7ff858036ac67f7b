import Mathlib.Data.List.DropRight

/-!
# White space in Python strings

`str.isspace`, `str.strip` and `str.rstrip(chars)` on the code points of a string.
-/

namespace ControlPlaneKit

namespace Strip

/-- `character.isspace()`. -/
def isSpace (n : ℕ) : Bool :=
  (9 ≤ n && n ≤ 13) || (28 ≤ n && n ≤ 32) || n == 133 || n == 160 || n == 5760 ||
    (8192 ≤ n && n ≤ 8202) || n == 8232 || n == 8233 || n == 8239 || n == 8287 || n == 12288

/-- `value.rstrip(chars)`, for the characters that `p` accepts. -/
def rstrip (p : ℕ → Bool) (codes : List ℕ) : List ℕ :=
  codes.rdropWhile p

/-- `value.strip()`. -/
def strip (codes : List ℕ) : List ℕ :=
  rstrip isSpace (codes.dropWhile isSpace)

end Strip

end ControlPlaneKit
