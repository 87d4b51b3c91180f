import SqlUnits.Text.Span
/-!
White space: the characters that Unicode lists under `White_Space`.
-/

namespace SqlUnits.Text

def isBlank (c : Char) : Bool :=
  let n := c.toNat
  (9 ≤ n && n ≤ 13) || n == 0x20 || n == 0x85 || n == 0xA0 || n == 0x1680 ||
    (0x2000 ≤ n && n ≤ 0x200A) || n == 0x2028 || n == 0x2029 || n == 0x202F ||
    n == 0x205F || n == 0x3000

def trimStart (cs : Text) : Text :=
  cs.dropWhile isBlank

def trimEnd (cs : Text) : Text :=
  (cs.reverse.dropWhile isBlank).reverse

def trim (cs : Text) : Text :=
  trimEnd (trimStart cs)

def trimString (s : String) : String :=
  String.ofList (trim s.toList)

end SqlUnits.Text
