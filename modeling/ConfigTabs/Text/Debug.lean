/-!
Quoting text for messages, escaping what is not printable.
-/
namespace ConfigTabs.Text

def isUnprintable (c : Char) : Bool :=
  let n := c.toNat
  n < 0x20 || (0x7F ≤ n && n ≤ 0x9F) || n == 0xA0 || n == 0xAD ||
    (0x600 ≤ n && n ≤ 0x605) || n == 0x61C || n == 0x6DD || n == 0x70F || n == 0x1680 ||
    n == 0x180E || (0x2000 ≤ n && n ≤ 0x200F) || (0x2028 ≤ n && n ≤ 0x202F) ||
    (0x205F ≤ n && n ≤ 0x2064) || (0x2066 ≤ n && n ≤ 0x206F) || n == 0x3000 ||
    (0xE000 ≤ n && n ≤ 0xF8FF) || n == 0xFEFF || (0xFFF9 ≤ n && n ≤ 0xFFFB) ||
    n == 0xFFFE || n == 0xFFFF || 0xF0000 ≤ n || (0xE0000 ≤ n && n ≤ 0xE007F)

def isCombining (c : Char) : Bool :=
  let n := c.toNat
  (0x300 ≤ n && n ≤ 0x36F) || (0x1AB0 ≤ n && n ≤ 0x1AFF) || (0x1DC0 ≤ n && n ≤ 0x1DFF) ||
    (0x20D0 ≤ n && n ≤ 0x20FF) || (0xFE00 ≤ n && n ≤ 0xFE0F) || (0xFE20 ≤ n && n ≤ 0xFE2F)

private def hexLower (n : Nat) : String :=
  String.ofList (Nat.toDigits 16 n)

def debugEscape (first : Bool) (c : Char) : String :=
  match c with
  | '"' => "\\\""
  | '\\' => "\\\\"
  | '\n' => "\\n"
  | '\r' => "\\r"
  | '\t' => "\\t"
  | '\x00' => "\\0"
  | _ =>
    if isUnprintable c || (first && isCombining c) then "\\u\x7b" ++ hexLower c.toNat ++ "\x7d"
    else String.singleton c

/-- Text in double quotes with escapes, as messages quote it. -/
def debugQuote (s : String) : String :=
  let cs := s.toList
  "\"" ++ String.join (cs.zipIdx.map fun (c, i) => debugEscape (i == 0) c) ++ "\""

end ConfigTabs.Text
