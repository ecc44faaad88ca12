/-!
Terminal styling with ANSI escape sequences.
-/
namespace ConfigTabs.Ansi

def esc (code : String) : String := String.singleton (Char.ofNat 27) ++ "[" ++ code ++ "m"

/-- Text in a foreground colour, by its code (31 red, 33 yellow, 36 cyan, 91 to 94 bright). -/
def fg (code : Nat) (s : String) : String := esc (toString code) ++ s ++ esc "39"

def bold (s : String) : String := esc "1" ++ s ++ esc "0"

def dim (s : String) : String := esc "2" ++ s ++ esc "0"

def red (s : String) : String := fg 31 s

def yellow (s : String) : String := fg 33 s

def cyan (s : String) : String := fg 36 s

end ConfigTabs.Ansi
