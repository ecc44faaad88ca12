/-!
Counting nouns in messages.
-/
namespace ConfigTabs

def pluralCount (n : Nat) (noun : String) : String :=
  toString n ++ " " ++ noun ++ (if n == 1 then "" else "s")

end ConfigTabs
