import ConfigTabs.Config.Discovery
/-!
Where the settings file is found: the nearest of the starting directory and its parents for
which the joined name exists.
-/
namespace ConfigTabs

namespace Path

def ancestors (p : String) : List String :=
  p :: match _h : parent? p with
    | some up => ancestors up
    | none => []
termination_by p.length
decreasing_by exact parent?_length_lt _h

theorem ancestors_of_parent {p up : String} (h : parent? p = some up) :
    ancestors p = p :: ancestors up := by
  rw [ancestors]
  split <;> simp_all

theorem ancestors_of_top {p : String} (h : parent? p = none) : ancestors p = [p] := by
  rw [ancestors]
  split <;> simp_all

theorem length_ancestors_le (p : String) : (ancestors p).length ≤ p.length + 1 := by
  cases h : parent? p with
  | none => simp [ancestors_of_top h]
  | some up =>
    have hlt := parent?_length_lt h
    have ih := length_ancestors_le up
    rw [ancestors_of_parent h, List.length_cons]
    omega
termination_by p.length
decreasing_by exact parent?_length_lt h

example : ancestors "./a" = ["./a", ".", ""] := by decide +kernel

end Path

theorem searchUp_of_present {present : String → Bool} {name dir : String}
    (h : present (Path.join dir name) = true) : searchUp present name dir = some (Path.join dir name) := by
  rw [searchUp]
  simp [h]

theorem searchUp_of_parent {present : String → Bool} {name dir up : String}
    (h : present (Path.join dir name) = false) (hup : Path.parent? dir = some up) :
    searchUp present name dir = searchUp present name up := by
  rw [searchUp]
  simp only [h, Bool.false_eq_true, if_false]
  split <;> simp_all

theorem searchUp_of_top {present : String → Bool} {name dir : String}
    (h : present (Path.join dir name) = false) (hup : Path.parent? dir = none) :
    searchUp present name dir = none := by
  rw [searchUp]
  simp only [h, Bool.false_eq_true, if_false]
  split <;> simp_all

theorem searchUp_eq_find (present : String → Bool) (name dir : String) :
    searchUp present name dir = ((Path.ancestors dir).map (Path.join · name)).find? present := by
  cases hhere : present (Path.join dir name)
  · cases hup : Path.parent? dir with
    | none =>
      rw [searchUp_of_top hhere hup, Path.ancestors_of_top hup]
      simp [hhere]
    | some up =>
      rw [searchUp_of_parent hhere hup, Path.ancestors_of_parent hup, List.map_cons,
        List.find?_cons_of_neg (by simp [hhere])]
      exact searchUp_eq_find present name up
  · rw [searchUp_of_present hhere, Path.ancestors, List.map_cons, List.find?_cons_of_pos hhere]
termination_by dir.length
decreasing_by exact Path.parent?_length_lt hup

/-- The settings file is the given absolute path if it exists, else the name joined to the nearest
directory at or above the start where that exists; the walk up tries at most one more directory
than the start has characters. -/
theorem findConfigFrom_nearest (present : String → Bool) (start name : String) :
    findConfigFrom present start name =
      (if Path.isAbsolute name then (if present name then some name else none)
       else ((Path.ancestors start).map (Path.join · name)).find? present) ∧
    (Path.ancestors start).length ≤ start.length + 1 := by
  refine ⟨?_, Path.length_ancestors_le start⟩
  unfold findConfigFrom
  split
  · rfl
  · exact searchUp_eq_find present name start

example : findConfigFrom (fun p => p == "/a/t.toml" || p == "/a/b/t.toml") "/a/b/c" "t.toml" =
    some "/a/b/t.toml" := by
  decide +kernel

end ConfigTabs
