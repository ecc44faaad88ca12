import ConfigTabs.Path.Basic
/-!
Finding the settings file: an absolute name is looked for only there, any other in the
starting directory and each directory above it, the nearest first.
-/
namespace ConfigTabs

namespace Path

theorem intercalate_parts (p : String) : "/".intercalate (parts p) = p := by
  rw [← String.toList_inj]
  simp [parts, splitAt, List.intercalate_splitOn]

theorem length_le_length_intercalate_cons (s t : String) (l : List String) :
    t.length ≤ (s.intercalate (t :: l)).length := by
  cases l with
  | nil => simp
  | cons u l =>
    rw [String.intercalate_cons_cons, String.length_append, String.length_append]
    omega

theorem length_intercalate_le_of_prefix {s : String} {m l : List String} (h : m <+: l) :
    (s.intercalate m).length ≤ (s.intercalate l).length := by
  obtain ⟨n, rfl⟩ := h
  by_cases hm : m = []
  · simp [hm]
  by_cases hn : n = []
  · simp [hn]
  rw [String.intercalate_append_of_ne_nil hm hn, String.length_append, String.length_append]
  omega

theorem length_le_of_part {p x : String} {i : Nat} (hx : (parts p)[i]? = some x) :
    x.length ≤ p.length := by
  obtain ⟨hlt, rfl⟩ := List.getElem?_eq_some_iff.mp hx
  have hsplit : parts p = (parts p).take i ++ (parts p)[i] :: (parts p).drop (i + 1) := by
    rw [List.getElem_cons_drop, List.take_append_drop]
  have hp := congrArg String.length (intercalate_parts p)
  rw [hsplit] at hp
  by_cases hpre : (parts p).take i = []
  · rw [hpre, List.nil_append] at hp
    have := length_le_length_intercalate_cons "/" (parts p)[i] ((parts p).drop (i + 1))
    omega
  · rw [String.intercalate_append_of_ne_nil hpre (List.cons_ne_nil _ _), String.length_append,
      String.length_append] at hp
    have := length_le_length_intercalate_cons "/" (parts p)[i] ((parts p).drop (i + 1))
    omega

theorem length_intercalate_take_add {p x : String} {i : Nat} (hx : (parts p)[i]? = some x)
    (hpre : (parts p).take i ≠ []) :
    ("/".intercalate ((parts p).take i)).length + 1 + x.length ≤ p.length := by
  obtain ⟨hlt, rfl⟩ := List.getElem?_eq_some_iff.mp hx
  have hsplit : parts p = (parts p).take i ++ (parts p)[i] :: (parts p).drop (i + 1) := by
    rw [List.getElem_cons_drop, List.take_append_drop]
  have hp := congrArg String.length (intercalate_parts p)
  rw [hsplit, String.intercalate_append_of_ne_nil hpre (List.cons_ne_nil _ _), String.length_append,
    String.length_append] at hp
  have := length_le_length_intercalate_cons "/" (parts p)[i] ((parts p).drop (i + 1))
  have hslash : "/".length = 1 := rfl
  omega

theorem parts_head_of_isAbsolute {p : String} (h : isAbsolute p = true) : (parts p)[0]? = some "" := by
  obtain ⟨rest, hrest⟩ := String.startsWith_string_iff.mp h
  simp [parts, splitAt, ← hrest, List.splitOn_cons_eq_if_modifyHead]

theorem parent?_length_lt {p q : String} (h : parent? p = some q) : q.length < p.length := by
  unfold parent? at h
  dsimp only at h
  split at h
  · cases h
  · rename_i x last hlast
    -- the last step is a nonempty part at its index
    obtain ⟨hmem, hstep⟩ := List.mem_filter.mp (List.mem_of_getLast? hlast)
    have hat : (parts p)[last]? = some x := List.mem_zipIdx_iff_getElem?.mp hmem
    have hx : x ≠ "" := by
      intro hx
      simp [isStep, hx] at hstep
    have hxlen : 0 < x.length := by
      cases hlen : x.length with
      | zero => exact absurd (String.length_eq_zero_iff.mp hlen) hx
      | succ n => omega
    have hlong := length_intercalate_take_add hat
    have htake : last ≠ 0 → (parts p).take last ≠ [] := by
      intro hl hnil
      rcases List.take_eq_nil_iff.mp hnil with h0 | hempty
      · exact hl h0
      · simp [hempty] at hat
    have hslash : "/".length = 1 := rfl
    split at h
    · -- nothing is kept before the last step: the root, a leading `.`, or the empty path
      split at h
      · rename_i habs
        cases h
        have hl : last ≠ 0 := by
          rintro rfl
          rw [parts_head_of_isAbsolute habs] at hat
          exact hx (Option.some.inj hat).symm
        have := hlong (htake hl)
        omega
      · split at h
        · rename_i hdot
          cases h
          have hl : last ≠ 0 := by simpa using (Bool.and_eq_true _ _).mp hdot |>.1
          have := hlong (htake hl)
          have hdotlen : ".".length = 1 := rfl
          omega
        · cases h
          have := length_le_of_part hat
          exact Nat.lt_of_lt_of_le hxlen this
    · rename_i hkept
      -- what is kept is a prefix of the parts before the last step
      have hpre : (((parts p).take last).reverse.dropWhile (fun s => s.isEmpty || s == ".")).reverse
          <+: (parts p).take last := by
        simpa using (List.dropWhile_suffix (l := ((parts p).take last).reverse)
          (fun s => s.isEmpty || s == ".")).reverse
      have htake' : (parts p).take last ≠ [] := by
        intro hnil
        rw [hnil] at hkept
        exact hkept rfl
      have := hlong htake'
      have hle := length_intercalate_le_of_prefix (s := "/") hpre
      split at h <;> cases h <;> omega

end Path

def searchUp (present : String → Bool) (name dir : String) : Option String :=
  let candidate := Path.join dir name
  if present candidate then some candidate
  else
    match _hup : Path.parent? dir with
    | some up => searchUp present name up
    | none => none
termination_by dir.length
decreasing_by exact Path.parent?_length_lt _hup

/-- Where the settings file `name` is, given which paths exist and where to start from: a name
given as an absolute path only where it says, any other the nearest from `start` upward. -/
def findConfigFrom (present : String → Bool) (start name : String) : Option String :=
  if Path.isAbsolute name then
    if present name then some name else none
  else searchUp present name start

end ConfigTabs
