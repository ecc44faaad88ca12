import ConfigTabs.Path.Basic
/-!
How a path is read into components, all from one equation for a path cut at a slash.
-/
namespace ConfigTabs.Path

def stepOf (s : String) : PathComponent := if s == ".." then .parent else .name s

/-- The components the parts of a path give after its start: empty parts and `.` give none. -/
def steps (p : String) : List PathComponent :=
  ((parts p).filter fun s => !s.isEmpty && s != ".").map stepOf

/-- A name a directory can hold: not empty, neither `.` nor `..`, and without a slash. -/
def IsName (n : String) : Prop := n ≠ "" ∧ n ≠ "." ∧ n ≠ ".." ∧ '/' ∉ n.toList

instance (n : String) : Decidable (IsName n) :=
  inferInstanceAs (Decidable (n ≠ "" ∧ n ≠ "." ∧ n ≠ ".." ∧ '/' ∉ n.toList))

theorem components_eq (p : String) : components p =
    (if p.startsWith "/" then [.root] else []) ++
      (if !p.startsWith "/" && (parts p).head? == some "." then [.current] else []) ++ steps p := rfl

/-! ### Parts -/

theorem toList_append_slash (a b : String) : (a ++ "/" ++ b).toList = a.toList ++ '/' :: b.toList := by
  simp

theorem parts_append_slash (a b : String) : parts (a ++ "/" ++ b) = parts a ++ parts b := by
  simp only [parts, splitAt, toList_append_slash, List.splitOn_append_cons_self, List.map_append]

theorem parts_ne_nil (p : String) : parts p ≠ [] := by
  simp [parts, splitAt]

theorem parts_of_not_mem {s : String} (h : '/' ∉ s.toList) : parts s = [s] := by
  simp [parts, splitAt, List.splitOn_eq_singleton h]

theorem head?_parts_append_slash (a b : String) : (parts (a ++ "/" ++ b)).head? = (parts a).head? := by
  obtain ⟨x, xs, hx⟩ := List.exists_cons_of_ne_nil (parts_ne_nil a)
  rw [parts_append_slash, hx]
  rfl

/-! ### Steps -/

theorem steps_append_slash (a b : String) : steps (a ++ "/" ++ b) = steps a ++ steps b := by
  simp only [steps, parts_append_slash, List.filter_append, List.map_append]

@[simp] theorem steps_empty : steps "" = [] := by decide

@[simp] theorem steps_dot : steps "." = [] := by decide

@[simp] theorem steps_dotdot : steps ".." = [.parent] := by decide

theorem steps_name {n : String} (hn : IsName n) : steps n = [.name n] := by
  obtain ⟨hne, hdot, hdotdot, hslash⟩ := hn
  have hkeep : (!n.isEmpty && n != ".") = true := by simp [hne, hdot]
  simp [steps, parts_of_not_mem hslash, hkeep, stepOf, hdotdot]

/-! ### Components after a slash -/

theorem startsWith_append_slash {a : String} (ha : a ≠ "") (b : String) :
    (a ++ "/" ++ b).startsWith "/" = a.startsWith "/" := by
  obtain ⟨c, cs, hc⟩ := List.exists_cons_of_ne_nil (mt String.toList_eq_nil_iff.mp ha)
  rw [Bool.eq_iff_iff]
  simp [String.startsWith_string_iff, hc]

theorem components_append_slash {a : String} (ha : a ≠ "") (b : String) :
    components (a ++ "/" ++ b) = components a ++ steps b := by
  rw [components_eq, components_eq a, startsWith_append_slash ha, head?_parts_append_slash,
    steps_append_slash]
  simp only [List.append_assoc]

theorem components_slash_append (b : String) : components ("/" ++ b) = .root :: steps b := by
  have habs : ("/" ++ b).startsWith "/" = true := by simp [String.startsWith_string_iff]
  have hsteps : steps ("/" ++ b) = steps b := by
    simpa using steps_append_slash "" b
  rw [components_eq, habs, hsteps]
  rfl

theorem components_dot_slash_append (b : String) : components ("./" ++ b) = .current :: steps b := by
  have hsplit : "./" ++ b = "." ++ "/" ++ b := by rw [← String.toList_inj]; simp
  rw [hsplit, components_append_slash (by decide), show components "." = [.current] by decide +kernel]
  rfl

theorem components_of_relative {p : String} (habs : p.startsWith "/" = false)
    (hdot : (parts p).head? ≠ some ".") : components p = steps p := by
  simp [components_eq, habs, hdot]

theorem components_of_isAbsolute {p : String} (h : isAbsolute p = true) : components p = .root :: steps p := by
  simp only [isAbsolute] at h
  simp [components_eq, h]

/-! ### How paths compare -/

theorem same_iff {a b : String} : same a b = true ↔ components a = components b := beq_iff_eq

theorem startsWith_iff {p base : String} :
    startsWith p base = true ↔ components base <+: components p := List.isPrefixOf_iff_prefix

theorem components_append_trailing_slash {a : String} (ha : a ≠ "") :
    components (a ++ "/") = components a := by
  simpa using components_append_slash ha ""

theorem components_double_slash (a b : String) :
    components (a ++ "//" ++ b) = components (a ++ "/" ++ b) := by
  by_cases ha : a = ""
  · subst ha
    have hsplit : "" ++ "//" ++ b = "/" ++ ("" ++ "/" ++ b) := by rw [← String.toList_inj]; simp
    rw [hsplit, components_slash_append, steps_append_slash, steps_empty, List.nil_append,
      String.empty_append, ← components_slash_append]
  · have hsplit : a ++ "//" ++ b = a ++ "/" ++ ("" ++ "/" ++ b) := by
      rw [← String.toList_inj]; simp
    rw [hsplit, components_append_slash ha, components_append_slash ha, steps_append_slash,
      steps_empty, List.nil_append]

theorem components_interior_dot (a b : String) :
    components (a ++ "/./" ++ b) = components (a ++ "/" ++ b) := by
  by_cases ha : a = ""
  · subst ha
    have hsplit : "" ++ "/./" ++ b = "/" ++ ("." ++ "/" ++ b) := by rw [← String.toList_inj]; simp
    rw [hsplit, components_slash_append, steps_append_slash, steps_dot, List.nil_append,
      String.empty_append, ← components_slash_append]
  · have hsplit : a ++ "/./" ++ b = a ++ "/" ++ ("." ++ "/" ++ b) := by
      rw [← String.toList_inj]; simp
    rw [hsplit, components_append_slash ha, components_append_slash ha, steps_append_slash,
      steps_dot, List.nil_append]

theorem components_append_parent {a : String} (ha : a ≠ "") :
    components (a ++ "/..") = components a ++ [.parent] := by
  have hsplit : a ++ "/.." = a ++ "/" ++ ".." := by rw [← String.toList_inj]; simp
  rw [hsplit, components_append_slash ha, steps_dotdot]

theorem components_dot_slash_name {n : String} (hn : IsName n) :
    components ("./" ++ n) = [.current, .name n] ∧ components n = [.name n] := by
  have hrel : n.startsWith "/" = false := by
    rw [Bool.eq_false_iff]
    intro h
    exact hn.2.2.2 ((String.startsWith_string_iff.mp h).subset (by simp))
  have hhead : (parts n).head? ≠ some "." := by simp [parts_of_not_mem hn.2.2.2, hn.2.1]
  exact ⟨by rw [components_dot_slash_append, steps_name hn],
    by rw [components_of_relative hrel hhead, steps_name hn]⟩

/-! ### Joining a name -/

theorem endsWith_slash_iff (s : String) : s.endsWith "/" = true ↔ ['/'] <:+ s.toList := by
  simp [← String.endsWith_toSlice]

theorem startsWith_slash_of_isName {n : String} (hn : IsName n) : n.startsWith "/" = false := by
  rw [Bool.eq_false_iff]
  intro h
  exact hn.2.2.2 ((String.startsWith_string_iff.mp h).subset (by simp))

theorem endsWith_slash_of_isName {a n : String} (hn : IsName n) : (a ++ n).endsWith "/" = false := by
  rw [Bool.eq_false_iff, ne_eq, endsWith_slash_iff, String.toList_append]
  intro ⟨pre, hpre⟩
  obtain ⟨c, cs, hc⟩ := List.exists_cons_of_ne_nil (mt String.toList_eq_nil_iff.mp hn.1)
  have hlast : (a.toList ++ n.toList).getLast? = some '/' := by rw [← hpre]; simp
  have hn' : n.toList.getLast? = some '/' := by
    rw [List.getLast?_append] at hlast
    cases hl : n.toList.getLast? with
    | none => simp [hc] at hl
    | some x => simpa [hl] using hlast
  exact hn.2.2.2 (List.mem_of_getLast? hn')

theorem components_join {base p : String} (hb : base ≠ "") (hp : isAbsolute p = false) :
    components (join base p) = components base ++ steps p := by
  have hempty : base.isEmpty = false := by simpa [String.isEmpty_iff] using hb
  unfold join
  simp only [hp, hempty, Bool.or_false, Bool.false_eq_true, if_false]
  split
  · -- the path already ends in a slash: it is a shorter path and that slash
    rename_i hend
    obtain ⟨pre, hpre⟩ := (endsWith_slash_iff base).mp hend
    have hbase : base = String.ofList pre ++ "/" := by
      rw [← String.toList_inj]; simp [← hpre]
    rw [hbase]
    by_cases hpre : String.ofList pre = ""
    · rw [hpre, String.empty_append, components_slash_append, show components "/" = [.root] by decide +kernel]
      rfl
    · rw [components_append_slash hpre, components_append_trailing_slash hpre]
  · rw [components_append_slash hb]

theorem components_join_name {base n : String} (hb : base ≠ "") (hn : IsName n) :
    components (join base n) = components base ++ [.name n] := by
  rw [components_join hb (startsWith_slash_of_isName hn), steps_name hn]

end ConfigTabs.Path
