import ConfigTabs.Proofs.Paths
/-!
Editing a path by its raw parts (the rest after a leading path, the parent, another
extension), told by the steps each leaves.
-/
namespace ConfigTabs.Path

def named (s : String) : Bool := !s.isEmpty && s != "."

theorem steps_eq_filter (p : String) : steps p = ((parts p).filter named).map stepOf := rfl

def StartsNamed (p : String) : Prop := ∃ x xs, parts p = x :: xs ∧ named x = true

/-! ### Pieces of a split -/

theorem mem_of_mem_splitOn {a c : Char} : ∀ {l x : List Char}, x ∈ l.splitOn a → c ∈ x → c ∈ l ∧ c ≠ a
  | [], x, hx, hc => by
    rw [List.splitOn_nil, List.mem_singleton] at hx
    subst hx
    exact absurd hc List.not_mem_nil
  | d :: ds, x, hx, hc => by
    rw [List.splitOn_cons_eq_if_modifyHead] at hx
    split at hx
    · rcases List.mem_cons.mp hx with rfl | hx
      · exact absurd hc List.not_mem_nil
      · exact (mem_of_mem_splitOn hx hc).imp (List.mem_cons_of_mem d) id
    · -- `d` is not the separator: it starts the first piece
      rename_i hd
      obtain ⟨y, ys, hys⟩ := List.exists_cons_of_ne_nil (List.splitOn_ne_nil a ds)
      rw [hys, List.modifyHead_cons, List.mem_cons] at hx
      rcases hx with rfl | hx
      · rcases List.mem_cons.mp hc with rfl | hc
        · exact ⟨List.mem_cons_self, by simpa using hd⟩
        · exact (mem_of_mem_splitOn (hys ▸ List.mem_cons_self) hc).imp (List.mem_cons_of_mem d) id
      · exact (mem_of_mem_splitOn (hys ▸ List.mem_cons_of_mem y hx) hc).imp (List.mem_cons_of_mem d) id

theorem slash_not_mem_of_mem_parts {p x : String} (hx : x ∈ parts p) : '/' ∉ x.toList := by
  simp only [parts, splitAt, List.mem_map] at hx
  obtain ⟨y, hy, rfl⟩ := hx
  intro h
  exact (mem_of_mem_splitOn hy (by simpa using h)).2 rfl

theorem parts_intercalate {l : List String} (hl : l ≠ []) (hs : ∀ x ∈ l, '/' ∉ x.toList) :
    parts ("/".intercalate l) = l := by
  have hs' : ∀ y ∈ l.map String.toList, '/' ∉ y := by simpa using hs
  simp only [parts, splitAt, String.toList_intercalate]
  rw [show "/".toList = ['/'] by simp, List.splitOn_intercalate '/' hs' (by simpa using hl)]
  simp

/-! ### Paths that start with a named part -/

theorem named_iff {s : String} : named s = true ↔ s ≠ "" ∧ s ≠ "." := by
  simp [named]

theorem startsWith_slash_of_startsNamed {p : String} (h : StartsNamed p) : p.startsWith "/" = false := by
  obtain ⟨x, xs, hp, hx⟩ := h
  rw [Bool.eq_false_iff]
  intro hs
  obtain ⟨rest, hrest⟩ := String.startsWith_string_iff.mp hs
  -- a leading slash makes the first part empty
  have hsplit : parts p = "" :: parts (String.ofList rest) := by
    simp [parts, splitAt, ← hrest, List.splitOn_cons_eq_if_modifyHead]
  rw [hp] at hsplit
  cases hsplit
  simp [named] at hx

theorem components_of_startsNamed {p : String} (h : StartsNamed p) : components p = steps p := by
  obtain ⟨x, xs, hp, hx⟩ := h
  refine components_of_relative (startsWith_slash_of_startsNamed ⟨x, xs, hp, hx⟩) ?_
  simpa [hp] using (named_iff.mp hx).2

theorem startsNamed_of_components {p x : String} {cs : List PathComponent}
    (h : components p = .name x :: cs) : StartsNamed p := by
  have habs : p.startsWith "/" = false := by
    cases hs : p.startsWith "/" with
    | false => rfl
    | true => simp [components_eq, hs] at h
  obtain ⟨y, ys, hy⟩ := List.exists_cons_of_ne_nil (parts_ne_nil p)
  refine ⟨y, ys, hy, named_iff.mpr ⟨?_, ?_⟩⟩
  · -- an empty first part comes from an empty path or a leading slash
    rintro rfl
    cases hp : p.toList with
    | nil =>
      rw [String.toList_eq_nil_iff.mp hp] at h
      simp [show components "" = [] by decide] at h
    | cons c rest =>
      have hc : c ≠ '/' := by
        rintro rfl
        simp [hp] at habs
      obtain ⟨z, zs, hz⟩ := List.exists_cons_of_ne_nil (List.splitOn_ne_nil '/' rest)
      simp [parts, splitAt, hp, List.splitOn_cons_eq_if_modifyHead, hc, hz] at hy
  · -- a leading `.` stays as the first component
    rintro rfl
    simp [components_eq, habs, hy] at h

theorem StartsNamed.ne_empty {p : String} (h : StartsNamed p) : p ≠ "" := by
  obtain ⟨x, xs, hp, hx⟩ := h
  rintro rfl
  rw [show parts "" = [""] by decide] at hp
  cases hp
  simp [named] at hx

theorem startsNamed_append_slash {a : String} (ha : StartsNamed a) (b : String) :
    StartsNamed (a ++ "/" ++ b) := by
  obtain ⟨x, xs, hp, hx⟩ := ha
  exact ⟨x, xs ++ parts b, by rw [parts_append_slash, hp, List.cons_append], hx⟩

theorem startsNamed_join {base p : String} (hb : StartsNamed base) (hp : isAbsolute p = false) :
    StartsNamed (join base p) := by
  have hempty : base.isEmpty = false := by simpa [String.isEmpty_iff] using hb.ne_empty
  unfold join
  simp only [hp, hempty, Bool.or_false, Bool.false_eq_true, if_false]
  split
  · -- a trailing slash is an empty last part, so the start is the start without it
    rename_i hend
    obtain ⟨pre, hpre⟩ := (endsWith_slash_iff base).mp hend
    have hbase : base = String.ofList pre ++ "/" ++ "" := by
      rw [← String.toList_inj]; simp [← hpre]
    obtain ⟨x, xs, hparts, hx⟩ := hb
    rw [hbase, parts_append_slash] at hparts
    obtain ⟨y, ys, hy⟩ := List.exists_cons_of_ne_nil (parts_ne_nil (String.ofList pre))
    rw [hy, List.cons_append, List.cons.injEq] at hparts
    have hsplit : base ++ p = String.ofList pre ++ "/" ++ p := by
      rw [hbase, ← String.toList_inj]; simp
    rw [hsplit]
    exact startsNamed_append_slash ⟨y, ys, hy, hparts.1 ▸ hx⟩ p
  · exact startsNamed_append_slash hb p

/-! ### Dropping empty and `.` parts at the ends -/

abbrev blankPart (s : String) : Bool := s.isEmpty || s == "."

theorem named_eq_not_blankPart (s : String) : named s = !blankPart s := by
  unfold named blankPart bne
  cases s.isEmpty <;> rfl

theorem filter_named_dropWhile : ∀ (l : List String), (l.dropWhile blankPart).filter named = l.filter named
  | [] => rfl
  | x :: xs => by
    by_cases hx : blankPart x = true
    · have hn : named x = false := by rw [named_eq_not_blankPart, hx]; rfl
      rw [List.dropWhile_cons_of_pos hx, filter_named_dropWhile xs, List.filter_cons_of_neg (by simp [hn])]
    · rw [List.dropWhile_cons_of_neg hx]

theorem filter_named_dropTrailing (l : List String) :
    (l.reverse.dropWhile blankPart).reverse.filter named = l.filter named := by
  rw [List.filter_reverse, filter_named_dropWhile, List.filter_reverse, List.reverse_reverse]

theorem dropTrailing_cons {x : String} (hx : named x = true) (l : List String) :
    ((x :: l).reverse.dropWhile blankPart).reverse = x :: (l.reverse.dropWhile blankPart).reverse := by
  have hkeep : blankPart x = false := by
    rw [named_eq_not_blankPart] at hx
    simpa using hx
  rw [List.reverse_cons, List.dropWhile_append]
  split
  · rename_i hnil
    have hnil : l.reverse.dropWhile blankPart = [] := List.isEmpty_iff.mp hnil
    simp [hnil, hkeep]
  · simp

theorem dropWhile_blank_cases : ∀ (l : List String),
    l.dropWhile blankPart = [] ∨ ∃ y ys, l.dropWhile blankPart = y :: ys ∧ named y = true
  | [] => Or.inl rfl
  | x :: xs => by
    by_cases hx : blankPart x = true
    · rw [List.dropWhile_cons_of_pos hx]
      exact dropWhile_blank_cases xs
    · rw [List.dropWhile_cons_of_neg hx]
      exact Or.inr ⟨x, xs, rfl, by rw [named_eq_not_blankPart]; simpa using hx⟩

theorem steps_intercalate {l : List String} (hs : ∀ y ∈ l, '/' ∉ y.toList)
    (hhead : l = [] ∨ ∃ y ys, l = y :: ys ∧ named y = true) :
    steps ("/".intercalate l) = (l.filter named).map stepOf ∧
      ("/".intercalate l = "" ∨ StartsNamed ("/".intercalate l)) := by
  rcases hhead with rfl | ⟨y, ys, rfl, hy⟩
  · exact ⟨by simp, Or.inl (by simp)⟩
  · have hparts := parts_intercalate (List.cons_ne_nil y ys) hs
    exact ⟨by rw [steps_eq_filter, hparts], Or.inr ⟨y, ys, hparts, hy⟩⟩

/-! ### The rest after a leading path -/

theorem filter_skip (absolute : Bool) : ∀ (l : List String) (k n : Nat), k ≠ 0 →
    (stripPrefix?.skip absolute (l.zipIdx k) n).filter named = (l.filter named).drop n
  | [], _, n, _ => by simp [stripPrefix?.skip]
  | x :: xs, k, n, hk => by
    have hk' : (k == 0) = false := by simpa using hk
    have hstep : isStep (k == 0 && !absolute) x = named x := by simp [isStep, named, hk']
    rw [List.zipIdx_cons]
    cases n with
    | zero => simp [stripPrefix?.skip, List.zipIdx_map_fst]
    | succ n =>
      simp only [stripPrefix?.skip, Nat.add_one_ne_zero, beq_iff_eq, if_false, hstep,
        Nat.add_sub_cancel]
      cases hx : named x
      · simp only [Bool.false_eq_true, if_false]
        rw [filter_skip absolute xs (k + 1) (n + 1) (by omega), List.filter_cons_of_neg (by simp [hx])]
      · simp only [if_true]
        rw [filter_skip absolute xs (k + 1) n (by omega), List.filter_cons_of_pos hx, List.drop_succ_cons]

theorem mem_of_mem_skip (absolute : Bool) {y : String} :
    ∀ (l : List (String × Nat)) (n : Nat), y ∈ stripPrefix?.skip absolute l n → y ∈ l.map Prod.fst
  | [], _, h => by simp [stripPrefix?.skip] at h
  | (x, i) :: more, n, h => by
    unfold stripPrefix?.skip at h
    split at h
    · exact h
    · split at h
      · exact List.mem_cons_of_mem x (mem_of_mem_skip absolute more (n - 1) h)
      · exact List.mem_cons_of_mem x (mem_of_mem_skip absolute more n h)

theorem steps_intercalate_skip {absolute : Bool} {p : String} {n : Nat} {rest : List String}
    (hrest : stripPrefix?.skip absolute (parts p).zipIdx n = rest) :
    steps ("/".intercalate ((rest.dropWhile blankPart).reverse.dropWhile blankPart).reverse) =
        (((rest.dropWhile blankPart).reverse.dropWhile blankPart).reverse.filter named).map stepOf ∧
      ("/".intercalate ((rest.dropWhile blankPart).reverse.dropWhile blankPart).reverse = "" ∨
        StartsNamed ("/".intercalate ((rest.dropWhile blankPart).reverse.dropWhile blankPart).reverse)) := by
  have hslash : ∀ y ∈ ((rest.dropWhile blankPart).reverse.dropWhile blankPart).reverse, '/' ∉ y.toList := by
    intro y hy
    have hy : y ∈ rest := List.dropWhile_sublist _ |>.subset
      (List.mem_reverse.mp (List.dropWhile_sublist _ |>.subset (List.mem_reverse.mp hy)))
    rw [← hrest] at hy
    exact slash_not_mem_of_mem_parts (by simpa [List.zipIdx_map_fst] using mem_of_mem_skip _ _ _ hy)
  apply steps_intercalate hslash
  rcases dropWhile_blank_cases rest with hnil | ⟨y, ys, hys, hy⟩
  · exact Or.inl (by simp [hnil])
  · exact Or.inr ⟨y, _, by rw [hys, dropTrailing_cons hy], hy⟩

theorem stripPrefix?_spec {p base : String} (hp : StartsNamed p) (hpre : components base <+: components p) :
    ∃ r, stripPrefix? p base = some r ∧ isAbsolute r = false ∧
      steps r = (components p).drop (components base).length := by
  have habs : isAbsolute p = false := startsWith_slash_of_startsNamed hp
  obtain ⟨x, xs, hparts, hx⟩ := hp
  have hsteps : components p = steps p := components_of_startsNamed ⟨x, xs, hparts, hx⟩
  generalize hrest : stripPrefix?.skip false (parts p).zipIdx (components base).length = rest
  -- the named parts left are those after the leading path's components
  have hfilter : rest.filter named = ((parts p).filter named).drop (components base).length := by
    rw [← hrest, hparts, List.zipIdx_cons]
    cases hn : (components base).length with
    | zero => simp [stripPrefix?.skip, List.zipIdx_map_fst]
    | succ n =>
      have hfirst : isStep (0 == 0 && !false) x = true := by
        simpa [isStep] using (named_iff.mp hx).1
      simp only [stripPrefix?.skip, Nat.add_one_ne_zero, beq_iff_eq, if_false, hfirst, if_true,
        Nat.add_sub_cancel]
      rw [filter_skip false xs 1 n (by omega), List.filter_cons_of_pos hx, List.drop_succ_cons]
  obtain ⟨hr, hrel⟩ := steps_intercalate_skip hrest
  refine ⟨"/".intercalate ((rest.dropWhile blankPart).reverse.dropWhile blankPart).reverse, ?_, ?_, ?_⟩
  · simp only [stripPrefix?, List.isPrefixOf_iff_prefix.mpr hpre, Bool.not_true, Bool.false_eq_true,
      if_false, habs, Nat.sub_zero, hrest]
  · rcases hrel with hempty | hnamed
    · rw [hempty]; decide
    · exact startsWith_slash_of_startsNamed hnamed
  · rw [hr, filter_named_dropTrailing, filter_named_dropWhile, hfilter, hsteps, steps_eq_filter,
      List.map_drop]

/-! ### The parent -/

theorem exists_last_named : ∀ {l : List String}, l.filter named ≠ [] →
    ∃ pre x post, l = pre ++ x :: post ∧ named x = true ∧ post.filter named = []
  | [], h => absurd rfl h
  | y :: ys, h => by
    by_cases hys : ys.filter named = []
    · have hy : named y = true := by
        cases hy : named y
        · exact absurd (by rw [List.filter_cons_of_neg (by simp [hy]), hys]) h
        · rfl
      exact ⟨[], y, ys, rfl, hy, hys⟩
    · obtain ⟨pre, x, post, rfl, hx, hpost⟩ := exists_last_named hys
      exact ⟨y :: pre, x, post, rfl, hx, hpost⟩

theorem parent?_of_last_step {q x : String} {pre post : List String}
    (hsplit : parts q = pre ++ x :: post) (hx : named x = true) (hpost : post.filter named = [])
    (hlead : isAbsolute q = true ∨ (parts q).head? ≠ some ".") :
    parent? q = if (pre.reverse.dropWhile blankPart).reverse.isEmpty then
        some (if isAbsolute q then "/" else "")
      else some (if ("/".intercalate (pre.reverse.dropWhile blankPart).reverse).isEmpty && isAbsolute q
        then "/" else "/".intercalate (pre.reverse.dropWhile blankPart).reverse) := by
  have hpost' : ∀ y ∈ post, named y = false := by simpa [List.filter_eq_nil_iff] using hpost
  rw [hsplit] at hlead
  unfold parent?
  dsimp only
  -- the steps after `x` are none, so `x` at position `pre.length` is the last one
  rw [hsplit, List.zipIdx_append, Nat.zero_add, List.zipIdx_cons, List.filter_append,
    List.filter_cons_of_pos, (List.filter_eq_nil_iff (l := post.zipIdx (pre.length + 1))).mpr,
    List.getLast?_concat]
  · rcases hlead with habs | hhead
    · simp [habs]
    · have hdot : ((pre ++ x :: post).head? == some ".") = false := by simpa using hhead
      simp only [hdot, Bool.and_false]
      simp
  · rintro ⟨y, i⟩ hy
    have hi : i ≠ 0 := by have := List.le_snd_of_mem_zipIdx hy; omega
    simpa [isStep, hi, named] using hpost' y (List.fst_mem_of_mem_zipIdx hy)
  · simp only [named_iff] at hx
    simp [isStep, hx.1, hx.2]

theorem parent?_spec {q : String} (hq : StartsNamed q) (hne : steps q ≠ []) :
    ∃ d, parent? q = some d ∧ steps d = (steps q).dropLast ∧ (d = "" ∨ StartsNamed d) := by
  have habs : isAbsolute q = false := startsWith_slash_of_startsNamed hq
  obtain ⟨x₀, xs₀, hparts, hx₀⟩ := hq
  have hnamed : (parts q).filter named ≠ [] := by simpa [steps_eq_filter] using hne
  obtain ⟨pre, x, post, hsplit, hx, hpost⟩ := exists_last_named hnamed
  have hslash : ∀ y ∈ (pre.reverse.dropWhile blankPart).reverse, '/' ∉ y.toList := by
    intro y hy
    have hy : y ∈ pre := List.mem_reverse.mp (List.dropWhile_sublist _ |>.subset (List.mem_reverse.mp hy))
    exact slash_not_mem_of_mem_parts (by rw [hsplit]; exact List.mem_append_left _ hy)
  -- the first part of `q` is named, so dropping at the end keeps it
  have hhead : (pre.reverse.dropWhile blankPart).reverse = [] ∨
      ∃ y ys, (pre.reverse.dropWhile blankPart).reverse = y :: ys ∧ named y = true := by
    cases pre with
    | nil => exact Or.inl rfl
    | cons y ys =>
      have hy : y = x₀ := by rw [hparts] at hsplit; exact (List.cons.inj hsplit).1.symm
      exact Or.inr ⟨y, _, dropTrailing_cons (hy ▸ hx₀) ys, hy ▸ hx₀⟩
  obtain ⟨hd, hrel⟩ := steps_intercalate hslash hhead
  refine ⟨"/".intercalate (pre.reverse.dropWhile blankPart).reverse, ?_, ?_, hrel⟩
  · have hlead : (parts q).head? ≠ some "." := by
      rw [hparts]
      simpa using (named_iff.mp hx₀).2
    rw [parent?_of_last_step hsplit hx hpost (.inr hlead), habs]
    split
    · rename_i hempty
      rw [List.isEmpty_iff.mp hempty]
      rfl
    · simp only [Bool.and_false, Bool.false_eq_true, if_false]
  · rw [hd, filter_named_dropTrailing, steps_eq_filter, hsplit, List.filter_append,
      List.filter_cons_of_pos hx, hpost, List.map_append, List.map_cons, List.map_nil,
      List.dropLast_concat]

/-! ### Another extension -/

theorem slash_not_mem_intercalate_dot : ∀ {l : List String}, (∀ x ∈ l, '/' ∉ x.toList) →
    '/' ∉ (".".intercalate l).toList
  | [], _ => by simp
  | [x], h => by simpa using h x List.mem_cons_self
  | x :: y :: zs, h => by
    rw [String.intercalate_cons_cons]
    simp only [String.toList_append, List.mem_append, not_or]
    exact ⟨⟨h x List.mem_cons_self, by decide⟩,
      slash_not_mem_intercalate_dot fun z hz => h z (List.mem_cons_of_mem x hz)⟩

theorem slash_not_mem_stem {n : String} (hn : '/' ∉ n.toList) : '/' ∉ (splitExtension n).1.toList := by
  unfold splitExtension
  split
  · exact hn
  · exact hn
  · rename_i ext before _ hsplit
    dsimp only
    split
    · exact hn
    · -- the stem joins pieces of the name with dots
      refine slash_not_mem_intercalate_dot fun x hx => ?_
      have hx : x ∈ splitAt '.' n := by
        rw [← List.mem_reverse, hsplit]
        exact List.mem_cons_of_mem ext (List.mem_reverse.mp hx)
      simp only [splitAt, List.mem_map] at hx
      obtain ⟨y, hy, rfl⟩ := hx
      intro h
      exact hn (mem_of_mem_splitOn hy (by simpa using h)).1

theorem isName_stem_ext {n ext : String} (hn : IsName n) (hext : IsName ext) :
    IsName ((splitExtension n).1 ++ "." ++ ext) := by
  obtain ⟨hne, hdot, -, hslash⟩ := hext
  obtain ⟨c, cs, hc⟩ := List.exists_cons_of_ne_nil (mt String.toList_eq_nil_iff.mp hne)
  refine ⟨?_, ?_, ?_, ?_⟩
  · intro h
    have := congrArg String.length h
    simp at this
  · -- the name has the dot and at least one character of the extension
    intro h
    have := congrArg (fun s => s.toList.length) h
    simp [hc] at this
    omega
  · intro h
    have h' := congrArg String.toList h
    simp only [String.toList_append, hc] at h'
    cases hs : (splitExtension n).1.toList with
    | nil =>
      rw [hs] at h'
      simp only [List.nil_append] at h'
      have hcs : c :: cs = ['.'] := by simpa using h'
      exact hdot (String.toList_inj.mp (by rw [hc, hcs]; simp))
    | cons d ds =>
      rw [hs] at h'
      have := congrArg List.length h'
      simp at this
      omega
  · simp only [String.toList_append, List.mem_append, not_or]
    exact ⟨⟨slash_not_mem_stem hn.2.2.2, by decide⟩, hslash⟩

theorem withExtension_spec {q n ext : String} (hq : StartsNamed q)
    (hlast : (steps q).getLast? = some (.name n)) (hm : IsName ((splitExtension n).1 ++ "." ++ ext)) :
    StartsNamed (withExtension q ext) ∧
      steps (withExtension q ext) = (steps q).dropLast ++ [.name ((splitExtension n).1 ++ "." ++ ext)] := by
  have hne : steps q ≠ [] := by
    intro h
    simp [h] at hlast
  obtain ⟨d, hd, hsteps, hdn⟩ := parent?_spec hq hne
  have hstem : fileStem? q = some (splitExtension n).1 := by
    simp [fileStem?, fileName?, components_of_startsNamed hq, hlast]
  have habs : isAbsolute ((splitExtension n).1 ++ "." ++ ext) = false := startsWith_slash_of_isName hm
  unfold withExtension
  rw [hstem, hd]
  dsimp only
  rcases hdn with rfl | hdn
  · -- the path was one name: the new name stands alone
    have hjoin : join "" ((splitExtension n).1 ++ "." ++ ext) = (splitExtension n).1 ++ "." ++ ext := by
      simp [join]
    rw [hjoin, ← hsteps, steps_name hm]
    exact ⟨⟨_, [], parts_of_not_mem hm.2.2.2, named_iff.mpr ⟨hm.1, hm.2.1⟩⟩, by simp⟩
  · refine ⟨startsNamed_join hdn habs, ?_⟩
    rw [← components_of_startsNamed (startsNamed_join hdn habs), components_join_name hdn.ne_empty hm,
      components_of_startsNamed hdn, hsteps]

theorem endsWith_join_name {d n : String} (hn : IsName n) : (join d n).endsWith "/" = false := by
  simp only [join, isAbsolute, startsWith_slash_of_isName hn, Bool.false_or]
  split
  · simpa using endsWith_slash_of_isName (a := "") hn
  · split
    · exact endsWith_slash_of_isName hn
    · exact endsWith_slash_of_isName hn

theorem endsWith_withExtension {q n ext : String} (hq : StartsNamed q)
    (hlast : (steps q).getLast? = some (.name n)) (hm : IsName ((splitExtension n).1 ++ "." ++ ext)) :
    (withExtension q ext).endsWith "/" = false := by
  have hne : steps q ≠ [] := by
    intro h
    simp [h] at hlast
  obtain ⟨d, hd, -, -⟩ := parent?_spec hq hne
  have hstem : fileStem? q = some (splitExtension n).1 := by
    simp [fileStem?, fileName?, components_of_startsNamed hq, hlast]
  unfold withExtension
  rw [hstem, hd]
  exact endsWith_join_name hm

/-! ### Paths from the root or a name -/

/-- A path led by the root or by a name: not empty, and not led by `.`. -/
def Anchored (p : String) : Prop := StartsNamed p ∨ isAbsolute p = true

theorem isAbsolute_append {a : String} (h : isAbsolute a = true) (b : String) : isAbsolute (a ++ b) = true := by
  simp only [isAbsolute, String.startsWith_string_iff, String.toList_append] at h ⊢
  exact h.trans (List.prefix_append _ _)

theorem isAbsolute_join {base : String} (h : isAbsolute base = true) (p : String) (hp : isAbsolute p = false) :
    isAbsolute (join base p) = true := by
  unfold join
  simp only [hp, Bool.false_or]
  split
  · rename_i hempty
    simp [String.isEmpty_iff.mp hempty, isAbsolute] at h
  · split
    · exact isAbsolute_append h p
    · rw [String.append_assoc]; exact isAbsolute_append h _

theorem ne_empty_of_isAbsolute {p : String} (h : isAbsolute p = true) : p ≠ "" := by
  rintro rfl
  simp [isAbsolute] at h

theorem isAbsolute_slash : isAbsolute "/" = true := by
  simp [isAbsolute, String.startsWith_string_iff]

theorem parts_slash_append (b : String) : parts ("/" ++ b) = "" :: parts b := by
  simpa [show parts "" = [""] by decide] using parts_append_slash "" b

theorem eq_slash_append {p : String} (h : isAbsolute p = true) : ∃ b, p = "/" ++ b := by
  obtain ⟨rest, hrest⟩ := String.startsWith_string_iff.mp h
  exact ⟨String.ofList rest, by rw [← String.toList_inj, ← hrest]; simp⟩

theorem steps_intercalate_of_slashless {l : List String} (hs : ∀ y ∈ l, '/' ∉ y.toList) :
    steps ("/".intercalate l) = (l.filter named).map stepOf := by
  cases l with
  | nil => simp
  | cons y ys => rw [steps_eq_filter, parts_intercalate (List.cons_ne_nil y ys) hs]

theorem dropTrailing_isPrefix (l : List String) : (l.reverse.dropWhile blankPart).reverse <+: l := by
  simpa using (List.dropWhile_suffix (l := l.reverse) blankPart).reverse

theorem parent?_of_isAbsolute {q : String} (hq : isAbsolute q = true) (hne : steps q ≠ []) :
    ∃ d, parent? q = some d ∧ isAbsolute d = true ∧ steps d = (steps q).dropLast := by
  obtain ⟨b, rfl⟩ := eq_slash_append hq
  have hnamed : (parts ("/" ++ b)).filter named ≠ [] := by simpa [steps_eq_filter] using hne
  obtain ⟨pre, x, post, hsplit, hx, hpost⟩ := exists_last_named hnamed
  -- the leading slash gives an empty first part, which is no step
  obtain ⟨pre, rfl⟩ : ∃ rest, pre = "" :: rest := by
    rw [parts_slash_append] at hsplit
    cases pre with
    | nil =>
      obtain rfl : x = "" := (List.cons.inj hsplit).1.symm
      simp [named] at hx
    | cons y rest => exact ⟨rest, by rw [(List.cons.inj hsplit).1]⟩
  have hslash : ∀ y ∈ (("" :: pre).reverse.dropWhile blankPart).reverse, '/' ∉ y.toList := by
    intro y hy
    exact slash_not_mem_of_mem_parts (by
      rw [hsplit]; exact List.mem_append_left _ ((dropTrailing_isPrefix _).subset hy))
  have hsteps : (steps ("/" ++ b)).dropLast = ((("" :: pre).reverse.dropWhile blankPart).reverse.filter named).map stepOf := by
    rw [filter_named_dropTrailing, steps_eq_filter, hsplit, List.filter_append,
      List.filter_cons_of_pos hx, hpost, List.map_append, List.map_cons, List.map_nil,
      List.dropLast_concat]
  generalize hbefore : (("" :: pre).reverse.dropWhile blankPart).reverse = before at hslash hsteps
  have habs : isAbsolute ("/" ++ b) = true := hq
  cases before with
  | nil =>
    refine ⟨"/", ?_, isAbsolute_slash, by rw [hsteps]; decide⟩
    rw [parent?_of_last_step hsplit hx hpost (.inl habs), hbefore, habs]
    rfl
  | cons z zs =>
    -- what is kept starts with the empty first part, so it is written from the root
    have hz : z = "" := by
      have := dropTrailing_isPrefix ("" :: pre)
      rw [hbefore] at this
      rcases List.prefix_cons_iff.mp this with h | ⟨_, h, -⟩
      · cases h
      · exact (List.cons.inj h).1
    subst hz
    have hd : parent? ("/" ++ b) = some (if ("/".intercalate ("" :: zs)).isEmpty then "/"
        else "/".intercalate ("" :: zs)) := by
      rw [parent?_of_last_step hsplit hx hpost (.inl habs), hbefore, habs]
      simp only [Bool.and_true]
      rfl
    rw [hsteps, ← steps_intercalate_of_slashless hslash]
    cases zs with
    | nil => exact ⟨"/", by simpa using hd, isAbsolute_slash, by decide⟩
    | cons y ys =>
      -- a named part follows, so the text is the root followed by the rest
      have htext : "/".intercalate ("" :: y :: ys) = "/" ++ "/".intercalate (y :: ys) := by
        rw [String.intercalate_cons_cons]
        simp
      have habs' : isAbsolute ("/".intercalate ("" :: y :: ys)) = true := by
        rw [htext]
        exact isAbsolute_append isAbsolute_slash _
      have hnonempty : ("/".intercalate ("" :: y :: ys)).isEmpty = false := by
        rw [htext]
        simp
      exact ⟨_, by rw [hd, hnonempty]; rfl, habs', rfl⟩

theorem withExtension_of_isAbsolute {q n ext : String} (hq : isAbsolute q = true)
    (hlast : (steps q).getLast? = some (.name n)) (hm : IsName ((splitExtension n).1 ++ "." ++ ext)) :
    isAbsolute (withExtension q ext) = true ∧
      steps (withExtension q ext) = (steps q).dropLast ++ [.name ((splitExtension n).1 ++ "." ++ ext)] := by
  have hne : steps q ≠ [] := by
    intro h
    simp [h] at hlast
  obtain ⟨d, hd, hdabs, hsteps⟩ := parent?_of_isAbsolute hq hne
  have hstem : fileStem? q = some (splitExtension n).1 := by
    simp [fileStem?, fileName?, components_of_isAbsolute hq, List.getLast?_cons, hlast]
  have hjoin : withExtension q ext = join d ((splitExtension n).1 ++ "." ++ ext) := by
    simp [withExtension, hstem, hd]
  have habs := isAbsolute_join hdabs _ (startsWith_slash_of_isName hm)
  refine ⟨hjoin ▸ habs, ?_⟩
  have hc := components_join_name (ne_empty_of_isAbsolute hdabs) hm
  rw [components_of_isAbsolute habs, components_of_isAbsolute hdabs, hsteps] at hc
  rw [hjoin]
  simpa using hc

theorem Anchored.ne_empty {p : String} (h : Anchored p) : p ≠ "" :=
  h.elim StartsNamed.ne_empty ne_empty_of_isAbsolute

theorem Anchored.join {base p : String} (hb : Anchored base) (hp : isAbsolute p = false) :
    Anchored (join base p) ∧ components (join base p) = components base ++ steps p :=
  ⟨hb.elim (fun h => .inl (startsNamed_join h hp)) (fun h => .inr (isAbsolute_join h p hp)),
    components_join hb.ne_empty hp⟩

theorem Anchored.withExtension {q n ext : String} (hq : Anchored q)
    (hlast : (components q).getLast? = some (.name n)) (hm : IsName ((splitExtension n).1 ++ "." ++ ext)) :
    Anchored (withExtension q ext) ∧
      components (withExtension q ext) = (components q).dropLast ++ [.name ((splitExtension n).1 ++ "." ++ ext)] := by
  rcases hq with hq | hq
  · rw [components_of_startsNamed hq] at hlast ⊢
    obtain ⟨hnamed, hsteps⟩ := withExtension_spec hq hlast hm
    exact ⟨.inl hnamed, by rw [components_of_startsNamed hnamed, hsteps]⟩
  · rw [components_of_isAbsolute hq] at hlast ⊢
    have hne : steps q ≠ [] := by
      intro h
      simp [h] at hlast
    have hlast' : (steps q).getLast? = some (.name n) := by
      obtain ⟨c, cs, hcs⟩ := List.exists_cons_of_ne_nil hne
      rw [hcs] at hlast ⊢
      simpa [List.getLast?_cons_cons] using hlast
    obtain ⟨habs, hsteps⟩ := withExtension_of_isAbsolute hq hlast' hm
    refine ⟨.inr habs, ?_⟩
    rw [components_of_isAbsolute habs, hsteps, List.dropLast_cons_of_ne_nil hne]
    simp

theorem stripPrefix?_shape {p base r : String} (h : stripPrefix? p base = some r) : r = "" ∨ StartsNamed r := by
  unfold stripPrefix? at h
  dsimp only at h
  split at h
  · cases h
  · cases h
    exact (steps_intercalate_skip rfl).2

end ConfigTabs.Path
