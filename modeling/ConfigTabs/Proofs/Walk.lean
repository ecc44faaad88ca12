import ConfigTabs.Proofs.FileTree
import ConfigTabs.Proofs.Paths
/-!
Files found by walking a directory are found again at the paths the walk gives them; a walk
fails exactly when it meets a directory it cannot list.
-/
namespace ConfigTabs.Files

namespace Tree

/-- An area as a file system keeps it: each path holds one entry, every name is a proper name
other than the one the top is written with, and the directories above every entry are there. -/
structure WellFormed (t : Tree) : Prop where
  keys : (t.entries.map Prod.fst).Nodup
  names : ∀ e ∈ t.entries, ∀ n ∈ e.1, Path.IsName n ∧ n ≠ topText
  parents : ∀ e ∈ t.entries, ∀ k < e.1.length, t.get? (e.1.take k) = some .dir

instance (t : Tree) : Decidable t.WellFormed :=
  decidable_of_iff ((t.entries.map Prod.fst).Nodup ∧
      (∀ e ∈ t.entries, ∀ n ∈ e.1, Path.IsName n ∧ n ≠ topText) ∧
      ∀ e ∈ t.entries, ∀ k < e.1.length, t.get? (e.1.take k) = some .dir)
    ⟨fun ⟨hk, hn, hp⟩ => ⟨hk, hn, hp⟩, fun ⟨hk, hn, hp⟩ => ⟨hk, hn, hp⟩⟩

variable {t : Tree}

theorem find?_of_nodup {names : List String} {e : Entry} :
    ∀ {l : List (List String × Entry)}, (l.map Prod.fst).Nodup → (names, e) ∈ l →
      l.find? (·.1 == names) = some (names, e)
  | [], _, hmem => absurd hmem List.not_mem_nil
  | x :: xs, hnodup, hmem => by
    rw [List.map_cons, List.nodup_cons] at hnodup
    rcases List.mem_cons.mp hmem with rfl | hxs
    · simp
    · -- the head holds another path, since the path of `names` comes again later
      have hne : x.1 ≠ names := fun h => hnodup.1 (h ▸ List.mem_map_of_mem (f := Prod.fst) hxs)
      simp [hne, find?_of_nodup hnodup.2 hxs]

theorem get?_of_mem (hkeys : (t.entries.map Prod.fst).Nodup) {names : List String} {e : Entry}
    (hmem : (names, e) ∈ t.entries) (hne : names ≠ []) : t.get? names = some e := by
  have hempty : names.isEmpty = false := by simpa using hne
  simp [get?, hempty, find?_of_nodup hkeys hmem]

theorem follow_append (here : Place) (cs ds : List PathComponent) :
    t.follow here (cs ++ ds) = (t.follow here cs).bind fun p => t.follow p ds := by
  induction cs generalizing here with
  | nil => rfl
  | cons c cs ih =>
    simp only [List.cons_append, follow]
    split
    · exact ih _
    · rfl
    · rfl

theorem origin_append (cwd : List String) {cs : List PathComponent} (hcs : cs ≠ [])
    (ds : List PathComponent) : origin cwd (cs ++ ds) = ((origin cwd cs).1, (origin cwd cs).2 ++ ds) := by
  match cs, hcs with
  | .root :: _, _ => rfl
  | .current :: _, _ => rfl
  | .parent :: _, _ => rfl
  | .name n :: _, _ =>
    simp only [origin, List.cons_append]
    split <;> rfl

theorem follow_names {base below : List String}
    (hdirs : ∀ k < below.length, t.get? (base ++ below.take k) = some .dir) :
    t.follow (.inside base) (below.map .name) = .ok (.inside (base ++ below)) := by
  induction below generalizing base with
  | nil => simp [follow]
  | cons n rest ih =>
    have hdir : t.at? (.inside base) = some .dir := by simpa [at?] using hdirs 0 (by simp)
    have hrest : ∀ k < rest.length, t.get? (base ++ [n] ++ rest.take k) = some .dir := by
      intro k hk
      simpa using hdirs (k + 1) (by simpa using hk)
    simp only [List.map_cons, follow, hdir, step]
    simpa using ih hrest

end Tree

/-! ### The paths a walk gives -/

theorem components_foldl_join {input : String} (hin : input ≠ "") {below : List String}
    (hnames : ∀ n ∈ below, Path.IsName n) :
    Path.components (below.foldl Path.join input) = Path.components input ++ below.map .name ∧
      below.foldl Path.join input ≠ "" := by
  induction below generalizing input with
  | nil => exact ⟨by simp, hin⟩
  | cons n rest ih =>
    have hn := hnames n List.mem_cons_self
    have hjoin := Path.components_join_name hin hn
    -- the joined path is not empty: it has the component the name gives
    have hne : Path.join input n ≠ "" := by
      intro h
      rw [h, show Path.components "" = [] by decide] at hjoin
      simp at hjoin
    obtain ⟨hc, hne'⟩ := ih hne fun m hm => hnames m (List.mem_cons_of_mem n hm)
    refine ⟨?_, hne'⟩
    rw [List.foldl_cons, hc, hjoin]
    simp

theorem join_empty_left {n : String} (hn : Path.IsName n) : Path.join "" n = n := by
  simp [Path.join, Path.isAbsolute, Path.startsWith_slash_of_isName hn]

theorem components_walked (input : String) {below : List String} (hbelow : below ≠ [])
    (hnames : ∀ n ∈ below, Path.IsName n) :
    Path.components (below.foldl Path.join input) = Path.components input ++ below.map .name := by
  by_cases hin : input = ""
  · -- from an empty path the first name starts the path
    subst hin
    obtain ⟨n, rest, rfl⟩ := List.exists_cons_of_ne_nil hbelow
    have hn := hnames n List.mem_cons_self
    rw [List.foldl_cons, join_empty_left hn,
      (components_foldl_join hn.1 fun m hm => hnames m (List.mem_cons_of_mem n hm)).1,
      (Path.components_dot_slash_name hn).2]
    simp [show Path.components "" = [] by decide]
  · exact (components_foldl_join hin hnames).1

theorem endsWith_foldl_join (input : String) {below : List String} (hbelow : below ≠ [])
    (hnames : ∀ n ∈ below, Path.IsName n) : (below.foldl Path.join input).endsWith "/" = false := by
  induction below generalizing input with
  | nil => exact absurd rfl hbelow
  | cons n rest ih =>
    rw [List.foldl_cons]
    by_cases hrest : rest = []
    · subst hrest
      have hn := hnames n List.mem_cons_self
      simp only [List.foldl_nil, Path.join, Path.isAbsolute, Path.startsWith_slash_of_isName hn,
        Bool.false_or]
      split
      · simpa using Path.endsWith_slash_of_isName (a := "") hn
      · split
        · exact Path.endsWith_slash_of_isName hn
        · exact Path.endsWith_slash_of_isName hn
    · exact ih _ hrest fun m hm => hnames m (List.mem_cons_of_mem n hm)

namespace Tree

variable {t : Tree}

theorem mem_walkFiles {cwd : List String} {input f : String} (hf : f ∈ t.walkFiles cwd input) :
    ∃ base below c, t.locate cwd input = .ok (.inside base) ∧ (base ++ below, Entry.file c) ∈ t.entries ∧
      below ≠ [] ∧ f = below.foldl Path.join input := by
  unfold walkFiles at hf
  split at hf
  · rename_i base hloc
    obtain ⟨⟨names, e⟩, hmem, hfe⟩ := List.mem_filterMap.mp hf
    cases e with
    | dir => simp at hfe
    | file c =>
      simp only at hfe
      split at hfe
      · rename_i hbelow
        split at hfe
        · simp at hfe
        · obtain ⟨hpre, hlen⟩ := Bool.and_eq_true_iff.mp hbelow
          have hpre : base <+: names := List.isPrefixOf_iff_prefix.mp hpre
          have hlen : base.length < names.length := by simpa using hlen
          have hsplit : names = base ++ names.drop base.length := by
            conv => lhs; rw [← List.take_append_drop base.length names]
            rw [← List.prefix_iff_eq_take.mp hpre]
          refine ⟨base, names.drop base.length, c, hloc, by rw [← hsplit]; exact hmem, by simp; omega,
            (Option.some.inj hfe).symm⟩
      · simp at hfe
  · simp at hf

theorem walkFiles_spec (hwf : t.WellFormed) {cwd : List String} {input f : String}
    (hf : f ∈ t.walkFiles cwd input) :
    ∃ base names c, t.locate cwd input = .ok (.inside base) ∧ base <+: names ∧
      base.length < names.length ∧ t.locate cwd f = .ok (.inside names) ∧
      t.get? names = some (.file c) ∧ f.endsWith "/" = false := by
  obtain ⟨base, below, c, hloc, hmem, hbelow_ne, rfl⟩ := mem_walkFiles hf
  have hnames : ∀ n ∈ below, Path.IsName n ∧ n ≠ topText :=
    fun n hn => hwf.names _ hmem n (List.mem_append_right base hn)
  have hne : base ++ below ≠ [] := by simp [hbelow_ne]
  -- the directories above the file, read from the walked directory down
  have hdirs : ∀ k < below.length, t.get? (base ++ below.take k) = some .dir := by
    intro k hk
    have := hwf.parents _ hmem (base.length + k) (by simp; omega)
    rw [List.take_append] at this
    simpa [List.take_of_length_le (Nat.le_add_right base.length k)] using this
  have hfollow : t.follow (.inside base) (below.map .name) = .ok (.inside (base ++ below)) :=
    follow_names hdirs
  have hlen : base.length < (base ++ below).length := by
    simpa using List.length_pos_iff.mpr hbelow_ne
  refine ⟨base, base ++ below, c, hloc, List.prefix_append base below, hlen, ?_,
    get?_of_mem hwf.keys hmem hne, endsWith_foldl_join input hbelow_ne fun n hn => (hnames n hn).1⟩
  have hcomps := components_walked input hbelow_ne fun n hn => (hnames n hn).1
  obtain ⟨n, rest, hnr⟩ := List.exists_cons_of_ne_nil hbelow_ne
  unfold locate at hloc ⊢
  rw [hcomps]
  by_cases hcin : Path.components input = []
  · -- the walked directory is the current one, and the first name is no top
    rw [hcin] at hloc ⊢
    have hbase : base = cwd := by simpa [origin, follow] using hloc.symm
    have htop : (n == topText) = false := by
      simpa using (hnames n (by simp [hnr])).2
    simpa [hnr, origin, htop, hbase] using hfollow
  · rw [origin_append cwd hcin]
    rcases horig : origin cwd (Path.components input) with ⟨start, steps⟩
    simp only [horig] at hloc ⊢
    rw [follow_append, hloc]
    exact hfollow

theorem follow_outside_ne_inside : ∀ (cs : List PathComponent) {here : Place},
    here = .outside ∨ here = .beyond → ∀ names, t.follow here cs ≠ .ok (.inside names)
  | [], here, hhere, names => by
    rcases hhere with rfl | rfl <;> simp [follow]
  | c :: cs, here, hhere, names => by
    rcases hhere with rfl | rfl
    · have hstep : step .outside c = .outside ∨ step .outside c = .beyond := by
        cases c <;> simp [step]
      simpa [follow, at?] using follow_outside_ne_inside cs hstep names
    · simp [follow, at?]

theorem walkFiles_of_isAbsolute {cwd : List String} {input : String} (h : Path.isAbsolute input = true) :
    t.walkFiles cwd input = [] := by
  unfold walkFiles locate
  rw [Path.components_of_isAbsolute h]
  split
  · rename_i base hloc
    exact absurd hloc (follow_outside_ne_inside _ (.inl rfl) base)
  · rfl

/-- A walk of `path` meets a directory it cannot list. -/
def MeetsUnreadable (t : Tree) (cwd : List String) (path : String) : Prop :=
  ∃ base, t.locate cwd path = .ok (.inside base) ∧ ∃ u ∈ t.unreadable, t.walkEnters base u = true

theorem mem_walkRefusals {cwd : List String} {path dir : String} (h : dir ∈ t.walkRefusals cwd path) :
    ∃ base u, t.locate cwd path = .ok (.inside base) ∧ u ∈ t.unreadable ∧ t.walkEnters base u = true ∧
      dir = (u.drop base.length).foldl (fun acc n => Path.join acc n) path := by
  unfold walkRefusals at h
  split at h
  · rename_i base hloc
    obtain ⟨u, hu, hsome⟩ := List.mem_filterMap.mp h
    split at hsome
    · rename_i hcond
      simp only [Bool.and_eq_true] at hcond
      exact ⟨base, u, hloc, hu, hcond.1, (Option.some.inj hsome).symm⟩
    · cases hsome
  · simp at h

theorem walkRefusals_eq_nil_iff {cwd : List String} {path : String} :
    t.walkRefusals cwd path = [] ↔ ¬ t.MeetsUnreadable cwd path := by
  unfold walkRefusals MeetsUnreadable
  split
  · rename_i base hloc
    simp only [hloc, Except.ok.injEq, Place.inside.injEq, exists_eq_left', List.filterMap_eq_nil_iff,
      not_exists, not_and]
    constructor
    · intro hnone u hu hent
      -- the shortest unreadable directory met on the way to `u` is refused
      induction hlen : u.length using Nat.strongRecOn generalizing u with
      | ind n ih =>
        by_cases habove : ∃ v ∈ t.unreadable, t.walkEnters base v = true ∧ v ≠ u ∧ v <+: u
        · obtain ⟨v, hv, hvent, hne, hpre⟩ := habove
          have hshort : v.length < n := by
            rw [← hlen]
            exact Nat.lt_of_le_of_ne hpre.length_le fun h => hne (hpre.eq_of_length h)
          exact ih v.length hshort v hv hvent rfl
        · have h := hnone u hu
          simp only [hent, Bool.true_and, ite_eq_right_iff, reduceCtorEq, imp_false, Bool.not_eq_true,
            Bool.not_eq_false', List.any_eq_true, Bool.and_eq_true, bne_iff_ne, ne_eq,
            List.isPrefixOf_iff_prefix] at h
          obtain ⟨v, hv, ⟨hvent, hne⟩, hpre⟩ := h
          exact habove ⟨v, hv, hvent, hne, hpre⟩
    · intro hno u hu
      simp [hno u hu]
  · simp_all

theorem removeAll_eq_ok {cwd : List String} {path : String} {t' : Tree} (h : t.removeAll cwd path = .ok t') :
    ∃ base : List String, t' = { t with entries := t.entries.filter fun (n, _) => !base.isPrefixOf n } := by
  unfold removeAll at h
  cases hl : t.lookup cwd path with
  | error err => simp [hl, bind, Except.bind] at h
  | ok entry =>
    cases entry with
    | file _ => simp [hl, bind, Except.bind] at h
    | dir =>
      cases hloc : t.locate cwd path with
      | error err => simp [hl, hloc, bind, Except.bind] at h
      | ok place =>
        cases place with
        | inside base =>
          simp only [hl, hloc, bind, Except.bind] at h
          -- a directory there that cannot be listed refuses the removal
          split at h
          · cases h
          · exact ⟨base, (Except.ok.inj h).symm⟩
        | outside => simp [hl, hloc, bind, Except.bind] at h
        | beyond => simp [hl, hloc, bind, Except.bind] at h

theorem removeAll_file (hwf : t.WellFormed) {cwd : List String} {path : String} {t' : Tree}
    (h : t.removeAll cwd path = .ok t') {names : List String} {c : String}
    (hf : t'.get? names = some (.file c)) : t.get? names = some (.file c) := by
  obtain ⟨base, rfl⟩ := removeAll_eq_ok h
  have hne : names ≠ [] := by
    rintro rfl
    simp at hf
  have hempty : names.isEmpty = false := by simpa using hne
  simp only [get?, hempty, Bool.false_eq_true, if_false, Option.map_eq_some_iff] at hf
  obtain ⟨⟨key, e⟩, hfind, rfl⟩ := hf
  have hkey : key = names := by simpa using List.find?_some hfind
  subst hkey
  exact get?_of_mem hwf.keys (List.mem_filter.mp (List.mem_of_find?_eq_some hfind)).1 hne

end Tree

end ConfigTabs.Files
