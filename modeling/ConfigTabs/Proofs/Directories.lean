import ConfigTabs.Proofs.Placement
/-!
Making the directories of a path and writing an output, told by what the names along the
path hold.
-/
namespace ConfigTabs.Files

theorem FromTop.ne_empty {d : String} {ns : List String} (h : FromTop d ns) : d.isEmpty = false := by
  cases hd : d.isEmpty with
  | false => rfl
  | true =>
    rw [String.isEmpty_iff] at hd
    rw [FromTop, hd, Path.components_empty] at h
    cases h

theorem FromTop.parent {d : String} {ns : List String} (h : FromTop d ns) (hne : ns ≠ []) :
    ∃ up, Path.parent? d = some up ∧ FromTop up ns.dropLast := by
  have hstart : Path.StartsNamed d := Path.startsNamed_of_components h
  have hsteps : Path.steps d = (topText :: ns).map .name := (Path.components_of_startsNamed hstart).symm.trans h
  obtain ⟨up, hup, hup_steps, hup_form⟩ := Path.parent?_spec hstart (by simp [hsteps])
  have hdrop : (Path.steps d).dropLast = (topText :: ns.dropLast).map .name := by
    rw [hsteps, ← List.map_dropLast, List.dropLast_cons_of_ne_nil (by simpa using hne), List.map_cons]
  refine ⟨up, hup, ?_⟩
  rcases hup_form with rfl | hnamed
  · rw [hdrop, show Path.steps "" = [] by decide] at hup_steps
    cases hup_steps
  · exact (Path.components_of_startsNamed hnamed).trans (hup_steps.trans hdrop)

theorem FromTop.length_lt_parts {d : String} {ns : List String} (h : FromTop d ns) :
    ns.length < (Path.parts d).length + 1 := by
  have hs : Path.StartsNamed d := Path.startsNamed_of_components h
  have hsteps : Path.steps d = (topText :: ns).map .name := (Path.components_of_startsNamed hs).symm.trans h
  have hlen := congrArg List.length hsteps
  rw [Path.steps_eq_filter, List.length_map, List.length_map] at hlen
  have := List.length_filter_le Path.named (Path.parts d)
  simp at hlen
  omega

namespace Tree

variable {t : Tree} {cwd : List String}

theorem get?_set (t : Tree) {names : List String} (hne : names ≠ []) (e : Entry) (m : List String) :
    (t.set names e).get? m = if m = names then some e else t.get? m := by
  split
  · rename_i h
    subst h
    exact get?_set_self t hne e
  · rename_i h
    exact get?_set_of_ne t h e

def Closed (t : Tree) : Prop :=
  ∀ names e, t.get? names = some e → ∀ k < names.length, t.get? (names.take k) = some .dir

theorem WellFormed.closed (hwf : t.WellFormed) : t.Closed := by
  intro names e h k hk
  have hne : names.isEmpty = false := by
    cases names with
    | nil => simp at hk
    | cons _ _ => rfl
  simp only [get?, hne, Bool.false_eq_true, if_false, Option.map_eq_some_iff] at h
  obtain ⟨⟨key, e'⟩, hfind, -⟩ := h
  have hkey : key = names := by simpa using List.find?_some hfind
  subst hkey
  exact hwf.parents _ (List.mem_of_find?_eq_some hfind) k hk

theorem Closed.dir_of_take (hc : t.Closed) {names : List String} {k j : Nat} {e : Entry}
    (hk : t.get? (names.take k) = some e) (hjk : j < k) (hj : j < names.length) :
    t.get? (names.take j) = some .dir := by
  have hdir := hc _ e hk j (by rw [List.length_take]; omega)
  rwa [List.take_take, Nat.min_eq_left (Nat.le_of_lt hjk)] at hdir

theorem Closed.none_of_take (hc : t.Closed) {names : List String} {k j : Nat}
    (hk : t.get? (names.take k) = none) (hkj : k ≤ j) : t.get? (names.take j) = none := by
  cases hj : t.get? (names.take j) with
  | none => rfl
  | some e =>
    rcases Nat.lt_or_ge k names.length with hlt | hge
    · rcases Nat.lt_or_eq_of_le hkj with hkj | rfl
      · rw [hc.dir_of_take hj hkj hlt] at hk
        cases hk
      · rw [hj] at hk
        cases hk
    · -- past the end, both prefixes are the whole path
      have hk' : names.take k = names := List.take_of_length_le (by omega)
      have hj' : names.take j = names := List.take_of_length_le (by omega)
      rw [hk', ← hj', hj] at hk
      cases hk

def Open (t : Tree) (names : List String) : Prop :=
  ∀ k c, t.get? (names.take k) ≠ some (.file c)

/-- What the names hold once the directories along a path are made: a directory at each
missing name along it. -/
def withDirs (t : Tree) (names m : List String) : Option Entry :=
  if m <+: names ∧ t.get? m = none then some .dir else t.get? m

theorem prefix_cases {m ns : List String} (h : m <+: ns) :
    m = ns ∨ (m.length < ns.length ∧ m = ns.take m.length) := by
  have heq := List.prefix_iff_eq_take.mp h
  rcases Nat.lt_or_ge m.length ns.length with hlt | hge
  · exact .inr ⟨hlt, heq⟩
  · exact .inl (heq.trans (List.take_of_length_le hge))

theorem take_ne_self {l : List String} {j : Nat} (hj : j < l.length) : l.take j ≠ l := fun heq => by
  have := congrArg List.length heq
  simp at this
  omega

theorem not_prefix_dropLast {l : List String} (hne : l ≠ []) : ¬ l <+: l.dropLast := fun hp => by
  have := hp.length_le
  simp at this
  exact hne (List.eq_nil_of_length_eq_zero (by omega))

theorem prefix_dropLast_iff {m ns : List String} (hm : m ≠ ns) : m <+: ns.dropLast ↔ m <+: ns := by
  constructor
  · exact fun h => h.trans (List.dropLast_prefix ns)
  · intro h
    rcases prefix_cases h with heq | ⟨hlt, heq⟩
    · exact absurd heq hm
    · have htake : ns.take m.length = ns.dropLast.take m.length := by
        rw [List.dropLast_eq_take, List.take_take, Nat.min_eq_left (by omega)]
      rw [heq, htake]
      exact List.take_prefix _ _

theorem withDirs_of_open {ns m : List String} (hopen : t.Open ns) (hm : m <+: ns) :
    t.withDirs ns m = some .dir := by
  unfold withDirs
  cases hg : t.get? m with
  | none => simp [hm]
  | some e =>
    cases e with
    | dir => simp
    | file c =>
      rw [List.prefix_iff_eq_take.mp hm] at hg
      exact absurd hg (hopen _ c)

theorem withDirs_of_present {ns : List String} (hall : ∀ j < ns.length, t.get? (ns.take j) = some .dir)
    (hself : t.get? ns ≠ none) (m : List String) : t.withDirs ns m = t.get? m := by
  unfold withDirs
  rw [if_neg]
  rintro ⟨hm, hnone⟩
  rcases prefix_cases hm with rfl | ⟨hlt, heq⟩
  · exact hself hnone
  · rw [heq, hall _ hlt] at hnone
    cases hnone

/-! ### Following names -/

theorem follow_names_file {c : String} {base ns : List String} {k : Nat} (hk : k < ns.length)
    (hdirs : ∀ j < k, t.get? (base ++ ns.take j) = some .dir)
    (hf : t.get? (base ++ ns.take k) = some (.file c)) :
    t.follow (.inside base) (ns.map .name) = .error .notADirectory := by
  induction ns generalizing base k with
  | nil => simp at hk
  | cons n ns ih =>
    cases k with
    | zero =>
      have hfile : t.at? (.inside base) = some (.file c) := by simpa [at?] using hf
      simp [follow, hfile]
    | succ k =>
      have hdir : t.at? (.inside base) = some .dir := by simpa [at?] using hdirs 0 (by omega)
      simp only [List.map_cons, follow, hdir, step]
      exact ih (by simpa using hk) (fun j hj => by simpa using hdirs (j + 1) (by omega)) (by simpa using hf)

theorem follow_names_missing {base ns : List String} {k : Nat} (hk : k < ns.length)
    (hnone : t.get? (base ++ ns.take k) = none) (hopen : ∀ j c, t.get? (base ++ ns.take j) ≠ some (.file c)) :
    t.follow (.inside base) (ns.map .name) = .error .notFound := by
  induction ns generalizing base k with
  | nil => simp at hk
  | cons n ns ih =>
    cases hb : t.get? base with
    | none => simp [follow, at?, hb]
    | some e =>
      cases e with
      | file c => exact absurd (by simpa using hb) (hopen 0 c)
      | dir =>
        cases k with
        | zero =>
          rw [List.take_zero, List.append_nil, hb] at hnone
          cases hnone
        | succ k =>
          simp only [List.map_cons, follow, at?, hb, step]
          exact ih (by simpa using hk) (by simpa using hnone) (fun j c => by simpa using hopen (j + 1) c)

section FromTop

variable {d : String} {ns : List String}

theorem locate_of_fromTop (h : FromTop d ns) :
    t.locate cwd d = t.follow (.inside []) (ns.map .name) := by
  have horigin : origin cwd (Path.components d) = (.inside [], ns.map .name) := by
    unfold origin
    rw [h]
    simp
  simp only [locate, horigin]

theorem locate_of_dirs_fromTop (h : FromTop d ns) (hall : ∀ j < ns.length, t.get? (ns.take j) = some .dir) :
    t.locate cwd d = .ok (.inside ns) := by
  rw [locate_of_fromTop h]
  simpa using @follow_names t [] ns (by simpa using hall)

theorem isDir_of_locate_error {e : IoError} (h : t.locate cwd d = .error e) : t.isDir cwd d = false := by
  simp [isDir, lookup, h, bind, Except.bind]

theorem isDir_fromTop (h : FromTop d ns) (hall : ∀ j < ns.length, t.get? (ns.take j) = some .dir) :
    t.isDir cwd d = (t.get? ns == some .dir) := by
  have hl : t.locate cwd d = .ok (.inside ns) := locate_of_dirs_fromTop h hall
  unfold isDir lookup
  simp only [hl, bind, Except.bind, at?]
  cases t.get? ns with
  | none => rfl
  | some e =>
    cases e with
    | dir => rfl
    | file c => cases d.endsWith "/" <;> rfl

theorem makeDir_fromTop_none (h : FromTop d ns) (hall : ∀ j < ns.length, t.get? (ns.take j) = some .dir)
    (hself : t.get? ns = none) : t.makeDir cwd d = .ok (t.set ns .dir) := by
  simp [makeDir, locate_of_dirs_fromTop h hall, hself, bind, Except.bind]

theorem makeDir_fromTop_some (h : FromTop d ns) (hall : ∀ j < ns.length, t.get? (ns.take j) = some .dir)
    {e : Entry} (hself : t.get? ns = some e) : t.makeDir cwd d = .error .exists_ := by
  simp [makeDir, locate_of_dirs_fromTop h hall, hself, bind, Except.bind]

theorem makeDirs_of_file (hc : t.Closed) (h : FromTop d ns) {k : Nat} {c : String}
    (hf : t.get? (ns.take k) = some (.file c)) (n : Nat) :
    t.makeDirs cwd (n + 1) d = .error (if ns.length ≤ k then .exists_ else .notADirectory) := by
  have hdirs : ∀ j < min k ns.length, t.get? (ns.take j) = some .dir := fun j hj =>
    hc.dir_of_take hf (by omega) (by omega)
  by_cases hk : ns.length ≤ k
  · -- the file is the path itself, which then exists and is no directory
    have hself : t.get? ns = some (.file c) := by rwa [List.take_of_length_le hk] at hf
    have hall : ∀ j < ns.length, t.get? (ns.take j) = some .dir := fun j hj => hdirs j (by omega)
    have hmk : t.makeDir cwd d = .error .exists_ := makeDir_fromTop_some h hall hself
    have hnot : t.isDir cwd d = false := by rw [isDir_fromTop h hall, hself]; rfl
    simp [makeDirs, FromTop.ne_empty h, hmk, hnot, hk]
  · -- the file is above the path, which cannot be followed
    have hloc : t.locate cwd d = .error .notADirectory := by
      rw [locate_of_fromTop h]
      exact follow_names_file (k := k) (by omega) (fun j hj => by simpa using hdirs j (by omega)) (by simpa using hf)
    have hmk : t.makeDir cwd d = .error .notADirectory := by simp [makeDir, hloc, bind, Except.bind]
    simp [makeDirs, FromTop.ne_empty h, hmk, isDir_of_locate_error hloc, hk]

theorem get?_set_withDirs {t₁ : Tree} (ht₁ : ∀ m, t₁.get? m = t.withDirs ns.dropLast m)
    (hself : t.get? ns = none) (hne : ns ≠ []) (m : List String) :
    (t₁.set ns .dir).get? m = t.withDirs ns m := by
  rw [get?_set t₁ hne, ht₁]
  split
  · rename_i hm
    subst hm
    simp [withDirs, hself]
  · rename_i hm
    simp only [withDirs, prefix_dropLast_iff hm]

theorem makeDirs_of_dirs (h : FromTop d ns) (hall : ∀ j < ns.length, t.get? (ns.take j) = some .dir)
    (hopen : t.Open ns) (n : Nat) :
    ∃ t', t.makeDirs cwd (n + 1) d = .ok t' ∧ ∀ m, t'.get? m = t.withDirs ns m := by
  cases hself : t.get? ns with
  | none =>
    have hne : ns ≠ [] := by
      rintro rfl
      simp at hself
    have hmk : t.makeDir cwd d = .ok (t.set ns .dir) := makeDir_fromTop_none h hall hself
    refine ⟨t.set ns .dir, by simp [makeDirs, FromTop.ne_empty h, hmk], fun m => ?_⟩
    rw [get?_set t hne]
    split
    · rename_i hm
      subst hm
      simp [withDirs, hself]
    · -- every other name along the path is a directory already
      rename_i hm
      unfold withDirs
      rw [if_neg]
      rintro ⟨hpre, hnone⟩
      rcases prefix_cases hpre with heq | ⟨hlt, heq⟩
      · exact hm heq
      · rw [heq, hall _ hlt] at hnone
        cases hnone
  | some e =>
    cases e with
    | file c => exact absurd (by rwa [List.take_of_length_le (Nat.le_refl _)]) (hopen ns.length c)
    | dir =>
      have hmk : t.makeDir cwd d = .error .exists_ := makeDir_fromTop_some h hall hself
      have hyes : t.isDir cwd d = true := by rw [isDir_fromTop h hall, hself]; rfl
      refine ⟨t, by simp [makeDirs, FromTop.ne_empty h, hmk, hyes], fun m => ?_⟩
      rw [withDirs_of_present hall (by simp [hself])]

theorem makeDirs_of_open (hc : t.Closed) (n : Nat) (h : FromTop d ns) (hn : ns.length < n)
    (hopen : t.Open ns) : ∃ t', t.makeDirs cwd n d = .ok t' ∧ ∀ m, t'.get? m = t.withDirs ns m := by
  -- induction on the fuel, which the parent's names use one less of
  induction n generalizing d ns with
  | zero => exact absurd hn (Nat.not_lt_zero _)
  | succ n ih =>
    by_cases hall : ∀ j < ns.length, t.get? (ns.take j) = some .dir
    · exact makeDirs_of_dirs h hall hopen n
    · -- a name above is missing, so the path cannot be followed and its parent is made first
      obtain ⟨j, hj, hjdir⟩ : ∃ j < ns.length, t.get? (ns.take j) ≠ some .dir :=
        Classical.byContradiction fun hno => hall fun j hj => Classical.byContradiction fun hd => hno ⟨j, hj, hd⟩
      have hjnone : t.get? (ns.take j) = none := by
        cases hg : t.get? (ns.take j) with
        | none => rfl
        | some e =>
          cases e with
          | dir => exact absurd hg hjdir
          | file c => exact absurd hg (hopen j c)
      have hne : ns ≠ [] := by
        rintro rfl
        simp at hj
      have hloc : t.locate cwd d = .error .notFound := by
        rw [locate_of_fromTop h]
        exact follow_names_missing hj (by simpa using hjnone) (fun i c => by simpa using hopen i c)
      have hmk : t.makeDir cwd d = .error .notFound := by simp [makeDir, hloc, bind, Except.bind]
      obtain ⟨up, hup, hupTop⟩ := FromTop.parent h hne
      have hopen' : t.Open ns.dropLast := fun k c => by
        rw [List.dropLast_eq_take, List.take_take]
        exact hopen _ c
      obtain ⟨t₁, hm₁, ht₁⟩ := ih hupTop (by simp; omega) hopen'
      -- once the parent is made, every name above the path is a directory, and the path is
      -- still missing: nothing lies below a missing name
      have hall₁ : ∀ i < ns.length, t₁.get? (ns.take i) = some .dir := fun i hi => by
        rw [ht₁]
        exact withDirs_of_open hopen' ((prefix_dropLast_iff (take_ne_self hi)).mpr (List.take_prefix _ _))
      have hself : t.get? ns = none := by
        have := hc.none_of_take hjnone (Nat.le_of_lt hj) (j := ns.length)
        rwa [List.take_of_length_le (Nat.le_refl _)] at this
      have hself₁ : t₁.get? ns = none := by
        rw [ht₁]
        simp [withDirs, not_prefix_dropLast hne, hself]
      have hmk₁ : t₁.makeDir cwd d = .ok (t₁.set ns .dir) := makeDir_fromTop_none h hall₁ hself₁
      refine ⟨t₁.set ns .dir, ?_, get?_set_withDirs ht₁ hself hne⟩
      simp [makeDirs, FromTop.ne_empty h, hmk, hup, hm₁, hmk₁, bind, Except.bind]

theorem write_fromTop (h : FromTop d ns) (hne : ns ≠ []) (hslash : d.endsWith "/" = false)
    (hall : ∀ j < ns.length, t.get? (ns.take j) = some .dir) (text : String) :
    t.write cwd d text = if t.get? ns = some .dir then .error .isADirectory else .ok (t.set ns (.file text)) := by
  obtain ⟨a, rest, rfl⟩ := List.exists_cons_of_ne_nil hne
  unfold write
  simp only [locate_of_dirs_fromTop h hall, bind, Except.bind]
  cases hg : t.get? (a :: rest) with
  | none => simp [hslash]
  | some e =>
    cases e with
    | dir => simp
    | file c => simp [hslash]

end FromTop

/-! ### Writing an output -/

/-- What the names hold once an output is written at a place: its file, and the directories
above it. -/
def withFile (t : Tree) (o : List String) (text : String) (m : List String) : Option Entry :=
  if m = o then some (.file text) else t.withDirs o.dropLast m

theorem Closed.withFile {t' : Tree} (hc : t.Closed) {o : List String} {text : String} (hopen : t.Open o.dropLast)
    (hdir : t.get? o ≠ some .dir) (ht' : ∀ m, t'.get? m = t.withFile o text m) : t'.Closed := by
  intro m e hm k hk
  rw [ht'] at hm ⊢
  have htake : m.take k ≠ m := take_ne_self hk
  unfold Tree.withFile at hm ⊢
  by_cases hmo : m = o
  · subst hmo
    rw [if_neg htake]
    exact withDirs_of_open hopen ((prefix_dropLast_iff htake).mpr (List.take_prefix _ _))
  · rw [if_neg hmo] at hm
    unfold withDirs at hm
    split at hm
    · -- a directory made along the output's path: the names above it are along it too
      rename_i hnew
      have hpre : m.take k <+: o.dropLast := (List.take_prefix _ _).trans hnew.1
      have hne : m.take k ≠ o := fun heq => by
        have hlen := hnew.1.length_le
        have hlen' := congrArg List.length heq
        simp at hlen hlen'
        omega
      rw [if_neg hne]
      exact withDirs_of_open hopen hpre
    · -- an entry there was: the directories above it were there, and stay
      have hdir' := hc m e hm k hk
      have hne : m.take k ≠ o := fun heq => hdir (heq ▸ hdir')
      rw [if_neg hne]
      simp [withDirs, hdir']

theorem withFile_file_iff {o m : List String} {text c : String} (hm : m ≠ o) :
    t.withFile o text m = some (.file c) ↔ t.get? m = some (.file c) := by
  unfold Tree.withFile withDirs
  rw [if_neg hm]
  split
  · rename_i hnew
    simp [hnew.2]
  · exact Iff.rfl

theorem withFile_of_not_prefix {o m : List String} {text : String} (hm : ¬ m <+: o) :
    t.withFile o text m = t.get? m := by
  have hne : m ≠ o := fun heq => hm (heq ▸ List.prefix_refl m)
  have hnot : ¬ m <+: o.dropLast := fun hp => hm (hp.trans (List.dropLast_prefix o))
  simp [Tree.withFile, withDirs, hne, hnot]

theorem withFile_withFile {a : Tree} {ox oy : List String} {tx ty : String}
    (ha : ∀ m, a.get? m = t.withFile oy ty m) (hxy : ¬ ox <+: oy) (hyx : ¬ oy <+: ox) (m : List String) :
    a.withFile ox tx m = if m = ox then some (.file tx) else if m = oy then some (.file ty)
      else if (m <+: ox.dropLast ∨ m <+: oy.dropLast) ∧ t.get? m = none then some .dir else t.get? m := by
  unfold Tree.withFile withDirs
  rw [ha]
  unfold Tree.withFile withDirs
  by_cases hx : m = ox
  · simp [hx]
  · by_cases hy : m = oy
    · subst hy
      have hnot : ¬ m <+: ox.dropLast := fun hp => hyx (hp.trans (List.dropLast_prefix ox))
      simp [hx, hnot]
    · by_cases hnew : m <+: oy.dropLast ∧ t.get? m = none
      · simp [hx, hy, hnew]
      · simp only [hx, hy, if_false, hnew]
        by_cases hnone : t.get? m = none <;> simp_all

/-! ### Areas that hold the same entries -/

def SameEntries (t t' : Tree) : Prop := ∀ m, t.get? m = t'.get? m

theorem SameEntries.refl (t : Tree) : SameEntries t t := fun _ => rfl

theorem SameEntries.symm {t' : Tree} (h : SameEntries t t') : SameEntries t' t := fun m => (h m).symm

theorem SameEntries.trans {t₁ t₂ : Tree} (h₁ : SameEntries t t₁) (h₂ : SameEntries t₁ t₂) : SameEntries t t₂ :=
  fun m => (h₁ m).trans (h₂ m)

section SameEntries

variable {t' : Tree} (h : SameEntries t t')
include h

theorem SameEntries.follow (p : Place) (cs : List PathComponent) : t.follow p cs = t'.follow p cs := by
  induction cs generalizing p with
  | nil => rfl
  | cons c cs ih =>
    have hat : t.at? p = t'.at? p := by
      cases p with
      | inside names => exact h names
      | outside => rfl
      | beyond => rfl
    simp only [Tree.follow, hat, ih]

theorem SameEntries.locate (path : String) : t.locate cwd path = t'.locate cwd path := by
  simp only [Tree.locate, h.follow]

theorem SameEntries.read (path : String) : t.read cwd path = t'.read cwd path := by
  have hat : ∀ p, t.at? p = t'.at? p := fun p => by
    cases p with
    | inside names => exact h names
    | outside => rfl
    | beyond => rfl
  simp only [Tree.read, lookup, h.locate, hat]

theorem SameEntries.closed (hc : t.Closed) : t'.Closed := by
  intro names e he k hk
  rw [← h] at he ⊢
  exact hc names e he k hk

theorem SameEntries.withFile (o : List String) (text : String) (m : List String) :
    t.withFile o text m = t'.withFile o text m := by
  simp only [Tree.withFile, withDirs, h m]

end SameEntries

end Tree

end ConfigTabs.Files

namespace ConfigTabs.Run

open Files Files.Tree

section Output

variable {t t' : Tree} {out : String} {o : List String}

theorem writeOutput_after_dirs (hc : t.Closed) (h : FromTop out o) (hne : o ≠ []) (hslash : out.endsWith "/" = false)
    (hopen : t.Open o.dropLast) (cwd : List String) (text : String) :
    ∃ t₁ : Tree, (∀ m, t₁.get? m = t.withDirs o.dropLast m) ∧
      writeOutput t cwd out text = (if t.get? o = some .dir then Except.error IoError.isADirectory
        else .ok (t₁.set o (.file text))).mapError fun e => "failed to write `" ++ out ++ "`: " ++ e.message := by
  obtain ⟨up, hup, hupTop⟩ := FromTop.parent h hne
  obtain ⟨t₁, hm₁, ht₁⟩ : ∃ t₁, t.makeDirs cwd ((Path.parts up).length + 1) up = .ok t₁ ∧
      ∀ m, t₁.get? m = t.withDirs o.dropLast m :=
    makeDirs_of_open hc _ hupTop (FromTop.length_lt_parts hupTop) hopen
  -- the names above the output are now directories, and its place holds what it held
  have hall : ∀ j < o.length, t₁.get? (o.take j) = some .dir := fun j hj => by
    rw [ht₁]
    exact withDirs_of_open hopen ((prefix_dropLast_iff (take_ne_self hj)).mpr (List.take_prefix _ _))
  have hself : t₁.get? o = t.get? o := by
    rw [ht₁]
    simp [withDirs, not_prefix_dropLast hne]
  have hw : t₁.write cwd out text = if t₁.get? o = some .dir then .error .isADirectory
      else .ok (t₁.set o (.file text)) := write_fromTop h hne hslash hall text
  refine ⟨t₁, ht₁, ?_⟩
  rw [← hself, ← hw]
  simp [writeOutput, hup, hm₁, bind, Except.bind]

theorem writeOutput_of_open (hc : t.Closed) (h : FromTop out o) (hne : o ≠ []) (hslash : out.endsWith "/" = false)
    (hopen : t.Open o.dropLast) (hdir : t.get? o ≠ some .dir) (cwd : List String) (text : String) :
    ∃ t', writeOutput t cwd out text = .ok t' ∧ ∀ m, t'.get? m = t.withFile o text m := by
  obtain ⟨t₁, ht₁, hw⟩ := writeOutput_after_dirs hc h hne hslash hopen cwd text
  refine ⟨t₁.set o (.file text), by simp [hw, hdir], fun m => ?_⟩
  rw [get?_set t₁ hne, ht₁]
  rfl

theorem writeOutput_of_dir (hc : t.Closed) (h : FromTop out o) (hne : o ≠ []) (hslash : out.endsWith "/" = false)
    (hopen : t.Open o.dropLast) (hdir : t.get? o = some .dir) (cwd : List String) (text : String) :
    writeOutput t cwd out text = .error ("failed to write `" ++ out ++ "`: " ++ IoError.isADirectory.message) := by
  obtain ⟨t₁, -, hw⟩ := writeOutput_after_dirs hc h hne hslash hopen cwd text
  simp [hw, hdir]

theorem writeOutput_of_file (hc : t.Closed) (h : FromTop out o) (hne : o ≠ []) {up : String}
    (hup : Path.parent? out = some up) {k : Nat} {c : String} (hf : t.get? (o.dropLast.take k) = some (.file c))
    (cwd : List String) (text : String) :
    writeOutput t cwd out text = .error ("failed to create `" ++ up ++ "`: " ++
      (if o.dropLast.length ≤ k then IoError.exists_ else .notADirectory).message) := by
  obtain ⟨up', hup', hupTop⟩ := FromTop.parent h hne
  rw [hup] at hup'
  cases hup'
  have hm : t.makeDirs cwd ((Path.parts up).length + 1) up = .error _ :=
    makeDirs_of_file hc hupTop hf (Path.parts up).length
  simp [writeOutput, hup, hm, bind, Except.bind]

theorem writeOutput_error_iff (hc : t.Closed) (hc' : t'.Closed) (h : FromTop out o) (hne : o ≠ [])
    (hslash : out.endsWith "/" = false)
    (hfiles : ∀ k c, t'.get? (o.dropLast.take k) = some (.file c) ↔ t.get? (o.dropLast.take k) = some (.file c))
    (hdir : t'.get? o = some .dir ↔ t.get? o = some .dir) (cwd : List String) (text msg : String) :
    writeOutput t' cwd out text = .error msg ↔ writeOutput t cwd out text = .error msg := by
  by_cases hopen : t.Open o.dropLast
  · have hopen' : t'.Open o.dropLast := fun k c hf => hopen k c ((hfiles k c).mp hf)
    by_cases hd : t.get? o = some .dir
    · rw [writeOutput_of_dir hc h hne hslash hopen hd, writeOutput_of_dir hc' h hne hslash hopen' (hdir.mpr hd)]
    · obtain ⟨t₁, hw, -⟩ := writeOutput_of_open hc h hne hslash hopen hd cwd text
      obtain ⟨t₂, hw', -⟩ := writeOutput_of_open hc' h hne hslash hopen' (fun h' => hd (hdir.mp h')) cwd text
      simp [hw, hw']
  · -- a file lies above the place: both fail at it
    obtain ⟨k, c, hf⟩ : ∃ k c, t.get? (o.dropLast.take k) = some (.file c) :=
      Classical.byContradiction fun hno => hopen fun k c hf => hno ⟨k, c, hf⟩
    obtain ⟨up, hup, -⟩ := FromTop.parent h hne
    rw [writeOutput_of_file hc h hne hup hf, writeOutput_of_file hc' h hne hup ((hfiles k c).mpr hf)]

theorem writeOutput_ok_spec (hc : t.Closed) (h : FromTop out o) (hne : o ≠ []) (hslash : out.endsWith "/" = false)
    {cwd : List String} {text : String} (hw : writeOutput t cwd out text = .ok t') :
    t.Open o.dropLast ∧ t.get? o ≠ some .dir ∧ ∀ m, t'.get? m = t.withFile o text m := by
  have hopen : t.Open o.dropLast := fun k c hf => by
    obtain ⟨up, hup, -⟩ := FromTop.parent h hne
    rw [writeOutput_of_file hc h hne hup hf] at hw
    cases hw
  have hdir : t.get? o ≠ some .dir := fun hd => by
    rw [writeOutput_of_dir hc h hne hslash hopen hd] at hw
    cases hw
  obtain ⟨t₁, hw₁, ht₁⟩ := writeOutput_of_open hc h hne hslash hopen hdir cwd text
  rw [hw] at hw₁
  cases hw₁
  exact ⟨hopen, hdir, ht₁⟩

end Output

end ConfigTabs.Run
