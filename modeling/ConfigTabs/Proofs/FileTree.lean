import ConfigTabs.Files.Tree
/-!
What the operations on the working area change, and how following a path depends on the
directories along it.
-/
namespace ConfigTabs.Files

def walk (here : Place) (cs : List PathComponent) : Place := cs.foldl Tree.step here

def resolve (cwd : List String) (path : String) : Place :=
  walk (Tree.origin cwd (Path.components path)).1 (Tree.origin cwd (Path.components path)).2

theorem resolve_of_same {a b : String} (h : Path.same a b = true) (cwd : List String) :
    resolve cwd a = resolve cwd b := by
  have hc : Path.components a = Path.components b := beq_iff_eq.mp h
  simp only [resolve, hc]

namespace Tree

variable {t t' : Tree}

@[simp] theorem get?_nil (t : Tree) : t.get? [] = some .dir := rfl

theorem find?_map_same_key (l : List (List String × Entry)) (names m : List String) (e : Entry) :
    (l.map fun (n, old) => if n == names then (n, e) else (n, old)).find? (·.1 == m) =
      (l.find? (·.1 == m)).map fun (n, old) => if n == names then (n, e) else (n, old) := by
  rw [List.find?_map]
  congr 2
  funext x
  obtain ⟨n, old⟩ := x
  simp only [Function.comp]
  split <;> rfl

theorem get?_set_self (t : Tree) {names : List String} (h : names ≠ []) (e : Entry) :
    (t.set names e).get? names = some e := by
  have hne : names.isEmpty = false := by simpa using h
  unfold set
  split
  · rename_i hany
    obtain ⟨x, hx, hxk⟩ := List.any_eq_true.mp hany
    simp only [get?, hne, find?_map_same_key]
    cases hf : t.entries.find? (·.1 == names) with
    | none => exact absurd hf (List.find?_isSome.mpr ⟨x, hx, hxk⟩ |> Option.isSome_iff_ne_none.mp)
    | some y =>
      have hy : y.1 = names := by simpa using List.find?_some hf
      obtain ⟨n, old⟩ := y
      simp only at hy
      simp [hy]
  · rename_i hany
    have hnone : t.entries.find? (·.1 == names) = none := by
      rw [List.find?_eq_none]
      intro x hx hxk
      exact hany (List.any_eq_true.mpr ⟨x, hx, hxk⟩)
    simp [get?, hne, List.find?_append, hnone]

theorem get?_set_of_ne (t : Tree) {names m : List String} (h : m ≠ names) (e : Entry) :
    (t.set names e).get? m = t.get? m := by
  unfold set
  split
  · simp only [get?, find?_map_same_key]
    split
    · rfl
    · cases hf : t.entries.find? (·.1 == m) with
      | none => rfl
      | some y =>
        have hy : y.1 = m := by simpa using List.find?_some hf
        obtain ⟨n, old⟩ := y
        simp only at hy
        subst hy
        simp [h]
  · simp only [get?]
    split
    · rfl
    · rw [List.find?_append]
      cases t.entries.find? (·.1 == m) with
      | some y => rfl
      | none => simp [Ne.symm h]

/-- Every entry that was there is still there, unchanged; new entries may have appeared. -/
def Grows (t t' : Tree) : Prop := ∀ names, t.get? names ≠ none → t'.get? names = t.get? names

def AddsDirs (t t' : Tree) : Prop :=
  ∀ names, t'.get? names = t.get? names ∨ (t.get? names = none ∧ t'.get? names = some .dir)

theorem AddsDirs.refl (t : Tree) : AddsDirs t t := fun _ => Or.inl rfl

theorem AddsDirs.trans {t₁ t₂ t₃ : Tree} (h₁ : AddsDirs t₁ t₂) (h₂ : AddsDirs t₂ t₃) : AddsDirs t₁ t₃ := by
  intro names
  rcases h₁ names with h₁ | ⟨hnone, hdir⟩
  · rcases h₂ names with h₂ | ⟨hnone₂, hdir₂⟩
    · exact Or.inl (h₂.trans h₁)
    · exact Or.inr ⟨h₁.symm.trans hnone₂, hdir₂⟩
  · rcases h₂ names with h₂ | ⟨hnone₂, -⟩
    · exact Or.inr ⟨hnone, h₂.trans hdir⟩
    · -- the directory added first is there for the second step
      rw [hdir] at hnone₂
      cases hnone₂

theorem AddsDirs.grows (h : AddsDirs t t') : Grows t t' := by
  intro names hn
  rcases h names with h | ⟨hnone, -⟩
  · exact h
  · exact absurd hnone hn

theorem AddsDirs.file (h : AddsDirs t t') {names : List String} {c : String}
    (hf : t'.get? names = some (.file c)) : t.get? names = some (.file c) := by
  rcases h names with h | ⟨-, hdir⟩
  · exact h ▸ hf
  · rw [hdir] at hf
    cases hf

theorem addsDirs_set {names : List String} (h : t.get? names = none) : AddsDirs t (t.set names .dir) := by
  intro m
  by_cases hm : m = names
  · subst hm
    have hne : m ≠ [] := by
      rintro rfl
      simp at h
    exact Or.inr ⟨h, get?_set_self t hne .dir⟩
  · exact Or.inl (get?_set_of_ne t hm .dir)

theorem follow_walk {here p : Place} {cs : List PathComponent} (h : t.follow here cs = .ok p) :
    p = walk here cs := by
  induction cs generalizing here with
  | nil => simpa [follow, walk] using h.symm
  | cons c cs ih =>
    unfold follow at h
    split at h
    · exact ih h
    · cases h
    · cases h

theorem locate_resolve {cwd : List String} {path : String} {p : Place} (h : t.locate cwd path = .ok p) :
    p = resolve cwd path :=
  follow_walk h

theorem follow_of_dirs (hdirs : ∀ names, t.get? names = some .dir → t'.get? names = some .dir)
    {here p : Place} {cs : List PathComponent} (h : t.follow here cs = .ok p) : t'.follow here cs = .ok p := by
  induction cs generalizing here with
  | nil => simpa [follow] using h
  | cons c cs ih =>
    unfold follow at h ⊢
    split at h
    · rename_i hat
      have hat' : t'.at? here = some .dir := by
        cases here with
        | inside names => exact hdirs names hat
        | outside => rfl
        | beyond => cases hat
      rw [hat']
      exact ih h
    · cases h
    · cases h

theorem locate_of_dirs (hdirs : ∀ names, t.get? names = some .dir → t'.get? names = some .dir)
    {cwd : List String} {path : String} {p : Place} (h : t.locate cwd path = .ok p) :
    t'.locate cwd path = .ok p :=
  follow_of_dirs hdirs h

theorem Grows.dirs (h : Grows t t') : ∀ names, t.get? names = some .dir → t'.get? names = some .dir :=
  fun names hn => (h names (by simp [hn])).trans hn

theorem makeDir_ok {cwd : List String} {path : String} (h : t.makeDir cwd path = .ok t') :
    ∃ names, t.get? names = none ∧ t' = t.set names .dir := by
  unfold makeDir at h
  cases hl : t.locate cwd path with
  | error e => simp [hl, bind, Except.bind] at h
  | ok place =>
    simp only [hl, bind, Except.bind] at h
    cases place with
    | inside names =>
      cases hg : t.get? names with
      | none => simp only [hg] at h; exact ⟨names, hg, (Except.ok.inj h).symm⟩
      | some e => simp [hg] at h
    | outside => cases h
    | beyond => cases h

theorem makeDir_addsDirs {cwd : List String} {path : String} (h : t.makeDir cwd path = .ok t') :
    AddsDirs t t' := by
  obtain ⟨names, hn, rfl⟩ := makeDir_ok h
  exact addsDirs_set hn

theorem makeDirs_addsDirs {cwd : List String} {n : Nat} {path : String} (h : t.makeDirs cwd n path = .ok t') :
    AddsDirs t t' := by
  induction n generalizing t' path with
  | zero =>
    simp only [makeDirs, Except.ok.injEq] at h
    exact h ▸ AddsDirs.refl t
  | succ n ih =>
    rw [makeDirs] at h
    split at h
    · exact (Except.ok.inj h) ▸ AddsDirs.refl t
    · split at h
      · exact makeDir_addsDirs (by rename_i hm; rw [hm, h])
      · split at h
        · cases h
        · rename_i up _
          cases hup : t.makeDirs cwd n up with
          | error e => simp [hup, bind, Except.bind] at h
          | ok t₁ =>
            simp only [hup, bind, Except.bind] at h
            have g₁ := ih hup
            split at h
            · rename_i hm
              exact g₁.trans (makeDir_addsDirs (hm.trans h))
            · split at h
              · exact (Except.ok.inj h) ▸ g₁
              · cases h
      · split at h
        · exact (Except.ok.inj h) ▸ AddsDirs.refl t
        · cases h

theorem write_ok {cwd : List String} {path c : String} (h : t.write cwd path c = .ok t') :
    ∃ names, t.locate cwd path = .ok (.inside names) ∧ names ≠ [] ∧ t.get? names ≠ some .dir ∧
      path.endsWith "/" = false ∧ t' = t.set names (.file c) := by
  unfold write at h
  cases hl : t.locate cwd path with
  | error e => simp [hl, bind, Except.bind] at h
  | ok place =>
    simp only [hl, bind, Except.bind] at h
    cases place with
    | inside names =>
      cases names with
      | nil => cases h
      | cons n ns =>
        simp only at h
        cases hg : t.get? (n :: ns) with
        | none =>
          simp only [hg] at h
          split at h
          · cases h
          · rename_i hs
            exact ⟨n :: ns, rfl, by simp, by simp [hg], by simpa using hs, (Except.ok.inj h).symm⟩
        | some e =>
          cases e with
          | dir => simp [hg] at h
          | file old =>
            simp only [hg] at h
            split at h
            · cases h
            · rename_i hs
              exact ⟨n :: ns, rfl, by simp, by simp [hg], by simpa using hs, (Except.ok.inj h).symm⟩
    | outside => cases h
    | beyond => cases h

theorem write_dirs {cwd : List String} {path c : String} (h : t.write cwd path c = .ok t') :
    ∀ m, t.get? m = some .dir → t'.get? m = some .dir := by
  obtain ⟨names, -, -, hnd, -, rfl⟩ := write_ok h
  intro m hm
  have hne : m ≠ names := by
    rintro rfl
    exact hnd hm
  rw [get?_set_of_ne t hne]
  exact hm

theorem write_frame {cwd : List String} {path c : String} (h : t.write cwd path c = .ok t')
    {m : List String} (hm : resolve cwd path ≠ .inside m) : t'.get? m = t.get? m := by
  obtain ⟨names, hl, -, -, -, rfl⟩ := write_ok h
  have hne : m ≠ names := by
    rintro rfl
    exact hm (locate_resolve hl).symm
  exact get?_set_of_ne t hne _

theorem read_of_get {cwd : List String} {path c : String} {names : List String}
    (hl : t.locate cwd path = .ok (.inside names)) (hg : t.get? names = some (.file c))
    (hs : path.endsWith "/" = false) : t.read cwd path = .ok c := by
  simp [read, lookup, hl, at?, hg, hs, bind, Except.bind]

end Tree

end ConfigTabs.Files
