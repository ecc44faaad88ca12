import ConfigTabs.Proofs.Build
import ConfigTabs.Proofs.PathEdits
/-!
The input and output directories of every loaded project are anchored paths.
-/
namespace ConfigTabs.Run

open Files

theorem startsNamed_of_startsWith_top {p : String} (h : p.startsWith topText = true) :
    Path.StartsNamed p := by
  obtain ⟨rest, hrest⟩ := String.startsWith_string_iff.mp h
  obtain ⟨y, ys, hy⟩ := List.exists_cons_of_ne_nil (List.splitOn_ne_nil '/' rest)
  -- no slash in the top's name, so the first part is the name with what follows it
  have hsplit : (topText.toList ++ rest).splitOn '/' = (topText.toList ++ y) :: ys := by
    simp [topText, List.splitOn_cons_eq_if_modifyHead, hy]
  refine ⟨String.ofList (topText.toList ++ y), ys.map String.ofList, ?_, ?_⟩
  · simp [Path.parts, Path.splitAt, ← hrest, hsplit]
  · rw [Path.named_iff]
    constructor <;> intro heq <;> simpa [topText] using congrArg String.toList heq

theorem startsWith_pathText (names : List String) : (pathText names).startsWith topText = true := by
  simp [pathText, String.startsWith_string_iff]

theorem normalize_anchored (t : Tree) (cwd : List String) (p : String) :
    Path.Anchored (normalize t cwd p) := by
  unfold normalize
  cases hc : t.canonical? cwd p with
  | some c =>
    -- a path that exists is written from the top of the area
    unfold Tree.canonical? at hc
    split at hc
    · cases hc
      exact Or.inl (startsNamed_of_startsWith_top (startsWith_pathText _))
    · cases hc
  | none =>
    rw [Option.getD_none]
    by_cases habs : Path.isAbsolute p = true
    · rw [if_pos (by simp [habs])]
      exact Or.inr habs
    by_cases htop : p.startsWith topText = true
    · rw [if_pos (by simp [htop])]
      exact Or.inl (startsNamed_of_startsWith_top htop)
    · rw [if_neg (by simp [habs, htop])]
      exact Or.inl (Path.startsNamed_join (startsNamed_of_startsWith_top (startsWith_pathText cwd))
        (by simpa using habs))

theorem loadProject_ok {inv : Cli.Invocation} {s s' : Session} {p : Project}
    (h : (loadProject inv).run s = .ok p s') :
    ∃ c : ProjectConfig,
      p.config.build.input = normalize s.files s.cwd (Path.join p.root (applyRequest c inv.request).build.input) ∧
      p.config.build.output = normalize s.files s.cwd (Path.join p.root (applyRequest c inv.request).build.output) := by
  unfold loadProject at h
  simp only [EStateM.run_bind, EStateM.run_get] at h
  generalize normalize s.files s.cwd _ = root at h
  -- settings read from a file or the defaults, then checked: only the check can fail after that
  split at h
  · rw [EStateM.run_bind] at h
    split at h
    · next _ c _ _ =>
      split at h
      · cases h
      · cases h
        -- the projections first, or `rfl` would start evaluating `normalize`
        dsimp only
        exact ⟨c, rfl, rfl⟩
    · cases h
  · obtain ⟨s₁, hdebug, -⟩ := debug_run "config" ("no " ++ inv.config ++ " found, using defaults") s
    simp only [EStateM.run_bind, hdebug, EStateM.run_pure] at h
    split at h
    · cases h
    · cases h
      dsimp only
      exact ⟨{}, rfl, rfl⟩

theorem loadProject_anchored {inv : Cli.Invocation} {s s' : Session} {p : Project}
    (h : (loadProject inv).run s = .ok p s') :
    Path.Anchored p.config.build.input ∧ Path.Anchored p.config.build.output := by
  obtain ⟨c, hin, hout⟩ := loadProject_ok h
  rw [hin, hout]
  exact ⟨normalize_anchored _ _ _, normalize_anchored _ _ _⟩

end ConfigTabs.Run
