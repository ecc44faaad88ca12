import ConfigTabs.Proofs.Placement
/-!
Planning a build pairs each snippet file with its mirrored output and stops at the first
output two files share.
-/
namespace ConfigTabs.Run

open Files

def Project.relativeDir (p : Project) (source : String) : String :=
  ((Path.stripPrefix? source p.config.build.input).bind Path.parent?).getD ""

def Project.mirrorOf (p : Project) (source : String) : String :=
  Path.join (Path.join p.config.build.output (p.relativeDir source))
    ((Path.fileStem? source).getD "" ++ "." ++ p.config.render.emitter.extension)

def Project.SameSlot (p : Project) (a b : String) : Prop :=
  Path.same (p.relativeDir a) (p.relativeDir b) = true ∧ Path.fileStem? a = Path.fileStem? b

/-! ### Planning any list of files -/

section Plan

variable (p : Project)

theorem apart_of_planTargets : ∀ {files : List String} {planned targets : List Target},
    planTargets p files planned = .ok targets →
    files.Pairwise (fun a b => Path.same (p.outputOf a) (p.outputOf b) = false) ∧
      ∀ x ∈ planned, ∀ f ∈ files, Path.same x.output (p.outputOf f) = false
  | [], _, _, _ => by simp
  | f :: fs, planned, targets, h => by
    simp only [planTargets] at h
    split at h
    · cases h
    · rename_i hnone
      have hfirst : ∀ x ∈ planned, Path.same x.output (p.outputOf f) = false :=
        fun x hx => Bool.eq_false_iff.mpr (List.find?_eq_none.mp hnone x hx)
      obtain ⟨hfs, hplanned⟩ := apart_of_planTargets h
      have hf : ∀ g ∈ fs, Path.same (p.outputOf f) (p.outputOf g) = false := by
        intro g hg
        have h := hplanned { source := f, output := p.outputOf f } List.mem_cons_self g hg
        dsimp only at h
        exact h
      refine ⟨List.pairwise_cons.mpr ⟨hf, hfs⟩, ?_⟩
      intro x hx g hg
      rcases List.mem_cons.mp hg with rfl | hg
      · exact hfirst x hx
      · exact hplanned x (List.mem_cons_of_mem _ hx) g hg

theorem planTargets_ok_iff (files : List String) :
    (∃ targets, planTargets p files [] = .ok targets) ↔
      files.Pairwise (fun a b => Path.same (p.outputOf a) (p.outputOf b) = false) :=
  ⟨fun ⟨_, h⟩ => (apart_of_planTargets p h).1,
    fun h => ⟨_, planTargets_of_apart p files [] h (by simp)⟩⟩

theorem planTargets_first_clash : ∀ {files done : List String} {m : String},
    done.Pairwise (fun a b => Path.same (p.outputOf a) (p.outputOf b) = false) →
    planTargets p files (done.map p.targetOf).reverse = .error m →
    ∃ pre a mid b post, done ++ files = pre ++ a :: mid ++ b :: post ∧
      (pre ++ a :: mid).Pairwise (fun x y => Path.same (p.outputOf x) (p.outputOf y) = false) ∧
      Path.same (p.outputOf a) (p.outputOf b) = true ∧
      m = "`" ++ p.relative a ++ "` and `" ++ p.relative b ++ "` both render to `" ++
        p.relative (p.outputOf b) ++ "`"
  | [], _, _, _, h => by simp [planTargets] at h
  | f :: fs, done, m, hdone, h => by
    simp only [planTargets] at h
    split at h
    · -- an earlier file has the output: it is one of the files planned before
      rename_i earlier hfind
      have hmem := List.mem_of_find?_eq_some hfind
      have hsame : Path.same earlier.output (p.outputOf f) = true := by simpa using List.find?_some hfind
      obtain ⟨a, ha, rfl⟩ : ∃ a ∈ done, p.targetOf a = earlier := by simpa using hmem
      obtain ⟨pre, mid, rfl⟩ := List.append_of_mem ha
      exact ⟨pre, a, mid, f, fs, by simp, hdone, by simpa using hsame, (Except.error.inj h).symm⟩
    · -- no earlier file has it: the file joins those planned, still apart
      rename_i hnone
      have hapart : (done ++ [f]).Pairwise (fun a b => Path.same (p.outputOf a) (p.outputOf b) = false) := by
        refine List.pairwise_append.mpr ⟨hdone, List.pairwise_singleton _ _, ?_⟩
        intro a ha g hg
        rw [List.mem_singleton] at hg
        subst hg
        have h := List.find?_eq_none.mp hnone (p.targetOf a) (List.mem_reverse.mpr (List.mem_map_of_mem ha))
        rw [Project.targetOf_output] at h
        exact Bool.eq_false_iff.mpr h
      have hplanned : { source := f, output := p.outputOf f } :: (done.map p.targetOf).reverse =
          ((done ++ [f]).map p.targetOf).reverse := by
        rw [List.map_append, List.reverse_append]
        rfl
      rw [hplanned] at h
      obtain ⟨pre, a, mid, b, post, hsplit, rest⟩ := planTargets_first_clash hapart h
      exact ⟨pre, a, mid, b, post, by simpa using hsplit, rest⟩

end Plan

/-! ### The outputs of walked snippet files -/

section Walked

variable {p : Project} {t : Tree} {cwd : List String}

theorem startsNamed_foldl_join {below : List String} (hnames : ∀ n ∈ below, Path.IsName n) :
    ∀ {input : String}, Path.StartsNamed input → Path.StartsNamed (below.foldl Path.join input) := by
  induction below with
  | nil => exact fun hin => hin
  | cons n rest ih =>
    intro input hin
    rw [List.foldl_cons]
    exact ih (fun m hm => hnames m (List.mem_cons_of_mem n hm))
      (Path.startsNamed_join hin (Path.startsWith_slash_of_isName (hnames n List.mem_cons_self)))

theorem snippetFile_rest (hwf : t.WellFormed) (hin : Path.Anchored p.config.build.input)
    {f : String} (hf : f ∈ snippetFiles t cwd p.config.build.input) :
    ∃ below r, below ≠ [] ∧ (∀ n ∈ below, Path.IsName n) ∧
      Path.components f = Path.components p.config.build.input ++ below.map .name ∧
      Path.stripPrefix? f p.config.build.input = some r ∧ Path.StartsNamed r ∧
      Path.steps r = below.map .name := by
  have hwalk := ((mem_snippetFiles t cwd p.config.build.input f).mp hf).1
  obtain ⟨base, below, c, -, hmem, hbelow, hfeq⟩ := Tree.mem_walkFiles hwalk
  have hnames : ∀ n ∈ below, Path.IsName n := fun n hn => (hwf.names _ hmem n (List.mem_append_right base hn)).1
  -- an input written from the root leads outside the area, where the walk finds nothing
  have hin_named : Path.StartsNamed p.config.build.input :=
    hin.resolve_right fun habs => by simp [Tree.walkFiles_of_isAbsolute habs] at hwalk
  have hcomps : Path.components f = Path.components p.config.build.input ++ below.map .name :=
    hfeq ▸ components_walked p.config.build.input hbelow hnames
  obtain ⟨r, hr, -, hsteps⟩ := Path.stripPrefix?_spec (hfeq ▸ startsNamed_foldl_join hnames hin_named)
    (hcomps ▸ List.prefix_append _ _)
  rw [hcomps, List.drop_left] at hsteps
  have hr_named : Path.StartsNamed r := (Path.stripPrefix?_shape hr).resolve_left fun hempty => by
    rw [hempty, Path.steps_empty] at hsteps
    exact hbelow (List.map_eq_nil_iff.mp hsteps.symm)
  exact ⟨below, r, hbelow, hnames, hcomps, hr, hr_named, hsteps⟩

theorem snippetFile_anatomy (hwf : t.WellFormed) (hin : Path.Anchored p.config.build.input)
    (hout : Path.Anchored p.config.build.output) {f : String}
    (hf : f ∈ snippetFiles t cwd p.config.build.input) :
    ∃ front last, (Path.stripPrefix? f p.config.build.input).isSome ∧
      Path.components (p.relativeDir f) = front.map .name ∧
      Path.fileStem? f = some (Path.splitExtension last).1 ∧
      Path.components (p.outputOf f) = Path.components p.config.build.output ++
        (front ++ [(Path.splitExtension last).1 ++ "." ++ p.config.render.emitter.extension]).map .name ∧
      Path.components (p.mirrorOf f) = Path.components (p.outputOf f) := by
  obtain ⟨below, r, hbelow, hnames, hcomps, hr, hr_named, hsteps⟩ := snippetFile_rest hwf hin hf
  obtain ⟨front, last, rfl⟩ : ∃ front last, below = front ++ [last] := by
    obtain ⟨front, last, h⟩ := (List.eq_nil_or_concat below).resolve_left hbelow
    exact ⟨front, last, by simpa using h⟩
  have hm := Path.isName_stem_ext (hnames last (by simp)) (isName_extension p.config.render.emitter)
  -- the directory below the input: every name but the last
  obtain ⟨d, hd, hdsteps, hdshape⟩ := Path.parent?_spec hr_named (by simp [hsteps])
  rw [hsteps, List.map_append, List.map_singleton, List.dropLast_concat] at hdsteps
  have hdir : p.relativeDir f = d := by simp [Project.relativeDir, hr, hd]
  have hdcomps : Path.components d = front.map .name := by
    rcases hdshape with rfl | hdn
    · rw [← hdsteps]
      rfl
    · rw [Path.components_of_startsNamed hdn, hdsteps]
  have hstem : Path.fileStem? f = some (Path.splitExtension last).1 := by
    simp [Path.fileStem?, Path.fileName?, hcomps]
  -- the output: the rest after the input joined onto the output directory, with the extension
  obtain ⟨hq, hqcomps⟩ := hout.join (Path.startsWith_slash_of_startsNamed hr_named)
  have hqlast : (Path.components (Path.join p.config.build.output r)).getLast? = some (.name last) := by
    rw [hqcomps, hsteps]
    simp
  obtain ⟨-, hwcomps⟩ := hq.withExtension hqlast hm
  have hout_comps : Path.components (p.outputOf f) = Path.components p.config.build.output ++
      (front ++ [(Path.splitExtension last).1 ++ "." ++ p.config.render.emitter.extension]).map .name := by
    simp only [Project.outputOf, hr, Option.getD_some]
    rw [hwcomps, hqcomps, hsteps]
    simp
  -- the mirror: the directory below the input joined onto the output directory, then the name
  have hdabs : Path.isAbsolute d = false :=
    hdshape.elim (fun h => h ▸ rfl) Path.startsWith_slash_of_startsNamed
  obtain ⟨hj, hjcomps⟩ := hout.join hdabs
  have hmirror : Path.components (p.mirrorOf f) = Path.components p.config.build.output ++ Path.steps d ++
      [.name ((Path.splitExtension last).1 ++ "." ++ p.config.render.emitter.extension)] := by
    simp only [Project.mirrorOf, hdir, hstem, Option.getD_some]
    rw [Path.components_join_name hj.ne_empty hm, hjcomps]
  refine ⟨front, last, by simp [hr], by rw [hdir, hdcomps], hstem, hout_comps, ?_⟩
  rw [hmirror, hdsteps, hout_comps]
  simp

theorem same_outputOf_iff (hwf : t.WellFormed) (hin : Path.Anchored p.config.build.input)
    (hout : Path.Anchored p.config.build.output) {a b : String}
    (ha : a ∈ snippetFiles t cwd p.config.build.input) (hb : b ∈ snippetFiles t cwd p.config.build.input) :
    Path.same (p.outputOf a) (p.outputOf b) = true ↔ p.SameSlot a b := by
  obtain ⟨fa, la, -, hda, hsa, hoa, -⟩ := snippetFile_anatomy hwf hin hout ha
  obtain ⟨fb, lb, -, hdb, hsb, hob, -⟩ := snippetFile_anatomy hwf hin hout hb
  have hinj : ∀ l l' : List String, l.map PathComponent.name = l'.map .name ↔ l = l' :=
    fun _ _ => List.map_inj_right fun _ _ h => PathComponent.name.inj h
  simp only [Project.SameSlot, Path.same_iff, hoa, hob, hda, hdb, hsa, hsb, List.append_cancel_left_eq, hinj]
  simp

end Walked

/-! ### The planning of a build -/

/-- Planning mirrors each snippet file below the output directory, in order and pairwise apart,
and fails exactly at the first file whose output an earlier file already has. -/
theorem planTargets_mirror_snippet_files (p : Project) (t : Tree) (cwd : List String) {files : List String}
    (hfiles : snippetFiles t cwd p.config.build.input = files) (hwf : t.WellFormed)
    (hin : Path.Anchored p.config.build.input) (hout : Path.Anchored p.config.build.output) :
    (∀ f ∈ files, (Path.stripPrefix? f p.config.build.input).isSome) ∧
    ((∃ targets, planTargets p files [] = .ok targets) ↔ files.Pairwise fun a b => ¬ p.SameSlot a b) ∧
    (∀ targets, planTargets p files [] = .ok targets →
      targets.map Target.source = files ∧
      (∀ x ∈ targets, Path.same x.output (p.mirrorOf x.source) = true ∧
        Path.startsWith x.output p.config.build.output = true) ∧
      (targets.map Target.output).Pairwise fun a b => Path.same a b = false) ∧
    (∀ m, planTargets p files [] = .error m →
      ∃ pre a mid b post, files = pre ++ a :: mid ++ b :: post ∧
        (pre ++ a :: mid).Pairwise (fun x y => Path.same (p.outputOf x) (p.outputOf y) = false) ∧
        Path.same (p.outputOf a) (p.outputOf b) = true ∧
        m = "`" ++ p.relative a ++ "` and `" ++ p.relative b ++ "` both render to `" ++
          p.relative (p.outputOf b) ++ "`") := by
  subst hfiles
  refine ⟨fun f hf => ?_, ?_, fun targets h => ?_, fun m h => ?_⟩
  · obtain ⟨-, -, hsome, -⟩ := snippetFile_anatomy hwf hin hout hf
    exact hsome
  · rw [planTargets_ok_iff]
    apply List.Pairwise.iff_of_mem
    intro a b ha hb
    rw [← same_outputOf_iff hwf hin hout ha hb, Bool.not_eq_true]
  · have htargets : targets = (snippetFiles t cwd p.config.build.input).map p.targetOf := by
      simpa using planTargets_eq h
    subst htargets
    refine ⟨by simp [List.map_map, Function.comp_def], ?_, ?_⟩
    · intro x hx
      obtain ⟨f, hf, rfl⟩ := List.mem_map.mp hx
      obtain ⟨front, last, -, -, -, hout_comps, hmirror⟩ := snippetFile_anatomy hwf hin hout hf
      rw [Project.targetOf_output, Project.targetOf_source, Path.same_iff, hmirror, Path.startsWith_iff,
        hout_comps]
      exact ⟨rfl, List.prefix_append _ _⟩
    · have houtputs : ((snippetFiles t cwd p.config.build.input).map p.targetOf).map Target.output =
          (snippetFiles t cwd p.config.build.input).map p.outputOf := by
        simp [List.map_map, Function.comp_def]
      rw [houtputs, List.pairwise_map]
      exact (apart_of_planTargets p h).1
  · obtain ⟨pre, a, mid, b, post, hsplit, rest⟩ := planTargets_first_clash p List.Pairwise.nil h
    exact ⟨pre, a, mid, b, post, by simpa using hsplit, rest⟩

/-- Two snippet files whose stems carry a dot, `a.b.json` and `a.b.toml`, share their stem `a.b`:
planning them fails. -/
theorem dotted_stems_collide :
    ∃ (p : Project) (t : Tree) (files : List String), snippetFiles t [] p.config.build.input = files ∧
      t.WellFormed ∧ Path.Anchored p.config.build.input ∧ Path.Anchored p.config.build.output ∧
      p.SameSlot "<root>/snippets/a.b.json" "<root>/snippets/a.b.toml" ∧
      ¬ ∃ targets, planTargets p files [] = .ok targets := by
  let t : Tree := { entries := [(["snippets"], .dir),
    (["snippets", "a.b.json"], .file "x"),
    (["snippets", "a.b.toml"], .file "y")] }
  let p : Project :=
    { config := { build := { input := "<root>/snippets", output := "<root>/generated" } }, root := "<root>" }
  have hfiles : snippetFiles t [] p.config.build.input =
      ["<root>/snippets/a.b.json", "<root>/snippets/a.b.toml"] := by
    have hwalk : (t.walkFiles [] p.config.build.input).filter (fun f => (sourceFormat f).isSome) =
        ["<root>/snippets/a.b.json", "<root>/snippets/a.b.toml"] := by decide +kernel
    simp only [snippetFiles, hwalk]
    exact List.mergeSort_of_pairwise (by decide +kernel)
  have hwf : t.WellFormed := by decide +kernel
  have hin : Path.Anchored p.config.build.input := .inl ⟨"<root>", ["snippets"], by decide +kernel, by decide +kernel⟩
  have hout : Path.Anchored p.config.build.output := .inl ⟨"<root>", ["generated"], by decide +kernel, by decide +kernel⟩
  have hslot : p.SameSlot "<root>/snippets/a.b.json" "<root>/snippets/a.b.toml" := by
    unfold Project.SameSlot
    decide +kernel
  obtain ⟨-, hok, -⟩ := planTargets_mirror_snippet_files p t [] hfiles hwf hin hout
  refine ⟨p, t, _, hfiles, hwf, hin, hout, hslot, fun h => ?_⟩
  have hpw := hok.mp h
  simp only [List.pairwise_cons, List.mem_singleton, forall_eq] at hpw
  exact hpw.1 hslot

/-! ### Failures before anything is done -/

/-- A build whose input is missing or cannot be walked, or two of whose snippet files share an
output, fails before cleaning or rendering and leaves the session as it was. -/
theorem early_build_failure_changes_nothing (p : Project) (s : Session) :
    (s.files.isDir s.cwd p.config.build.input = false →
      (buildSnippets p).run s =
        .error (.other ("snippet directory `" ++ p.config.build.input ++ "` not found")) s) ∧
    (s.files.isDir s.cwd p.config.build.input = true → s.files.MeetsUnreadable s.cwd p.config.build.input →
      ∃ base u, s.files.locate s.cwd p.config.build.input = .ok (.inside base) ∧ u ∈ s.files.unreadable ∧
        s.files.walkEnters base u = true ∧
        (buildSnippets p).run s = .error (.other (unreadableMessage
          ((u.drop base.length).foldl (fun acc n => Path.join acc n) p.config.build.input))) s) ∧
    (s.files.isDir s.cwd p.config.build.input = true → ¬ s.files.MeetsUnreadable s.cwd p.config.build.input →
      ∀ pre a mid b post, snippetFiles s.files s.cwd p.config.build.input = pre ++ a :: mid ++ b :: post →
        Path.same (p.outputOf a) (p.outputOf b) = true →
        ∃ m, planTargets p (snippetFiles s.files s.cwd p.config.build.input) [] = .error m ∧
          (buildSnippets p).run s = .error (.other m) s) := by
  refine ⟨buildSnippets_missing p s, fun hdir hmeets => ?refused,
    fun hdir hreadable pre a mid b post hsplit hsame => ?collision⟩
  case refused =>
    -- the first directory the walk refuses is an unreadable one it meets
    cases hw : s.files.walkRefusals s.cwd p.config.build.input with
    | nil => exact absurd hmeets (Tree.walkRefusals_eq_nil_iff.mp hw)
    | cons dir more =>
      obtain ⟨base, u, hloc, hu, henters, rfl⟩ := Tree.mem_walkRefusals (hw ▸ List.mem_cons_self)
      exact ⟨base, u, hloc, hu, henters, buildSnippets_refused p s hdir hw⟩
  case collision =>
    -- `a` comes before `b` with the same output, so the outputs are not apart
    have hclash : ¬ (snippetFiles s.files s.cwd p.config.build.input).Pairwise
        (fun x y => Path.same (p.outputOf x) (p.outputOf y) = false) := by
      rw [hsplit]
      intro hpw
      have hab := (List.pairwise_append.mp hpw).2.2 a (by simp) b (by simp)
      rw [hsame] at hab
      exact Bool.true_eq_false.mp hab
    cases hplan : planTargets p (snippetFiles s.files s.cwd p.config.build.input) [] with
    | ok targets => exact absurd ((planTargets_ok_iff p _).mp ⟨targets, hplan⟩) hclash
    | error m =>
      exact ⟨m, rfl, buildSnippets_collision p s hdir (Tree.walkRefusals_eq_nil_iff.mpr hreadable) hplan⟩

/-- The two early failures the tests make, each in a build asked to clean an output directory
that holds a file: a directory among the snippets that cannot be listed, and two snippet files
with one output. Both builds fail, the first naming the directory, and the output file stays. -/
theorem early_failures_keep_output_directory :
    (∃ (p : Project) (s : Session), p.config.build.clean = true ∧
      s.files.get? ["generated", "old.mdx"] = some (.file "old") ∧
      (buildSnippets p).run s = .error (.other (unreadableMessage "<root>/snippets/locked")) s) ∧
    ∃ (p : Project) (s : Session), p.config.build.clean = true ∧
      s.files.get? ["generated", "old.mdx"] = some (.file "old") ∧
      ∃ m, planTargets p (snippetFiles s.files s.cwd p.config.build.input) [] = .error m ∧
        (buildSnippets p).run s = .error (.other m) s := by
  let p : Project :=
    { config := { build := { input := "<root>/snippets", output := "<root>/generated", clean := true } },
      root := "<root>" }
  constructor
  · let t : Tree := { entries := [(["snippets"], .dir),
      (["snippets", "a.toml"], .file "title = \"a\"\n[data]\na = 1\n"),
      (["snippets", "locked"], .dir),
      (["snippets", "locked", "b.toml"], .file "title = \"b\"\n[data]\nb = 1\n"),
      (["generated"], .dir),
      (["generated", "old.mdx"], .file "old")], unreadable := [["snippets", "locked"]] }
    have hmeets : t.MeetsUnreadable [] p.config.build.input :=
      Classical.not_not.mp (mt Tree.walkRefusals_eq_nil_iff.mpr (by decide +kernel))
    obtain ⟨base, u, hloc, hu, -, hrun⟩ :=
      (early_build_failure_changes_nothing p { files := t, cwd := [] }).2.1 (by decide +kernel) hmeets
    -- the one unreadable directory is the one named, below the input at `snippets`
    rw [List.mem_singleton] at hu
    subst hu
    have hbase : base = ["snippets"] := by
      have h : (t.locate [] p.config.build.input).toOption = some (.inside ["snippets"]) := by decide +kernel
      rw [hloc] at h
      simpa [Except.toOption] using h
    subst hbase
    refine ⟨p, { files := t, cwd := [] }, rfl, by decide +kernel, hrun.trans ?_⟩
    exact congrArg (fun d => EStateM.Result.error (Failure.other (unreadableMessage d)) _) (by decide +kernel)
  · let t : Tree := { entries := [(["snippets"], .dir),
      (["snippets", "dot.toml"], .file "title = \"a\"\n[data]\na = 1\n"),
      (["snippets", "dot.yaml"], .file "title: a\ndata:\n  a: 1\n"),
      (["generated"], .dir),
      (["generated", "old.mdx"], .file "old")] }
    have hfiles : snippetFiles t [] p.config.build.input =
        [] ++ "<root>/snippets/dot.toml" :: [] ++ "<root>/snippets/dot.yaml" :: [] := by
      have hwalk : (t.walkFiles [] p.config.build.input).filter (fun f => (sourceFormat f).isSome) =
          ["<root>/snippets/dot.toml", "<root>/snippets/dot.yaml"] := by decide +kernel
      simp only [snippetFiles, hwalk]
      exact List.mergeSort_of_pairwise (by decide +kernel)
    have hreadable : ¬ t.MeetsUnreadable [] p.config.build.input := by
      rintro ⟨-, -, u, hu, -⟩
      cases hu
    obtain ⟨m, hplan, hrun⟩ := (early_build_failure_changes_nothing p { files := t, cwd := [] }).2.2
      (by decide +kernel) hreadable [] _ [] _ [] hfiles (by decide +kernel)
    exact ⟨p, { files := t, cwd := [] }, rfl, by decide +kernel, m, hplan, hrun⟩

end ConfigTabs.Run
