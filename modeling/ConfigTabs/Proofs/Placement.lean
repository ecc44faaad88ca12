import ConfigTabs.Proofs.Check
import ConfigTabs.Proofs.PathEdits
import ConfigTabs.Proofs.Validation
/-!
Where a build reads and writes: with directories named from the top, snippets and outputs keep
to their own directories.
-/
namespace ConfigTabs.Files

def FromTop (path : String) (names : List String) : Prop :=
  Path.components path = (topText :: names).map .name

instance (path : String) (names : List String) : Decidable (FromTop path names) :=
  inferInstanceAs (Decidable (_ = _))

theorem walk_names (base names : List String) :
    walk (.inside base) (names.map .name) = .inside (base ++ names) := by
  induction names generalizing base with
  | nil => simp [walk]
  | cons n names ih =>
    have h := ih (base ++ [n])
    simp only [walk, List.foldl_map] at h ⊢
    simpa [Tree.step] using h

theorem resolve_of_fromTop {path : String} {names : List String} (h : FromTop path names)
    (cwd : List String) : resolve cwd path = .inside names := by
  have horigin : Tree.origin cwd (Path.components path) = (.inside [], names.map .name) := by
    unfold Tree.origin
    rw [h]
    simp
  simp only [resolve, horigin]
  simpa using walk_names [] names

theorem names_prefix_iff {as bs : List String} :
    as.map PathComponent.name <+: bs.map PathComponent.name ↔ as <+: bs := by
  constructor
  · intro h
    obtain ⟨l, hl, heq⟩ := List.prefix_map_iff.mp h
    have : as = l := (List.map_inj_right fun _ _ hx => PathComponent.name.inj hx).mp heq
    exact this ▸ hl
  · exact fun h => List.IsPrefix.map PathComponent.name h

theorem components_prefix_iff {a b : String} {as bs : List String} (ha : FromTop a as) (hb : FromTop b bs) :
    Path.components a <+: Path.components b ↔ as <+: bs := by
  rw [ha, hb, names_prefix_iff, List.prefix_cons_inj]

theorem not_prefix_of_apart {ins outs names : List String} (hin : ¬ ins <+: outs) (hout : ¬ outs <+: ins)
    (h : ins <+: names) : ¬ outs <+: names := by
  intro h'
  rcases List.prefix_or_prefix_of_prefix h h' with hio | hoi
  · exact hin hio
  · exact hout hoi

end ConfigTabs.Files

namespace ConfigTabs.Run

open Files

/-! ### Where the snippet files and the outputs are -/

section Places

variable {p : Project} {t : Tree} {cwd : List String} {ins outs : List String}

theorem snippetFile_below (hwf : t.WellFormed) (hin : FromTop p.config.build.input ins) {f : String}
    (hf : f ∈ snippetFiles t cwd p.config.build.input) :
    ∃ below, below ≠ [] ∧ (∀ n ∈ below, Path.IsName n) ∧
      Path.components f = Path.components p.config.build.input ++ below.map .name ∧
      t.locate cwd f = .ok (.inside (ins ++ below)) := by
  have hwalk := ((mem_snippetFiles t cwd p.config.build.input f).mp hf).1
  obtain ⟨base, below, c, hloc, hmem, hbelow, rfl⟩ := Tree.mem_walkFiles hwalk
  have hbase : base = ins := by
    have := Tree.locate_resolve hloc
    rw [resolve_of_fromTop hin] at this
    exact Place.inside.inj this
  subst hbase
  have hnames : ∀ n ∈ below, Path.IsName n :=
    fun n hn => (hwf.names _ hmem n (List.mem_append_right base hn)).1
  obtain ⟨-, names, -, -, -, -, hlocf, -, -⟩ := Tree.walkFiles_spec hwf hwalk
  refine ⟨below, hbelow, hnames, components_walked _ hbelow hnames, ?_⟩
  -- the walk gives the path of the entry it found
  have hfrom : FromTop (below.foldl Path.join p.config.build.input) (base ++ below) := by
    rw [FromTop, components_walked _ hbelow hnames, hin]
    simp
  have hf' := Tree.locate_resolve hlocf
  rw [resolve_of_fromTop hfrom cwd] at hf'
  rw [hlocf, hf']

theorem isName_extension (e : Emitter) : Path.IsName e.extension := by
  cases e <;> decide

theorem outputOf_fromTop (hwf : t.WellFormed) (hin : FromTop p.config.build.input ins)
    (hout : FromTop p.config.build.output outs) {f : String} (hf : f ∈ snippetFiles t cwd p.config.build.input) :
    ∃ rest, rest ≠ [] ∧ FromTop (p.outputOf f) (outs ++ rest) ∧ (p.outputOf f).endsWith "/" = false := by
  obtain ⟨below, hbelow, hnames, hcomps, -⟩ := snippetFile_below hwf hin hf
  have hf_named : Path.StartsNamed f :=
    Path.startsNamed_of_components (by rw [hcomps, hin]; rfl)
  have hout_named : Path.StartsNamed p.config.build.output :=
    Path.startsNamed_of_components (by rw [hout]; rfl)
  -- the rest of the snippet file's path after the input directory is the names below it
  obtain ⟨r, hr, hrel, hsteps⟩ := Path.stripPrefix?_spec hf_named (hcomps ▸ List.prefix_append _ _)
  rw [hcomps, List.drop_left] at hsteps
  have hq_named := Path.startsNamed_join hout_named hrel
  obtain ⟨front, last, rfl⟩ := (List.eq_nil_or_concat below).resolve_left hbelow
  have hq : Path.steps (Path.join p.config.build.output r) =
      (topText :: (outs ++ front)).map .name ++ [.name last] := by
    rw [← Path.components_of_startsNamed hq_named, Path.components_join hout_named.ne_empty hrel, hout,
      hsteps]
    simp
  have hlast : (Path.steps (Path.join p.config.build.output r)).getLast? = some (.name last) := by
    rw [hq, List.getLast?_concat]
  have hm := Path.isName_stem_ext (hnames last (by simp)) (isName_extension p.config.render.emitter)
  obtain ⟨hnamed, hext⟩ := Path.withExtension_spec hq_named hlast hm
  have houtput : p.outputOf f = Path.withExtension (Path.join p.config.build.output r)
      p.config.render.emitter.extension := by
    simp [Project.outputOf, hr]
  refine ⟨front ++ [(Path.splitExtension last).1 ++ "." ++ p.config.render.emitter.extension], by simp, ?_,
    houtput ▸ Path.endsWith_withExtension hq_named hlast hm⟩
  rw [FromTop, houtput, Path.components_of_startsNamed hnamed, hext, hq, List.dropLast_concat]
  simp

theorem dirs_apart (hvalid : p.config.diagnostics .build = []) (hin : FromTop p.config.build.input ins)
    (hout : FromTop p.config.build.output outs) : ¬ ins <+: outs ∧ ¬ outs <+: ins := by
  have hbuild : p.config.build.diagnostics = [] := by
    rw [diagnostics_eq p.config .build, if_neg (by decide)] at hvalid
    exact (List.append_eq_nil_iff.mp hvalid).2
  have hno := (buildDiagnostics_eq_nil_iff p.config.build).mp hbuild
  simp only [BuildSettings.Overlap, not_or, components_prefix_iff hin hout,
    components_prefix_iff hout hin] at hno
  exact hno

end Places

/-! ### The files a build leaves -/

theorem buildSnippets_clean_fails (p : Project) (s : Session) {targets : List Target} {err : IoError}
    (hinput : s.files.isDir s.cwd p.config.build.input = true)
    (hwalk : s.files.walkRefusals s.cwd p.config.build.input = [])
    (hplan : planTargets p (snippetFiles s.files s.cwd p.config.build.input) [] = .ok targets)
    (hclean : (p.config.build.clean && s.files.exists_ s.cwd p.config.build.output) = true)
    (hremove : s.files.removeAll s.cwd p.config.build.output = .error err) :
    (buildSnippets p).run s =
      .error (.other ("failed to clean `" ++ p.config.build.output ++ "`: " ++ err.message)) s := by
  simp only [buildSnippets, EStateM.run_bind, collectInputFiles_run p s hinput hwalk, hplan, EStateM.run_pure,
    cleanOutput, EStateM.run_get, hclean, if_true, hremove]
  rfl

theorem buildSnippets_files (p : Project) (s : Session) {s' : Session}
    (h : (∃ n, (buildSnippets p).run s = .ok n s') ∨ ∃ err, (buildSnippets p).run s = .error err s') :
    s'.files = s.files ∨ ∃ t₀ targets,
      (t₀ = s.files ∨ s.files.removeAll s.cwd p.config.build.output = .ok t₀) ∧
      planTargets p (snippetFiles s.files s.cwd p.config.build.input) [] = .ok targets ∧
      s'.files = (buildJobs p.config.render.options p.config.render.emitter s.cwd t₀ targets).2 := by
  -- a run that stops before the jobs leaves the session as it was
  have hstop : ∀ f, (buildSnippets p).run s = .error f s → s'.files = s.files := by
    intro f hrun
    rcases h with ⟨n, h⟩ | ⟨err, h⟩
    · rw [hrun] at h
      cases h
    · rw [hrun] at h
      cases h
      rfl
  cases hdir : s.files.isDir s.cwd p.config.build.input with
  | false => exact Or.inl (hstop _ (buildSnippets_missing p s hdir))
  | true =>
    cases hw : s.files.walkRefusals s.cwd p.config.build.input with
    | cons dir more => exact Or.inl (hstop _ (buildSnippets_refused p s hdir hw))
    | nil =>
      cases hplan : planTargets p (snippetFiles s.files s.cwd p.config.build.input) [] with
      | error m => exact Or.inl (hstop _ (buildSnippets_collision p s hdir hw hplan))
      | ok targets =>
        by_cases hfail : ∃ err, (p.config.build.clean && s.files.exists_ s.cwd p.config.build.output) = true ∧
            s.files.removeAll s.cwd p.config.build.output = .error err
        · obtain ⟨err, hclean, hremove⟩ := hfail
          exact Or.inl (hstop _ (buildSnippets_clean_fails p s hdir hw hplan hclean hremove))
        · have hclean : p.config.build.clean = true → s.files.exists_ s.cwd p.config.build.output = true →
              ∃ t, s.files.removeAll s.cwd p.config.build.output = .ok t := by
            intro h₁ h₂
            cases hremove : s.files.removeAll s.cwd p.config.build.output with
            | ok t => exact ⟨t, rfl⟩
            | error err => exact absurd ⟨err, by simp [h₁, h₂], hremove⟩ hfail
          obtain ⟨t₀, ht₀, s'', hfiles, -, hrun⟩ := buildSnippets_run p s hdir hw hplan hclean
          refine Or.inr ⟨t₀, targets, ?_, rfl, ?_⟩
          · split at ht₀
            · exact Or.inr ht₀
            · exact Or.inl ht₀
          · rw [hrun] at h
            split at h
            · rcases h with ⟨n, h⟩ | ⟨err, h⟩ <;> cases h
              exact hfiles
            · rcases h with ⟨n, h⟩ | ⟨err, h⟩ <;> cases h
              exact hfiles

theorem new_file_is_output (p : Project) (s : Session) (hwf : s.files.WellFormed) {s' : Session}
    (h : (∃ n, (buildSnippets p).run s = .ok n s') ∨ ∃ err, (buildSnippets p).run s = .error err s')
    {names : List String} {c : String} (hnew : s'.files.get? names = some (.file c))
    (hold : s.files.get? names ≠ some (.file c)) :
    ∃ f ∈ snippetFiles s.files s.cwd p.config.build.input, resolve s.cwd (p.outputOf f) = .inside names := by
  rcases buildSnippets_files p s h with hsame | ⟨t₀, targets, ht₀, hplan, hfiles⟩
  · exact absurd (hsame ▸ hnew) hold
  · rw [hfiles, buildJobs, runJobs_files] at hnew
    rcases foldl_afterJob_file targets t₀ hnew with hbefore | ⟨x, hx, hresolve⟩
    · -- the cleaning adds no file either
      rcases ht₀ with rfl | hremove
      · exact absurd hbefore hold
      · exact absurd (Tree.removeAll_file hwf hremove hbefore) hold
    · rw [planTargets_eq hplan, List.reverse_nil, List.nil_append, List.mem_map] at hx
      obtain ⟨f, hf, rfl⟩ := hx
      exact ⟨f, hf, by simpa using hresolve⟩

/-- With input and output directories named from the top, snippet files and outputs keep to their
own directories, and every file a build adds, whether it succeeds or not, lies below the output
directory and outside the input. -/
theorem build_keeps_outputs_apart_from_snippets (p : Project) (s : Session) {ins outs : List String}
    (hwf : s.files.WellFormed) (hvalid : p.config.diagnostics .build = [])
    (hin : FromTop p.config.build.input ins) (hout : FromTop p.config.build.output outs) :
    (∀ f ∈ snippetFiles s.files s.cwd p.config.build.input,
      ∃ names, s.files.locate s.cwd f = .ok (.inside names) ∧ ins <+: names ∧ ¬ outs <+: names) ∧
    (∀ f ∈ snippetFiles s.files s.cwd p.config.build.input,
      ∃ names, resolve s.cwd (p.outputOf f) = .inside names ∧ outs <+: names ∧ ¬ ins <+: names) ∧
    ∀ s', ((∃ n, (buildSnippets p).run s = .ok n s') ∨ ∃ err, (buildSnippets p).run s = .error err s') →
      ∀ names c, s'.files.get? names = some (.file c) → s.files.get? names ≠ some (.file c) →
        outs <+: names ∧ ¬ ins <+: names := by
  have hapart := dirs_apart hvalid hin hout
  have houtputs : ∀ f ∈ snippetFiles s.files s.cwd p.config.build.input,
      ∃ names, resolve s.cwd (p.outputOf f) = .inside names ∧ outs <+: names ∧ ¬ ins <+: names := by
    intro f hf
    obtain ⟨rest, -, hrest, -⟩ := outputOf_fromTop hwf hin hout hf
    exact ⟨outs ++ rest, resolve_of_fromTop hrest s.cwd, List.prefix_append outs rest,
      not_prefix_of_apart hapart.2 hapart.1 (List.prefix_append outs rest)⟩
  refine ⟨?snippets, houtputs, ?written⟩
  case snippets =>
    intro f hf
    obtain ⟨below, -, -, -, hloc⟩ := snippetFile_below hwf hin hf
    exact ⟨ins ++ below, hloc, List.prefix_append ins below,
      not_prefix_of_apart hapart.1 hapart.2 (List.prefix_append ins below)⟩
  case written =>
    intro s' h names c hnew hold
    obtain ⟨f, hf, hresolve⟩ := new_file_is_output p s hwf h hnew hold
    obtain ⟨names', hresolve', hpre, hnot⟩ := houtputs f hf
    rw [hresolve] at hresolve'
    cases hresolve'
    exact ⟨hpre, hnot⟩

theorem build_writes_only_below_generated :
    ∃ (p : Project) (s : Session), p.config.build.input = "<root>/snippets" ∧
      p.config.build.output = "<root>/generated" ∧ s.files.WellFormed ∧
      ∀ s', ((∃ n, (buildSnippets p).run s = .ok n s') ∨ ∃ err, (buildSnippets p).run s = .error err s') →
        ∀ names c, s'.files.get? names = some (.file c) → s.files.get? names ≠ some (.file c) →
          ["generated"] <+: names ∧ ¬ ["snippets"] <+: names := by
  let t : Tree := { entries := [(["snippets"], .dir),
    (["snippets", "a.toml"], .file "title = \"a\"\n[data]\na = 1\n")] }
  let p : Project :=
    { config := { build := { input := "<root>/snippets", output := "<root>/generated" } }, root := "<root>" }
  have hwf : t.WellFormed := by decide +kernel
  obtain ⟨-, -, hwritten⟩ := build_keeps_outputs_apart_from_snippets p { files := t, cwd := [] }
    hwf (by decide +kernel) (show FromTop p.config.build.input ["snippets"] by decide +kernel)
    (show FromTop p.config.build.output ["generated"] by decide +kernel)
  exact ⟨p, { files := t, cwd := [] }, rfl, rfl, hwf, hwritten⟩

/-- A `..` in an output directory that does not exist hides where it leads: the settings pass
the checks for `build`, yet the output of a snippet file lies inside the input directory. -/
theorem parent_step_hides_overlap :
    ∃ p : Project, p.config.build.input = "<root>/snippets" ∧
      p.config.build.output = "<root>/gen/../snippets/out" ∧ p.config.diagnostics .build = [] ∧
      resolve [] (p.outputOf "<root>/snippets/a.toml") = .inside ["snippets", "out", "a.mdx"] := by
  let p : Project :=
    { config := { build := { input := "<root>/snippets", output := "<root>/gen/../snippets/out" } }
      root := "<root>" }
  exact ⟨p, rfl, rfl, by decide +kernel, by decide +kernel⟩

end ConfigTabs.Run
