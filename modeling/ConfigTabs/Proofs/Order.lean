import ConfigTabs.Proofs.Directories
/-!
Build jobs whose outputs lie apart do not see each other's work, so they fail and write the
same in every order.
-/
namespace ConfigTabs.Run

open Files Files.Tree

/-- Jobs that do not see each other's work: outputs written from the top, none within another's
place or on a snippet file, every snippet file readable and every parent directory present. -/
structure Separate (cwd : List String) (place : Target → List String) (t : Tree) (xs : List Target) :
    Prop where
  closed : t.Closed
  output : ∀ x ∈ xs, FromTop x.output (place x) ∧ place x ≠ [] ∧ x.output.endsWith "/" = false
  source : ∀ x ∈ xs, x.source.endsWith "/" = false ∧ ∃ c, Holds cwd x.source c t
  apart : xs.Pairwise fun x y => ¬ place x <+: place y ∧ ¬ place y <+: place x
  sources : ∀ x ∈ xs, ∀ y ∈ xs, resolve cwd y.output ≠ resolve cwd x.source

section Jobs

variable {o : RenderOptions} {e : Emitter} {cwd : List String} {place : Target → List String}
  {t t' : Tree} {x y : Target} {xs : List Target}

theorem Separate.sublist (hs : Separate cwd place t xs) {ys : List Target} (h : List.Sublist ys xs) :
    Separate cwd place t ys :=
  ⟨hs.closed, fun x hx => hs.output x (h.subset hx), fun x hx => hs.source x (h.subset hx),
    hs.apart.sublist h, fun x hx y hy => hs.sources x (h.subset hx) y (h.subset hy)⟩

theorem Separate.perm (hs : Separate cwd place t xs) {ys : List Target} (h : xs.Perm ys) :
    Separate cwd place t ys :=
  ⟨hs.closed, fun x hx => hs.output x (h.mem_iff.mpr hx), fun x hx => hs.source x (h.mem_iff.mpr hx),
    (List.Perm.pairwise_iff (fun hxy => ⟨hxy.2, hxy.1⟩) h).mp hs.apart,
    fun x hx y hy => hs.sources x (h.mem_iff.mpr hx) y (h.mem_iff.mpr hy)⟩

theorem afterJob_of_fault (h : jobFault o e cwd t x ≠ none) : afterJob o e cwd t x = t := by
  unfold jobFault at h
  unfold afterJob
  split
  · rename_i t₁ hj
    simp [hj] at h
  · rfl

theorem afterJob_spec (hc : t.Closed) (hx : FromTop x.output (place x)) (hne : place x ≠ [])
    (hslash : x.output.endsWith "/" = false) (hok : jobFault o e cwd t x = none) :
    t.Open (place x).dropLast ∧ t.get? (place x) ≠ some .dir ∧
      ∀ m, (afterJob o e cwd t x).get? m = t.withFile (place x) (markupOf o e t cwd x) m := by
  obtain ⟨blocks, hb, t₁, hw⟩ := (jobFault_eq_none_iff o e cwd t x).mp hok
  have ha : afterJob o e cwd t x = t₁ := by simp [afterJob, buildJob, hb, hw]
  have hmark : markupOf o e t cwd x = e.emit blocks := by simp [markupOf, rendered, hb]
  rw [ha, hmark]
  exact writeOutput_ok_spec hc hx hne hslash hw

theorem jobFault_congr (h : ∀ msg, buildJob o e cwd t' x = .error msg ↔ buildJob o e cwd t x = .error msg) :
    jobFault o e cwd t' x = jobFault o e cwd t x := by
  unfold jobFault
  cases h₁ : buildJob o e cwd t' x with
  | ok t₁ =>
    cases h₂ : buildJob o e cwd t x with
    | ok t₂ => rfl
    | error msg => exact absurd ((h msg).mpr h₂) (by simp [h₁])
  | error msg => rw [(h msg).mp h₁]

theorem buildJob_error_iff (hr : rendered o t' cwd x.source = rendered o t cwd x.source)
    (hw : ∀ text msg, writeOutput t' cwd x.output text = .error msg ↔ writeOutput t cwd x.output text = .error msg)
    (msg : String) : buildJob o e cwd t' x = .error msg ↔ buildJob o e cwd t x = .error msg := by
  rw [buildJob_eq, buildJob_eq, hr]
  cases rendered o t cwd x.source with
  | error err => exact Iff.rfl
  | ok blocks => exact hw _ msg

theorem rendered_afterJob (hs : Separate cwd place t [y, x]) :
    rendered o (afterJob o e cwd t y) cwd x.source = rendered o t cwd x.source := by
  obtain ⟨hslash, c, hh⟩ := hs.source x (by simp)
  have hread := hh.read hslash
  have hsame := read_afterJob (o := o) (e := e) hread hslash (hs.sources x (by simp) y (by simp))
  simp only [rendered, readSnippetFile_congr (hsame.trans hread.symm)]

theorem jobFault_afterJob (hs : Separate cwd place t [y, x]) :
    jobFault o e cwd (afterJob o e cwd t y) x = jobFault o e cwd t x := by
  by_cases hy : jobFault o e cwd t y = none
  · obtain ⟨hyTop, hyne, hyslash⟩ := hs.output y (by simp)
    obtain ⟨hxTop, hxne, hxslash⟩ := hs.output x (by simp)
    obtain ⟨hyopen, hydir, hyfile⟩ := afterJob_spec hs.closed hyTop hyne hyslash hy
    have hapart : ¬ place y <+: place x ∧ ¬ place x <+: place y := by simpa using hs.apart
    have hc' : (afterJob o e cwd t y).Closed := Closed.withFile hs.closed hyopen hydir hyfile
    -- the earlier output changes neither a file above this one nor its place
    have hfiles : ∀ k c, (afterJob o e cwd t y).get? ((place x).dropLast.take k) = some (.file c) ↔
        t.get? ((place x).dropLast.take k) = some (.file c) := fun k c => by
      rw [hyfile]
      refine withFile_file_iff fun heq => hapart.1 ?_
      exact heq ▸ (List.take_prefix _ _).trans (List.dropLast_prefix _)
    have hdir : (afterJob o e cwd t y).get? (place x) = some .dir ↔ t.get? (place x) = some .dir := by
      rw [hyfile, withFile_of_not_prefix hapart.2]
    exact jobFault_congr (buildJob_error_iff (rendered_afterJob hs)
      (fun text msg => writeOutput_error_iff hs.closed hc' hxTop hxne hxslash hfiles hdir cwd text msg))
  · rw [afterJob_of_fault hy]

theorem afterJob_congr (hE : SameEntries t t') (hc : t.Closed) (hx : FromTop x.output (place x)) (hne : place x ≠ [])
    (hslash : x.output.endsWith "/" = false) :
    jobFault o e cwd t' x = jobFault o e cwd t x ∧ SameEntries (afterJob o e cwd t x) (afterJob o e cwd t' x) := by
  have hr : rendered o t' cwd x.source = rendered o t cwd x.source := by
    simp only [rendered, readSnippetFile_congr (hE.read x.source).symm]
  have hc' := hE.closed hc
  have hfault : jobFault o e cwd t' x = jobFault o e cwd t x :=
    jobFault_congr (buildJob_error_iff hr fun text msg =>
      writeOutput_error_iff hc hc' hx hne hslash (fun k c => by rw [hE]) (by rw [hE]) cwd text msg)
  refine ⟨hfault, ?_⟩
  by_cases hok : jobFault o e cwd t x = none
  · obtain ⟨-, -, h₁⟩ := afterJob_spec hc hx hne hslash hok
    obtain ⟨-, -, h₂⟩ := afterJob_spec hc' hx hne hslash (hfault.trans hok)
    have hmark : markupOf o e t' cwd x = markupOf o e t cwd x := by simp only [markupOf, hr]
    intro m
    rw [h₁, h₂, hmark, hE.withFile]
  · rw [afterJob_of_fault hok, afterJob_of_fault fun h => hok (hfault.symm.trans h)]
    exact hE

theorem afterJob_comm (hs : Separate cwd place t [y, x]) :
    SameEntries (afterJob o e cwd (afterJob o e cwd t y) x) (afterJob o e cwd (afterJob o e cwd t x) y) := by
  have hsxy : Separate cwd place t [x, y] := hs.perm (List.Perm.swap x y [])
  have hfx : jobFault o e cwd (afterJob o e cwd t y) x = jobFault o e cwd t x := jobFault_afterJob hs
  have hfy : jobFault o e cwd (afterJob o e cwd t x) y = jobFault o e cwd t y := jobFault_afterJob hsxy
  obtain ⟨hxTop, hxne, hxslash⟩ := hs.output x (by simp)
  obtain ⟨hyTop, hyne, hyslash⟩ := hs.output y (by simp)
  have hapart : ¬ place y <+: place x ∧ ¬ place x <+: place y := by simpa using hs.apart
  by_cases hx : jobFault o e cwd t x = none
  · by_cases hy : jobFault o e cwd t y = none
    · -- both write: each file is set and every missing name above either becomes a directory
      obtain ⟨hyo, hyd, hty⟩ := afterJob_spec hs.closed hyTop hyne hyslash hy
      obtain ⟨hxo, hxd, htx⟩ := afterJob_spec hs.closed hxTop hxne hxslash hx
      obtain ⟨-, -, htyx⟩ := afterJob_spec (Closed.withFile hs.closed hyo hyd hty) hxTop hxne hxslash (hfx.trans hx)
      obtain ⟨-, -, htxy⟩ := afterJob_spec (Closed.withFile hs.closed hxo hxd htx) hyTop hyne hyslash (hfy.trans hy)
      have hmx : markupOf o e (afterJob o e cwd t y) cwd x = markupOf o e t cwd x := by
        simp only [markupOf, rendered_afterJob hs]
      have hmy : markupOf o e (afterJob o e cwd t x) cwd y = markupOf o e t cwd y := by
        simp only [markupOf, rendered_afterJob hsxy]
      have hxy : place x ≠ place y := fun h => hapart.2 (h ▸ List.prefix_refl _)
      intro m
      rw [htyx, htxy, hmx, hmy, withFile_withFile hty hapart.2 hapart.1, withFile_withFile htx hapart.1 hapart.2]
      by_cases h₁ : m = place x
      · simp [h₁, hxy]
      · by_cases h₂ : m = place y
        · simp [h₂, Ne.symm hxy]
        · simp [h₁, h₂, or_comm]
    · rw [afterJob_of_fault hy, afterJob_of_fault fun h => hy (hfy.symm.trans h)]
      exact SameEntries.refl _
  · rw [afterJob_of_fault fun h => hx (hfx.symm.trans h), afterJob_of_fault hx]
    exact SameEntries.refl _

theorem Separate.after (hs : Separate cwd place t (x :: xs)) :
    Separate cwd place (afterJob o e cwd t x) xs := by
  have hclosed : (afterJob o e cwd t x).Closed := by
    by_cases hok : jobFault o e cwd t x = none
    · obtain ⟨hxTop, hxne, hxslash⟩ := hs.output x (by simp)
      obtain ⟨ho, hd, ht⟩ := afterJob_spec hs.closed hxTop hxne hxslash hok
      exact Closed.withFile hs.closed ho hd ht
    · rw [afterJob_of_fault hok]
      exact hs.closed
  refine ⟨hclosed, fun z hz => hs.output z (by simp [hz]), fun z hz => ?_, hs.apart.of_cons,
    fun z hz w hw => hs.sources z (by simp [hz]) w (by simp [hw])⟩
  obtain ⟨hslash, c, hh⟩ := hs.source z (by simp [hz])
  exact ⟨hslash, c, afterJob_holds hh (hs.sources z (by simp [hz]) x (by simp))⟩

end Jobs

/-! ### Every order -/

section Runs

variable {o : RenderOptions} {e : Emitter} {cwd : List String} {place : Target → List String}

theorem buildJobs_faults_of_separate : ∀ (xs : List Target) (t : Tree), Separate cwd place t xs →
    (buildJobs o e cwd t xs).1 = xs.filterMap (jobFault o e cwd t)
  | [], _, _ => rfl
  | x :: xs, t, hs => by
    have hrest := buildJobs_faults_of_separate xs _ (hs.after (o := o) (e := e))
    have hsame : ∀ z ∈ xs, jobFault o e cwd (afterJob o e cwd t x) z = jobFault o e cwd t z := fun z hz =>
      jobFault_afterJob (hs.sublist (List.Sublist.cons_cons x (List.singleton_sublist.mpr hz)))
    have hmap : xs.filterMap (jobFault o e cwd (afterJob o e cwd t x)) = xs.filterMap (jobFault o e cwd t) := by
      simpa [List.filterMap_map] using congrArg (List.filterMap id) (List.map_congr_left hsame)
    simp only [buildJobs_cons, hrest, hmap, List.filterMap_cons]
    cases jobFault o e cwd t x <;> rfl

theorem foldl_afterJob_congr : ∀ (xs : List Target) (t t' : Tree), SameEntries t t' → Separate cwd place t xs →
    SameEntries (xs.foldl (afterJob o e cwd) t) (xs.foldl (afterJob o e cwd) t')
  | [], _, _, hE, _ => hE
  | x :: xs, t, t', hE, hs => by
    obtain ⟨hxTop, hxne, hxslash⟩ := hs.output x (by simp)
    exact foldl_afterJob_congr xs _ _ (afterJob_congr hE hs.closed hxTop hxne hxslash).2 hs.after

theorem foldl_afterJob_perm {xs ys : List Target} (hp : xs.Perm ys) :
    ∀ t, Separate cwd place t xs → SameEntries (xs.foldl (afterJob o e cwd) t) (ys.foldl (afterJob o e cwd) t) := by
  induction hp with
  | nil => exact fun t _ => SameEntries.refl t
  | cons x _ ih => exact fun t hs => ih _ hs.after
  | swap x y xs =>
    intro t hs
    have hyx : Separate cwd place t [y, x] :=
      hs.sublist (List.Sublist.cons_cons y (List.Sublist.cons_cons x (List.nil_sublist xs)))
    exact foldl_afterJob_congr xs _ _ (afterJob_comm hyx) hs.after.after
  | trans p₁ _ ih₁ ih₂ => exact fun t hs => (ih₁ t hs).trans (ih₂ t (hs.perm p₁))

end Runs

/-! ### The jobs of a build -/

def placeOf (cwd : List String) (path : String) : List String :=
  match resolve cwd path with
  | .inside names => names
  | _ => []

section Build

variable {p : Project} {s : Session} {ins outs : List String} {targets : List Target}

theorem separate_of_planTargets (hwf : s.files.WellFormed) (hvalid : p.config.diagnostics .build = [])
    (hin : FromTop p.config.build.input ins) (hout : FromTop p.config.build.output outs)
    (hplan : planTargets p (snippetFiles s.files s.cwd p.config.build.input) [] = .ok targets)
    (hapart : targets.Pairwise fun x y =>
      ¬ Path.components x.output <+: Path.components y.output ∧
        ¬ Path.components y.output <+: Path.components x.output) :
    Separate s.cwd (fun x => placeOf s.cwd x.output) s.files targets := by
  have htargets : targets = (snippetFiles s.files s.cwd p.config.build.input).map p.targetOf := by
    simpa using planTargets_eq hplan
  have hdirs := dirs_apart hvalid hin hout
  -- each target is a snippet file's, with its output below the output directory
  have houtputs : ∀ x ∈ targets, ∃ f ∈ snippetFiles s.files s.cwd p.config.build.input, x = p.targetOf f ∧
      ∃ rest, rest ≠ [] ∧ placeOf s.cwd x.output = outs ++ rest ∧ FromTop x.output (outs ++ rest) ∧
        x.output.endsWith "/" = false := by
    intro x hx
    rw [htargets, List.mem_map] at hx
    obtain ⟨f, hf, rfl⟩ := hx
    obtain ⟨rest, hrest, htop, hslash⟩ := outputOf_fromTop hwf hin hout hf
    have hplace : placeOf s.cwd (p.targetOf f).output = outs ++ rest := by
      simp only [placeOf, Project.targetOf_output, resolve_of_fromTop htop]
    refine ⟨f, hf, rfl, rest, hrest, hplace, ?_, ?_⟩
    · rw [Project.targetOf_output]
      exact htop
    · rw [Project.targetOf_output]
      exact hslash
  refine ⟨hwf.closed, fun x hx => ?_, fun x hx => ?_, ?_, fun x hx y hy => ?_⟩
  · obtain ⟨f, -, -, rest, hrest, hplace, htop, hslash⟩ := houtputs x hx
    rw [hplace]
    exact ⟨htop, by simp [hrest], hslash⟩
  · obtain ⟨f, hf, rfl, -⟩ := houtputs x hx
    obtain ⟨⟨c, hread⟩, hslash⟩ := read_of_mem_snippetFiles hwf hf
    exact ⟨hslash, c, holds_of_read hread⟩
  · -- for paths written from the top, a component prefix is a prefix of places
    refine hapart.imp_of_mem fun hx hy hxy => ?_
    obtain ⟨_, _, _, _, _, hpx, htx, _⟩ := houtputs _ hx
    obtain ⟨_, _, _, _, _, hpy, hty, _⟩ := houtputs _ hy
    rw [hpx, hpy, ← components_prefix_iff htx hty, ← components_prefix_iff hty htx]
    exact hxy
  · -- an output lies below the output directory, a snippet file below the input directory
    obtain ⟨f, hf, rfl, -⟩ := houtputs x hx
    obtain ⟨_, _, _, rest, _, _, hty, _⟩ := houtputs y hy
    obtain ⟨below, -, -, -, hloc⟩ := snippetFile_below hwf hin hf
    rw [resolve_of_fromTop hty, Project.targetOf_source, ← Tree.locate_resolve hloc]
    intro heq
    have hnames : outs ++ rest = ins ++ below := Place.inside.inj heq
    exact not_prefix_of_apart hdirs.1 hdirs.2 (List.prefix_append ins below)
      (hnames ▸ List.prefix_append outs rest)

end Build

/-- When the planned outputs lie apart, the build's jobs, run in any order, fail exactly as they
would on the starting files and leave the same entries. -/
theorem build_jobs_commute_when_outputs_apart (p : Project) (s : Session) {ins outs : List String}
    {targets order : List Target} (hwf : s.files.WellFormed) (hvalid : p.config.diagnostics .build = [])
    (hin : FromTop p.config.build.input ins) (hout : FromTop p.config.build.output outs)
    (hplan : planTargets p (snippetFiles s.files s.cwd p.config.build.input) [] = .ok targets)
    (hapart : targets.Pairwise fun x y =>
      ¬ Path.components x.output <+: Path.components y.output ∧
        ¬ Path.components y.output <+: Path.components x.output)
    (hperm : order.Perm targets) :
    (buildJobs p.config.render.options p.config.render.emitter s.cwd s.files order).1 =
        order.filterMap (jobFault p.config.render.options p.config.render.emitter s.cwd s.files) ∧
      (buildJobs p.config.render.options p.config.render.emitter s.cwd s.files targets).1 =
        targets.filterMap (jobFault p.config.render.options p.config.render.emitter s.cwd s.files) ∧
      ∀ m, (buildJobs p.config.render.options p.config.render.emitter s.cwd s.files order).2.get? m =
        (buildJobs p.config.render.options p.config.render.emitter s.cwd s.files targets).2.get? m := by
  have hsep := separate_of_planTargets hwf hvalid hin hout hplan hapart
  refine ⟨buildJobs_faults_of_separate order _ (hsep.perm hperm.symm), buildJobs_faults_of_separate targets _ hsep,
    fun m => ?_⟩
  rw [buildJobs, runJobs_files, runJobs_files]
  exact foldl_afterJob_perm hperm s.files (hsep.perm hperm.symm) m

theorem two_snippets_build_alike_in_either_order :
    ∃ (p : Project) (s : Session) (targets : List Target),
      planTargets p (snippetFiles s.files s.cwd p.config.build.input) [] = .ok targets ∧ targets.length = 2 ∧
      (buildJobs p.config.render.options p.config.render.emitter s.cwd s.files targets.reverse).1 =
        targets.reverse.filterMap (jobFault p.config.render.options p.config.render.emitter s.cwd s.files) ∧
      ∀ m, (buildJobs p.config.render.options p.config.render.emitter s.cwd s.files targets.reverse).2.get? m =
        (buildJobs p.config.render.options p.config.render.emitter s.cwd s.files targets).2.get? m := by
  let t : Tree := { entries := [(["snippets"], .dir),
    (["snippets", "a.toml"], .file "title = \"a\"\n[data]\na = 1\n"),
    (["snippets", "b.toml"], .file "title = \"b\"\n[data]\nb = 1\n")] }
  let p : Project :=
    { config := { build := { input := "<root>/snippets", output := "<root>/generated" } }, root := "<root>" }
  let s : Session := { files := t, cwd := [] }
  have hfiles : snippetFiles t [] p.config.build.input = ["<root>/snippets/a.toml", "<root>/snippets/b.toml"] := by
    have hwalk : (t.walkFiles [] p.config.build.input).filter (fun f => (sourceFormat f).isSome) =
        ["<root>/snippets/a.toml", "<root>/snippets/b.toml"] := by decide +kernel
    simp only [snippetFiles, hwalk]
    exact List.mergeSort_of_pairwise (by decide +kernel)
  have hplan : planTargets p (snippetFiles s.files s.cwd p.config.build.input) [] =
      .ok (["<root>/snippets/a.toml", "<root>/snippets/b.toml"].map p.targetOf) := by
    rw [show snippetFiles s.files s.cwd p.config.build.input = _ from hfiles]
    simpa using planTargets_ok p [] ["<root>/snippets/a.toml", "<root>/snippets/b.toml"] []
      (by decide +kernel) (by simp)
  obtain ⟨horder, -, hsame⟩ := build_jobs_commute_when_outputs_apart p s (by decide +kernel) (by decide +kernel)
    (show FromTop p.config.build.input ["snippets"] by decide +kernel)
    (show FromTop p.config.build.output ["generated"] by decide +kernel) hplan (by decide +kernel)
    (List.reverse_perm _)
  exact ⟨p, s, _, hplan, rfl, horder, hsame⟩

/-- Where one output lies within another's place, the order of the two jobs decides which fails. -/
theorem nested_output_fails_by_order :
    ∃ (p : Project) (s : Session) (targets : List Target),
      p.config.diagnostics .build = [] ∧ s.files.WellFormed ∧
      planTargets p (snippetFiles s.files s.cwd p.config.build.input) [] = .ok targets ∧
      (buildJobs p.config.render.options p.config.render.emitter s.cwd s.files targets).1.map Prod.fst =
        ["<root>/snippets/a.toml"] ∧
      (buildJobs p.config.render.options p.config.render.emitter s.cwd s.files targets.reverse).1.map Prod.fst =
        ["<root>/snippets/a.mdx/b.toml"] := by
  let t : Tree := { entries := [(["snippets"], .dir),
    (["snippets", "a.mdx"], .dir),
    (["snippets", "a.mdx", "b.toml"], .file "title = \"b\"\n[data]\nb = 1\n"),
    (["snippets", "a.toml"], .file "title = \"a\"\n[data]\na = 1\n")] }
  let p : Project :=
    { config := { build := { input := "<root>/snippets", output := "<root>/generated" } }, root := "<root>" }
  let s : Session := { files := t, cwd := [] }
  have hfiles : snippetFiles t [] p.config.build.input =
      ["<root>/snippets/a.mdx/b.toml", "<root>/snippets/a.toml"] := by
    have hwalk : (t.walkFiles [] p.config.build.input).filter (fun f => (sourceFormat f).isSome) =
        ["<root>/snippets/a.mdx/b.toml", "<root>/snippets/a.toml"] := by decide +kernel
    simp only [snippetFiles, hwalk]
    exact List.mergeSort_of_pairwise (by decide +kernel)
  have hplan : planTargets p (snippetFiles s.files s.cwd p.config.build.input) [] =
      .ok (["<root>/snippets/a.mdx/b.toml", "<root>/snippets/a.toml"].map p.targetOf) := by
    rw [show snippetFiles s.files s.cwd p.config.build.input = _ from hfiles]
    simpa using planTargets_ok p [] ["<root>/snippets/a.mdx/b.toml", "<root>/snippets/a.toml"] []
      (by decide +kernel) (by simp)
  exact ⟨p, s, _, by decide +kernel, by decide +kernel, hplan, by decide +kernel, by decide +kernel⟩

end ConfigTabs.Run
