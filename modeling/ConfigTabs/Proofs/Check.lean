import ConfigTabs.Proofs.Build
import ConfigTabs.Proofs.Walk
/-!
Checking against building: a check changes no file, and where no output lands on a snippet
file it succeeds exactly when the build does.
-/
namespace ConfigTabs.Run

open Files

/-- The blocks a snippet file renders to, read from the given files. -/
def rendered (o : RenderOptions) (t : Tree) (cwd : List String) (f : String) :
    Except SnippetError (List Block) :=
  readSnippetFile t cwd f >>= fun i => i.renderWith o

def checkFault (o : RenderOptions) (cwd : List String) (t : Tree) (f : String) : Option Fault :=
  match rendered o t cwd f with
  | .ok _ => none
  | .error err => some (f, err.fullMessage)

def writeAll (cwd : List String) : Tree → List (String × String) → Option Tree
  | t, [] => some t
  | t, (path, text) :: rest =>
    match writeOutput t cwd path text with
    | .ok t' => writeAll cwd t' rest
    | .error _ => none

def markupOf (o : RenderOptions) (e : Emitter) (t : Tree) (cwd : List String) (x : Target) : String :=
  match rendered o t cwd x.source with
  | .ok blocks => e.emit blocks
  | .error _ => ""

/-! ### Reading a snippet file -/

theorem readSnippetFile_congr {t t' : Tree} {cwd : List String} {f : String}
    (h : t'.read cwd f = t.read cwd f) : readSnippetFile t' cwd f = readSnippetFile t cwd f := by
  simp only [readSnippetFile, h]

theorem holds_of_read {t : Tree} {cwd : List String} {path c : String} (h : t.read cwd path = .ok c) :
    Holds cwd path c t := by
  unfold Tree.read Tree.lookup at h
  cases hl : t.locate cwd path with
  | error e => simp [hl, bind, Except.bind] at h
  | ok place =>
    cases place with
    | inside names =>
      refine ⟨names, hl, ?_⟩
      cases hg : t.get? names with
      | none => simp [hl, hg, bind, Except.bind, Tree.at?] at h
      | some e =>
        cases e with
        | dir => simp [hl, hg, bind, Except.bind, Tree.at?] at h
        | file c' =>
          cases hs : path.endsWith "/" <;> simp [hl, hg, hs, bind, Except.bind, Tree.at?] at h
          rw [h]
    | outside => simp [hl, bind, Except.bind, Tree.at?] at h
    | beyond => simp [hl, bind, Except.bind, Tree.at?] at h

theorem read_afterJob {o : RenderOptions} {e : Emitter} {cwd : List String} {t : Tree} {f c : String}
    {y : Target} (hread : t.read cwd f = .ok c) (hs : f.endsWith "/" = false)
    (hy : resolve cwd y.output ≠ resolve cwd f) : (afterJob o e cwd t y).read cwd f = .ok c :=
  (afterJob_holds (holds_of_read hread) hy).read hs

/-! ### The check run -/

theorem checkSource_runs (o : RenderOptions) (cwd : List String) :
    JobRuns (checkSource o) cwd (checkFault o cwd) (fun t _ => t) := by
  intro f s hcwd
  obtain ⟨s₁, hr, e₁⟩ := renderSource_run o f s
  refine ⟨s₁.out, ?_⟩
  rw [e₁] at hr
  subst hcwd
  simp only [checkSource, EStateM.run_bind, hr, checkFault, rendered]
  cases readSnippetFile s.files s.cwd f >>= fun i => i.renderWith o <;> rfl

theorem checkSnippets_run (p : Project) (s : Session) :
    ∃ s', s'.files = s.files ∧ (checkSnippets p).run s =
      if s.files.isDir s.cwd p.config.build.input = false then
        .error (.other ("snippet directory `" ++ p.config.build.input ++ "` not found")) s'
      else if h : s.files.walkRefusals s.cwd p.config.build.input ≠ [] then
        .error (.other (unreadableMessage ((s.files.walkRefusals s.cwd p.config.build.input).head h))) s'
      else if (snippetFiles s.files s.cwd p.config.build.input).filterMap
          (checkFault p.config.render.options s.cwd s.files) = [] then
        .ok (snippetFiles s.files s.cwd p.config.build.input).length s'
      else .error (.other (pluralCount ((snippetFiles s.files s.cwd p.config.build.input).filterMap
          (checkFault p.config.render.options s.cwd s.files)).length "snippet" ++ " failed to render")) s' := by
  cases hdir : s.files.isDir s.cwd p.config.build.input with
  | false =>
    refine ⟨s, rfl, ?_⟩
    simp only [checkSnippets, EStateM.run_bind, collectInputFiles_missing p s hdir, if_true]
  | true =>
    simp only [Bool.true_eq_false, if_false]
    cases hw : s.files.walkRefusals s.cwd p.config.build.input with
    | cons dir more =>
      refine ⟨s, rfl, ?_⟩
      simp only [ne_eq, reduceCtorEq, not_false_eq_true, dite_true, List.head_cons, checkSnippets,
        EStateM.run_bind, collectInputFiles_refused p s hdir hw]
    | nil =>
      simp only [ne_eq, not_true_eq_false, dite_false]
      generalize hfiles : snippetFiles s.files s.cwd p.config.build.input = files
      have hkeep := runJobs_keep (checkFault p.config.render.options s.cwd) files s.files
      by_cases hempty : files = []
      · -- nothing to check: no progress line, nothing fails
        subst hempty
        refine ⟨{ s with out := s.out ++ ((if s.progress then clearLine else "") ++ tag "check" ++ " " ++
          (pluralCount 0 "snippet" ++ " ok") ++ "\n") }, rfl, ?_⟩
        simp only [checkSnippets, EStateM.run_bind, collectInputFiles_run p s hdir hw, hfiles, runAll_nil,
          reportFailures_nil, log_run, List.filterMap_nil, if_true]
        rfl
      · obtain ⟨out, hrun⟩ := runAll_of_jobRuns (checkSource_runs p.config.render.options s.cwd) "check"
          hempty s rfl
        rw [hkeep] at hrun
        generalize hfl : files.filterMap (checkFault p.config.render.options s.cwd s.files) = faults at hrun ⊢
        by_cases hfaults : faults = []
        · subst hfaults
          refine ⟨{ s with
            out := out ++ (tag "check" ++ " " ++ (pluralCount files.length "snippet" ++ " ok") ++ "\n")
            progress := false }, rfl, ?_⟩
          simp only [checkSnippets, EStateM.run_bind, collectInputFiles_run p s hdir hw, hfiles, hrun,
            reportFailures_nil, log_run, if_true]
          rfl
        · refine ⟨{ s with out := out ++ String.join (faults.map (failureLine p)), progress := false }, rfl, ?_⟩
          simp only [checkSnippets, EStateM.run_bind, collectInputFiles_run p s hdir hw, hfiles, hrun, hfaults,
            if_false]
          rw [reportFailures_run p hfaults _ rfl]

/-! ### The build run -/

theorem planTargets_eq {p : Project} :
    ∀ {files : List String} {planned targets : List Target}, planTargets p files planned = .ok targets →
      targets = planned.reverse ++ files.map p.targetOf
  | [], planned, targets, h => by
    simp only [planTargets, Except.ok.injEq] at h
    simp [h]
  | f :: fs, planned, targets, h => by
    simp only [planTargets] at h
    split at h
    · cases h
    · rw [planTargets_eq h]
      simp [Project.targetOf]

theorem planTargets_same_output {p : Project} {a b : String}
    (h : Path.same (p.outputOf a) (p.outputOf b) = true) :
    planTargets p [a, b] [] = .error ("`" ++ p.relative a ++ "` and `" ++ p.relative b ++
      "` both render to `" ++ p.relative (p.outputOf b) ++ "`") := by
  simp [planTargets, h]

theorem buildSnippets_missing (p : Project) (s : Session)
    (h : s.files.isDir s.cwd p.config.build.input = false) :
    (buildSnippets p).run s =
      .error (.other ("snippet directory `" ++ p.config.build.input ++ "` not found")) s := by
  simp only [buildSnippets, EStateM.run_bind, collectInputFiles_missing p s h]

theorem buildSnippets_refused (p : Project) (s : Session) {dir : String} {more : List String}
    (h : s.files.isDir s.cwd p.config.build.input = true)
    (hwalk : s.files.walkRefusals s.cwd p.config.build.input = dir :: more) :
    (buildSnippets p).run s = .error (.other (unreadableMessage dir)) s := by
  simp only [buildSnippets, EStateM.run_bind, collectInputFiles_refused p s h hwalk]

theorem buildSnippets_collision (p : Project) (s : Session) {m : String}
    (hinput : s.files.isDir s.cwd p.config.build.input = true)
    (hwalk : s.files.walkRefusals s.cwd p.config.build.input = [])
    (hplan : planTargets p (snippetFiles s.files s.cwd p.config.build.input) [] = .error m) :
    (buildSnippets p).run s = .error (.other m) s := by
  simp only [buildSnippets, EStateM.run_bind, collectInputFiles_run p s hinput hwalk, hplan]
  rfl

theorem buildSnippets_ok_iff (p : Project) (s : Session)
    (hout : s.files.exists_ s.cwd p.config.build.output = false) (n : Nat) :
    (∃ s', (buildSnippets p).run s = .ok n s') ↔
      s.files.isDir s.cwd p.config.build.input = true ∧
      s.files.walkRefusals s.cwd p.config.build.input = [] ∧
      (∃ targets, planTargets p (snippetFiles s.files s.cwd p.config.build.input) [] = .ok targets) ∧
      (buildJobs p.config.render.options p.config.render.emitter s.cwd s.files
        ((snippetFiles s.files s.cwd p.config.build.input).map p.targetOf)).1 = [] ∧
      n = (snippetFiles s.files s.cwd p.config.build.input).length := by
  cases hdir : s.files.isDir s.cwd p.config.build.input with
  | false => simp [buildSnippets_missing p s hdir]
  | true =>
    cases hw : s.files.walkRefusals s.cwd p.config.build.input with
    | cons dir more => simp [buildSnippets_refused p s hdir hw]
    | nil =>
      cases hplan : planTargets p (snippetFiles s.files s.cwd p.config.build.input) [] with
      | error m => simp [buildSnippets_collision p s hdir hw hplan]
      | ok targets =>
        have htargets := planTargets_eq hplan
        simp only [List.reverse_nil, List.nil_append] at htargets
        obtain ⟨t₀, ht₀, s', -, -, hrun⟩ := buildSnippets_run p s hdir hw hplan (by simp [hout])
        -- nothing to clean: the output directory is not there
        have ht₀' : t₀ = s.files := by simpa [hout] using ht₀
        have hlen : targets.length = (snippetFiles s.files s.cwd p.config.build.input).length := by
          rw [htargets, List.length_map]
        rw [ht₀'] at hrun
        rw [← htargets, ← hlen]
        by_cases hf : (buildJobs p.config.render.options p.config.render.emitter s.cwd s.files targets).1 = []
        · simp only [hf, if_true] at hrun
          rw [hrun]
          constructor
          · rintro ⟨s'', h⟩
            cases h
            exact ⟨rfl, rfl, ⟨targets, rfl⟩, hf, rfl⟩
          · rintro ⟨-, -, -, -, rfl⟩
            exact ⟨s', rfl⟩
        · simp only [hf, if_false] at hrun
          simp [hrun, hf]

/-! ### Build jobs render what check renders -/

section Agreement

variable {o : RenderOptions} {e : Emitter} {cwd : List String} {t₀ : Tree} {srcs : List String}

theorem buildJob_eq (t : Tree) (x : Target) :
    buildJob o e cwd t x = match rendered o t cwd x.source with
      | .error err => .error err.fullMessage
      | .ok blocks => writeOutput t cwd x.output (e.emit blocks) := rfl

theorem buildJobs_nil_iff (hsrc : ∀ f ∈ srcs, (∃ c, t₀.read cwd f = .ok c) ∧ f.endsWith "/" = false) :
    ∀ (xs : List Target), (∀ x ∈ xs, x.source ∈ srcs) →
      (∀ x ∈ xs, ∀ f ∈ srcs, resolve cwd x.output ≠ resolve cwd f) →
      ∀ t, (∀ f ∈ srcs, t.read cwd f = t₀.read cwd f) →
        ((buildJobs o e cwd t xs).1 = [] ↔
          (∀ x ∈ xs, ∃ blocks, rendered o t₀ cwd x.source = .ok blocks) ∧
          (writeAll cwd t (xs.map fun x => (x.output, markupOf o e t₀ cwd x))).isSome)
  | [], _, _, t, _ => by simp [writeAll]
  | x :: xs, hxs, hsep, t, hreads => by
    have hx : x.source ∈ srcs := hxs x List.mem_cons_self
    have hrx : rendered o t cwd x.source = rendered o t₀ cwd x.source := by
      simp only [rendered, readSnippetFile_congr (hreads x.source hx)]
    simp only [buildJobs_cons, List.append_eq_nil_iff, Option.toList_eq_nil_iff, List.map_cons, writeAll,
      List.forall_mem_cons]
    cases hr : rendered o t₀ cwd x.source with
    | error err =>
      -- the snippet file does not render: the job fails and so does the check
      have hfault : jobFault o e cwd t x = some (x.source, err.fullMessage) := by
        simp [jobFault, buildJob_eq, hrx, hr]
      simp [hfault]
    | ok blocks =>
      have hmarkup : markupOf o e t₀ cwd x = e.emit blocks := by simp [markupOf, hr]
      rw [hmarkup]
      cases hw : writeOutput t cwd x.output (e.emit blocks) with
      | error m =>
        have hfault : jobFault o e cwd t x = some (x.source, m) := by
          simp [jobFault, buildJob_eq, hrx, hr, hw]
        simp [hfault]
      | ok t' =>
        have hfault : jobFault o e cwd t x = none := by simp [jobFault, buildJob_eq, hrx, hr, hw]
        have hafter : afterJob o e cwd t x = t' := by simp [afterJob, buildJob_eq, hrx, hr, hw]
        -- the written output is not a snippet file, so the next jobs read them as before
        have hreads' : ∀ f ∈ srcs, t'.read cwd f = t₀.read cwd f := by
          intro f hf
          obtain ⟨⟨c, hc⟩, hs⟩ := hsrc f hf
          rw [← hafter, hc]
          exact read_afterJob ((hreads f hf).trans hc) hs (hsep x List.mem_cons_self f hf)
        rw [hfault, hafter, buildJobs_nil_iff hsrc xs (fun y hy => hxs y (List.mem_cons_of_mem x hy))
          (fun y hy => hsep y (List.mem_cons_of_mem x hy)) t' hreads']
        simp

end Agreement

/-! ### Check against build -/

theorem checkFault_eq_none_iff {o : RenderOptions} {cwd : List String} {t : Tree} {f : String} :
    checkFault o cwd t f = none ↔ ∃ blocks, rendered o t cwd f = .ok blocks := by
  unfold checkFault
  cases rendered o t cwd f <;> simp

theorem read_of_mem_snippetFiles {t : Tree} {cwd : List String} {input f : String} (hwf : t.WellFormed)
    (hf : f ∈ snippetFiles t cwd input) : (∃ c, t.read cwd f = .ok c) ∧ f.endsWith "/" = false := by
  obtain ⟨hwalk, -⟩ := (mem_snippetFiles t cwd input f).mp hf
  obtain ⟨-, names, c, -, -, -, hloc, hget, hs⟩ := Tree.walkFiles_spec hwf hwalk
  exact ⟨⟨c, Holds.read ⟨names, hloc, hget⟩ hs⟩, hs⟩

theorem checkSnippets_ok_iff (p : Project) (s : Session) (n : Nat) :
    (∃ s', (checkSnippets p).run s = .ok n s') ↔
      s.files.isDir s.cwd p.config.build.input = true ∧
      s.files.walkRefusals s.cwd p.config.build.input = [] ∧
      n = (snippetFiles s.files s.cwd p.config.build.input).length ∧
      ∀ f ∈ snippetFiles s.files s.cwd p.config.build.input,
        ∃ blocks, rendered p.config.render.options s.files s.cwd f = .ok blocks := by
  obtain ⟨s', -, hrun⟩ := checkSnippets_run p s
  have hfaults : (snippetFiles s.files s.cwd p.config.build.input).filterMap
      (checkFault p.config.render.options s.cwd s.files) = [] ↔
      ∀ f ∈ snippetFiles s.files s.cwd p.config.build.input,
        ∃ blocks, rendered p.config.render.options s.files s.cwd f = .ok blocks := by
    simp only [List.filterMap_eq_nil_iff, checkFault_eq_none_iff]
  cases hdir : s.files.isDir s.cwd p.config.build.input with
  | false => simp [hrun, hdir]
  | true =>
    cases hw : s.files.walkRefusals s.cwd p.config.build.input with
    | cons dir more => simp [hrun, hdir, hw]
    | nil =>
      rw [← hfaults]
      by_cases hf : (snippetFiles s.files s.cwd p.config.build.input).filterMap
          (checkFault p.config.render.options s.cwd s.files) = []
      · simp only [hdir, hw, hf, Bool.true_eq_false, if_false, if_true, ne_eq, not_true_eq_false,
          dite_false] at hrun
        rw [hrun]
        constructor
        · rintro ⟨s'', h⟩
          cases h
          exact ⟨rfl, rfl, rfl, hf⟩
        · rintro ⟨-, -, rfl, -⟩
          exact ⟨s', rfl⟩
      · simp [hrun, hdir, hw, hf]

/-- Where the output directory is absent and no output lands on a snippet file, a check changes
no file, succeeds exactly when every snippet file is found and renders, and agrees with a build
on success and count. -/
theorem check_agrees_with_build (p : Project) (s : Session) {files : List String}
    (hfiles : snippetFiles s.files s.cwd p.config.build.input = files) (hwf : s.files.WellFormed)
    (hout : s.files.exists_ s.cwd p.config.build.output = false)
    (hsep : ∀ a ∈ files, ∀ b ∈ files, resolve s.cwd (p.outputOf a) ≠ resolve s.cwd b) (n : Nat) :
    (∃ s', s'.files = s.files ∧
      ((∃ m, (checkSnippets p).run s = .ok m s') ∨ ∃ err, (checkSnippets p).run s = .error err s')) ∧
    ((∃ s', (checkSnippets p).run s = .ok n s') ↔
      s.files.isDir s.cwd p.config.build.input = true ∧ s.files.walkRefusals s.cwd p.config.build.input = [] ∧
      n = files.length ∧
      ∀ f ∈ files, ∃ blocks, rendered p.config.render.options s.files s.cwd f = .ok blocks) ∧
    ((∃ s', (buildSnippets p).run s = .ok n s') ↔
      (∃ s', (checkSnippets p).run s = .ok n s') ∧ (∃ targets, planTargets p files [] = .ok targets) ∧
      (writeAll s.cwd s.files (files.map fun f =>
        (p.outputOf f, markupOf p.config.render.options p.config.render.emitter s.files s.cwd
          (p.targetOf f)))).isSome) := by
  subst hfiles
  refine ⟨?unchanged, checkSnippets_ok_iff p s n, ?agree⟩
  case unchanged =>
    obtain ⟨s', hs', hrun⟩ := checkSnippets_run p s
    refine ⟨s', hs', ?_⟩
    rw [hrun]
    split
    · exact Or.inr ⟨_, rfl⟩
    · split
      · exact Or.inr ⟨_, rfl⟩
      · split
        · exact Or.inl ⟨_, rfl⟩
        · exact Or.inr ⟨_, rfl⟩
  case agree =>
    -- the jobs read every snippet file as the check did, since no output lands on one
    have hsrc : ∀ f ∈ snippetFiles s.files s.cwd p.config.build.input,
        (∃ c, s.files.read s.cwd f = .ok c) ∧ f.endsWith "/" = false :=
      fun f hf => read_of_mem_snippetFiles hwf hf
    have hjobs := buildJobs_nil_iff (o := p.config.render.options) (e := p.config.render.emitter) hsrc
      ((snippetFiles s.files s.cwd p.config.build.input).map p.targetOf) (by simp) (by simpa using hsep)
      s.files (fun _ _ => rfl)
    simp only [List.forall_mem_map, Project.targetOf_source, List.map_map, Function.comp_def,
      Project.targetOf_output] at hjobs
    rw [buildSnippets_ok_iff p s hout n, checkSnippets_ok_iff p s n, hjobs]
    constructor
    · rintro ⟨hdir, hwalk, hplan, ⟨hrend, hw⟩, rfl⟩
      exact ⟨⟨hdir, hwalk, rfl, hrend⟩, hplan, hw⟩
    · rintro ⟨⟨hdir, hwalk, rfl, hrend⟩, hplan, hw⟩
      exact ⟨hdir, hwalk, hplan, ⟨hrend, hw⟩, rfl⟩

theorem check_and_build_agree_on_one_snippet :
    ∃ (p : Project) (s : Session), s.files.WellFormed ∧ s.files.exists_ s.cwd p.config.build.output = false ∧
      (∃ s', (checkSnippets p).run s = .ok 1 s') ∧ ∃ s', (buildSnippets p).run s = .ok 1 s' := by
  let t : Tree := { entries := [(["snippets"], .dir),
    (["snippets", "a.toml"], .file "title = \"a\"\n[data]\na = 1\n")] }
  let p : Project :=
    { config := { build := { input := "<root>/snippets", output := "<root>/generated" } }, root := "<root>" }
  have hwf : t.WellFormed := by decide +kernel
  have hfiles : snippetFiles t [] p.config.build.input = ["<root>/snippets/a.toml"] := by
    have hwalk : (t.walkFiles [] p.config.build.input).filter (fun f => (sourceFormat f).isSome) =
        ["<root>/snippets/a.toml"] := by decide +kernel
    simp only [snippetFiles, hwalk, List.mergeSort_singleton]
  obtain ⟨-, hcheck, hbuild⟩ := check_agrees_with_build p { files := t, cwd := [] } hfiles hwf
    (by decide +kernel) (by decide +kernel) 1
  have hc := hcheck.mpr ⟨by decide +kernel, walkRefusals_of_readable rfl _ _, rfl, by
    intro f hf
    rw [List.mem_singleton] at hf
    subst hf
    exact checkFault_eq_none_iff.mp (by decide +kernel)⟩
  have hplan := planTargets_ok p [] ["<root>/snippets/a.toml"] [] (List.pairwise_singleton _ _) (by simp)
  exact ⟨p, { files := t, cwd := [] }, hwf, by decide +kernel, hc,
    hbuild.mpr ⟨hc, ⟨_, hplan⟩, by decide +kernel⟩⟩

/-- Two snippet files that differ only in their extension render to one output: the check passes
and the build refuses, though both commands accept the settings and the output directory is not
there. -/
theorem check_passes_where_build_refuses :
    ∃ (p : Project) (s : Session), p.config.diagnostics .check = [] ∧ p.config.diagnostics .build = [] ∧
      s.files.exists_ s.cwd p.config.build.output = false ∧ (∃ s', (checkSnippets p).run s = .ok 2 s') ∧
      (buildSnippets p).run s = .error (.other
        "`snippets/dot.json` and `snippets/dot.toml` both render to `generated/dot.mdx`") s := by
  let t : Tree := { entries := [(["snippets"], .dir),
    (["snippets", "dot.json"], .file "\x7b\"title\": \"a\", \"data\": \x7b\"a\": 1\x7d\x7d"),
    (["snippets", "dot.toml"], .file "title = \"a\"\n[data]\na = 1\n")] }
  let p : Project :=
    { config := { build := { input := "<root>/snippets", output := "<root>/generated" } }, root := "<root>" }
  let s : Session := { files := t, cwd := [] }
  have hfiles : snippetFiles t [] p.config.build.input =
      ["<root>/snippets/dot.json", "<root>/snippets/dot.toml"] := by
    have hwalk : (t.walkFiles [] p.config.build.input).filter (fun f => (sourceFormat f).isSome) =
        ["<root>/snippets/dot.json", "<root>/snippets/dot.toml"] := by decide +kernel
    simp only [snippetFiles, hwalk]
    exact List.mergeSort_of_pairwise (by decide +kernel)
  -- both snippet files render, so the check counts them
  have hcheck : ∃ s', (checkSnippets p).run s = .ok 2 s' := by
    refine (checkSnippets_ok_iff p s 2).mpr
      ⟨by decide +kernel, walkRefusals_of_readable rfl _ _, by rw [hfiles]; rfl, ?_⟩
    intro f hf
    rw [hfiles] at hf
    simp only [List.mem_cons, List.not_mem_nil, or_false] at hf
    rcases hf with rfl | rfl <;> exact checkFault_eq_none_iff.mp (by decide +kernel)
  -- their outputs are one file, so the planning stops the build
  have hplan : planTargets p (snippetFiles t [] p.config.build.input) [] =
      .error "`snippets/dot.json` and `snippets/dot.toml` both render to `generated/dot.mdx`" := by
    rw [hfiles, planTargets_same_output (by decide +kernel)]
    exact congrArg Except.error (by decide +kernel)
  exact ⟨p, s, by decide +kernel, by decide +kernel, by decide +kernel, hcheck,
    buildSnippets_collision p s (by decide +kernel) (walkRefusals_of_readable rfl _ _) hplan⟩

end ConfigTabs.Run
