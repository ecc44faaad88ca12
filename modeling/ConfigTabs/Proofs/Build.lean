import ConfigTabs.Proofs.FileTree
import ConfigTabs.Proofs.Jobs
/-!
What a build run does, snippet by snippet: jobs in path order, each output kept as written
when no two outputs are one file.
-/
namespace ConfigTabs

namespace Path

variable (k : PathComponent → Nat × String)

theorem le_go_nil (ys : List PathComponent) : le.go k [] ys = true := by
  simp [le.go]

theorem le_go_cons_nil (x : PathComponent) (xs : List PathComponent) : le.go k (x :: xs) [] = false := by
  simp [le.go]

theorem le_go_cons (x y : PathComponent) (xs ys : List PathComponent) :
    le.go k (x :: xs) (y :: ys) = true ↔ (k x).1 < (k y).1 ∨ ((k x).1 = (k y).1 ∧
      ((k x).2 < (k y).2 ∨ ((k x).2 = (k y).2 ∧ le.go k xs ys = true))) := by
  simp only [le.go]
  by_cases h1 : (k x).1 = (k y).1 <;> by_cases h2 : (k x).2 = (k y).2 <;> simp [h1, h2]

theorem le_go_trans : ∀ xs ys zs : List PathComponent,
    le.go k xs ys = true → le.go k ys zs = true → le.go k xs zs = true
  | [], _, zs, _, _ => le_go_nil k zs
  | _ :: _, [], _, h, _ => by simp [le_go_cons_nil] at h
  | _ :: _, _ :: _, [], _, h => by simp [le_go_cons_nil] at h
  | x :: xs, y :: ys, z :: zs, hxy, hyz => by
    rw [le_go_cons] at hxy hyz ⊢
    have ih := le_go_trans xs ys zs
    rcases hxy with h | ⟨e1, h | ⟨e2, h⟩⟩ <;> rcases hyz with h' | ⟨e1', h' | ⟨e2', h'⟩⟩
    all_goals first
      | exact .inl (by omega)
      | exact .inr ⟨by omega, .inl (String.lt_trans h h')⟩
      | exact .inr ⟨by omega, .inl (by rw [e2]; exact h')⟩
      | exact .inr ⟨by omega, .inl (by rw [← e2']; exact h)⟩
      | exact .inr ⟨by omega, .inr ⟨e2.trans e2', ih h h'⟩⟩

theorem components_empty : components "" = [] := by
  decide

theorem le_trans {a b c : String} (h₁ : le a b = true) (h₂ : le b c = true) : le a c = true :=
  le_go_trans _ _ _ _ h₁ h₂

end Path

namespace Run

/-! ### Steps of a session -/

def SameButOut (s s' : Session) : Prop := s' = { s with out := s'.out }

theorem SameButOut.trans {s₁ s₂ s₃ : Session} (h₁ : SameButOut s₁ s₂) (h₂ : SameButOut s₂ s₃) :
    SameButOut s₁ s₃ := by
  unfold SameButOut at *
  rw [h₂, h₁]

theorem log_run (module message : String) (s : Session) :
    (log module message).run s =
      .ok () { s with out := s.out ++ ((if s.progress then clearLine else "") ++ tag module ++ " " ++
        message ++ "\n") } := rfl

theorem debug_run (module message : String) (s : Session) :
    ∃ s', (debug module message).run s = .ok () s' ∧ SameButOut s s' := by
  have hdebug : (debug module message).run s =
      (if s.verbose = true then log module message else pure ()).run s := rfl
  by_cases h : s.verbose = true
  · exact ⟨{ s with out := s.out ++ ((if s.progress then clearLine else "") ++ tag module ++ " " ++
      message ++ "\n") }, by rw [hdebug, if_pos h, log_run], rfl⟩
  · exact ⟨s, by rw [hdebug, if_neg h]; rfl, rfl⟩

theorem forIn_debug_run {α : Type} (l : List α) (module : String) (message : α → String) (s : Session) :
    ∃ s', (forIn l PUnit.unit fun a _ => do
      debug module (message a)
      pure (ForInStep.yield PUnit.unit) : Step PUnit).run s = .ok PUnit.unit s' ∧ SameButOut s s' := by
  induction l generalizing s with
  | nil => exact ⟨s, rfl, rfl⟩
  | cons a l ih =>
    obtain ⟨s₁, h₁, e₁⟩ := debug_run module (message a) s
    obtain ⟨s₂, h₂, e₂⟩ := ih s₁
    refine ⟨s₂, ?_, e₁.trans e₂⟩
    simp only [List.forIn_cons, EStateM.run_bind, h₁, EStateM.run_pure]
    exact h₂

theorem renderLogged_run (i : SnippetInput) (o : RenderOptions) (s : Session) :
    ∃ s', (renderLogged i o).run s = .ok (i.renderWith o) s' ∧ SameButOut s s' := by
  obtain ⟨s', h, e⟩ := forIn_debug_run i.overridesUsed "snippet"
    (fun f => "using " ++ f.name ++ " override for `" ++ i.titleTemplate ++ "`") s
  refine ⟨s', ?_, e⟩
  simp only [renderLogged, EStateM.run_bind, h, EStateM.run_pure]

theorem renderSource_run (o : RenderOptions) (source : String) (s : Session) :
    ∃ s', (renderSource o source).run s =
      .ok (readSnippetFile s.files s.cwd source >>= fun i => i.renderWith o) s' ∧ SameButOut s s' := by
  cases h : readSnippetFile s.files s.cwd source with
  | error e =>
    refine ⟨s, ?_, rfl⟩
    simp only [renderSource, EStateM.run_bind, EStateM.run_get, h, EStateM.run_pure]
    rfl
  | ok i =>
    obtain ⟨s', hr, e⟩ := renderLogged_run i o s
    refine ⟨s', ?_, e⟩
    simp only [renderSource, EStateM.run_bind, EStateM.run_get, h]
    exact hr

/-! ### One job -/

/-- A build job on the files of the area: load the snippet file, render it, emit the markup and
write it; the failure message, or the files with the output written. -/
def buildJob (o : RenderOptions) (e : Emitter) (cwd : List String) (t : Files.Tree) (x : Target) :
    Except String Files.Tree :=
  match readSnippetFile t cwd x.source >>= fun i => i.renderWith o with
  | .error err => .error err.fullMessage
  | .ok blocks => writeOutput t cwd x.output (e.emit blocks)

def afterJob (o : RenderOptions) (e : Emitter) (cwd : List String) (t : Files.Tree) (x : Target) :
    Files.Tree :=
  match buildJob o e cwd t x with
  | .ok t' => t'
  | .error _ => t

def jobFault (o : RenderOptions) (e : Emitter) (cwd : List String) (t : Files.Tree) (x : Target) :
    Option Fault :=
  match buildJob o e cwd t x with
  | .ok _ => none
  | .error m => some (x.source, m)

theorem buildTarget_run (o : RenderOptions) (e : Emitter) (x : Target) (s : Session) :
    ∃ out, (buildTarget o e x).run s =
      .ok (jobFault o e s.cwd s.files x) { s with out := out, files := afterJob o e s.cwd s.files x } := by
  obtain ⟨s₁, hr, e₁⟩ := renderSource_run o x.source s
  refine ⟨s₁.out, ?_⟩
  rw [e₁] at hr
  simp only [buildTarget, EStateM.run_bind, hr, jobFault, afterJob, buildJob]
  cases readSnippetFile s.files s.cwd x.source >>= fun i => i.renderWith o with
  | error err => rfl
  | ok blocks =>
    simp only [EStateM.run_bind, EStateM.run_get]
    cases writeOutput s.files s.cwd x.output (e.emit blocks) with
    | ok t => rfl
    | error m => rfl

theorem jobFault_eq_none_iff (o : RenderOptions) (e : Emitter) (cwd : List String) (t : Files.Tree)
    (x : Target) :
    jobFault o e cwd t x = none ↔ ∃ blocks, (readSnippetFile t cwd x.source >>= fun i => i.renderWith o) =
      .ok blocks ∧ ∃ t', writeOutput t cwd x.output (e.emit blocks) = .ok t' := by
  unfold jobFault buildJob
  cases readSnippetFile t cwd x.source >>= fun i => i.renderWith o with
  | error err => simp
  | ok blocks => cases hw : writeOutput t cwd x.output (e.emit blocks) <;> simp [hw]

theorem buildJob_ok {o : RenderOptions} {e : Emitter} {cwd : List String} {t t' : Files.Tree} {x : Target}
    (h : buildJob o e cwd t x = .ok t') :
    ∃ blocks, (readSnippetFile t cwd x.source >>= fun i => i.renderWith o) = .ok blocks ∧
      writeOutput t cwd x.output (e.emit blocks) = .ok t' := by
  unfold buildJob at h
  split at h
  · cases h
  · exact ⟨_, by assumption, h⟩

/-! ### Writing outputs -/

section Writing

open Files Files.Tree

variable {t t' : Tree} {cwd : List String} {path c : String}

@[simp] theorem mapError_ok {ε ε' α : Type} (f : ε → ε') (a : α) :
    Except.mapError f (.ok a : Except ε α) = .ok a := rfl

@[simp] theorem mapError_error {ε ε' α : Type} (f : ε → ε') (e : ε) :
    Except.mapError f (.error e : Except ε α) = .error (f e) := rfl

theorem writeOutput_adds (h : writeOutput t cwd path c = .ok t') :
    ∃ t₁, AddsDirs t t₁ ∧ t₁.write cwd path c = .ok t' := by
  unfold writeOutput at h
  cases hp : Path.parent? path with
  | none =>
    refine ⟨t, AddsDirs.refl t, ?_⟩
    cases hw : t.write cwd path c <;> simp_all [bind, Except.bind, pure, Except.pure]
  | some dir =>
    cases hm : t.makeDirs cwd ((Path.parts dir).length + 1) dir with
    | error err => simp [hp, hm, bind, Except.bind] at h
    | ok t₁ =>
      refine ⟨t₁, makeDirs_addsDirs hm, ?_⟩
      cases hw : t₁.write cwd path c <;> simp_all [bind, Except.bind]

theorem writeOutput_ok (h : writeOutput t cwd path c = .ok t') : ∃ t₁, Grows t t₁ ∧ t₁.write cwd path c = .ok t' := by
  obtain ⟨t₁, hadd, hw⟩ := writeOutput_adds h
  exact ⟨t₁, hadd.grows, hw⟩

theorem writeOutput_dirs (h : writeOutput t cwd path c = .ok t') :
    ∀ m, t.get? m = some .dir → t'.get? m = some .dir := by
  obtain ⟨t₁, hg, hw⟩ := writeOutput_ok h
  exact fun m hm => write_dirs hw m (hg.dirs m hm)

theorem writeOutput_frame (h : writeOutput t cwd path c = .ok t') {m : List String}
    (hm : resolve cwd path ≠ .inside m) (hg : t.get? m ≠ none) : t'.get? m = t.get? m := by
  obtain ⟨t₁, hgrow, hw⟩ := writeOutput_ok h
  rw [write_frame hw hm, hgrow m hg]

theorem writeOutput_file (h : writeOutput t cwd path c = .ok t') {m : List String} {c' : String}
    (hf : t'.get? m = some (.file c')) : t.get? m = some (.file c') ∨ resolve cwd path = .inside m := by
  obtain ⟨t₁, hadd, hw⟩ := writeOutput_adds h
  by_cases hm : resolve cwd path = .inside m
  · exact Or.inr hm
  · exact Or.inl (hadd.file ((write_frame hw hm).symm.trans hf))

def Holds (cwd : List String) (path c : String) (t : Tree) : Prop :=
  ∃ names, t.locate cwd path = .ok (.inside names) ∧ t.get? names = some (.file c)

theorem Holds.read (h : Holds cwd path c t) (hs : path.endsWith "/" = false) : t.read cwd path = .ok c := by
  obtain ⟨names, hl, hg⟩ := h
  exact read_of_get hl hg hs

end Writing

/-! ### The jobs in turn -/

section Jobs

open Files

variable {o : RenderOptions} {e : Emitter} {cwd : List String}

theorem afterJob_holds {t : Tree} {path c : String} {y : Target} (hh : Holds cwd path c t)
    (hy : resolve cwd y.output ≠ resolve cwd path) : Holds cwd path c (afterJob o e cwd t y) := by
  obtain ⟨names, hl, hg⟩ := hh
  unfold afterJob
  split
  · rename_i t' hj
    obtain ⟨blocks, -, hw⟩ := buildJob_ok hj
    -- the written file sits where its path resolves, which is not where the job writes
    have hr : resolve cwd path = .inside names := (Tree.locate_resolve hl).symm
    exact ⟨names, Tree.locate_of_dirs (writeOutput_dirs hw) hl,
      (writeOutput_frame hw (hr ▸ hy) (by simp [hg])).trans hg⟩
  · exact ⟨names, hl, hg⟩

theorem afterJob_file {t : Tree} {x : Target} {m : List String} {c : String}
    (hf : (afterJob o e cwd t x).get? m = some (.file c)) :
    t.get? m = some (.file c) ∨ resolve cwd x.output = .inside m := by
  unfold afterJob at hf
  split at hf
  · rename_i t' hj
    obtain ⟨blocks, -, hw⟩ := buildJob_ok hj
    exact writeOutput_file hw hf
  · exact Or.inl hf

theorem foldl_afterJob_file {m : List String} {c : String} :
    ∀ (xs : List Target) (t : Tree), (xs.foldl (afterJob o e cwd) t).get? m = some (.file c) →
      t.get? m = some (.file c) ∨ ∃ x ∈ xs, resolve cwd x.output = .inside m
  | [], _, hf => Or.inl hf
  | x :: xs, t, hf => by
    rcases foldl_afterJob_file xs (afterJob o e cwd t x) hf with hprev | ⟨y, hy, hout⟩
    · rcases afterJob_file hprev with hbefore | hout
      · exact Or.inl hbefore
      · exact Or.inr ⟨x, List.mem_cons_self, hout⟩
    · exact Or.inr ⟨y, List.mem_cons_of_mem x hy, hout⟩

end Jobs

/-- The build jobs in order, each on the files the ones before left. -/
def buildJobs (o : RenderOptions) (e : Emitter) (cwd : List String) :
    Files.Tree → List Target → List Fault × Files.Tree :=
  runJobs (jobFault o e cwd) (afterJob o e cwd)

@[simp] theorem buildJobs_nil (o : RenderOptions) (e : Emitter) (cwd : List String) (t : Files.Tree) :
    buildJobs o e cwd t [] = ([], t) := rfl

theorem buildJobs_cons (o : RenderOptions) (e : Emitter) (cwd : List String) (t : Files.Tree)
    (x : Target) (xs : List Target) :
    buildJobs o e cwd t (x :: xs) =
      ((jobFault o e cwd t x).toList ++ (buildJobs o e cwd (afterJob o e cwd t x) xs).1,
        (buildJobs o e cwd (afterJob o e cwd t x) xs).2) := rfl

theorem buildTarget_jobRuns (o : RenderOptions) (e : Emitter) (cwd : List String) :
    JobRuns (buildTarget o e) cwd (jobFault o e cwd) (afterJob o e cwd) := by
  rintro x s rfl
  exact buildTarget_run o e x s

def failureLine (p : Project) (f : Fault) : String :=
  tag "error" ++ " " ++ (p.relative f.1 ++ ": " ++ f.2) ++ "\n"

theorem forIn_failureLine_run (p : Project) (faults : List Fault) (s : Session)
    (hprog : s.progress = false) :
    (forIn faults PUnit.unit fun (x : Fault) _ => do
      log "error" (p.relative x.fst ++ ": " ++ x.snd)
      pure (ForInStep.yield PUnit.unit) : Step PUnit).run s =
      .ok PUnit.unit { s with out := s.out ++ String.join (faults.map (failureLine p)) } := by
  induction faults generalizing s with
  | nil => simp
  | cons f fs ih =>
    simp only [List.forIn_cons, EStateM.run_bind, log_run, hprog, Bool.false_eq_true, if_false,
      EStateM.run_pure]
    rw [ih _ rfl]
    simp [failureLine, String.append_assoc, ← hprog]

theorem reportFailures_run (p : Project) {faults : List Fault} (hne : faults ≠ []) (s : Session)
    (hprog : s.progress = false) :
    (reportFailures p faults).run s =
      .error (.other (pluralCount faults.length "snippet" ++ " failed to render"))
        { s with out := s.out ++ String.join (faults.map (failureLine p)) } := by
  have hempty : faults.isEmpty = false := by simpa using hne
  simp only [reportFailures, hempty, Bool.false_eq_true, if_false, EStateM.run_bind,
    forIn_failureLine_run p faults s hprog]
  rfl

theorem setFiles_run (t : Files.Tree) (s : Session) : (setFiles t).run s = .ok () { s with files := t } := rfl

theorem reportFailures_nil (p : Project) (s : Session) : (reportFailures p []).run s = .ok () s := rfl

/-! ### Before the jobs -/

theorem walkRefusals_of_readable {t : Files.Tree} (h : t.unreadable = []) (cwd : List String)
    (path : String) : t.walkRefusals cwd path = [] := by
  unfold Files.Tree.walkRefusals
  split <;> simp [h]

theorem collectInputFiles_eq (p : Project) (s : Session) :
    (collectInputFiles p).run s =
      if s.files.isDir s.cwd p.config.build.input = false then
        .error (.other ("snippet directory `" ++ p.config.build.input ++ "` not found")) s
      else match s.files.walkRefusals s.cwd p.config.build.input with
        | dir :: _ => .error (.other (unreadableMessage dir)) s
        | [] => .ok (snippetFiles s.files s.cwd p.config.build.input) s := by
  simp only [collectInputFiles, EStateM.run_bind, EStateM.run_get, Bool.not_eq_eq_eq_not, Bool.not_true]
  split
  · rfl
  · cases s.files.walkRefusals s.cwd p.config.build.input <;> rfl

theorem collectInputFiles_missing (p : Project) (s : Session)
    (h : s.files.isDir s.cwd p.config.build.input = false) :
    (collectInputFiles p).run s =
      .error (.other ("snippet directory `" ++ p.config.build.input ++ "` not found")) s := by
  rw [collectInputFiles_eq, if_pos h]

theorem collectInputFiles_refused (p : Project) (s : Session) {dir : String} {more : List String}
    (h : s.files.isDir s.cwd p.config.build.input = true)
    (hwalk : s.files.walkRefusals s.cwd p.config.build.input = dir :: more) :
    (collectInputFiles p).run s = .error (.other (unreadableMessage dir)) s := by
  rw [collectInputFiles_eq, h, hwalk]
  rfl

theorem collectInputFiles_run (p : Project) (s : Session)
    (h : s.files.isDir s.cwd p.config.build.input = true)
    (hwalk : s.files.walkRefusals s.cwd p.config.build.input = []) :
    (collectInputFiles p).run s = .ok (snippetFiles s.files s.cwd p.config.build.input) s := by
  rw [collectInputFiles_eq, h, hwalk]
  rfl

def Project.targetOf (p : Project) (source : String) : Target := { source, output := p.outputOf source }

@[simp] theorem Project.targetOf_source (p : Project) (source : String) : (p.targetOf source).source = source := rfl

-- unfolded first, or checking the equation would run the path functions of the output
@[simp] theorem Project.targetOf_output (p : Project) (source : String) :
    (p.targetOf source).output = p.outputOf source := by
  simp only [Project.targetOf]

theorem planTargets_of_apart (p : Project) : ∀ (files : List String) (planned : List Target),
    files.Pairwise (fun a b => Path.same (p.outputOf a) (p.outputOf b) = false) →
    (∀ x ∈ planned, ∀ f ∈ files, Path.same x.output (p.outputOf f) = false) →
    planTargets p files planned = .ok (planned.reverse ++ files.map p.targetOf)
  | [], planned, _, _ => by simp [planTargets]
  | f :: fs, planned, hfs, hplanned => by
    have hnone : planned.find? (fun t => Path.same t.output (p.outputOf f)) = none := by
      rw [List.find?_eq_none]
      intro x hx h
      exact Bool.false_ne_true ((hplanned x hx f List.mem_cons_self).symm.trans h)
    have hrest := planTargets_of_apart p fs (p.targetOf f :: planned) (List.pairwise_cons.mp hfs).2 (by
      intro x hx g hg
      rcases List.mem_cons.mp hx with rfl | hx
      · rw [Project.targetOf_output]
        exact (List.pairwise_cons.mp hfs).1 g hg
      · exact hplanned x hx g (List.mem_cons_of_mem f hg))
    simp only [planTargets, hnone]
    rw [show ({ source := f, output := p.outputOf f } : Target) = p.targetOf f from rfl, hrest]
    simp

theorem planTargets_ok (p : Project) (cwd : List String) :
    ∀ (files : List String) (planned : List Target),
      files.Pairwise (fun a b => Files.resolve cwd (p.outputOf a) ≠ Files.resolve cwd (p.outputOf b)) →
      (∀ x ∈ planned, ∀ f ∈ files, Files.resolve cwd x.output ≠ Files.resolve cwd (p.outputOf f)) →
      planTargets p files planned = .ok (planned.reverse ++ files.map p.targetOf) := by
  intro files planned hfiles hplanned
  -- outputs that lead to different places are different paths
  have hsame : ∀ {a b : String}, Files.resolve cwd a ≠ Files.resolve cwd b → Path.same a b = false :=
    fun h => Bool.eq_false_iff.mpr fun hs => h (Files.resolve_of_same hs cwd)
  exact planTargets_of_apart p files planned (hfiles.imp hsame) fun x hx f hf => hsame (hplanned x hx f hf)

theorem cleanOutput_run (p : Project) (s : Session)
    (hclean : p.config.build.clean = true → s.files.exists_ s.cwd p.config.build.output = true →
      ∃ t, s.files.removeAll s.cwd p.config.build.output = .ok t) :
    ∃ t₀ out, (cleanOutput p).run s = .ok () { s with out := out, files := t₀ } ∧
      if p.config.build.clean && s.files.exists_ s.cwd p.config.build.output then
        s.files.removeAll s.cwd p.config.build.output = .ok t₀
      else t₀ = s.files := by
  by_cases hc : (p.config.build.clean && s.files.exists_ s.cwd p.config.build.output) = true
  · obtain ⟨h₁, h₂⟩ := Bool.and_eq_true_iff.mp hc
    obtain ⟨t, ht⟩ := hclean h₁ h₂
    obtain ⟨s', hd, e'⟩ := debug_run "build" ("cleaned " ++ p.config.build.output) { s with files := t }
    refine ⟨t, s'.out, ?_, by rw [if_pos hc]; exact ht⟩
    rw [e'] at hd
    simp only [cleanOutput, EStateM.run_bind, EStateM.run_get, hc, if_pos, ht, setFiles_run, hd]
  · refine ⟨s.files, s.out, ?_, by rw [if_neg hc]⟩
    simp only [cleanOutput, EStateM.run_bind, EStateM.run_get, hc, Bool.false_eq_true, if_false,
      EStateM.run_pure]

/-! ### The whole run -/

theorem mem_snippetFiles (t : Files.Tree) (cwd : List String) (input f : String) :
    f ∈ snippetFiles t cwd input ↔ f ∈ t.walkFiles cwd input ∧ (sourceFormat f).isSome := by
  simp [snippetFiles, List.mem_mergeSort]

theorem buildSnippets_run (p : Project) (s : Session) {targets : List Target}
    (hinput : s.files.isDir s.cwd p.config.build.input = true)
    (hwalk : s.files.walkRefusals s.cwd p.config.build.input = [])
    (hplan : planTargets p (snippetFiles s.files s.cwd p.config.build.input) [] = .ok targets)
    (hclean : p.config.build.clean = true → s.files.exists_ s.cwd p.config.build.output = true →
      ∃ t, s.files.removeAll s.cwd p.config.build.output = .ok t) :
    ∃ t₀, (if p.config.build.clean && s.files.exists_ s.cwd p.config.build.output then
        s.files.removeAll s.cwd p.config.build.output = .ok t₀ else t₀ = s.files) ∧
      ∃ s', s'.files = (buildJobs p.config.render.options p.config.render.emitter s.cwd t₀ targets).2 ∧
        ((buildJobs p.config.render.options p.config.render.emitter s.cwd t₀ targets).1 ≠ [] →
          ∃ before, s'.out = before ++ String.join
            ((buildJobs p.config.render.options p.config.render.emitter s.cwd t₀ targets).1.map (failureLine p))) ∧
        (buildSnippets p).run s =
          if (buildJobs p.config.render.options p.config.render.emitter s.cwd t₀ targets).1 = [] then
            .ok targets.length s'
          else .error (.other (pluralCount
            (buildJobs p.config.render.options p.config.render.emitter s.cwd t₀ targets).1.length "snippet" ++
              " failed to render")) s' := by
  obtain ⟨t₀, out₁, hc, ht₀⟩ := cleanOutput_run p s hclean
  refine ⟨t₀, ht₀, ?_⟩
  simp only [buildSnippets, EStateM.run_bind, collectInputFiles_run p s hinput hwalk, hplan, EStateM.run_pure, hc]
  by_cases hts : targets = []
  · -- no jobs: nothing is shown, nothing fails
    subst hts
    refine ⟨?empty, ?files, fun h => absurd rfl h, ?run⟩
    case run =>
      simp only [runAll_nil, reportFailures_nil, log_run, buildJobs_nil, if_true]
      rfl
    case files => rfl
  · obtain ⟨out₂, h₂⟩ := runAll_of_jobRuns (buildTarget_jobRuns p.config.render.options
      p.config.render.emitter s.cwd) "build" hts { s with out := out₁, files := t₀ } rfl
    rw [← buildJobs] at h₂
    rw [h₂]
    by_cases hf : (buildJobs p.config.render.options p.config.render.emitter s.cwd t₀ targets).1 = []
    · refine ⟨?done, ?files, fun h => absurd hf h, ?run⟩
      case run =>
        simp only [hf, reportFailures_nil, log_run, if_true]
        rfl
      case files => rfl
    · refine ⟨?failed, ?files, fun _ => ⟨out₂, ?out⟩, ?run⟩
      case run =>
        dsimp only
        rw [reportFailures_run p hf]
        · simp only [hf, if_false]
          rfl
        · rfl
      case files => rfl
      case out => rfl

end Run

end ConfigTabs
