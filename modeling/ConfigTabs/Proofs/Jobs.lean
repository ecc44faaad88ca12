import ConfigTabs.Run.Commands
/-!
Jobs run one after another under a progress line, each on the files the jobs before it left.
-/
namespace ConfigTabs.Run

variable {α : Type} (job : α → Step (Option Fault)) (cwd : List String)
  (fault : Files.Tree → α → Option Fault) (next : Files.Tree → α → Files.Tree)

/-- Each run of the job from the directory `cwd` reports `fault` and leaves the files `next`,
whatever it prints. -/
def JobRuns : Prop :=
  ∀ x (s : Session), s.cwd = cwd →
    ∃ out, (job x).run s = .ok (fault s.files x) { s with out := out, files := next s.files x }

def runJobs : Files.Tree → List α → List Fault × Files.Tree
  | t, [] => ([], t)
  | t, x :: xs =>
    let rest := runJobs (next t x) xs
    ((fault t x).toList ++ rest.1, rest.2)

theorem runJobs_files (xs : List α) :
    ∀ t, (runJobs fault next t xs).2 = xs.foldl next t := by
  induction xs with
  | nil => exact fun _ => rfl
  | cons x xs ih => exact fun t => ih (next t x)

theorem runJobs_keep (xs : List α) (t : Files.Tree) :
    runJobs fault (fun t _ => t) t xs = (xs.filterMap (fault t), t) := by
  induction xs with
  | nil => rfl
  | cons x xs ih =>
    simp only [runJobs, ih, List.filterMap_cons]
    cases fault t x <;> rfl

theorem showProgress_run (module : String) (done total : Nat) (s : Session) :
    (showProgress module done total).run s =
      .ok () { s with progress := true, out := s.out ++ progressLine module done total } := rfl

theorem finishProgress_run (module : String) (done total : Nat) (s : Session) :
    (finishProgress module done total).run s =
      .ok () { s with progress := false, out := s.out ++ (progressLine module done total ++ "\n") } := rfl

theorem runAll_nil (module : String) (s : Session) : (runAll module [] job).run s = .ok [] s := rfl

section Runs

variable {job cwd fault next}

theorem runEach_of_jobRuns (h : JobRuns job cwd fault next) (module : String) (total : Nat) :
    ∀ (xs : List α) (done : Nat) (s : Session), s.cwd = cwd → ∃ out prog,
      (runEach module total job done xs).run s =
        .ok (runJobs fault next s.files xs).1
          { s with out := out, files := (runJobs fault next s.files xs).2, progress := prog } ∧
      prog = if xs = [] then s.progress else true := by
  intro xs
  induction xs with
  | nil => exact fun _ s _ => ⟨s.out, s.progress, rfl, rfl⟩
  | cons x xs ih =>
    intro done s hcwd
    obtain ⟨out₁, h₁⟩ := h x s hcwd
    -- the progress line is shown after the job, then the rest run from there
    obtain ⟨out₂, prog₂, h₂, hp⟩ := ih (done + 1) { s with
      out := out₁ ++ progressLine module (done + 1) total, files := next s.files x,
      progress := true } hcwd
    refine ⟨out₂, prog₂, ?_, by simp [hp]⟩
    simp only [runEach, EStateM.run_bind, h₁, showProgress_run, h₂, runJobs]
    rfl

theorem runAll_of_jobRuns (h : JobRuns job cwd fault next) (module : String) {xs : List α}
    (hxs : xs ≠ []) (s : Session) (hcwd : s.cwd = cwd) :
    ∃ out, (runAll module xs job).run s =
      .ok (runJobs fault next s.files xs).1
        { s with out := out, files := (runJobs fault next s.files xs).2, progress := false } := by
  obtain ⟨out, prog, hrun, -⟩ := runEach_of_jobRuns h module xs.length xs 0
    { s with out := s.out ++ progressLine module 0 xs.length, progress := true } hcwd
  refine ⟨out ++ (progressLine module xs.length xs.length ++ "\n"), ?_⟩
  have hempty : xs.isEmpty = false := by simpa using hxs
  simp only [runAll, hempty, Bool.false_eq_true, if_false, EStateM.run_bind, showProgress_run, hrun,
    finishProgress_run]
  rfl

end Runs

end ConfigTabs.Run
