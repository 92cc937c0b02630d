import Mathlib.Tactic.Lemma
import ServerFleet.Launch.Host

/-!
How a launch goes on any host. The install command is run only for a missing program, and then
once; the program is looked up again only after an install command that succeeded. What a launch
reports, whether it fails and whether it starts a server is told from these two facts.
-/

namespace ServerFleet

namespace Installation

/-- Whether a run of an install command has done its work. -/
def succeeded : Except IoError ExitStatus → Bool
  | .ok status => status.succeeded
  | .error _ => false

/-- Why a run of an install command has not done its work. -/
def failure : Except IoError ExitStatus → String
  | .ok status => status.message
  | .error e => e.message

end Installation

namespace Command

variable {σ π : Type} {c : Command} {h : Host σ π} {root : Path} {s s' : σ}
  {result : Except IoError ExitStatus}

/-- The run of the install command that a launch makes, if it has to make one, with the state it
leaves. -/
def installation? (c : Command) (h : Host σ π) (root : Path) (s : σ) :
    Option (σ × Except IoError ExitStatus) :=
  match h.find? s c.program, c.install with
  | none, installer :: arguments => some (h.install s installer arguments root)
  | _, _ => none

/-- The state in which the program of a launch is started, if it is. -/
def prepared (c : Command) (h : Host σ π) (root : Path) (s : σ) : σ :=
  ((c.installation? h root s).map (·.1)).getD s

/-- The install command is run exactly if the program is missing and there is such a command. -/
theorem isSome_installation? :
    (c.installation? h root s).isSome = (!c.isInstalled h s && c.canInstall) := by
  unfold installation? isInstalled canInstall
  cases h.find? s c.program <;> cases c.install <;> rfl

lemma launch_of_none (hi : c.installation? h root s = none) :
    c.launch h root s = c.start h root s := by
  unfold installation? at hi
  unfold launch
  split
  · next hfind hinstall => simp [hfind, hinstall] at hi
  · rfl

/-- A launch that runs the install command goes on only if the command succeeds. -/
theorem launch_of_some (hi : c.installation? h root s = some (s', result)) :
    c.launch h root s =
      if Installation.succeeded result then
        (c.start h root s').after [.report .installing, .runInstaller, .report .complete]
      else ⟨s', [.report .installing, .runInstaller],
        .error (.install (c.install.headD "") (Installation.failure result))⟩ := by
  unfold installation? at hi
  split at hi
  · next installer arguments hfind hinstall =>
    have hrun := Option.some.inj hi
    have hlaunch : c.launch h root s = c.installThenStart h installer arguments root s := by
      rw [launch, hfind, hinstall]
    rw [hlaunch, installThenStart, hrun, hinstall]
    cases result <;> rfl
  · cases hi

lemma acts_start : (c.start h root s).acts =
    if c.isInstalled h s then [.startServer] else [] := by
  unfold start isInstalled
  cases h.find? s c.program with
  | none => rfl
  | some program =>
    dsimp only
    split <;> rfl

lemma outcome_start_eq_none_iff :
    (c.start h root s).outcome = .ok none ↔ c.isInstalled h s = false := by
  unfold start isInstalled
  cases h.find? s c.program with
  | none => exact iff_of_true rfl rfl
  | some program =>
    dsimp only
    split <;> exact iff_of_false nofun nofun

lemma outcome_start_ne_install (installer reason : String) :
    (c.start h root s).outcome ≠ .error (.install installer reason) := by
  unfold start
  cases h.find? s c.program with
  | none => exact nofun
  | some program =>
    dsimp only
    split <;> exact nofun

/-- No run of the install command has failed, be it that none was made. -/
def IsPrepared (c : Command) (h : Host σ π) (root : Path) (s : σ) : Prop :=
  ∀ after result, c.installation? h root s = some (after, result) →
    Installation.succeeded result = true

/-- How a launch goes. -/
structure Proceeds (c : Command) (h : Host σ π) (root : Path) (s : σ) (l : Launch σ π) : Prop where
  /-- The install command is run once if the program is missing and there is such a command, and
  not at all otherwise. -/
  runs : l.acts.count .runInstaller = (!c.isInstalled h s && c.canInstall).toNat
  /-- Nothing is reported but the run of the install command and its success. -/
  reports : l.reports =
    match c.installation? h root s with
    | none => []
    | some (_, result) =>
      .installing :: if Installation.succeeded result then [.complete] else []
  /-- It fails for the install command exactly if that was run and did not succeed. -/
  fails : (∃ installer reason, l.outcome = .error (.install installer reason)) ↔
    ∃ after result, c.installation? h root s = some (after, result) ∧
      Installation.succeeded result = false
  /-- Otherwise it ends without a server exactly if the program is missing after all that. -/
  absent : l.outcome = .ok none ↔
    c.IsPrepared h root s ∧ c.isInstalled h (c.prepared h root s) = false
  /-- Otherwise, too, it starts the server exactly if the program is there after all that. -/
  starts : .startServer ∈ l.acts ↔
    c.IsPrepared h root s ∧ c.isInstalled h (c.prepared h root s) = true

lemma Proceeds.of_start (hi : c.installation? h root s = none) :
    c.Proceeds h root s (c.start h root s) := by
  have hprepared : c.IsPrepared h root s := by
    intro after result hsome
    rw [hi] at hsome
    cases hsome
  have hstate : c.prepared h root s = s := by rw [prepared, hi]; rfl
  have hruns : (!c.isInstalled h s && c.canInstall) = false := by
    have hsome : (c.installation? h root s).isSome = _ := isSome_installation?
    rw [← hsome, hi]
    rfl
  constructor
  · rw [hruns, acts_start]
    split <;> rfl
  · rw [hi, Launch.reports, acts_start]
    split <;> rfl
  · refine iff_of_false ?_ ?_
    · rintro ⟨installer, reason, hout⟩
      exact outcome_start_ne_install installer reason hout
    · rintro ⟨after, result, hsome, -⟩
      rw [hi] at hsome
      cases hsome
  · rw [outcome_start_eq_none_iff, hstate]
    exact (and_iff_right hprepared).symm
  · rw [acts_start, hstate, and_iff_right hprepared]
    split <;> simp_all

section Run

variable (hi : c.installation? h root s = some (s', result))

include hi

lemma prepared_of_some : c.prepared h root s = s' := by
  rw [prepared, hi]
  rfl

lemma isPrepared_iff : c.IsPrepared h root s ↔ Installation.succeeded result = true := by
  constructor
  · exact fun hp => hp s' result hi
  · intro hs after result' hsome
    rw [hi] at hsome
    cases hsome
    exact hs

lemma count_runInstaller_of_some : (!c.isInstalled h s && c.canInstall).toNat = 1 := by
  have hsome : (c.installation? h root s).isSome = _ := isSome_installation?
  rw [← hsome, hi]
  rfl

lemma Proceeds.of_success (hs : Installation.succeeded result = true) :
    c.Proceeds h root s
      ((c.start h root s').after [.report .installing, .runInstaller, .report .complete]) := by
  have hprepared := (isPrepared_iff hi).2 hs
  constructor
  · rw [count_runInstaller_of_some hi, Launch.after, acts_start]
    split <;> rfl
  · rw [hi, Launch.reports, Launch.after, acts_start]
    simp only [hs, if_true]
    split <;> rfl
  · refine iff_of_false ?_ ?_
    · rintro ⟨installer, reason, hout⟩
      exact outcome_start_ne_install installer reason hout
    · rintro ⟨after, result', hsome, hfailed⟩
      rw [hprepared after result' hsome] at hfailed
      cases hfailed
  · rw [prepared_of_some hi, and_iff_right hprepared]
    exact outcome_start_eq_none_iff
  · rw [Launch.after, acts_start, prepared_of_some hi, and_iff_right hprepared]
    split <;> simp_all

lemma Proceeds.of_failure (hs : Installation.succeeded result = false)
    (installer reason : String) :
    c.Proceeds h root s
      ⟨s', [.report .installing, .runInstaller], .error (.install installer reason)⟩ := by
  have hprepared : ¬ c.IsPrepared h root s := by
    rw [isPrepared_iff hi, hs]
    exact Bool.false_ne_true
  constructor
  · rw [count_runInstaller_of_some hi]
    rfl
  · rw [hi]
    simp only [hs]
    rfl
  · exact iff_of_true ⟨installer, reason, rfl⟩ ⟨s', result, hi, hs⟩
  · exact iff_of_false nofun fun h => hprepared h.1
  · exact iff_of_false (by simp) fun h => hprepared h.1

end Run

/-- Every launch goes in this way, on every host. -/
theorem proceeds_launch (c : Command) (h : Host σ π) (root : Path) (s : σ) :
    c.Proceeds h root s (c.launch h root s) := by
  cases hi : c.installation? h root s with
  | none =>
    rw [launch_of_none hi]
    exact .of_start hi
  | some x =>
    rw [launch_of_some hi]
    cases hs : Installation.succeeded x.2 with
    | true => exact .of_success hi hs
    | false => exact .of_failure hi hs _ _

lemma runInstaller_mem_acts_iff :
    .runInstaller ∈ (c.launch h root s).acts ↔
      c.isInstalled h s = false ∧ c.canInstall = true := by
  rw [← List.count_pos_iff, (c.proceeds_launch h root s).runs]
  cases c.isInstalled h s <;> cases c.canInstall <;> simp

end Command

end ServerFleet
