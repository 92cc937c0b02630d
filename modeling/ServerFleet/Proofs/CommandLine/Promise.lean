import ServerFleet.CommandLine.Doctor
import ServerFleet.Proofs.Config.Registry
import ServerFleet.Proofs.Launch.Course

/-!
What the check of a workspace promises about missing programs, and what a launch does about them.
The check goes by the word of the definition, a launch by its install command. The two agree unless
a configured server may be installed but does not say how.
-/

namespace ServerFleet

/-- A configured server may be installed, but has no install command. -/
def Config.AllowsWithoutCommand (c : Config) (id : String) : Prop :=
  ∃ s, (id, s) ∈ c.servers ∧ s.installable = true ∧ s.install = []

namespace Registry

variable {c : Config} {r : Registry} {d : ServerDefinition}

/-- A server of the registry that a configuration describes is configured or known. -/
theorem configured_or_known (hc : (c.servers.map (·.1)).Nodup) (hr : ofConfig c = .ok r)
    (hd : d ∈ r.servers) :
    (∃ s, (d.id, s) ∈ c.servers ∧ d.IsConfigured d.id s) ∨
      d.id ∉ c.servers.map (·.1) ∧ ∃ s ∈ builtinSketches, d.Realizes s := by
  obtain ⟨start, hstart, hids, hknown⟩ := exists_ofConfig_eq c
  have hall : start.replaceAll c.servers = .ok r := hstart ▸ hr
  have hget := get?_eq_some_of_mem (nodup_ofConfig hr) hd
  by_cases hid : d.id ∈ c.servers.map (·.1)
  · obtain ⟨⟨id, s⟩, hs, rfl⟩ := List.mem_map.1 hid
    obtain ⟨d', hd', hconfigured⟩ := get?_replaceAll_of_mem hall hc hs
    cases hget.symm.trans hd'
    exact .inl ⟨s, hs, hconfigured⟩
  · rw [get?_replaceAll_of_notMem hall hid] at hget
    have hstartId : d.id ∈ start.ids := List.mem_map_of_mem (List.mem_of_find?_eq_some hget)
    obtain ⟨known, hbuiltin, hknownIds, hrealizes⟩ := exists_get?_builtin
    have hon : c.builtinServers = true := by
      by_contra hoff
      rw [hids, Config.knownIds, if_neg hoff] at hstartId
      cases hstartId
    cases hbuiltin.symm.trans (hknown hon)
    rw [hknownIds] at hstartId
    obtain ⟨s, hs, hsid⟩ := List.mem_map.1 hstartId
    obtain ⟨d', -, hd', hfound⟩ := hrealizes s hs
    rw [hsid] at hfound
    cases hget.symm.trans hfound
    exact .inr ⟨hid, s, hs, hd'⟩

/-- The known servers may be installed exactly if they have an install command. -/
theorem exists_launcher_builtin {s : ServerSketch} (hs : s ∈ builtinSketches) :
    ∃ cmd, s.launcher = .command cmd ∧ s.installable = cmd.canInstall := by
  simp only [builtinSketches, List.mem_cons, List.not_mem_nil, or_false] at hs
  rcases hs with rfl | rfl | rfl | rfl | rfl | rfl | rfl <;> exact ⟨_, rfl, rfl⟩

/-- A definition allows for an installation that its launcher cannot make only where the
configuration does. -/
theorem exists_launcher (hc : (c.servers.map (·.1)).Nodup) (hr : ofConfig c = .ok r)
    (hd : d ∈ r.servers) :
    ∃ cmd, d.launcher = .command cmd ∧
      ((d.installable = true ↔ cmd.canInstall = true) ↔ ¬ c.AllowsWithoutCommand d.id) := by
  obtain ⟨s, hs, hconfigured⟩ | ⟨hid, s, hs, hrealizes⟩ := configured_or_known hc hr hd
  · refine ⟨_, hconfigured.launcher, ?_⟩
    have hallows : c.AllowsWithoutCommand d.id ↔ s.installable = true ∧ s.install = [] := by
      constructor
      · rintro ⟨s', hs', hallowed⟩
        cases Prod.mk.inj (List.inj_on_of_nodup_map hc hs hs' rfl) |>.2
        exact hallowed
      · exact fun h => ⟨s, hs, h⟩
    rw [hallows, hconfigured.installable, Command.canInstall]
    cases s.installable <;> cases s.install <;> simp
  · obtain ⟨cmd, hcmd, hflag⟩ := exists_launcher_builtin hs
    refine ⟨cmd, hrealizes.launcher.trans hcmd, iff_of_true ?_ ?_⟩
    · rw [hrealizes.installable, hflag]
    · rintro ⟨s', hs', -⟩
      exact hid (List.mem_map_of_mem hs')

end Registry

namespace CommandLine

variable {w : Workplace} {c : Config} {r : Registry} {d : ServerDefinition} {i : Nat}
  {config : Option Path} {colorless : Bool}

namespace Workplace

/-- The number of files of each extension at the place where the program was started. -/
def fileCounts (w : Workplace) : List (String × Nat) :=
  Scan.extensions w.tree w.cwd w.environment (.ofLocation w.cwd) scanDepth

/-- The line of the check with which it promises that a server is going to be installed. -/
def promise (w : Workplace) (r : Registry) (d : ServerDefinition) (colorless : Bool) : String :=
  Finding.installable.line (!colorless && w.interactive) (Text.padRight d.id (longestId r))

end Workplace

/-- Each server has its line below the head of the check. -/
theorem getElem?_doctorLines (hd : r.servers[i]? = some d) :
    (doctorLines w c r config colorless)[5 + i]? =
      some ((finding w c w.fileCounts d).line (!colorless && w.interactive)
        (Text.padRight d.id (longestId r))) := by
  have hne : r.isEmpty = false := by
    unfold Registry.isEmpty
    cases h : r.servers with
    | nil => simp [h] at hd
    | cons first rest => rfl
  unfold doctorLines
  simp only [hne, Bool.false_eq_true, if_false]
  rw [List.getElem?_append_right (by simp)]
  simp [hd, Workplace.fileCounts]

lemma line_installable_ne_missing (colors : Bool) (label : String) :
    Finding.installable.line colors label ≠ Finding.missing.line colors label := by
  intro h
  have hend := (String.append_right_inj _).1 h
  cases colors with
  | true => exact absurd hend (by decide)
  | false => exact absurd hend (by decide)

/-- A server with files whose program is missing is promised to be installed by the word of its
definition. -/
theorem promise_iff (hd : r.servers[i]? = some d) (hmissing : w.isInstalled d = false)
    (henabled : c.isEnabled d.id = true) (hfiles : fileCount w.fileCounts d ≠ 0) :
    (doctorLines w c r config colorless)[5 + i]? = some (w.promise r d colorless) ↔
      d.installable = true := by
  rw [getElem?_doctorLines hd, Option.some_inj, Workplace.promise, finding]
  simp only [henabled, hmissing, hfiles, Bool.not_true, Bool.false_eq_true, if_false]
  cases d.installable with
  | true => exact iff_of_true rfl rfl
  | false => exact iff_of_false (line_installable_ne_missing _ _).symm nofun

/-- The check promises the installation of a missing program exactly if a launch runs an install
command, except for a configured server that may be installed but does not say how. There the word
of the definition is not that of its launcher, and the promise is not kept. -/
theorem promise_kept_iff (hc : (c.servers.map (·.1)).Nodup) (hr : Registry.ofConfig c = .ok r)
    (hd : r.servers[i]? = some d) :
    ∃ cmd, d.launcher = .command cmd ∧
      ((d.installable = true ↔ cmd.canInstall = true) ↔ ¬ c.AllowsWithoutCommand d.id) ∧
      ∀ w : Workplace, w.isInstalled d = false → c.isEnabled d.id = true →
        fileCount w.fileCounts d ≠ 0 → ∀ (config : Option Path) (colorless : Bool) (root : Path),
          (((doctorLines w c r config colorless)[5 + i]? = some (w.promise r d colorless) ↔
            .runInstaller ∈ (cmd.launch (treeHost w.cwd w.environment) root w.tree).acts) ↔
              ¬ c.AllowsWithoutCommand d.id) := by
  obtain ⟨cmd, hcmd, hflag⟩ := Registry.exists_launcher hc hr (List.mem_of_getElem? hd)
  refine ⟨cmd, hcmd, hflag, fun w hmissing henabled hfiles config colorless root => ?_⟩
  have hnone : cmd.isInstalled (treeHost w.cwd w.environment) w.tree = false := by
    unfold Workplace.isInstalled at hmissing
    rw [hcmd] at hmissing
    exact hmissing
  rw [promise_iff hd hmissing henabled hfiles, Command.runInstaller_mem_acts_iff,
    and_iff_right hnone]
  exact hflag

section Sample

/-- A workplace with one file of the server `x`, where no program is found. -/
def bareWorkplace : Workplace where
  tree := ⟨⟨[([Bytes.ofString "a.x"], .file [] false)], List.pairwise_singleton _ _⟩⟩
  cwd := []
  environment := []
  columns := defaultColumns
  interactive := false

/-- A configuration whose only server may be installed, by a command that may be empty. -/
def offeringConfig (install : List String) : Config :=
  { Config.default with
    builtinServers := false
    servers := [("x", { ServerConfig.default with
      command := "nope", extensions := [".x"], installable := true, install })] }

def offeredServer (install : List String) : ServerDefinition where
  id := "x"
  name := "x"
  extensions := [".x"]
  rootPatterns := []
  excludePatterns := []
  installable := true
  initialization := none
  roots := .empty
  excludes := .empty
  launcher := .command ⟨"nope", [], [], install⟩

lemma ofConfig_offering (install : List String) :
    Registry.ofConfig (offeringConfig install) = .ok ⟨[offeredServer install]⟩ := by
  have hserver : ServerDefinition.ofConfig "x" { ServerConfig.default with
      command := "nope", extensions := [".x"], installable := true, install } =
      .ok (offeredServer install) := by
    have hext : [".x"] = ServerDefinition.normalizedExtensions [".x"] := by decide +kernel
    have hcommand : ¬ Text.isBlank "nope" = true := by decide
    refine (if_neg hcommand).trans ?_
    exact ServerDefinition.ofSketch_eq_ok_iff.2 ⟨rfl, rfl, hext, rfl, rfl, rfl, rfl, rfl, rfl, rfl⟩
  show Registry.empty.replaceAll _ = _
  exact Registry.replaceAll_cons_of_ok hserver

lemma isInstalled_offered (install : List String) :
    bareWorkplace.isInstalled (offeredServer install) = false := by
  have hfind : findProgram? bareWorkplace.tree [] [] (.ofString "nope") = none := by
    decide +kernel
  show (findProgram? bareWorkplace.tree [] [] (.ofString "nope")).isSome = false
  rw [hfind]
  rfl

lemma fileCount_offered (install : List String) :
    fileCount bareWorkplace.fileCounts (offeredServer install) ≠ 0 := by
  have hcounts : bareWorkplace.fileCounts = [(".x", 1)] := by decide +kernel
  have hcount : fileCount [(".x", 1)] (offeredServer []) ≠ 0 := by decide +kernel
  rw [hcounts]
  exact hcount

/-- With an install command the promise is made, and it is kept. -/
theorem promise_kept_sample :
    (doctorLines bareWorkplace (offeringConfig ["get"]) ⟨[offeredServer ["get"]]⟩ none true)[5]? =
        some "x  ✗ not found, will install on first use" ∧
      ∃ cmd, (offeredServer ["get"]).launcher = .command cmd ∧ cmd.canInstall = true ∧
        .runInstaller ∈ (cmd.launch (treeHost [] []) (.ofString "/") bareWorkplace.tree).acts := by
  have hline : (doctorLines bareWorkplace (offeringConfig ["get"]) ⟨[offeredServer ["get"]]⟩ none
      true)[5]? = some "x  ✗ not found, will install on first use" := by
    decide +kernel
  have hallows : ¬ (offeringConfig ["get"]).AllowsWithoutCommand "x" := by
    rintro ⟨s, hs, -, hnone⟩
    cases List.mem_singleton.1 hs
    cases hnone
  have hids : ((offeringConfig ["get"]).servers.map (·.1)).Nodup := List.nodup_singleton "x"
  have hfirst : [offeredServer ["get"]][0]? = some (offeredServer ["get"]) := rfl
  obtain ⟨cmd, hcmd, hflag, hpromise⟩ := promise_kept_iff hids (ofConfig_offering ["get"]) hfirst
  have hlaunch := (hpromise bareWorkplace (isInstalled_offered _) (by decide +kernel)
    (fileCount_offered _) none true (.ofString "/")).2 hallows
  exact ⟨hline, cmd, hcmd, (hflag.2 hallows).1 rfl, hlaunch.1 (hline.trans (by decide +kernel))⟩

/-- Without an install command the promise is made all the same, and no launch keeps it. -/
theorem promise_broken_sample :
    Registry.ofConfig (offeringConfig []) = .ok ⟨[offeredServer []]⟩ ∧
      bareWorkplace.isInstalled (offeredServer []) = false ∧
      (doctorLines bareWorkplace (offeringConfig []) ⟨[offeredServer []]⟩ none true)[5]? =
        some "x  ✗ not found, will install on first use" ∧
      (offeredServer []).installable = true ∧
      ∃ cmd, (offeredServer []).launcher = .command cmd ∧ cmd.canInstall = false ∧
        ∀ root, .runInstaller ∉ (cmd.launch (treeHost [] []) root bareWorkplace.tree).acts := by
  refine ⟨ofConfig_offering [], isInstalled_offered [], by decide +kernel, rfl, _, rfl, rfl, ?_⟩
  intro root hruns
  cases (Command.runInstaller_mem_acts_iff.1 hruns).2

end Sample

end CommandLine

end ServerFleet
