import ServerFleet.Proofs.Definition.Root
import ServerFleet.Proofs.Definition.Sketch

/-!
What the search for the root of a project finds, in any tree and for any path. It is the first
directory of the chain that qualifies as a root, provided that no directory up to it is excluded. So
nothing above the root counts, and the root is found again from the files in it.
-/

namespace ServerFleet.ServerDefinition

open ServerFleet.Path

variable {s : ServerSketch} {d : ServerDefinition} {t t' : Tree} {cwd cwd' : Location}
  {file file' start start' dir root : Path} {dirs dirs' : List Path}

/-- A directory has an entry for an exclude pattern. -/
def Excludes (d : ServerDefinition) (t : Tree) (cwd : Location) (dir : Path) : Prop :=
  ∃ p ∈ d.excludePatterns, t.HasMatch cwd dir p

/-- A directory has an entry for a root pattern, or there is no pattern to ask for. -/
def Qualifies (d : ServerDefinition) (t : Tree) (cwd : Location) (dir : Path) : Prop :=
  d.rootPatterns = [] ∨ ∃ p ∈ d.rootPatterns, t.HasMatch cwd dir p

/-- The first directory of a chain that qualifies, if none up to it is excluded. -/
def IsNearestRoot (d : ServerDefinition) (t : Tree) (cwd : Location) (dirs : List Path)
    (root : Path) : Prop :=
  ∃ below above, dirs = below ++ root :: above ∧ d.Qualifies t cwd root ∧
    (∀ dir ∈ below, ¬ d.Qualifies t cwd dir) ∧ ∀ dir ∈ below ++ [root], ¬ d.Excludes t cwd dir

section Realized

variable (h : d.Realizes s)
include h

lemma Realizes.excludesDirectory_iff :
    d.excludesDirectory t cwd dir = true ↔ d.Excludes t cwd dir := by
  have hempty := PatternSet.isEmpty_iff h.excludes
  unfold excludesDirectory Excludes
  rw [Bool.and_eq_true, PatternSet.matchesIn_iff h.excludes, h.excludePatterns]
  constructor
  · exact And.right
  · rintro ⟨p, hp, hmatch⟩
    have hne : d.excludes.isEmpty = false := by
      rw [Bool.eq_false_iff, Ne, hempty]
      exact List.ne_nil_of_mem hp
    exact ⟨by rw [hne]; rfl, p, hp, hmatch⟩

lemma Realizes.isRootDirectory_iff :
    d.isRootDirectory t cwd dir = true ↔ d.Qualifies t cwd dir := by
  unfold isRootDirectory Qualifies
  rw [Bool.or_eq_true, PatternSet.isEmpty_iff h.roots, PatternSet.matchesIn_iff h.roots,
    h.rootPatterns]

lemma Realizes.decides_eq_false_iff :
    d.decides t cwd dir = false ↔ ¬ d.Excludes t cwd dir ∧ ¬ d.Qualifies t cwd dir := by
  rw [decides, Bool.or_eq_false_iff, ← h.excludesDirectory_iff, ← h.isRootDirectory_iff,
    Bool.not_eq_true, Bool.not_eq_true]

lemma Realizes.firstRoot?_eq_some_iff :
    d.firstRoot? t cwd dirs = some root ↔ d.IsNearestRoot t cwd dirs root := by
  rw [firstRoot?_eq, Option.filter_eq_some_iff, List.find?_eq_some_iff_append]
  constructor
  · rintro ⟨⟨hdecides, below, above, hdirs, hbelow⟩, hroot⟩
    have hroot : ¬ d.Excludes t cwd root := by
      rw [← h.excludesDirectory_iff]
      simpa using hroot
    have hpassed (dir : Path) (hdir : dir ∈ below) :
        ¬ d.Excludes t cwd dir ∧ ¬ d.Qualifies t cwd dir :=
      h.decides_eq_false_iff.1 (by simpa using hbelow dir hdir)
    refine ⟨below, above, hdirs, ?_, fun dir hdir => (hpassed dir hdir).2, fun dir hdir => ?_⟩
    · by_contra hnot
      rw [h.decides_eq_false_iff.2 ⟨hroot, hnot⟩] at hdecides
      cases hdecides
    · rcases List.mem_append.1 hdir with hdir | hdir
      · exact (hpassed dir hdir).1
      · rw [List.mem_singleton.1 hdir]
        exact hroot
  · rintro ⟨below, above, hdirs, hqualifies, hbelow, hnot⟩
    refine ⟨⟨?_, below, above, hdirs, fun dir hdir => ?_⟩, ?_⟩
    · rw [decides, h.isRootDirectory_iff.2 hqualifies, Bool.or_true]
    · rw [h.decides_eq_false_iff.2 ⟨hnot dir (List.mem_append_left _ hdir), hbelow dir hdir⟩]
      rfl
    · have hroot : d.excludesDirectory t cwd root ≠ true := by
        rw [Ne, h.excludesDirectory_iff]
        exact hnot root (by simp)
      simpa using hroot

lemma Realizes.detectRoot_eq_some_iff (hstart : file.parent? = some start) :
    d.detectRoot t cwd file = some root ↔ d.IsNearestRoot t cwd start.ancestors root := by
  rw [detectRoot, hstart]
  exact h.firstRoot?_eq_some_iff

end Realized

namespace IsNearestRoot

/-- An excluded directory is above the root. -/
theorem mem_properAncestors (h : d.IsNearestRoot t cwd start.ancestors root)
    (hdir : dir ∈ start.ancestors) (hex : d.Excludes t cwd dir) : dir ∈ root.properAncestors := by
  obtain ⟨below, above, hchain, -, -, hnot⟩ := h
  have hcase : dir ∈ below ++ [root] ∨ dir ∈ above := by
    rw [hchain] at hdir
    simpa [or_assoc] using hdir
  rcases hcase with hpassed | habove
  · exact absurd hex (hnot dir hpassed)
  · rw [properAncestors_of_chain hchain]
    exact habove

/-- Only what is not above the root counts. -/
theorem congr (h : d.IsNearestRoot t cwd start.ancestors root)
    (hsame : ∀ dir ∈ start.ancestors, dir ∉ root.properAncestors →
      ((d.Qualifies t' cwd' dir ↔ d.Qualifies t cwd dir) ∧
        (d.Excludes t' cwd' dir ↔ d.Excludes t cwd dir))) :
    d.IsNearestRoot t' cwd' start.ancestors root := by
  obtain ⟨below, above, hchain, hqualifies, hbelow, hnot⟩ := h
  have hpassed (dir : Path) (hdir : dir ∈ below ++ [root]) :
      (d.Qualifies t' cwd' dir ↔ d.Qualifies t cwd dir) ∧
        (d.Excludes t' cwd' dir ↔ d.Excludes t cwd dir) := by
    refine hsame dir ?_ ?_
    · rw [hchain, ← List.singleton_append, ← List.append_assoc]
      exact List.mem_append_left _ hdir
    · rcases List.mem_append.1 hdir with hdir | hdir
      · exact properAncestors_asymm (mem_properAncestors_of_chain hchain hdir)
      · rw [List.mem_singleton.1 hdir]
        exact notMem_properAncestors root
  refine ⟨below, above, hchain, ?_, fun dir hdir => ?_, fun dir hdir => ?_⟩
  · exact (hpassed root (by simp)).1.2 hqualifies
  · exact mt (hpassed dir (List.mem_append_left _ hdir)).1.1 (hbelow dir hdir)
  · exact mt (hpassed dir hdir).2.1 (hnot dir hdir)

/-- From within it a root is found at once. -/
theorem self (h : d.IsNearestRoot t cwd dirs root) : d.IsNearestRoot t cwd root.ancestors root := by
  obtain ⟨below, above, -, hqualifies, -, hnot⟩ := h
  refine ⟨[], root.properAncestors, rfl, hqualifies, nofun, fun dir hdir => ?_⟩
  exact hnot dir (List.mem_append_right _ hdir)

lemma mem (h : d.IsNearestRoot t cwd dirs root) : root ∈ dirs := by
  obtain ⟨below, above, rfl, -⟩ := h
  simp

end IsNearestRoot

lemma firstRoot?_congr (h : List.Forall₂ (fun a b => (a == b) = true) dirs dirs') :
    Option.Rel (fun a b => (a == b) = true) (d.firstRoot? t cwd dirs)
      (d.firstRoot? t cwd dirs') := by
  induction h with
  | nil => exact .none
  | @cons a b dirs dirs' hab _ ih =>
    have hexcludes : d.excludesDirectory t cwd a = d.excludesDirectory t cwd b := by
      rw [excludesDirectory, Tree.matchesIn_congr hab, excludesDirectory]
    have hroot : d.isRootDirectory t cwd a = d.isRootDirectory t cwd b := by
      rw [isRootDirectory, Tree.matchesIn_congr hab, isRootDirectory]
    rw [firstRoot?, firstRoot?, hexcludes, hroot]
    split
    · exact .none
    · split
      · exact .some hab
      · exact ih

/-- Files of one directory have one root, in the spelling of their own paths. -/
theorem detectRoot_congr (hstart : file.parent? = some start)
    (hstart' : file'.parent? = some start') (h : (start == start') = true) :
    Option.Rel (fun a b => (a == b) = true) (d.detectRoot t cwd file)
      (d.detectRoot t cwd file') := by
  rw [detectRoot, detectRoot, hstart, hstart']
  exact firstRoot?_congr (ancestors_congr h)

/-- The root of a file is the root of every file in it. -/
theorem Realizes.detectRoot_join (h : d.Realizes s) (hstart : file.parent? = some start)
    (hroot : d.detectRoot t cwd file = some root) {n : Bytes} (hn : Tree.IsName n) :
    d.detectRoot t cwd (root.join ⟨n⟩) = some root := by
  have hnearest := (h.detectRoot_eq_some_iff hstart).1 hroot
  have hmem : root ∈ file.properAncestors := by
    rw [properAncestors_of_parent? hstart]
    exact hnearest.mem
  exact (h.detectRoot_eq_some_iff (parent?_join hmem hn.toIsStep)).2 hnearest.self

/-- The search yields the nearest root of the chain above a file, if there is one. An excluded
directory is above every root that is found, also when it matches a root pattern, and what is above
the root does not count. The files of one directory have one root, and so do the files that stand in
the root itself. -/
theorem detectRoot_nearest (hs : ofSketch s = .ok d) (hstart : file.parent? = some start) :
    (∀ root, d.detectRoot t cwd file = some root ↔ d.IsNearestRoot t cwd start.ancestors root) ∧
      (d.detectRoot t cwd file = none ↔ ∀ root, ¬ d.IsNearestRoot t cwd start.ancestors root) ∧
      (∀ root ∈ d.detectRoot t cwd file, ∀ dir ∈ start.ancestors, d.Excludes t cwd dir →
        dir ∈ root.properAncestors) ∧
      (∀ root ∈ d.detectRoot t cwd file, ∀ t' cwd',
        (∀ dir ∈ start.ancestors, dir ∉ root.properAncestors →
          ((d.Qualifies t' cwd' dir ↔ d.Qualifies t cwd dir) ∧
            (d.Excludes t' cwd' dir ↔ d.Excludes t cwd dir))) →
        d.detectRoot t' cwd' file = some root) ∧
      (∀ file', file'.parent? = some start → d.detectRoot t cwd file' = d.detectRoot t cwd file) ∧
      (∀ file' start', file'.parent? = some start' → (start == start') = true →
        Option.Rel (fun a b => (a == b) = true) (d.detectRoot t cwd file)
          (d.detectRoot t cwd file')) ∧
      ∀ root ∈ d.detectRoot t cwd file, ∀ n, Tree.IsName n →
        d.detectRoot t cwd (root.join ⟨n⟩) = some root := by
  have h := ofSketch_eq_ok_iff.1 hs
  have hiff {t : Tree} {cwd : Location} {root : Path} :
      d.detectRoot t cwd file = some root ↔ d.IsNearestRoot t cwd start.ancestors root :=
    h.detectRoot_eq_some_iff hstart
  refine ⟨fun root => hiff, ?_, ?_, ?_, ?_, ?_, ?_⟩
  · simp only [Option.eq_none_iff_forall_ne_some, ne_eq, hiff]
  · intro root hroot dir hdir hex
    exact (hiff.1 hroot).mem_properAncestors hdir hex
  · intro root hroot t' cwd' hsame
    exact hiff.2 ((hiff.1 hroot).congr hsame)
  · intro file' hstart'
    rw [detectRoot, hstart', detectRoot, hstart]
  · intro file' start' hstart' hsame
    exact detectRoot_congr hstart hstart' hsame
  · intro root hroot n hn
    exact h.detectRoot_join hstart hroot hn

section Sample

lemma ofSketch_sampleMarked :
    ofSketch ⟨"a", "a", [".ts"], ["r"], [], false, none, .hosted⟩ = .ok sampleMarked := by
  refine ofSketch_eq_ok_iff.2 ⟨rfl, rfl, ?_, rfl, rfl, rfl, rfl, rfl, rfl, rfl⟩
  decide +kernel

/-- The file `/p/x.ts` has the root `/p`, and so has every other file there. -/
theorem detectRoot_nearest_sample :
    sampleMarked.IsNearestRoot sampleTree [] (Path.mk [47, 112]).ancestors ⟨[47, 112]⟩ ∧
      ∀ n, Tree.IsName n →
        sampleMarked.detectRoot sampleTree [] ((Path.mk [47, 112]).join ⟨n⟩) =
          some ⟨[47, 112]⟩ := by
  have hstart : (Path.mk [47, 112, 47, 120, 46, 116, 115]).parent? = some ⟨[47, 112]⟩ := by
    decide +kernel
  have hroot : sampleMarked.detectRoot sampleTree [] ⟨[47, 112, 47, 120, 46, 116, 115]⟩ =
      some ⟨[47, 112]⟩ := by
    decide +kernel
  obtain ⟨hiff, -, -, -, -, -, hjoin⟩ :=
    @detectRoot_nearest _ _ sampleTree [] _ _ ofSketch_sampleMarked hstart
  exact ⟨(hiff _).1 hroot, hjoin _ hroot⟩

end Sample

end ServerFleet.ServerDefinition
