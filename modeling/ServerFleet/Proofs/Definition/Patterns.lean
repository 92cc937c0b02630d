import ServerFleet.Definition.Basic
import ServerFleet.Proofs.Tree.Links

/-!
Lists of root and exclude patterns. A list is refused just when one of its patterns is read as a
glob and is none, and the first such pattern is named; a list that is not refused matches in the
directories that have an entry for one of its patterns. A plain name and a glob for this name alone
differ in one case: in a directory where the entry of this name is a link that leads nowhere.
-/

namespace ServerFleet

variable {server pattern : String} {patterns : List String} {s : PatternSet} {t : Tree}
  {cwd : Location} {dir : Path}

/-- A pattern that is read as a glob and is none. -/
def FaultyPattern (pattern : String) (fault : Glob.Fault) : Prop :=
  hasWildcard pattern = true ∧ Glob.parse patternDialect patternOptions pattern = .error fault

/-- A pattern that is a plain name or a glob. -/
def ValidPattern (pattern : String) : Prop := ∀ fault, ¬ FaultyPattern pattern fault

def FirstFaulty (patterns : List String) (pattern : String) (fault : Glob.Fault) : Prop :=
  ∃ before after, patterns = before ++ pattern :: after ∧ (∀ p ∈ before, ValidPattern p) ∧
    FaultyPattern pattern fault

/-- A directory has an entry for a pattern: there is something under the plain name, or one of the
names in the directory matches the glob. -/
inductive Tree.HasMatch (t : Tree) (cwd : Location) (dir : Path) (pattern : String) : Prop
  | plain (hp : hasWildcard pattern = false)
    (h : t.pathExists cwd (dir.join (.ofString pattern)) = true)
  | glob (hp : hasWildcard pattern = true) {g : Glob} {names : List Bytes} {n : Bytes}
    (hg : Glob.parse patternDialect patternOptions pattern = .ok g)
    (hnames : t.list? cwd dir = some names) (hn : n ∈ names) (hmatch : g.isMatch n = true)

lemma validPattern_iff : ValidPattern pattern ↔
    (hasWildcard pattern = true →
      ∃ g, Glob.parse patternDialect patternOptions pattern = .ok g) := by
  unfold ValidPattern FaultyPattern
  cases Glob.parse patternDialect patternOptions pattern with
  | error fault =>
    constructor
    · intro h hp
      exact absurd ⟨hp, rfl⟩ (h fault)
    · intro h fault' hf
      obtain ⟨g, hg⟩ := h hf.1
      cases hg
  | ok g =>
    constructor
    · intro _ _
      exact ⟨g, rfl⟩
    · rintro - fault ⟨-, hf⟩
      cases hf

lemma validPattern_of_plain (hp : hasWildcard pattern = false) : ValidPattern pattern := by
  rintro fault ⟨hwild, -⟩
  rw [hp] at hwild
  cases hwild

lemma hasMatch_iff_of_plain (hp : hasWildcard pattern = false) :
    t.HasMatch cwd dir pattern ↔ t.pathExists cwd (dir.join (.ofString pattern)) = true := by
  constructor
  · rintro (⟨-, hexists⟩ | ⟨hglob, -⟩)
    · exact hexists
    · rw [hp] at hglob
      cases hglob
  · exact .plain hp

lemma hasMatch_iff_of_glob (hp : hasWildcard pattern = true) {g : Glob}
    (hg : Glob.parse patternDialect patternOptions pattern = .ok g) :
    t.HasMatch cwd dir pattern ↔
      ∃ names, t.list? cwd dir = some names ∧ ∃ n ∈ names, g.isMatch n = true := by
  constructor
  · rintro (⟨hplain, -⟩ | ⟨-, hg', hnames, hn, hmatch⟩)
    · rw [hp] at hplain
      cases hplain
    · rw [hg] at hg'
      cases hg'
      exact ⟨_, hnames, _, hn, hmatch⟩
  · rintro ⟨names, hnames, n, hn, hmatch⟩
    exact .glob hp hg hnames hn hmatch

lemma firstFaulty_cons_of_valid {p : String} (hp : ValidPattern p) {fault : Glob.Fault} :
    FirstFaulty (p :: patterns) pattern fault ↔ FirstFaulty patterns pattern fault := by
  constructor
  · rintro ⟨before, after, happ, hbefore, hf⟩
    cases before with
    | nil =>
      obtain ⟨rfl, rfl⟩ := List.cons.inj happ
      exact absurd hf (hp fault)
    | cons q before =>
      obtain ⟨rfl, rfl⟩ := List.cons.inj happ
      exact ⟨before, after, rfl, (List.forall_mem_cons.1 hbefore).2, hf⟩
  · rintro ⟨before, after, rfl, hbefore, hf⟩
    exact ⟨p :: before, after, rfl, List.forall_mem_cons.2 ⟨hp, hbefore⟩, hf⟩

/-- A list has a first faulty pattern unless all of its patterns are valid. -/
theorem valid_or_firstFaulty (patterns : List String) :
    (∀ p ∈ patterns, ValidPattern p) ∨ ∃ pattern fault, FirstFaulty patterns pattern fault := by
  induction patterns with
  | nil => exact .inl nofun
  | cons p patterns ih =>
    by_cases hp : ValidPattern p
    · obtain hall | ⟨pattern, fault, hf⟩ := ih
      · exact .inl (List.forall_mem_cons.2 ⟨hp, hall⟩)
      · exact .inr ⟨pattern, fault, (firstFaulty_cons_of_valid hp).2 hf⟩
    · obtain ⟨fault, hf⟩ := not_forall_not.1 hp
      exact .inr ⟨p, fault, [], patterns, rfl, nofun, hf⟩

namespace PatternSet

lemma compile_cons_of_faulty {fault : Glob.Fault} (h : FaultyPattern pattern fault) :
    compile server (pattern :: patterns) = .error (.pattern server pattern fault) := by
  rw [compile, if_pos h.1, h.2]

/-- A valid pattern adds what it matches. -/
theorem compile_cons_of_valid (h : ValidPattern pattern) :
    ∃ add : PatternSet → PatternSet,
      compile server (pattern :: patterns) = (compile server patterns).map add ∧
      (∀ s, (add s).isEmpty = false) ∧
      ∀ s t cwd dir, (add s).matchesIn t cwd dir = true ↔
        t.HasMatch cwd dir pattern ∨ s.matchesIn t cwd dir = true := by
  cases hp : hasWildcard pattern with
  | true =>
    obtain ⟨g, hg⟩ := validPattern_iff.1 h hp
    refine ⟨fun s => { s with globs := g :: s.globs }, ?_, fun s => by simp [isEmpty], ?_⟩
    · rw [compile, if_pos hp, hg]
    · intro s t cwd dir
      rw [hasMatch_iff_of_glob hp hg]
      unfold matchesIn
      cases t.list? cwd dir with
      | none => simp
      | some names =>
        simp only [List.any_cons, Bool.or_eq_true, List.any_eq_true, Option.some.injEq,
          exists_eq_left', and_or_left, exists_or]
        exact or_left_comm
  | false =>
    refine ⟨fun s => { s with names := pattern :: s.names }, ?_, fun s => by simp [isEmpty], ?_⟩
    · rw [compile, if_neg (by simp [hp])]
    · intro s t cwd dir
      rw [hasMatch_iff_of_plain hp]
      simp [matchesIn, or_assoc]

lemma compile_of_firstFaulty {fault : Glob.Fault} (h : FirstFaulty patterns pattern fault) :
    compile server patterns = .error (.pattern server pattern fault) := by
  obtain ⟨before, after, rfl, hbefore, hf⟩ := h
  induction before with
  | nil => exact compile_cons_of_faulty hf
  | cons p before ih =>
    obtain ⟨hp, hbefore⟩ := List.forall_mem_cons.1 hbefore
    obtain ⟨add, hadd, -⟩ := @compile_cons_of_valid server p (before ++ pattern :: after) hp
    rw [List.cons_append, hadd, ih hbefore]
    rfl

/-- Valid patterns are compiled to what they match one by one. -/
theorem compile_of_valid (h : ∀ p ∈ patterns, ValidPattern p) :
    ∃ s, compile server patterns = .ok s ∧ (s.isEmpty = true ↔ patterns = []) ∧
      ∀ t cwd dir, s.matchesIn t cwd dir = true ↔ ∃ p ∈ patterns, t.HasMatch cwd dir p := by
  induction patterns with
  | nil =>
    refine ⟨empty, rfl, by simp [isEmpty, empty], fun t cwd dir => ?_⟩
    unfold matchesIn empty
    cases t.list? cwd dir <;> simp
  | cons p patterns ih =>
    obtain ⟨hp, hpatterns⟩ := List.forall_mem_cons.1 h
    obtain ⟨s, hs, -, hmatch⟩ := ih hpatterns
    obtain ⟨add, hadd, hne, hadds⟩ := @compile_cons_of_valid server p patterns hp
    refine ⟨add s, by rw [hadd, hs]; rfl, by simp [hne], fun t cwd dir => ?_⟩
    rw [hadds, hmatch]
    simp

/-- The first faulty pattern is reported. -/
theorem compile_eq_error_iff {e : RegistryError} :
    compile server patterns = .error e ↔
      ∃ p fault, FirstFaulty patterns p fault ∧ e = .pattern server p fault := by
  constructor
  · intro h
    obtain hvalid | ⟨p, fault, hf⟩ := valid_or_firstFaulty patterns
    · obtain ⟨s, hs, -⟩ := @compile_of_valid server _ hvalid
      rw [h] at hs
      cases hs
    · rw [compile_of_firstFaulty hf] at h
      cases h
      exact ⟨p, fault, hf, rfl⟩
  · rintro ⟨p, fault, hf, rfl⟩
    exact compile_of_firstFaulty hf

lemma exists_compile_iff :
    (∃ s, compile server patterns = .ok s) ↔ ∀ p ∈ patterns, ValidPattern p := by
  constructor
  · rintro ⟨s, hs⟩
    obtain hvalid | ⟨p, fault, hf⟩ := valid_or_firstFaulty patterns
    · exact hvalid
    · rw [compile_of_firstFaulty hf] at hs
      cases hs
  · intro h
    obtain ⟨s, hs, -⟩ := @compile_of_valid server _ h
    exact ⟨s, hs⟩

section Compiled

variable (h : compile server patterns = .ok s)
include h

lemma isEmpty_iff : s.isEmpty = true ↔ patterns = [] := by
  obtain ⟨s', hs', hempty, -⟩ := @compile_of_valid server _ (exists_compile_iff.1 ⟨s, h⟩)
  rw [h] at hs'
  cases hs'
  exact hempty

lemma matchesIn_iff :
    s.matchesIn t cwd dir = true ↔ ∃ p ∈ patterns, t.HasMatch cwd dir p := by
  obtain ⟨s', hs', -, hmatch⟩ := @compile_of_valid server _ (exists_compile_iff.1 ⟨s, h⟩)
  rw [h] at hs'
  cases hs'
  exact hmatch t cwd dir

end Compiled

section PlainName

open Bytes (ofString)

variable {names : List Bytes}

/-- A plain name and a globbing pattern for this name alone match in the same directories, except
for those where a link that leads nowhere stands under the name. A glob matches there, and the plain
name does not. -/
theorem matchesIn_name_listed_iff (hp : hasWildcard pattern = false)
    (hn : Tree.IsName (ofString pattern)) (hnames : t.list? cwd dir = some names) :
    ∃ s, compile server [pattern] = .ok s ∧
      ((s.matchesIn t cwd dir = true ↔ ofString pattern ∈ names) ↔
        ¬ t.Dangles cwd dir (ofString pattern)) ∧
      (s.matchesIn t cwd dir = true → ofString pattern ∈ names) ∧
      ∀ g : Glob, (∀ n, g.isMatch n = true ↔ n = ofString pattern) →
        ((⟨[], [g]⟩ : PatternSet).matchesIn t cwd dir = true ↔ ofString pattern ∈ names) := by
  have hvalid : ∀ p ∈ [pattern], ValidPattern p := by
    intro p hp'
    rw [List.mem_singleton.1 hp']
    exact validPattern_of_plain hp
  obtain ⟨s, hs, -, hmatch⟩ := @compile_of_valid server _ hvalid
  obtain ⟨loc, hloc, hdir, hchildren⟩ := Tree.list?_eq_some_iff.1 hnames
  have hplain : s.matchesIn t cwd dir = true ↔
      t.pathExists cwd (dir.join (.ofString pattern)) = true := by
    simp only [hmatch, List.mem_singleton, exists_eq_left, hasMatch_iff_of_plain hp]
  have hlisted : s.matchesIn t cwd dir = true ↔
      ofString pattern ∈ names ∧ ¬ t.Dangles cwd dir (ofString pattern) := by
    rw [hplain, hchildren]
    exact Tree.pathExists_join_name_iff hloc hdir hn
  have hdangles : t.Dangles cwd dir (ofString pattern) → ofString pattern ∈ names := by
    intro hd
    rw [hchildren]
    exact hd.mem_children hloc
  refine ⟨s, hs, ?_, fun h => (hlisted.1 h).1, fun g hg => ?_⟩
  · rw [hlisted]
    tauto
  · unfold matchesIn
    rw [hnames]
    simp [hg]

/-- The tree with the directory `/d`, in which there are a file `r` and a link `l` to nowhere. -/
def sampleTree : Tree :=
  ⟨.ofList [([[100]], .directory), ([[100], [114]], .file [] false),
    ([[100], [108]], .link ⟨[110]⟩)]⟩

/-- The name of the file matches. -/
theorem matchesIn_name_listed_sample :
    ∃ s, compile "a" ["r"] = .ok s ∧ s.matchesIn sampleTree [] ⟨[100]⟩ = true := by
  have hr : ofString "r" = [114] := by decide +kernel
  have hn : Tree.IsName (ofString "r") := by
    rw [hr]
    exact ⟨⟨by decide, by decide⟩, by decide⟩
  obtain ⟨s, hs, hiff, -⟩ := @matchesIn_name_listed_iff "a" "r" sampleTree [] ⟨[100]⟩
    [[114], [108]] (by decide) hn (by decide)
  have hfile : ¬ sampleTree.Dangles [] ⟨[100]⟩ (ofString "r") := by
    rintro ⟨loc, target, hloc, htarget, -⟩
    rw [hr] at htarget
    have hd : sampleTree.locate [] ⟨[100]⟩ = .ok [[100]] := by decide
    rw [hd] at hloc
    cases hloc
    cases htarget
  refine ⟨s, hs, (hiff.2 hfile).2 ?_⟩
  rw [hr]
  decide

/-- The directory lists `l`, which the plain name does not match, but a glob for this name does. -/
theorem matchesIn_name_dangling :
    hasWildcard "l" = false ∧ Tree.IsName (ofString "l") ∧
      sampleTree.list? [] ⟨[100]⟩ = some [[114], [108]] ∧ ofString "l" ∈ [[114], [108]] ∧
      (compile "a" ["l"]).map (·.matchesIn sampleTree [] ⟨[100]⟩) = .ok false ∧
      (compile "a" ["[l]"]).map (·.matchesIn sampleTree [] ⟨[100]⟩) = .ok true := by
  have hl : ofString "l" = [108] := by decide +kernel
  rw [hl]
  refine ⟨by decide, ⟨⟨by decide, by decide⟩, by decide⟩, by decide, by decide, ?_, ?_⟩
  · decide +kernel
  · decide +kernel

end PlainName

end PatternSet

end ServerFleet
