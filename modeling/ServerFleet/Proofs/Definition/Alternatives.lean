import ServerFleet.Proofs.Definition.Detection

/-!
Lists of patterns as sets. Whether a list is compiled and where it matches depends on the patterns
that it has, not on their order or number, and a list of two parts matches where one of the parts
does. So a server finds the same roots in whatever order its patterns are written.
-/

namespace ServerFleet

variable {server server' pattern : String} {ps qs : List String} {s s' u : PatternSet}

lemma hasWildcard_iff :
    hasWildcard pattern = true ↔ ∃ c ∈ ['*', '?', '[', '\x7b'], c ∈ pattern.toList := by
  unfold hasWildcard
  rw [List.any_eq_true]
  constructor
  · rintro ⟨c, hc, hwild⟩
    exact ⟨c, by simpa [or_assoc] using hwild, hc⟩
  · rintro ⟨c, hwild, hc⟩
    exact ⟨c, hc, by simpa [or_assoc] using hwild⟩

namespace PatternSet

section Sets

variable (h : ∀ p, p ∈ ps ↔ p ∈ qs)
include h

/-- The same patterns are compiled or refused together. -/
theorem exists_compile_congr :
    (∃ s, compile server ps = .ok s) ↔ ∃ s, compile server' qs = .ok s := by
  simp only [exists_compile_iff, h]

variable (hs : compile server ps = .ok s) (hs' : compile server' qs = .ok s')
include hs hs'

lemma isEmpty_eq_of_mem_iff : s.isEmpty = s'.isEmpty := by
  rw [Bool.eq_iff_iff, isEmpty_iff hs, isEmpty_iff hs', List.eq_nil_iff_forall_not_mem,
    List.eq_nil_iff_forall_not_mem]
  simp only [h]

/-- The same patterns match in the same directories. -/
theorem matchesIn_eq_of_mem_iff (t : Tree) (cwd : Location) (dir : Path) :
    s.matchesIn t cwd dir = s'.matchesIn t cwd dir := by
  rw [Bool.eq_iff_iff, matchesIn_iff hs, matchesIn_iff hs']
  simp only [h]

end Sets

/-- A list of two parts is compiled just when both of them are. -/
theorem exists_compile_append :
    (∃ u, compile server (ps ++ qs) = .ok u) ↔
      (∃ s, compile server ps = .ok s) ∧ ∃ s', compile server qs = .ok s' := by
  simp only [exists_compile_iff, List.forall_mem_append]

/-- A list of two parts matches where one of them does. -/
theorem matchesIn_append (hs : compile server ps = .ok s) (hs' : compile server qs = .ok s')
    (hu : compile server (ps ++ qs) = .ok u) (t : Tree) (cwd : Location) (dir : Path) :
    u.matchesIn t cwd dir = (s.matchesIn t cwd dir || s'.matchesIn t cwd dir) := by
  rw [Bool.eq_iff_iff, Bool.or_eq_true, matchesIn_iff hu, matchesIn_iff hs, matchesIn_iff hs']
  simp only [List.mem_append, or_and_right, exists_or]

/-- A list is refused for a pattern with a wildcard character that is no glob. -/
theorem exists_compile_eq_error_iff :
    (∃ e, compile server ps = .error e) ↔
      ∃ p ∈ ps, hasWildcard p = true ∧
        ∃ fault, Glob.parse patternDialect patternOptions p = .error fault := by
  constructor
  · rintro ⟨e, he⟩
    obtain ⟨p, fault, ⟨before, after, rfl, -, hwild, hparse⟩, -⟩ := compile_eq_error_iff.1 he
    exact ⟨p, by simp, hwild, fault, hparse⟩
  · rintro ⟨p, hp, hwild, fault, hparse⟩
    obtain hvalid | ⟨q, fault', hfirst⟩ := valid_or_firstFaulty ps
    · exact absurd ⟨hwild, hparse⟩ (hvalid p hp fault)
    · exact ⟨_, compile_of_firstFaulty hfirst⟩

end PatternSet

namespace ServerDefinition

variable {sa sb : ServerSketch} {a b : ServerDefinition} {t : Tree} {cwd : Location}

lemma firstRoot?_eq_of_forall
    (hexcludes : ∀ dir, a.excludesDirectory t cwd dir = b.excludesDirectory t cwd dir)
    (hroots : ∀ dir, a.isRootDirectory t cwd dir = b.isRootDirectory t cwd dir)
    (dirs : List Path) : a.firstRoot? t cwd dirs = b.firstRoot? t cwd dirs := by
  induction dirs with
  | nil => rfl
  | cons dir rest ih => simp only [firstRoot?, hexcludes, hroots, ih]

/-- Servers with the same root patterns and the same exclude patterns find the same roots. -/
theorem detectRoot_eq_of_mem_iff (ha : a.Realizes sa) (hb : b.Realizes sb)
    (hroots : ∀ p, p ∈ sa.rootPatterns ↔ p ∈ sb.rootPatterns)
    (hexcludes : ∀ p, p ∈ sa.excludePatterns ↔ p ∈ sb.excludePatterns) (file : Path) :
    a.detectRoot t cwd file = b.detectRoot t cwd file := by
  have hexcluded (dir : Path) : a.excludesDirectory t cwd dir = b.excludesDirectory t cwd dir := by
    unfold excludesDirectory
    rw [PatternSet.isEmpty_eq_of_mem_iff hexcludes ha.excludes hb.excludes,
      PatternSet.matchesIn_eq_of_mem_iff hexcludes ha.excludes hb.excludes]
  have hroot (dir : Path) : a.isRootDirectory t cwd dir = b.isRootDirectory t cwd dir := by
    unfold isRootDirectory
    rw [PatternSet.isEmpty_eq_of_mem_iff hroots ha.roots hb.roots,
      PatternSet.matchesIn_eq_of_mem_iff hroots ha.roots hb.roots]
  unfold detectRoot
  cases file.parent? with
  | none => rfl
  | some start => exact firstRoot?_eq_of_forall hexcluded hroot start.ancestors

end ServerDefinition

namespace PatternSet

/-- A list of patterns counts as a set. It matches where one of its patterns does. Lists with the
same patterns are both compiled or both refused, and match in the same directories of every tree, so
that servers with the same patterns find the same roots. A list of two parts is compiled if both
parts are, and matches where one of them does. A list is refused just when one of its patterns has a
wildcard character and is no glob, and the first such pattern is named. -/
theorem compile_setwise :
    (∀ (server : String) (ps : List String) (s : PatternSet), compile server ps = .ok s →
      (s.isEmpty = true ↔ ps = []) ∧
      ∀ t cwd dir, s.matchesIn t cwd dir = true ↔ ∃ p ∈ ps, t.HasMatch cwd dir p) ∧
    (∀ (server : String) (ps qs : List String), (∀ p, p ∈ ps ↔ p ∈ qs) →
      ((∃ s, compile server ps = .ok s) ↔ ∃ s', compile server qs = .ok s') ∧
      ∀ s s', compile server ps = .ok s → compile server qs = .ok s' →
        s.isEmpty = s'.isEmpty ∧
          ∀ t cwd dir, s.matchesIn t cwd dir = s'.matchesIn t cwd dir) ∧
    (∀ (server : String) (ps qs : List String),
      ((∃ u, compile server (ps ++ qs) = .ok u) ↔
        (∃ s, compile server ps = .ok s) ∧ ∃ s', compile server qs = .ok s') ∧
      ∀ s s' u, compile server ps = .ok s → compile server qs = .ok s' →
        compile server (ps ++ qs) = .ok u →
          ∀ t cwd dir, u.matchesIn t cwd dir = (s.matchesIn t cwd dir || s'.matchesIn t cwd dir)) ∧
    (∀ (server : String) (ps : List String),
      ((∃ e, compile server ps = .error e) ↔
        ∃ p ∈ ps, (∃ c ∈ ['*', '?', '[', '\x7b'], c ∈ p.toList) ∧
          ∃ fault, Glob.parse patternDialect patternOptions p = .error fault) ∧
      (∀ e, compile server ps = .error e ↔
        ∃ p fault, FirstFaulty ps p fault ∧ e = .pattern server p fault) ∧
      ((∀ p ∈ ps, ∀ c ∈ ['*', '?', '[', '\x7b'], c ∉ p.toList) →
        ∃ s, compile server ps = .ok s)) ∧
    ∀ sa sb : ServerSketch, (∀ p, p ∈ sa.rootPatterns ↔ p ∈ sb.rootPatterns) →
      (∀ p, p ∈ sa.excludePatterns ↔ p ∈ sb.excludePatterns) →
      ((∃ a, ServerDefinition.ofSketch sa = .ok a) ↔ ∃ b, ServerDefinition.ofSketch sb = .ok b) ∧
      ∀ a b, ServerDefinition.ofSketch sa = .ok a → ServerDefinition.ofSketch sb = .ok b →
        ∀ t cwd file, a.detectRoot t cwd file = b.detectRoot t cwd file := by
  refine ⟨fun server ps s hs => ⟨isEmpty_iff hs, fun t cwd dir => matchesIn_iff hs⟩,
    fun server ps qs h => ⟨exists_compile_congr h, fun s s' hs hs' => ?_⟩,
    fun server ps qs => ⟨exists_compile_append, fun s s' u hs hs' hu => ?_⟩,
    fun server ps => ⟨?_, fun e => compile_eq_error_iff, fun hplain => ?_⟩,
    fun sa sb hroots hexcludes => ⟨?_, fun a b ha hb t cwd file => ?_⟩⟩
  · exact ⟨isEmpty_eq_of_mem_iff h hs hs', matchesIn_eq_of_mem_iff h hs hs'⟩
  · exact matchesIn_append hs hs' hu
  · simp only [exists_compile_eq_error_iff, hasWildcard_iff]
  · refine exists_compile_iff.2 fun p hp => validPattern_of_plain ?_
    rw [Bool.eq_false_iff, Ne, hasWildcard_iff]
    rintro ⟨c, hwild, hc⟩
    exact hplain p hp c hwild hc
  · simp only [ServerDefinition.exists_ofSketch_iff, ServerSketch.ValidPatterns, hroots, hexcludes]
  · exact ServerDefinition.detectRoot_eq_of_mem_iff (ServerDefinition.ofSketch_eq_ok_iff.1 ha)
      (ServerDefinition.ofSketch_eq_ok_iff.1 hb) hroots hexcludes file

/-- From within `/d` the empty path has an entry `r`, but cannot be listed. There the glob `[r]`
does not match, and its place beside the plain name makes no difference. -/
theorem compile_setwise_sample :
    sampleTree.list? [[100]] ⟨[]⟩ = none ∧
      ∃ s s' w u, compile "a" ["r", "[r]"] = .ok s ∧ compile "a" ["[r]", "r", "[r]"] = .ok s' ∧
        compile "a" ["*", "[r]"] = .ok w ∧ compile "a" (["*", "[r]"] ++ ["r", "[r]"]) = .ok u ∧
        s.matchesIn sampleTree [[100]] ⟨[]⟩ = true ∧ s'.matchesIn sampleTree [[100]] ⟨[]⟩ = true ∧
        w.matchesIn sampleTree [[100]] ⟨[]⟩ = false ∧
        u.matchesIn sampleTree [[100]] ⟨[]⟩ = true := by
  obtain ⟨-, hsets, hparts, -⟩ := compile_setwise
  obtain ⟨s, hs, hmatch⟩ : ∃ s, compile "a" ["r", "[r]"] = .ok s ∧
      s.matchesIn sampleTree [[100]] ⟨[]⟩ = true := ⟨_, rfl, by decide +kernel⟩
  obtain ⟨w, hw, hno⟩ : ∃ w, compile "a" ["*", "[r]"] = .ok w ∧
      w.matchesIn sampleTree [[100]] ⟨[]⟩ = false := ⟨_, rfl, by decide +kernel⟩
  obtain ⟨hcompiled, hsame⟩ := hsets "a" ["r", "[r]"] ["[r]", "r", "[r]"] (by simp [or_comm])
  obtain ⟨s', hs'⟩ := hcompiled.1 ⟨s, hs⟩
  obtain ⟨hjoined, hunion⟩ := hparts "a" ["*", "[r]"] ["r", "[r]"]
  obtain ⟨u, hu⟩ := hjoined.2 ⟨⟨w, hw⟩, s, hs⟩
  refine ⟨by decide, s, s', w, u, hs, hs', hw, hu, hmatch, ?_, hno, ?_⟩
  · rw [← (hsame s s' hs hs').2, hmatch]
  · rw [hunion w s u hw hs hu, hno, hmatch]
    rfl

end PatternSet

end ServerFleet
