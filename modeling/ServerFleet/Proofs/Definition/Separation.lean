import ServerFleet.Proofs.Definition.Detection
import ServerFleet.Proofs.Registry.Builtin

/-!
Servers that compete for files. If one server excludes all that marks the roots of another, the
roots of both for a file differ, and the root of the other server is above that of the first one.
So it is with the two known servers for scripts.
-/

namespace ServerFleet.ServerDefinition

open ServerFleet.Path

variable {sa sb : ServerSketch} {a b : ServerDefinition} {t : Tree} {cwd la lb : Location}
  {file start ra rb : Path}

lemma parent?_of_detectRoot (h : a.detectRoot t cwd file = some ra) :
    ∃ start, file.parent? = some start := by
  obtain ⟨start, hstart, -⟩ := Option.bind_eq_some_iff.1 h
  exact ⟨start, hstart⟩

lemma components_of_detectRoot (hb : b.Realizes sb) (h : b.detectRoot t cwd file = some rb) :
    rb.components <+: file.components := by
  obtain ⟨start, hstart⟩ := parent?_of_detectRoot h
  have hmem := ((hb.detectRoot_eq_some_iff hstart).1 h).mem
  rw [← properAncestors_of_parent? hstart] at hmem
  exact (components_of_mem_properAncestors hmem).1

section Roots

variable (ha : a.Realizes sa) (hne : a.rootPatterns ≠ [])
  (hsub : ∀ p ∈ a.rootPatterns, p ∈ b.excludePatterns)
include ha hne hsub

/-- Where the one server qualifies the other one is excluded. -/
theorem excludes_of_detectRoot (hra : a.detectRoot t cwd file = some ra) : b.Excludes t cwd ra := by
  obtain ⟨start, hstart⟩ := parent?_of_detectRoot hra
  obtain ⟨below, above, -, hqualifies, -⟩ := (ha.detectRoot_eq_some_iff hstart).1 hra
  rcases hqualifies with hnil | ⟨p, hp, hmatch⟩
  · exact absurd hnil hne
  · exact ⟨p, hsub p hp, hmatch⟩

variable (hb : b.Realizes sb) (hra : a.detectRoot t cwd file = some ra)
  (hrb : b.detectRoot t cwd file = some rb)
include hb hra hrb

lemma mem_properAncestors_of_detectRoot : ra ∈ rb.properAncestors := by
  obtain ⟨start, hstart⟩ := parent?_of_detectRoot hra
  have hnearest := (ha.detectRoot_eq_some_iff hstart).1 hra
  have hexcluded := excludes_of_detectRoot ha hne hsub hra
  exact ((hb.detectRoot_eq_some_iff hstart).1 hrb).mem_properAncestors hnearest.mem hexcluded

/-- The two roots are two directories, however their paths are spelled. -/
theorem locate_ne_of_detectRoot (hl : t.LinkFree) (hla : t.locate cwd ra = .ok la)
    (hlb : t.locate cwd rb = .ok lb) : la ≠ lb := by
  rintro rfl
  obtain ⟨start, hstart⟩ := parent?_of_detectRoot hrb
  obtain ⟨below, above, -, -, -, hnot⟩ := (hb.detectRoot_eq_some_iff hstart).1 hrb
  have hexcluded := hb.excludesDirectory_iff.2 (excludes_of_detectRoot ha hne hsub hra)
  rw [excludesDirectory_eq hl hla hlb, hb.excludesDirectory_iff] at hexcluded
  exact hnot rb (by simp) hexcluded

end Roots

/-- If one server excludes all that marks the roots of another, the root of the other one for a file
is above that of the first one, and so it is never the same or inside it. Without links the roots
are two directories, and without `..` the one contains the other. The known servers for scripts are
such a pair. -/
theorem detectRoot_separated :
    (∀ sa sb a b, ofSketch sa = .ok a → ofSketch sb = .ok b → a.rootPatterns ≠ [] →
      (∀ p ∈ a.rootPatterns, p ∈ b.excludePatterns) →
      ∀ t cwd file ra rb, a.detectRoot t cwd file = some ra → b.detectRoot t cwd file = some rb →
        ra ∈ rb.properAncestors ∧ ra.components <+: rb.components ∧ (ra == rb) = false ∧
          ¬ rb.components <+: ra.components ∧
          (t.LinkFree → ∀ la lb, t.locate cwd ra = .ok la → t.locate cwd rb = .ok lb →
            la ≠ lb ∧ (.up ∉ file.components → la <+: lb))) ∧
      ∃ r deno typescript, Registry.builtin = .ok r ∧ r.get? "deno" = some deno ∧
        r.get? "typescript" = some typescript ∧
        (∀ file e, fileExtension file = some e → e ∈ [".ts", ".tsx", ".js", ".jsx", ".mjs"] →
          deno ∈ r.forFile file ∧ typescript ∈ r.forFile file) ∧
        ∀ t cwd file ra rb, deno.detectRoot t cwd file = some ra →
          typescript.detectRoot t cwd file = some rb →
          ra ∈ rb.properAncestors ∧ (ra == rb) = false := by
  constructor
  · intro sa sb a b hsa hsb hne hsub t cwd file ra rb hra hrb
    have ha := ofSketch_eq_ok_iff.1 hsa
    have hb := ofSketch_eq_ok_iff.1 hsb
    have hmem := mem_properAncestors_of_detectRoot ha hne hsub hb hra hrb
    obtain ⟨hbegins, hlt⟩ := components_of_mem_properAncestors hmem
    have hnot : ¬ rb.components <+: ra.components := fun h => Nat.not_lt.2 h.length_le hlt
    refine ⟨hmem, hbegins, beq_eq_false_of_mem_properAncestors hmem, hnot, ?_⟩
    intro hl la lb hla hlb
    refine ⟨locate_ne_of_detectRoot ha hne hsub hb hra hrb hl hla hlb, fun hup => ?_⟩
    have hfile := components_of_detectRoot hb hrb
    exact hl.prefix_of_locate hla hlb hbegins fun h => hup (hfile.subset h)
  · obtain ⟨r, hr, -, hall⟩ := Registry.exists_get?_builtin
    obtain ⟨deno, hdenoMem, hdeno, hgetDeno⟩ := hall Registry.builtinSketches[0] (by simp)
    obtain ⟨typescript, hscriptMem, hscript, hgetScript⟩ :=
      hall Registry.builtinSketches[1] (by simp)
    refine ⟨r, deno, typescript, hr, hgetDeno, hgetScript, ?_, ?_⟩
    · intro file e hfile he
      have hextensions : ∀ e ∈ [".ts", ".tsx", ".js", ".jsx", ".mjs"],
          e ∈ deno.extensions ∧ e ∈ typescript.extensions := by
        rw [hdeno.extensions, hscript.extensions]
        simp only [mem_normalizedExtensions]
        decide +kernel
      obtain ⟨hhandled, hhandled'⟩ := hextensions e he
      exact ⟨(Registry.mem_forFile hfile).2 ⟨hdenoMem, hhandled⟩,
        (Registry.mem_forFile hfile).2 ⟨hscriptMem, hhandled'⟩⟩
    · intro t cwd file ra rb hra hrb
      have hne : deno.rootPatterns ≠ [] := by
        rw [hdeno.rootPatterns]
        decide
      have hsub : ∀ p ∈ deno.rootPatterns, p ∈ typescript.excludePatterns := by
        rw [hdeno.rootPatterns, hscript.excludePatterns]
        decide
      have hmem := mem_properAncestors_of_detectRoot hdeno hne hsub hscript hra hrb
      exact ⟨hmem, beq_eq_false_of_mem_properAncestors hmem⟩

section Sample

def nestedTree : Tree :=
  ⟨.ofList [([[114]], .file [] false), ([[112]], .directory), ([[112], [119]], .file [] false),
    ([[112], [120, 46, 116, 115]], .file [] false)]⟩

/-- A server whose projects have an entry `w` in their root, but no `r`. -/
def samplePartial : ServerDefinition :=
  ⟨"b", "b", [".ts"], ["w"], ["r"], false, none, ⟨["w"], []⟩, ⟨["r"], []⟩, .hosted⟩

lemma ofSketch_samplePartial :
    ofSketch ⟨"b", "b", [".ts"], ["w"], ["r"], false, none, .hosted⟩ = .ok samplePartial := by
  refine ofSketch_eq_ok_iff.2 ⟨rfl, rfl, ?_, rfl, rfl, rfl, rfl, rfl, rfl, rfl⟩
  decide +kernel

/-- The file `/p/x.ts` has the root `/` for one server and the root `/p` for the other. -/
theorem detectRoot_separated_sample :
    sampleMarked.detectRoot nestedTree [] ⟨[47, 112, 47, 120, 46, 116, 115]⟩ = some ⟨[47]⟩ ∧
      samplePartial.detectRoot nestedTree [] ⟨[47, 112, 47, 120, 46, 116, 115]⟩ =
        some ⟨[47, 112]⟩ ∧
      Path.mk [47] ∈ (Path.mk [47, 112]).properAncestors := by
  have hra : sampleMarked.detectRoot nestedTree [] ⟨[47, 112, 47, 120, 46, 116, 115]⟩ =
      some ⟨[47]⟩ := by
    decide +kernel
  have hrb : samplePartial.detectRoot nestedTree [] ⟨[47, 112, 47, 120, 46, 116, 115]⟩ =
      some ⟨[47, 112]⟩ := by
    decide +kernel
  obtain ⟨hmem, -⟩ := detectRoot_separated.1 _ _ _ _ ofSketch_sampleMarked ofSketch_samplePartial
    (by decide) (by decide) nestedTree [] _ _ _ hra hrb
  exact ⟨hra, hrb, hmem⟩

end Sample

end ServerFleet.ServerDefinition
