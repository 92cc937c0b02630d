import ServerFleet.Proofs.Config.Servers
import ServerFleet.Proofs.Definition.Patterns
import ServerFleet.Proofs.Text.Order

/-!
What becomes of the sketch of a server. Nothing but a faulty pattern is an obstacle, and the
definition says what the sketch did, with the extensions as a set and the patterns compiled.
-/

namespace ServerFleet

variable {s : ServerSketch} {d : ServerDefinition}

namespace ServerSketch

def ValidPatterns (s : ServerSketch) : Prop :=
  (∀ p ∈ s.rootPatterns, ValidPattern p) ∧ ∀ p ∈ s.excludePatterns, ValidPattern p

/-- The pattern that a sketch is refused for: the first faulty root pattern, or the first faulty
exclude pattern if there is no such root pattern. -/
def FirstFaulty (s : ServerSketch) (pattern : String) (fault : Glob.Fault) : Prop :=
  ServerFleet.FirstFaulty s.rootPatterns pattern fault ∨
    (∀ p ∈ s.rootPatterns, ValidPattern p) ∧
      ServerFleet.FirstFaulty s.excludePatterns pattern fault

end ServerSketch

namespace ServerDefinition

/-- A definition says what a sketch does. -/
structure Realizes (d : ServerDefinition) (s : ServerSketch) : Prop where
  id : d.id = s.id
  name : d.name = s.name
  extensions : d.extensions = normalizedExtensions s.extensions
  rootPatterns : d.rootPatterns = s.rootPatterns
  excludePatterns : d.excludePatterns = s.excludePatterns
  installable : d.installable = s.installable
  initialization : d.initialization = s.initialization
  launcher : d.launcher = s.launcher
  roots : PatternSet.compile s.id s.rootPatterns = .ok d.roots
  excludes : PatternSet.compile s.id s.excludePatterns = .ok d.excludes

lemma ofSketch_eq_ok_iff : ofSketch s = .ok d ↔ d.Realizes s := by
  constructor
  · intro h
    obtain ⟨roots, hroots, h⟩ := Except.of_bind_eq_ok h
    obtain ⟨excludes, hexcludes, h⟩ := Except.of_bind_eq_ok h
    cases h
    exact ⟨rfl, rfl, rfl, rfl, rfl, rfl, rfl, rfl, hroots, hexcludes⟩
  · intro h
    unfold ofSketch
    rw [h.roots, h.excludes, ← h.id, ← h.name, ← h.extensions, ← h.rootPatterns,
      ← h.excludePatterns, ← h.installable, ← h.initialization, ← h.launcher]
    rfl

lemma exists_ofSketch_iff : (∃ d, ofSketch s = .ok d) ↔ s.ValidPatterns := by
  constructor
  · rintro ⟨d, hd⟩
    have hr := ofSketch_eq_ok_iff.1 hd
    exact ⟨PatternSet.exists_compile_iff.1 ⟨_, hr.roots⟩,
      PatternSet.exists_compile_iff.1 ⟨_, hr.excludes⟩⟩
  · rintro ⟨hroots, hexcludes⟩
    obtain ⟨roots, hr⟩ := (@PatternSet.exists_compile_iff s.id _).2 hroots
    obtain ⟨excludes, he⟩ := (@PatternSet.exists_compile_iff s.id _).2 hexcludes
    have hd : ∃ d, ofSketch s = .ok d := by
      unfold ofSketch
      rw [hr, he]
      exact ⟨_, rfl⟩
    exact hd

lemma mem_normalizedExtensions {es : List String} {e : String} :
    e ∈ normalizedExtensions es ↔ ∃ x ∈ es, x ≠ "" ∧ withDot x = e := by
  simp [normalizedExtensions, mem_sortedTexts, and_assoc]

end ServerDefinition

end ServerFleet
