import Mathlib.Logic.Relation
import ServerFleet.Proofs.Path.Ancestry

/-!
The spellings of one path. Separators may be repeated or stand at the end, and a `.` may stand
behind a separator. Two spellings name the same path just when they become equal once all of this is
left out, and what a path is hashed by does not depend on it either. A `..` is never left out.
-/

namespace ServerFleet

open Relation (ReflTransGen)

namespace Bytes

variable {sep : UInt8}

lemma intercalate_cons {parts : List Bytes} (h : parts ≠ []) (part : Bytes) :
    [sep].intercalate (part :: parts) = part ++ sep :: [sep].intercalate parts := by
  rw [List.intercalate_cons_of_ne_nil h, List.append_assoc, List.singleton_append]

lemma intercalate_append {xs ys : List Bytes} (hx : xs ≠ []) (hy : ys ≠ []) :
    [sep].intercalate (xs ++ ys) = [sep].intercalate xs ++ sep :: [sep].intercalate ys := by
  induction xs with
  | nil => exact absurd rfl hx
  | cons x xs ih =>
    by_cases hxs : xs = []
    · subst hxs
      rw [List.intercalate_singleton]
      exact intercalate_cons hy x
    · have hne : xs ++ ys ≠ [] := by simp [hxs]
      rw [List.cons_append, intercalate_cons hne, intercalate_cons hxs, ih hxs, List.append_assoc,
        List.cons_append]

end Bytes

namespace Path

open Bytes

variable {p q : Path}

section Parts

variable {part : Bytes}

lemma spelling_ofSegment? {c : Component} (h : Component.ofSegment? part = some c) :
    c.spelling = part := by
  unfold Component.ofSegment? at h
  split at h
  · cases h
  · split at h
    · cases h
    · split at h
      · next hup =>
        cases h
        exact hup.symm
      · cases h
        rfl

lemma map_spelling_filterMap (parts : List Bytes) :
    (parts.filterMap Component.ofSegment?).map Component.spelling =
      parts.filter (!insignificant ·) := by
  induction parts with
  | nil => rfl
  | cons part parts ih =>
    cases hpart : insignificant part with
    | true =>
      rw [List.filterMap_cons_none (ofSegment?_eq_none_iff.2 hpart),
        List.filter_cons_of_neg (by simp [hpart]), ih]
    | false =>
      obtain ⟨c, -, hc⟩ := exists_ofSegment? hpart
      rw [List.filterMap_cons_some hc, List.filter_cons_of_pos (by simp [hpart]), List.map_cons,
        spelling_ofSegment? hc, ih]

lemma bytes_eq (p : Path) : p.bytes = [slash].intercalate p.segments :=
  (List.intercalate_splitOn slash).symm

lemma map_spelling_components {parts : List Bytes} (hs : p.segments = part :: parts)
    (habs : p.isAbsolute = false) (hne : part ≠ []) :
    p.components.map Component.spelling = part :: parts.filter (!insignificant ·) := by
  rw [components, front, if_neg (by simp [habs]), List.map_append, map_spelling_filterMap, hs]
  by_cases hdot : part = [dot]
  · subst hdot
    rfl
  · have hpart : insignificant part = false := by simp [insignificant, hne, hdot]
    rw [if_neg (by simpa using hdot), List.filter_cons_of_pos (by simp [hpart])]
    rfl

/-- The three kinds of paths: absolute ones, the empty one, and the others, which begin with a part
that is a component. -/
theorem segments_cases (p : Path) :
    (∃ parts ≠ [], p.segments = [] :: parts ∧
      p.components = .root :: parts.filterMap Component.ofSegment?) ∨
    (p.segments = [[]] ∧ p.components = []) ∨
    ∃ part ≠ [], ∃ parts, p.segments = part :: parts ∧ .root ∉ p.components ∧
      p.components.map Component.spelling = part :: parts.filter (!insignificant ·) := by
  cases habs : p.isAbsolute with
  | true =>
    obtain ⟨parts, hne, hs⟩ := isAbsolute_iff.1 habs
    refine .inl ⟨parts, hne, hs, ?_⟩
    rw [components, front, if_pos habs, hs]
    rfl
  | false =>
    obtain ⟨part, parts, hs⟩ : ∃ part parts, p.segments = part :: parts :=
      List.exists_cons_of_ne_nil (List.splitOn_ne_nil slash p.bytes)
    by_cases hnil : part = []
    · subst hnil
      have hparts : parts = [] := by
        by_contra hne
        rw [isAbsolute_iff.2 ⟨parts, hne, hs⟩] at habs
        cases habs
      subst hparts
      refine .inr (.inl ⟨hs, ?_⟩)
      rw [components_eq_nil_iff, bytes_eq, hs]
      rfl
    · refine .inr (.inr ⟨part, hnil, parts, hs, ?_, map_spelling_components hs habs hnil⟩)
      rw [root_mem_components, habs]
      exact Bool.false_ne_true

end Parts

/-- A spelling and one that leaves a separator or a `.` out. -/
inductive Shortens : Path → Path → Prop
  /-- A separator that stands behind another one. -/
  | repeated (a b : Bytes) : Shortens ⟨a ++ slash :: slash :: b⟩ ⟨a ++ slash :: b⟩
  /-- A separator at the end, unless it is the root directory. -/
  | trailing {a : Bytes} (h : a ≠ []) : Shortens ⟨a ++ [slash]⟩ ⟨a⟩
  /-- A `.` between separators. -/
  | inner (a b : Bytes) : Shortens ⟨a ++ slash :: dot :: slash :: b⟩ ⟨a ++ slash :: b⟩
  /-- A `.` behind the last separator. -/
  | last (a : Bytes) : Shortens ⟨a ++ [slash, dot]⟩ ⟨a ++ [slash]⟩

lemma isAbsolute_append_slash (a b b' : Bytes) :
    isAbsolute ⟨a ++ slash :: b⟩ = isAbsolute ⟨a ++ slash :: b'⟩ := by
  cases a <;> rfl

/-- Paths that begin with the same parts and go on with the same steps have the same components. -/
theorem components_of_segments (lead xs ys : List Bytes) (hlead : lead ≠ [])
    (hp : p.segments = lead ++ xs) (hq : q.segments = lead ++ ys)
    (habs : p.isAbsolute = q.isAbsolute)
    (h : xs.filterMap Component.ofSegment? = ys.filterMap Component.ofSegment?) :
    p.components = q.components := by
  have hhead : p.segments.head? = q.segments.head? := by
    rw [hp, hq, List.head?_append_of_ne_nil _ hlead, List.head?_append_of_ne_nil _ hlead]
  have hfront : p.front = q.front := by
    unfold front
    rw [habs, hhead]
  rw [components, components, hfront, hp, hq, List.filterMap_append, List.filterMap_append, h]

/-- What is left out is no component. -/
theorem Shortens.components_eq (h : Shortens p q) : p.components = q.components := by
  cases h with
  | repeated a b =>
    refine components_of_segments (a.splitOn slash) ([] :: b.splitOn slash) (b.splitOn slash)
      (List.splitOn_ne_nil slash a) ?_ (List.splitOn_append_cons_self a b)
      (isAbsolute_append_slash a _ _) rfl
    rw [segments, List.splitOn_append_cons_self, splitOn_cons_sep]
  | @trailing a ha =>
    refine components_of_segments (a.splitOn slash) [[]] [] (List.splitOn_ne_nil slash a)
      (List.splitOn_append_cons_self a []) (List.append_nil _).symm ?_ rfl
    obtain ⟨x, a, rfl⟩ := List.exists_cons_of_ne_nil ha
    rfl
  | inner a b =>
    have hinner : (dot :: slash :: b).splitOn slash = [dot] :: b.splitOn slash :=
      List.splitOn_append_cons_self [dot] b
    refine components_of_segments (a.splitOn slash) ([dot] :: b.splitOn slash) (b.splitOn slash)
      (List.splitOn_ne_nil slash a) ?_ (List.splitOn_append_cons_self a b)
      (isAbsolute_append_slash a _ _) rfl
    rw [segments, List.splitOn_append_cons_self, hinner]
  | last a =>
    exact components_of_segments (a.splitOn slash) [[dot]] [[]] (List.splitOn_ne_nil slash a)
      (List.splitOn_append_cons_self a [dot]) (List.splitOn_append_cons_self a [])
      (isAbsolute_append_slash a _ _) rfl

lemma components_eq_of_shortens (h : ReflTransGen Shortens p q) :
    p.components = q.components := by
  induction h with
  | refl => rfl
  | tail _ hstep ih => exact ih.trans hstep.components_eq

section Shortest

variable {lead : List Bytes} {part : Bytes}

/-- A part that is no step is left out behind others. -/
theorem shortens_drop (hlead : [slash].intercalate lead ≠ []) (hpart : insignificant part = true)
    (parts : List Bytes) :
    ReflTransGen Shortens ⟨[slash].intercalate (lead ++ part :: parts)⟩
      ⟨[slash].intercalate (lead ++ parts)⟩ := by
  have hne : lead ≠ [] := by
    rintro rfl
    exact hlead rfl
  have hcases : part = [] ∨ part = [dot] := by simpa [insignificant] using hpart
  cases parts with
  | nil =>
    rw [intercalate_append hne (by simp), List.append_nil]
    obtain rfl | rfl := hcases
    · exact .single (.trailing hlead)
    · exact .head (.last _) (.single (.trailing hlead))
  | cons next parts =>
    rw [intercalate_append hne (by simp), intercalate_append hne (by simp),
      intercalate_cons (by simp)]
    obtain rfl | rfl := hcases
    · exact .single (.repeated _ _)
    · exact .single (.inner _ _)

/-- Behind other parts only steps are left. -/
theorem shortens_filter (hlead : [slash].intercalate lead ≠ []) (parts : List Bytes) :
    ReflTransGen Shortens ⟨[slash].intercalate (lead ++ parts)⟩
      ⟨[slash].intercalate (lead ++ parts.filter (!insignificant ·))⟩ := by
  induction parts generalizing lead with
  | nil => exact .refl
  | cons part parts ih =>
    cases hpart : insignificant part with
    | true =>
      rw [List.filter_cons_of_neg (by simp [hpart])]
      exact (shortens_drop hlead hpart parts).trans (ih hlead)
    | false =>
      have hjoin : [slash].intercalate (lead ++ [part]) ≠ [] := by
        by_cases hne : lead = []
        · subst hne
          exact absurd rfl hlead
        · rw [intercalate_append hne (by simp)]
          simp
      have hrest := ih hjoin
      rw [List.append_assoc, List.append_assoc] at hrest
      rw [List.filter_cons_of_pos (by simp [hpart])]
      exact hrest

/-- Behind the separator of the root directory only steps are left. -/
theorem shortens_filter_root {parts : List Bytes} (hne : parts ≠ []) :
    ReflTransGen Shortens ⟨slash :: [slash].intercalate parts⟩
      ⟨slash :: [slash].intercalate (parts.filter (!insignificant ·))⟩ := by
  induction parts with
  | nil => exact absurd rfl hne
  | cons part parts ih =>
    cases hpart : insignificant part with
    | true =>
      have hcases : part = [] ∨ part = [dot] := by simpa [insignificant] using hpart
      rw [List.filter_cons_of_neg (by simp [hpart])]
      by_cases hnil : parts = []
      · subst hnil
        obtain rfl | rfl := hcases
        · exact .refl
        · exact .single (.last [])
      · refine .head ?_ (ih hnil)
        rw [intercalate_cons hnil]
        obtain rfl | rfl := hcases
        · exact .repeated [] _
        · exact .inner [] _
    | false =>
      have hrest := @shortens_filter [[], part] (by simp [List.intercalate]) parts
      rw [List.filter_cons_of_pos (by simp [hpart])]
      exact hrest

/-- The spelling of components without anything that could be left out. -/
def ofComponents : List Component → Path
  | .root :: steps => ⟨slash :: [slash].intercalate (steps.map Component.spelling)⟩
  | steps => ⟨[slash].intercalate (steps.map Component.spelling)⟩

lemma ofComponents_of_root_notMem {cs : List Component} (h : .root ∉ cs) :
    ofComponents cs = ⟨[slash].intercalate (cs.map Component.spelling)⟩ := by
  unfold ofComponents
  split
  · simp at h
  · rfl

/-- Every path is shortened to the shortest spelling of its components. -/
theorem shortens_ofComponents (p : Path) :
    ReflTransGen Shortens p (ofComponents p.components) := by
  have hp : p = ⟨[slash].intercalate p.segments⟩ := by rw [← bytes_eq]
  obtain ⟨parts, hne, hs, hc⟩ | ⟨hs, hc⟩ | ⟨part, hne, parts, hs, hroot, hmap⟩ := p.segments_cases
  · rw [hc, ofComponents, map_spelling_filterMap, hp, hs, intercalate_cons hne]
    exact shortens_filter_root hne
  · rw [hc, hp, hs]
    exact .refl
  · rw [ofComponents_of_root_notMem hroot, hmap, hp, hs]
    exact @shortens_filter [part] (by rwa [List.intercalate_singleton]) parts

/-- Two spellings name the same path just when they are shortened to one. -/
theorem beq_iff_shortens :
    (p == q) = true ↔ ∃ r, ReflTransGen Shortens p r ∧ ReflTransGen Shortens q r := by
  constructor
  · intro h
    refine ⟨ofComponents p.components, shortens_ofComponents p, ?_⟩
    rw [beq_iff.1 h]
    exact shortens_ofComponents q
  · rintro ⟨r, hp, hq⟩
    exact beq_iff.2 ((components_eq_of_shortens hp).trans (components_eq_of_shortens hq).symm)

end Shortest

section Hash

/-- The parts of a path that it is hashed by: those between separators, without empty ones and
without a `.` behind a separator. -/
def hashedParts (p : Path) : List Bytes :=
  match p.segments with
  | [] => []
  | first :: rest => [first].filter (· ≠ []) ++ rest.filter (!insignificant ·)

lemma filter_ne_root {cs : List Component} (h : .root ∉ cs) : cs.filter (· ≠ .root) = cs :=
  List.filter_eq_self.2 fun c hc => by simpa using ne_of_mem_of_not_mem hc h

/-- A path is hashed by the spellings of its components, except for the root directory. -/
theorem hashedParts_eq (p : Path) :
    p.hashedParts = (p.components.filter (· ≠ .root)).map Component.spelling := by
  unfold hashedParts
  obtain ⟨parts, -, hs, hc⟩ | ⟨hs, hc⟩ | ⟨part, hne, parts, hs, hroot, hmap⟩ := p.segments_cases
  · rw [hc, hs, List.filter_cons_of_neg (by simp), filter_ne_root (root_notMem_filterMap parts),
      map_spelling_filterMap]
    rfl
  · rw [hc, hs]
    rfl
  · rw [hs, filter_ne_root hroot, hmap]
    simp [hne]

/-- Two spellings of one path are hashed alike. -/
theorem hashedParts_congr (h : (p == q) = true) : p.hashedParts = q.hashedParts := by
  rw [hashedParts_eq, hashedParts_eq, beq_iff.1 h]

end Hash

section Up

lemma steps_join {part : Bytes} (p : Path) (hpart : IsStep part) :
    (p.join ⟨part⟩).steps = p.steps ++ [part] := by
  have hlast : [part].filter (!insignificant ·) = [part] := by simp [hpart.significant]
  by_cases hp : p.bytes = []
  · have hjoin : p.join ⟨part⟩ = ⟨part⟩ := by
      rw [join, if_neg (by simp [hpart.not_isAbsolute]), if_pos hp]
    have hnil : p.steps = [] := by
      rw [← filterMap_components, components_eq_nil_iff.2 hp]
      rfl
    rw [hjoin, hnil, steps, hpart.segments, hlast]
    rfl
  · have htrunk : p.trunk.filter (!insignificant ·) = p.steps := by
      have hfilter (parts : List Bytes) : parts.filter (!insignificant ·) =
          (parts.filter (· ≠ [])).filter (!insignificant ·) := by
        rw [List.filter_filter]
        refine List.filter_congr fun s _ => ?_
        cases s <;> simp [insignificant]
      rw [hfilter, filter_trunk, ← hfilter]
      rfl
    rw [steps, segments_join hp hpart.not_isAbsolute, hpart.segments, List.filter_append, htrunk,
      hlast]

/-- A `..` does not cancel the step before it. -/
theorem not_beq_join_up {part : Bytes} (p : Path) (hpart : IsStep part) :
    (((p.join ⟨part⟩).join ⟨[dot, dot]⟩) == p) = false := by
  rw [Bool.eq_false_iff]
  intro h
  have hup : IsStep [dot, dot] := ⟨rfl, by decide⟩
  have hsteps := steps_congr h
  rw [steps_join _ hup, steps_join p hpart] at hsteps
  simp at hsteps

end Up

end Path

end ServerFleet
