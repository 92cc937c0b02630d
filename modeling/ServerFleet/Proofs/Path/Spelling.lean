import Mathlib.Data.List.Forall2
import Mathlib.Data.List.Infix
import Mathlib.Data.List.TakeWhile
import ServerFleet.Tree.Basic

/-!
Paths by their parts. Joining paths appends their parts, and the absolute form of a path consists
of the parts of the working directory and the names and `..` of the path. Its ancestors as spelled
are the paths of the shorter and shorter beginnings of these parts.
-/

namespace ServerFleet

namespace Bytes

variable {sep : UInt8}

lemma splitOn_cons_sep (b : Bytes) : (sep :: b).splitOn sep = [] :: b.splitOn sep :=
  List.splitOn_append_cons_self [] b

lemma splitOn_cons_ne {x : UInt8} (h : x ≠ sep) (b : Bytes) :
    ∃ part parts, b.splitOn sep = part :: parts ∧ (x :: b).splitOn sep = (x :: part) :: parts := by
  obtain ⟨part, parts, hs⟩ := List.exists_cons_of_ne_nil (List.splitOn_ne_nil sep b)
  refine ⟨part, parts, hs, ?_⟩
  rw [List.splitOn_cons_eq_if_modifyHead, if_neg (by simpa using h), hs]
  rfl

lemma not_mem_of_mem_splitOn {part b : Bytes} (h : part ∈ b.splitOn sep) : sep ∉ part := by
  induction b generalizing part with
  | nil =>
    rw [List.splitOn_nil, List.mem_singleton] at h
    simp [h]
  | cons x b ih =>
    by_cases hx : x = sep
    · subst hx
      rw [splitOn_cons_sep] at h
      obtain rfl | h := List.mem_cons.1 h
      · exact List.not_mem_nil
      · exact ih h
    · obtain ⟨first, parts, hb, hxb⟩ := splitOn_cons_ne hx b
      rw [hxb] at h
      obtain rfl | h := List.mem_cons.1 h
      · have hfirst : sep ∉ first := ih (by rw [hb]; exact List.mem_cons_self)
        simp [hfirst, Ne.symm hx]
      · exact ih (by rw [hb]; exact List.mem_cons_of_mem _ h)

lemma exists_splitOn_concat {x : UInt8} (hx : x ≠ sep) (a : Bytes) :
    ∃ parts part, (a ++ [x]).splitOn sep = parts ++ [part ++ [x]] := by
  induction a with
  | nil => exact ⟨[], [], List.splitOn_eq_singleton (by simpa using Ne.symm hx)⟩
  | cons y a ih =>
    obtain ⟨parts, part, h⟩ := ih
    by_cases hy : y = sep
    · subst hy
      refine ⟨[] :: parts, part, ?_⟩
      rw [List.cons_append, splitOn_cons_sep, h]
      rfl
    · obtain ⟨first, others, ha, hya⟩ := splitOn_cons_ne hy (a ++ [x])
      rw [List.cons_append, hya]
      rw [h] at ha
      cases parts with
      | nil =>
        obtain ⟨rfl, rfl⟩ : part ++ [x] = first ∧ [] = others := by simpa using ha
        exact ⟨[], y :: part, rfl⟩
      | cons p parts =>
        obtain ⟨rfl, rfl⟩ : p = first ∧ parts ++ [part ++ [x]] = others := by simpa using ha
        exact ⟨(y :: p) :: parts, part, rfl⟩

/-- A byte string that is not empty ends in the separator just when its last part is empty. -/
theorem getLast?_splitOn {b : Bytes} (hb : b ≠ []) :
    (b.splitOn sep).getLast? = some [] ↔ b.getLast? = some sep := by
  obtain ⟨a, x, rfl⟩ : ∃ a x, b = a ++ [x] := ⟨_, _, (List.dropLast_append_getLast hb).symm⟩
  by_cases hx : x = sep
  · subst hx
    rw [List.splitOn_append_cons_self]
    simp
  · obtain ⟨parts, part, h⟩ := exists_splitOn_concat hx a
    rw [h]
    simp [hx]

end Bytes

namespace Path

open Bytes

variable {p q cwd : Path}

lemma isAbsolute_iff : p.isAbsolute = true ↔ ∃ parts ≠ [], p.segments = [] :: parts := by
  unfold isAbsolute segments
  cases hp : p.bytes with
  | nil => simp
  | cons x rest =>
    by_cases hx : x = slash
    · subst hx
      rw [splitOn_cons_sep]
      simp
    · obtain ⟨part, parts, -, hs⟩ := splitOn_cons_ne hx rest
      rw [hs]
      simp [hx]

/-- The parts of a path that more can be put below: without an empty one at the end. -/
def trunk (p : Path) : List Bytes :=
  if p.bytes.getLast? = some slash then p.segments.dropLast else p.segments

/-- A path below another one has the parts of both. -/
theorem segments_join (hp : p.bytes ≠ []) (hq : q.isAbsolute = false) :
    (p.join q).segments = p.trunk ++ q.segments := by
  unfold join trunk segments
  rw [if_neg (by simp [hq]), if_neg hp]
  split
  · next hlast =>
    have hsplit : p.bytes = p.bytes.dropLast ++ [slash] := by
      have hget : p.bytes.getLast hp = slash := by
        rw [List.getLast?_eq_some_getLast hp] at hlast
        exact Option.some.inj hlast
      rw [← hget]
      exact (List.dropLast_append_getLast hp).symm
    have hjoin : (p.bytes ++ q.bytes).splitOn slash =
        p.bytes.dropLast.splitOn slash ++ q.bytes.splitOn slash := by
      rw [hsplit, List.append_assoc]
      simpa using List.splitOn_append_cons_self p.bytes.dropLast q.bytes
    have htrunk : p.bytes.splitOn slash = p.bytes.dropLast.splitOn slash ++ [[]] := by
      rw [hsplit]
      simpa using List.splitOn_append_cons_self p.bytes.dropLast []
    rw [hjoin, htrunk, List.dropLast_concat]
  · exact List.splitOn_append_cons_self _ _

lemma filter_trunk (p : Path) : p.trunk.filter (· ≠ []) = p.segments.filter (· ≠ []) := by
  unfold trunk
  split
  · next hlast =>
    have hp : p.bytes ≠ [] := by
      intro hnil
      rw [hnil] at hlast
      cases hlast
    obtain ⟨parts, hs⟩ := List.getLast?_eq_some_iff.1 ((getLast?_splitOn hp).2 hlast)
    rw [show p.segments = parts ++ [[]] from hs, List.dropLast_concat]
    simp
  · rfl

lemma getLast?_join (hq : q.isAbsolute = false) (hne : q.bytes ≠ []) :
    (p.join q).bytes.getLast? = q.bytes.getLast? := by
  obtain ⟨init, x, hx⟩ : ∃ init x, q.bytes = init ++ [x] :=
    ⟨_, _, (List.dropLast_append_getLast hne).symm⟩
  unfold join
  rw [if_neg (by simp [hq]), hx]
  split
  · rw [hx]
  · split
    · rw [← List.append_assoc, List.getLast?_concat, List.getLast?_concat]
    · rw [← List.cons_append, ← List.append_assoc, List.getLast?_concat, List.getLast?_concat]

lemma getLast?_join_empty (hp : p.bytes ≠ []) (hq : q.bytes = []) :
    (p.join q).bytes.getLast? = some slash := by
  unfold join isAbsolute
  rw [hq, if_neg (by simp), if_neg hp]
  split
  · next hlast => simpa using hlast
  · simp

lemma isAbsolute_join (hp : p.bytes ≠ []) (hq : q.isAbsolute = false) :
    (p.join q).isAbsolute = p.isAbsolute := by
  obtain ⟨x, rest, hx⟩ := List.exists_cons_of_ne_nil hp
  unfold join
  rw [if_neg (by simp [hq]), if_neg hp]
  unfold isAbsolute
  split <;> simp [hx]

/-- A relative path that is not empty has a part that is not. -/
theorem filter_segments_ne_nil (hq : q.isAbsolute = false) (hne : q.bytes ≠ []) :
    q.segments.filter (· ≠ []) ≠ [] := by
  obtain ⟨x, rest, hx⟩ := List.exists_cons_of_ne_nil hne
  have hslash : x ≠ slash := by
    rintro rfl
    simp [isAbsolute, hx] at hq
  obtain ⟨part, parts, -, hs⟩ := splitOn_cons_ne hslash rest
  have hsegments : q.segments = (x :: part) :: parts := by rw [segments, hx, hs]
  rw [hsegments]
  simp

lemma bytes_join_ne_nil (hp : p.bytes ≠ []) (hq : q.isAbsolute = false) :
    (p.join q).bytes ≠ [] := by
  unfold join
  rw [if_neg (by simp [hq]), if_neg hp]
  split <;> simp [hp]

/-- A part that stands for a step: a name or `..`. -/
structure IsStep (part : Bytes) : Prop where
  significant : insignificant part = false
  slash_notMem : slash ∉ part

namespace IsStep

variable {part : Bytes}

lemma ne_nil (h : IsStep part) : part ≠ [] := by
  rintro rfl
  cases h.significant

lemma segments (h : IsStep part) : Path.segments ⟨part⟩ = [part] :=
  List.splitOn_eq_singleton h.slash_notMem

lemma not_isAbsolute (h : IsStep part) : Path.isAbsolute ⟨part⟩ = false := by
  rw [Bool.eq_false_iff, Ne, isAbsolute_iff]
  rintro ⟨parts, hne, hparts⟩
  rw [h.segments] at hparts
  obtain ⟨-, rfl⟩ : part = [] ∧ [] = parts := by simpa using hparts
  exact hne rfl

end IsStep

/-- The steps of a path as spelled, without the separators around them. -/
def steps (p : Path) : List Bytes := p.segments.filter (!insignificant ·)

lemma isStep_of_mem_steps {part : Bytes} (h : part ∈ p.steps) : IsStep part := by
  obtain ⟨hmem, hs⟩ := List.mem_filter.1 h
  exact ⟨by simpa using hs, not_mem_of_mem_splitOn hmem⟩

/-- A path whose last part is not empty does not end in a separator. -/
theorem trunk_eq_segments {parts : List Bytes} {part : Bytes} (hs : p.segments = parts ++ [part])
    (hne : part ≠ []) : p.trunk = p.segments := by
  unfold trunk
  rw [if_neg]
  intro hlast
  have hp : p.bytes ≠ [] := by
    intro hnil
    rw [hnil] at hlast
    cases hlast
  have hempty := (getLast?_splitOn hp).2 hlast
  rw [show p.bytes.splitOn slash = parts ++ [part] from hs] at hempty
  simp at hempty
  exact hne hempty

lemma trunk_join (hp : p.bytes ≠ []) {part : Bytes} (h : IsStep part) :
    (p.join ⟨part⟩).trunk = p.trunk ++ [part] := by
  have hs := segments_join (q := ⟨part⟩) hp h.not_isAbsolute
  rw [h.segments] at hs
  rw [trunk_eq_segments hs h.ne_nil, hs]

/-- Going down step by step appends the steps. -/
theorem segments_foldl_join {parts : List Bytes} (hne : parts ≠ [])
    (h : ∀ part ∈ parts, IsStep part) (hp : p.bytes ≠ []) :
    (parts.foldl (fun acc n => acc.join ⟨n⟩) p).segments = p.trunk ++ parts := by
  induction parts generalizing p with
  | nil => exact absurd rfl hne
  | cons part parts ih =>
    obtain ⟨hpart, hparts⟩ := List.forall_mem_cons.1 h
    have hjoin := bytes_join_ne_nil (q := ⟨part⟩) hp hpart.not_isAbsolute
    cases parts with
    | nil =>
      have hs := segments_join (q := ⟨part⟩) hp hpart.not_isAbsolute
      rw [hpart.segments] at hs
      exact hs
    | cons next parts =>
      rw [List.foldl_cons, ih (by simp) hparts hjoin, trunk_join hp hpart]
      simp

/-- The spelling of a step, which the front of a path is not. -/
def stepSpelling? : Component → Option Bytes
  | .up => some [dot, dot]
  | .name n => some n
  | _ => none

lemma filterMap_components (p : Path) : p.components.filterMap stepSpelling? = p.steps := by
  have hfront : p.front.toList.filterMap stepSpelling? = [] := by
    unfold front
    split
    · rfl
    · split <;> rfl
  have hpart (part : Bytes) : (Component.ofSegment? part).bind stepSpelling? =
      if insignificant part then none else some part := by
    unfold Component.ofSegment? insignificant
    split
    · next h => simp [h]
    · split
      · next h => simp [h]
      · split
        · next h => simp [h, stepSpelling?]
        · simp_all [stepSpelling?]
  unfold components steps
  rw [List.filterMap_append, hfront, List.nil_append, List.filterMap_filterMap]
  induction p.segments with
  | nil => rfl
  | cons part parts ih =>
    rw [List.filterMap_cons, hpart, ih]
    cases hi : insignificant part <;> simp [hi]

lemma up_mem_components (h : [dot, dot] ∈ p.steps) : .up ∈ p.components := by
  have hmem := (List.mem_filter.1 h).1
  refine List.mem_append_right _ (List.mem_filterMap.2 ⟨_, hmem, ?_⟩)
  rfl

/-- The parts of the absolute form of a path: those of the directory it starts from, and its
steps. -/
theorem segments_absolute {dir : List Bytes} (hcwd : cwd.bytes ≠ [])
    (htrunk : cwd.trunk = [] :: dir) (hp : p.bytes ≠ [])
    (hlast : p.bytes.getLast? ≠ some slash) (hsteps : p.steps ≠ []) :
    ∃ lead : List Bytes, (∀ part ∈ lead, part = []) ∧
      (absolute cwd p).segments =
        [] :: (lead ++ ((if p.isAbsolute then [] else dir) ++ p.steps)) := by
  have hall : ∀ part ∈ p.steps, IsStep part := fun _ h => isStep_of_mem_steps h
  have key (start : Path) (hstart : start.bytes ≠ []) :
      (p.steps.foldl (fun acc n => acc.join ⟨n⟩) start).segments = start.trunk ++ p.steps :=
    segments_foldl_join hsteps hall hstart
  have habs : ∃ start, (absolute cwd p).segments = start.trunk ++ p.steps ∧
      start = if p.isAbsolute then
        (if p.bytes.take 2 == [slash, slash] && p.bytes.take 3 != [slash, slash, slash]
          then ⟨[slash, slash]⟩ else ⟨[slash]⟩) else cwd := by
    refine ⟨_, ?_, rfl⟩
    rw [← key]
    · unfold absolute
      rw [if_neg hp, if_neg hlast, ← filterMap_components]
      rfl
    · split
      · split <;> simp
      · exact hcwd
  obtain ⟨start, hs, rfl⟩ := habs
  rw [hs]
  split
  · split
    · exact ⟨[[]], by simp, rfl⟩
    · exact ⟨[], nofun, rfl⟩
  · exact ⟨[], nofun, by rw [htrunk]; rfl⟩

/-- An absolute path whose parts are steps, up to separators at its front. -/
structure Spells (p : Path) (names : List Bytes) : Prop where
  isAbsolute : p.isAbsolute = true
  segments : ∃ lead : List Bytes, (∀ part ∈ lead, part = []) ∧ p.segments = [] :: (lead ++ names)
  isStep : ∀ n ∈ names, IsStep n

lemma spells_of_segments {lead names : List Bytes} (hlead : ∀ part ∈ lead, part = [])
    (hs : p.segments = [] :: (lead ++ names)) (hne : lead ++ names ≠ [])
    (hn : ∀ n ∈ names, IsStep n) : p.Spells names where
  isAbsolute := isAbsolute_iff.2 ⟨_, hne, hs⟩
  segments := ⟨lead, hlead, hs⟩
  isStep := hn

namespace Spells

variable {names : List Bytes}

lemma bytes_ne_nil (h : p.Spells names) : p.bytes ≠ [] := by
  intro hnil
  have habs := h.isAbsolute
  simp [Path.isAbsolute, hnil] at habs

lemma filter_segments (h : p.Spells names) : p.segments.filter (· ≠ []) = names := by
  obtain ⟨-, ⟨lead, hlead, hs⟩, hsteps⟩ := h
  rw [hs, List.filter_cons_of_neg (by simp), List.filter_append,
    List.filter_eq_nil_iff.2 (fun part hm => by simp [hlead part hm]),
    List.filter_eq_self.2 (fun n hm => by simpa using (hsteps n hm).ne_nil)]
  rfl

end Spells

lemma spells_ofLocation {loc : Location} (h : ∀ n ∈ loc, IsStep n) :
    (Path.ofLocation loc).Spells loc := by
  cases loc with
  | nil => exact @spells_of_segments _ [[]] [] (by simp) rfl (by simp) nofun
  | cons n loc =>
    refine @spells_of_segments _ [] _ nofun ?_ (by simp) h
    unfold Path.segments Path.ofLocation
    rw [splitOn_cons_sep,
      List.splitOn_intercalate _ (fun part hpart => (h part hpart).slash_notMem) (by simp)]
    rfl

lemma trunk_ofLocation {loc : Location} (h : ∀ n ∈ loc, IsStep n) :
    (Path.ofLocation loc).trunk = [] :: loc := by
  cases hl : loc.getLast? with
  | none =>
    obtain rfl := List.getLast?_eq_none_iff.1 hl
    rfl
  | some n =>
    obtain ⟨parts, rfl⟩ := List.getLast?_eq_some_iff.1 hl
    have hs : (Path.ofLocation (parts ++ [n])).segments = ([] :: parts) ++ [n] := by
      unfold Path.segments Path.ofLocation
      rw [splitOn_cons_sep,
        List.splitOn_intercalate _ (fun part hp => (h part hp).slash_notMem) (by simp)]
      rfl
    rw [trunk_eq_segments hs (h n (by simp)).ne_nil, hs]
    rfl

section Ancestors

/-- Cutting back from the last step leaves the shorter and shorter beginnings. -/
theorem cutBack_append {steps lead : List Bytes} (hs : ∀ s ∈ steps, insignificant s = false)
    (hlead : ∀ part ∈ lead, insignificant part = true) :
    cutBack (steps ++ lead) =
      steps.tails.tail.map fun rest => if rest = [] then [] else rest ++ lead := by
  induction steps with
  | nil =>
    rw [List.nil_append]
    induction lead with
    | nil => rfl
    | cons part lead ih =>
      obtain ⟨hpart, hlead⟩ := List.forall_mem_cons.1 hlead
      rw [cutBack, if_pos hpart, ih hlead]
      rfl
  | cons s steps ih =>
    obtain ⟨hfirst, hrest⟩ := List.forall_mem_cons.1 hs
    have htails : steps.tails = steps :: steps.tails.tail := by cases steps <;> rfl
    have hdrop : (steps ++ lead).dropWhile insignificant =
        if steps = [] then [] else steps ++ lead := by
      cases steps with
      | nil => exact List.dropWhile_eq_nil_iff.2 hlead
      | cons s' steps => simp [(List.forall_mem_cons.1 hrest).1]
    rw [List.cons_append, cutBack, if_neg (by simp [hfirst]), hdrop, ih hrest]
    rw [List.tails, List.tail_cons, htails, List.map_cons]
    simp

lemma spells_ofSegments {lead names : List Bytes} (hlead : ∀ part ∈ lead, part = [])
    (hn : ∀ n ∈ names, IsStep n) :
    (ofSegments [[]] (if names = [] then [] else lead ++ names)).Spells names := by
  cases names with
  | nil => exact @spells_of_segments _ [[]] [] (by simp) rfl (by simp) nofun
  | cons n names =>
    have hslash : ∀ part ∈ [] :: (lead ++ n :: names), slash ∉ part := by
      intro part hpart
      rcases List.mem_cons.1 hpart with rfl | hpart
      · exact List.not_mem_nil
      · rcases List.mem_append.1 hpart with hpart | hpart
        · rw [hlead part hpart]
          exact List.not_mem_nil
        · exact (hn part hpart).slash_notMem
    refine spells_of_segments hlead ?_ (by simp) hn
    unfold ofSegments Path.segments
    rw [if_neg (by simp), if_neg (by simp)]
    exact List.splitOn_intercalate _ hslash (by simp)

/-- The ancestors of a path as spelled. -/
theorem Spells.properAncestors {names : List Bytes} (h : p.Spells names) :
    List.Forall₂ Spells p.properAncestors (names.reverse.tails.tail.map List.reverse) := by
  obtain ⟨habs, ⟨lead, hlead, hs⟩, hsteps⟩ := h
  have hfront : p.front = some .root := by
    unfold front
    rw [if_pos habs]
  have hbody : p.bodySegments.reverse = names.reverse ++ lead.reverse := by
    unfold bodySegments frontSegments
    rw [hfront, hs]
    simp
  unfold Path.properAncestors
  rw [hbody, cutBack_append (fun s hm => (hsteps s (List.mem_reverse.1 hm)).significant), hfront]
  · simp only [frontSegments, hfront, List.map_map, reduceCtorEq, if_false, List.append_nil,
      Option.some.injEq]
    rw [List.forall₂_map_left_iff, List.forall₂_map_right_iff, List.forall₂_same]
    intro rest hrest
    have hsuffix : rest <:+ names.reverse := by
      rw [← List.mem_tails]
      exact List.mem_of_mem_tail hrest
    have hn : ∀ n ∈ rest.reverse, IsStep n := fun n hm =>
      hsteps n (List.mem_reverse.1 (hsuffix.subset (List.mem_reverse.1 hm)))
    have hspells := spells_ofSegments hlead hn
    cases rest with
    | nil => exact hspells
    | cons s rest => simpa using hspells
  · intro part hm
    rw [hlead part (List.mem_reverse.1 hm)]
    rfl

end Ancestors

end Path

end ServerFleet
