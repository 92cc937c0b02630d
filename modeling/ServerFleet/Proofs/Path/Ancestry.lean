import ServerFleet.Proofs.Path.Spelling

/-!
The directories above a path. The chain of ancestors is made of parents: each is the parent of the
one before it, has one component less, and is the parent of every path that names a step below it.
So paths with the same components have chains with the same components.
-/

namespace ServerFleet.Path

open Bytes

variable {p q dir : Path}

section CutBack

variable {parts cut : List Bytes} {cuts : List (List Bytes)}

lemma ofSegment?_eq_none_iff {part : Bytes} :
    Component.ofSegment? part = none ↔ insignificant part = true := by
  unfold Component.ofSegment? insignificant
  split
  · next h => simp [h]
  · next hnil =>
    split
    · next h => simp [h]
    · next hdot => split <;> simp [hnil, hdot]

lemma exists_ofSegment? {part : Bytes} (h : insignificant part = false) :
    ∃ c ≠ .root, Component.ofSegment? part = some c := by
  cases hc : Component.ofSegment? part with
  | none =>
    rw [ofSegment?_eq_none_iff, h] at hc
    cases hc
  | some c =>
    refine ⟨c, ?_, rfl⟩
    rintro rfl
    unfold Component.ofSegment? at hc
    split at hc
    · cases hc
    · split at hc
      · cases hc
      · split at hc <;> cases hc

lemma cutBack_dropWhile (parts : List Bytes) :
    cutBack (parts.dropWhile insignificant) = cutBack parts := by
  induction parts with
  | nil => rfl
  | cons part parts ih =>
    cases hpart : insignificant part with
    | true => rw [List.dropWhile_cons_of_pos hpart, ih, cutBack, if_pos hpart]
    | false => rw [List.dropWhile_cons_of_neg (by simp [hpart])]

lemma filterMap_dropWhile (parts : List Bytes) :
    (parts.dropWhile insignificant).filterMap Component.ofSegment? =
      parts.filterMap Component.ofSegment? := by
  induction parts with
  | nil => rfl
  | cons part parts ih =>
    cases hpart : insignificant part with
    | true =>
      rw [List.dropWhile_cons_of_pos hpart, ih,
        List.filterMap_cons_none (ofSegment?_eq_none_iff.2 hpart)]
    | false => rw [List.dropWhile_cons_of_neg (by simp [hpart])]

lemma mem_cutBack (h : cut ∈ cutBack parts) :
    cut <:+ parts ∧ ∀ part ∈ cut.head?, insignificant part = false := by
  induction parts with
  | nil => cases h
  | cons part parts ih =>
    have longer (h : cut ∈ cutBack parts) :
        cut <:+ part :: parts ∧ ∀ part ∈ cut.head?, insignificant part = false :=
      ⟨(ih h).1.trans (List.suffix_cons _ _), (ih h).2⟩
    rw [cutBack] at h
    split at h
    · exact longer h
    · rcases List.mem_cons.1 h with rfl | h
      · refine ⟨(List.dropWhile_suffix _).trans (List.suffix_cons _ _), fun first hfirst => ?_⟩
        have hhead := List.head?_dropWhile_not insignificant parts
        rw [Option.mem_def.1 hfirst] at hhead
        simpa using hhead
      · exact longer h

/-- What is cut off first is the last step; the cuts that follow are those of what it leaves. -/
theorem cutBack_eq_cons (h : cutBack parts = cut :: cuts) :
    cuts = cutBack cut ∧
      ∃ c ≠ .root, parts.filterMap Component.ofSegment? =
        c :: cut.filterMap Component.ofSegment? := by
  induction parts with
  | nil => cases h
  | cons part parts ih =>
    rw [cutBack] at h
    cases hpart : insignificant part with
    | true =>
      rw [if_pos hpart] at h
      rw [List.filterMap_cons_none (ofSegment?_eq_none_iff.2 hpart)]
      exact ih h
    | false =>
      rw [if_neg (by simp [hpart])] at h
      obtain ⟨rfl, rfl⟩ := List.cons.inj h
      obtain ⟨c, hroot, hc⟩ := exists_ofSegment? hpart
      refine ⟨(cutBack_dropWhile parts).symm, c, hroot, ?_⟩
      rw [List.filterMap_cons_some hc, filterMap_dropWhile]

lemma cutBack_eq_nil_iff :
    cutBack parts = [] ↔ parts.filterMap Component.ofSegment? = [] := by
  induction parts with
  | nil => simp [cutBack]
  | cons part parts ih =>
    rw [cutBack]
    cases hpart : insignificant part with
    | true =>
      rw [if_pos rfl, ih, List.filterMap_cons_none (ofSegment?_eq_none_iff.2 hpart)]
    | false =>
      obtain ⟨c, -, hc⟩ := exists_ofSegment? hpart
      rw [List.filterMap_cons_some hc]
      simp

end CutBack

section Cut

variable {cut : List Bytes} {cuts : List (List Bytes)}

def frontParts : Option Component → List Bytes
  | some .root => [[]]
  | some _ => [[dot]]
  | none => []

lemma frontSegments_eq (p : Path) : p.frontSegments = frontParts p.front := by
  unfold frontSegments frontParts
  cases p.front with
  | none => rfl
  | some c => cases c <;> rfl

/-- The front of a path is spelled by its first parts. -/
theorem segments_eq (p : Path) : p.segments = p.frontSegments ++ p.bodySegments := by
  suffices h : p.frontSegments <+: p.segments by
    rw [bodySegments, ← List.prefix_iff_eq_append.1 h]
    simp
  rw [frontSegments_eq]
  unfold front
  split
  · next habs =>
    obtain ⟨parts, -, hparts⟩ := isAbsolute_iff.1 habs
    rw [hparts]
    exact ⟨parts, rfl⟩
  · split
    · next hdot =>
      obtain ⟨parts, hparts⟩ := List.head?_eq_some_iff.1 hdot
      rw [hparts]
      exact ⟨parts, rfl⟩
    · exact List.nil_prefix

lemma components_eq (p : Path) :
    p.components = p.front.toList ++ p.bodySegments.filterMap Component.ofSegment? := by
  have hfront : p.frontSegments.filterMap Component.ofSegment? = [] := by
    rw [frontSegments_eq]
    unfold frontParts
    split <;> rfl
  rw [components, segments_eq, List.filterMap_append, hfront, List.nil_append]

/-- Reversed parts from which a path can be spelled behind a front, so that it reads back. -/
structure IsCut (front : Option Component) (cut : List Bytes) : Prop where
  front_eq : front = none ∨ front = some .root ∨ front = some .here
  slash_notMem : ∀ part ∈ cut, slash ∉ part
  head : ∀ part ∈ cut.head?, insignificant part = false
  last : front = none → ∀ part ∈ cut.getLast?, insignificant part = false

namespace IsCut

variable {front : Option Component}

/-- A spelled cut has the parts that it was spelled from, and an empty one behind them if there is
no other. -/
theorem segments (h : IsCut front cut) : ∃ pad : List Bytes, (pad = [] ∨ pad = [[]] ∧ cut = []) ∧
    (ofSegments (frontParts front) cut.reverse).segments =
      frontParts front ++ (cut.reverse ++ pad) := by
  have hfront : ∀ part ∈ frontParts front, slash ∉ part := by
    unfold frontParts
    split <;> decide
  have hslash : ∀ part ∈ frontParts front ++ cut.reverse, slash ∉ part := by
    intro part hpart
    rcases List.mem_append.1 hpart with hpart | hpart
    · exact hfront part hpart
    · exact h.slash_notMem part (List.mem_reverse.1 hpart)
  unfold ofSegments Path.segments
  split
  · next hroot =>
    obtain ⟨hparts, hcut⟩ := hroot
    refine ⟨[[]], .inr ⟨rfl, List.reverse_eq_nil_iff.1 hcut⟩, ?_⟩
    rw [hparts, hcut]
    rfl
  · by_cases hparts : frontParts front ++ cut.reverse = []
    · obtain ⟨hfront, hcut⟩ := List.append_eq_nil_iff.1 hparts
      refine ⟨[[]], .inr ⟨rfl, List.reverse_eq_nil_iff.1 hcut⟩, ?_⟩
      rw [hfront, hcut]
      rfl
    · exact ⟨[], .inl rfl, by rw [List.splitOn_intercalate _ hslash hparts, List.append_nil]⟩

lemma front_ofSegments (h : IsCut front cut) :
    (ofSegments (frontParts front) cut.reverse).front = front := by
  obtain ⟨pad, hpad, hs⟩ := h.segments
  have relative (hhead : (frontParts front ++ (cut.reverse ++ pad)).head? ≠ some [] ∨
      cut = [] ∧ front = none) :
      (ofSegments (frontParts front) cut.reverse).isAbsolute = false := by
    rw [Bool.eq_false_iff, Ne, isAbsolute_iff]
    rintro ⟨parts, hne, hparts⟩
    rw [hs] at hparts
    rw [hparts] at hhead
    obtain hhead | ⟨rfl, rfl⟩ := hhead
    · exact hhead rfl
    · obtain rfl | ⟨rfl, -⟩ := hpad
      · cases hparts
      · exact hne (List.cons.inj hparts).2.symm
  unfold Path.front
  obtain rfl | rfl | rfl := h.front_eq
  · cases hcut : cut.getLast? with
    | none =>
      obtain rfl := List.getLast?_eq_none_iff.1 hcut
      rw [relative (.inr ⟨rfl, rfl⟩), hs]
      obtain rfl | ⟨rfl, -⟩ := hpad <;> rfl
    | some part =>
      have hpart := h.last rfl part hcut
      have hhead : (frontParts none ++ (cut.reverse ++ pad)).head? = some part := by
        show (cut.reverse ++ pad).head? = some part
        rw [List.head?_append, List.head?_reverse, hcut]
        rfl
      have hne (other : Bytes) (hother : insignificant other = true) : part ≠ other := by
        rintro rfl
        simp [hother] at hpart
      rw [relative, hs, hhead]
      · simp [hne [dot] rfl]
      · left
        simp [hhead, hne [] rfl]
  · rw [if_pos]
    unfold ofSegments
    split
    · rfl
    · next hroot =>
      obtain ⟨part, parts, hparts⟩ : ∃ part parts, cut.reverse = part :: parts :=
        List.exists_cons_of_ne_nil fun hnil => hroot ⟨rfl, hnil⟩
      rw [hparts]
      rfl
  · rw [relative (.inl nofun), hs]
    rfl

/-- What stands above a cut. -/
theorem properAncestors (h : IsCut front cut) :
    (ofSegments (frontParts front) cut.reverse).properAncestors =
      (cutBack cut).map (fun cut => ofSegments (frontParts front) cut.reverse) ++
        if front = some .here then [⟨[]⟩] else [] := by
  have hfront := h.front_ofSegments
  obtain ⟨pad, hpad, hs⟩ := h.segments
  rw [segments_eq, frontSegments_eq, hfront] at hs
  have hbody := List.append_cancel_left hs
  have hcut : cutBack (cut.reverse ++ pad).reverse = cutBack cut := by
    obtain rfl | ⟨rfl, rfl⟩ := hpad
    · simp
    · rfl
  rw [Path.properAncestors, hbody, hcut, frontSegments_eq, hfront]

lemma components (h : IsCut front cut) :
    (ofSegments (frontParts front) cut.reverse).components =
      front.toList ++ cut.reverse.filterMap Component.ofSegment? := by
  have hfront := h.front_ofSegments
  obtain ⟨pad, hpad, hs⟩ := h.segments
  rw [segments_eq, frontSegments_eq, hfront] at hs
  have hbody := List.append_cancel_left hs
  rw [components_eq, hfront, hbody]
  obtain rfl | ⟨rfl, rfl⟩ := hpad
  · rw [List.append_nil]
  · rfl

lemma cons (h : IsCut front cut) {part : Bytes} (hpart : IsStep part) :
    IsCut front (part :: cut) where
  front_eq := h.front_eq
  slash_notMem := List.forall_mem_cons.2 ⟨hpart.slash_notMem, h.slash_notMem⟩
  head := by simpa using hpart.significant
  last hfront other hother := by
    cases hlast : cut.getLast? with
    | none =>
      rw [List.getLast?_eq_none_iff.1 hlast] at hother
      obtain rfl : part = other := by simpa using hother
      exact hpart.significant
    | some last =>
      rw [List.getLast?_cons, hlast] at hother
      obtain rfl : last = other := by simpa using hother
      exact h.last hfront last hlast

/-- A step below a cut adds its part. -/
theorem segments_join (h : IsCut front cut) {part : Bytes} (hpart : IsStep part) :
    ((ofSegments (frontParts front) cut.reverse).join ⟨part⟩).segments =
      frontParts front ++ (cut.reverse ++ [part]) := by
  have below (dir : Path) (hdir : dir.bytes ≠ []) :
      (dir.join ⟨part⟩).segments = dir.trunk ++ [part] := by
    rw [Path.segments_join hdir hpart.not_isAbsolute, hpart.segments]
  cases cut with
  | nil =>
    obtain rfl | rfl | rfl := h.front_eq
    · have hjoin : (ofSegments [] []).join ⟨part⟩ = ⟨part⟩ := by
        unfold join
        rw [if_neg (by simp [hpart.not_isAbsolute])]
        rfl
      exact (congrArg Path.segments hjoin).trans hpart.segments
    · exact below ⟨[slash]⟩ (by simp)
    · exact below ⟨[dot]⟩ (by simp)
  | cons last cut =>
    have hlast : last ≠ [] := by
      rintro rfl
      simpa [insignificant] using h.head [] rfl
    obtain ⟨pad, rfl | ⟨-, hnil⟩, hs⟩ := h.segments
    · rw [List.append_nil, List.reverse_cons, ← List.append_assoc] at hs
      rw [List.reverse_cons, below, trunk_eq_segments hs hlast, hs]
      · simp
      · intro hnil
        rw [Path.segments, hnil] at hs
        have hend := congrArg List.getLast? hs
        rw [List.getLast?_concat] at hend
        exact hlast (Option.some.inj hend).symm
    · cases hnil

end IsCut

lemma front_cases (p : Path) : p.front = none ∨ p.front = some .root ∨ p.front = some .here := by
  unfold front
  split
  · exact .inr (.inl rfl)
  · split
    · exact .inr (.inr rfl)
    · exact .inl rfl

/-- What is left of the parts of a path when some are cut off. -/
theorem isCut_of_mem (h : cut ∈ cutBack p.bodySegments.reverse) : IsCut p.front cut where
  front_eq := p.front_cases
  slash_notMem part hpart := by
    have hmem : part ∈ p.segments := by
      rw [segments_eq]
      exact List.mem_append_right _ (List.mem_reverse.1 ((mem_cutBack h).1.subset hpart))
    exact not_mem_of_mem_splitOn hmem
  head := (mem_cutBack h).2
  last hfront part hpart := by
    obtain ⟨hsuffix, hhead⟩ := mem_cutBack h
    have hfirst : p.segments.head? = some part := by
      obtain ⟨front, hfront'⟩ := hsuffix
      rw [segments_eq, frontSegments_eq, hfront, ← List.getLast?_reverse]
      show p.bodySegments.reverse.getLast? = some part
      rw [← hfront', List.getLast?_append, hpart]
      rfl
    obtain ⟨others, hothers⟩ := List.head?_eq_some_iff.1 hfirst
    have hdot : part ≠ [dot] := by
      rintro rfl
      unfold front at hfront
      split at hfront
      · cases hfront
      · cases hfront
    have hnil : part ≠ [] := by
      rintro rfl
      by_cases hrest : others = []
      · have hbody : p.bodySegments.reverse = [[]] := by
          rw [segments_eq, frontSegments_eq, hfront, hrest] at hothers
          rw [show p.bodySegments = [[]] from hothers]
          rfl
        rw [hbody] at hsuffix
        rcases List.suffix_cons_iff.1 hsuffix with rfl | hcut
        · simpa [insignificant] using hhead [] rfl
        · rw [List.suffix_nil.1 hcut] at hpart
          cases hpart
      · unfold front at hfront
        rw [if_pos (isAbsolute_iff.2 ⟨others, hrest, hothers⟩)] at hfront
        cases hfront
    simp [insignificant, hnil, hdot]

end Cut

section Same

lemma root_notMem_filterMap (parts : List Bytes) :
    .root ∉ parts.filterMap Component.ofSegment? := by
  intro hmem
  obtain ⟨part, -, hpart⟩ := List.mem_filterMap.1 hmem
  cases hi : insignificant part with
  | true =>
    rw [ofSegment?_eq_none_iff.2 hi] at hpart
    cases hpart
  | false =>
    obtain ⟨c, hroot, hc⟩ := exists_ofSegment? hi
    rw [hc] at hpart
    exact hroot (Option.some.inj hpart)

lemma root_mem_components : .root ∈ p.components ↔ p.isAbsolute = true := by
  rw [components, List.mem_append, or_iff_left (root_notMem_filterMap _)]
  unfold front
  split
  · next habs => simp [habs]
  · next habs => split <;> simp [habs]

lemma components_eq_nil_iff : p.components = [] ↔ p.bytes = [] := by
  constructor
  · intro h
    by_contra hne
    obtain ⟨x, rest, hx⟩ := List.exists_cons_of_ne_nil hne
    have habs : p.isAbsolute = false := by
      rw [Bool.eq_false_iff, Ne, ← root_mem_components, h]
      exact List.not_mem_nil
    have hslash : x ≠ slash := by
      rintro rfl
      simp [isAbsolute, hx] at habs
    obtain ⟨part, parts, -, hs⟩ := splitOn_cons_ne hslash rest
    have hsegments : p.segments = (x :: part) :: parts := by rw [segments, hx, hs]
    obtain ⟨hfront, hsteps⟩ := List.append_eq_nil_iff.1 h
    have hfirst := List.filterMap_eq_nil_iff.1 hsteps (x :: part) (by simp [hsegments])
    -- a first part that is no step is a `.`, and stands in front
    have hdot : x :: part = [dot] := by
      simpa [insignificant] using ofSegment?_eq_none_iff.1 hfirst
    simp [front, habs, hsegments, hdot] at hfront
  · intro h
    unfold components front isAbsolute segments
    rw [h]
    rfl

lemma isAbsolute_congr (h : (p == q) = true) : p.isAbsolute = q.isAbsolute := by
  rw [Bool.eq_iff_iff, ← root_mem_components, ← root_mem_components, beq_iff.1 h]

lemma head?_components : p.components.head? = some .root ↔ p.isAbsolute = true := by
  constructor
  · intro h
    exact root_mem_components.1 (List.mem_of_head? h)
  · intro h
    rw [components, front, if_pos h]
    rfl

lemma isAbsolute_of_prefix (hp : p.bytes ≠ []) (h : p.components <+: q.components) :
    q.isAbsolute = p.isAbsolute := by
  obtain ⟨c, rest, hc⟩ := List.exists_cons_of_ne_nil (mt components_eq_nil_iff.1 hp)
  obtain ⟨more, hmore⟩ := h
  rw [Bool.eq_iff_iff, ← head?_components, ← head?_components, ← hmore, hc]
  rfl

lemma steps_congr (h : (p == q) = true) : p.steps = q.steps := by
  rw [← filterMap_components, beq_iff.1 h, filterMap_components]

/-- The empty path has no other spelling. -/
theorem eq_of_bytes_eq_nil (h : (p == q) = true) (hp : p.bytes = []) : p = q := by
  have hq : q.bytes = [] := by
    rw [← components_eq_nil_iff, ← beq_iff.1 h, components_eq_nil_iff]
    exact hp
  obtain ⟨pb⟩ := p
  obtain ⟨qb⟩ := q
  dsimp only at hp hq
  rw [hp, hq]

end Same

section Chain

/-- The parent of a path is what is left of it without its last component, and the chain goes on
with the ancestors of the parent. -/
theorem parent?_cases (p : Path) :
    (p.parent? = none ∧ p.properAncestors = [] ∧ (p.components = [] ∨ p.components = [.root])) ∨
      ∃ q, p.parent? = some q ∧ p.properAncestors = q.ancestors ∧
        ∃ c ≠ .root, p.components = q.components ++ [c] := by
  have hproper : p.properAncestors =
      (cutBack p.bodySegments.reverse).map (fun cut => ofSegments p.frontSegments cut.reverse) ++
        if p.front = some .here then [⟨[]⟩] else [] := rfl
  unfold parent?
  cases hcuts : cutBack p.bodySegments.reverse with
  | nil =>
    rw [hcuts, List.map_nil, List.nil_append] at hproper
    have hsteps : p.bodySegments.filterMap Component.ofSegment? = [] := by
      rw [← List.reverse_eq_nil_iff, ← List.filterMap_reverse]
      exact cutBack_eq_nil_iff.1 hcuts
    rw [components_eq, hsteps, List.append_nil, hproper]
    obtain hfront | hfront | hfront := p.front_cases <;> rw [hfront]
    · exact .inl ⟨rfl, rfl, .inl rfl⟩
    · exact .inl ⟨rfl, rfl, .inr rfl⟩
    · exact .inr ⟨⟨[]⟩, rfl, rfl, .here, nofun, rfl⟩
  | cons cut cuts =>
    obtain ⟨hrest, c, hroot, hc⟩ := cutBack_eq_cons hcuts
    have hcut : IsCut p.front cut := isCut_of_mem (by simp [hcuts])
    rw [hcuts, List.map_cons, frontSegments_eq] at hproper
    refine .inr ⟨ofSegments (frontParts p.front) cut.reverse, ?_, ?_, c, hroot, ?_⟩
    · rw [hproper]
      rfl
    · rw [hproper, ancestors, hcut.properAncestors, hrest]
      rfl
    · rw [hcut.components, components_eq, List.append_assoc, List.filterMap_reverse,
        ← List.reverse_cons, ← hc, List.filterMap_reverse, List.reverse_reverse]

/-- What holds where there is no parent, and of a path if it holds of its parent, holds of every
path. -/
@[elab_as_elim]
theorem parent_induction {motive : Path → Prop} (p : Path)
    (top : ∀ p, p.parent? = none → p.properAncestors = [] →
      (p.components = [] ∨ p.components = [.root]) → motive p)
    (step : ∀ p q, p.parent? = some q → p.properAncestors = q.ancestors →
      (∃ c ≠ .root, p.components = q.components ++ [c]) → motive q → motive p) : motive p := by
  induction hn : p.components.length generalizing p with
  | zero =>
    obtain ⟨hnone, hproper, hcomponents⟩ | ⟨q, -, -, c, -, hc⟩ := p.parent?_cases
    · exact top p hnone hproper hcomponents
    · simp [hc] at hn
  | succ n ih =>
    obtain ⟨hnone, hproper, hcomponents⟩ | ⟨q, hq, hproper, c, hroot, hc⟩ := p.parent?_cases
    · exact top p hnone hproper hcomponents
    · refine step p q hq hproper ⟨c, hroot, hc⟩ (ih q ?_)
      rw [hc, List.length_append, List.length_singleton] at hn
      exact Nat.succ.inj hn

/-- The chain of an ancestor is the rest of the chain that it stands in. -/
theorem properAncestors_of_chain {below above : List Path}
    (h : p.ancestors = below ++ dir :: above) : dir.properAncestors = above := by
  induction p using parent_induction generalizing below with
  | top p _ hproper _ =>
    cases below with
    | nil =>
      obtain ⟨rfl, rfl⟩ := List.cons.inj h
      rfl
    | cons first below =>
      rw [ancestors, hproper] at h
      simp at h
  | step p q _ hproper _ ih =>
    cases below with
    | nil =>
      obtain ⟨rfl, rfl⟩ := List.cons.inj h
      rfl
    | cons first below =>
      rw [ancestors, hproper] at h
      exact ih (List.cons.inj h).2

/-- Whoever goes up leaves components behind. -/
theorem components_of_mem_properAncestors (h : dir ∈ p.properAncestors) :
    dir.components <+: p.components ∧ dir.components.length < p.components.length := by
  induction p using parent_induction with
  | top p _ hproper _ => simp [hproper] at h
  | step p q _ hproper hc ih =>
    obtain ⟨c, -, hc⟩ := hc
    have hq : q.components <+: p.components := ⟨[c], hc.symm⟩
    have hlength : p.components.length = q.components.length + 1 := by simp [hc]
    rw [hproper] at h
    rcases List.mem_cons.1 h with rfl | h
    · exact ⟨hq, by omega⟩
    · obtain ⟨hbegins, hlt⟩ := ih h
      exact ⟨hbegins.trans hq, by omega⟩

lemma properAncestors_of_parent? (h : p.parent? = some q) : p.properAncestors = q.ancestors := by
  obtain ⟨hnone, -⟩ | ⟨above, habove, hproper, -⟩ := p.parent?_cases
  · rw [h] at hnone
    cases hnone
  · rw [h] at habove
    cases habove
    exact hproper

/-- In a chain every directory is above those before it. -/
theorem mem_properAncestors_of_chain {x : Path} {below above : List Path}
    (h : p.ancestors = below ++ dir :: above) (hx : x ∈ below) : dir ∈ x.properAncestors := by
  obtain ⟨first, rest, rfl⟩ := List.append_of_mem hx
  rw [List.append_assoc, List.cons_append] at h
  rw [properAncestors_of_chain h]
  simp

lemma properAncestors_asymm (h : dir ∈ p.properAncestors) : p ∉ dir.properAncestors := by
  intro h'
  have hlt := (components_of_mem_properAncestors h).2
  have hlt' := (components_of_mem_properAncestors h').2
  omega

lemma notMem_properAncestors (p : Path) : p ∉ p.properAncestors := by
  intro h
  exact properAncestors_asymm h h

/-- What is above a path is another path, also up to the spelling. -/
theorem beq_eq_false_of_mem_properAncestors (h : dir ∈ p.properAncestors) : (dir == p) = false := by
  rw [Bool.eq_false_iff, Ne, beq_iff]
  intro heq
  have hlt := (components_of_mem_properAncestors h).2
  rw [heq] at hlt
  omega

lemma not_top {c : Component} {above : List Component} (hroot : c ≠ .root) :
    ¬ (above ++ [c] = [] ∨ above ++ [c] = [.root]) := by
  rintro (h | h)
  · simp at h
  · obtain ⟨-, hc⟩ := List.append_inj' (h.trans (List.nil_append _).symm) rfl
    exact hroot (List.cons.inj hc).1

/-- Paths with the same components have the same ancestors, component by component. -/
theorem ancestors_congr (h : (p == q) = true) :
    List.Forall₂ (fun a b => (a == b) = true) p.ancestors q.ancestors := by
  refine .cons h ?_
  rw [beq_iff] at h
  induction p using parent_induction generalizing q with
  | top p _ hproper hp =>
    obtain ⟨-, hproper', -⟩ | ⟨above, -, -, c, hroot, hc⟩ := q.parent?_cases
    · rw [hproper, hproper']
      exact .nil
    · rw [h, hc] at hp
      exact absurd hp (not_top hroot)
  | step p above _ hproper hc ih =>
    obtain ⟨c, hroot, hc⟩ := hc
    obtain ⟨-, -, hq⟩ | ⟨above', -, hproper', c', -, hc'⟩ := q.parent?_cases
    · rw [← h, hc] at hq
      exact absurd hq (not_top hroot)
    · rw [h, hc'] at hc
      obtain ⟨habove, -⟩ := List.append_inj' hc rfl
      rw [hproper, hproper']
      exact .cons (beq_iff.2 habove.symm) (ih habove.symm)

lemma front_congr (h : p.segments = q.segments) : p.front = q.front := by
  have habs : p.isAbsolute = q.isAbsolute := by
    rw [Bool.eq_iff_iff, isAbsolute_iff, isAbsolute_iff, h]
  unfold front
  rw [habs, h]

lemma parent?_congr (h : p.segments = q.segments) : p.parent? = q.parent? := by
  have hfront := front_congr h
  unfold parent? properAncestors bodySegments
  rw [frontSegments_eq, frontSegments_eq, hfront, h]

lemma exists_isCut (h : dir ∈ p.properAncestors) :
    ∃ front cut, IsCut front cut ∧ dir = ofSegments (frontParts front) cut.reverse := by
  rcases List.mem_append.1 h with h | h
  · obtain ⟨cut, hcut, rfl⟩ := List.mem_map.1 h
    exact ⟨p.front, cut, isCut_of_mem hcut, by rw [frontSegments_eq]⟩
  · split at h
    · exact ⟨none, [], ⟨.inl rfl, nofun, nofun, nofun⟩, List.mem_singleton.1 h⟩
    · cases h

/-- Below an ancestor every path that names a step has it as its parent. -/
theorem parent?_join {part : Bytes} (hdir : dir ∈ p.properAncestors) (hpart : IsStep part) :
    (dir.join ⟨part⟩).parent? = some dir := by
  obtain ⟨front, cut, hcut, rfl⟩ := exists_isCut hdir
  have hbelow := hcut.cons hpart
  have hsegments : ((ofSegments (frontParts front) cut.reverse).join ⟨part⟩).segments =
      (ofSegments (frontParts front) (part :: cut).reverse).segments := by
    obtain ⟨pad, rfl | ⟨-, hnil⟩, hs⟩ := hbelow.segments
    · rw [hcut.segments_join hpart, hs, List.reverse_cons, List.append_nil]
    · cases hnil
  have hdrop : cut.dropWhile insignificant = cut := by
    cases cut with
    | nil => rfl
    | cons last cut => exact List.dropWhile_cons_of_neg (by simp [hcut.head last rfl])
  rw [parent?_congr hsegments, parent?, hbelow.properAncestors, cutBack,
    if_neg (by simp [hpart.significant]), hdrop]
  rfl

end Chain

end ServerFleet.Path
