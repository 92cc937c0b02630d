import Mathlib.Algebra.BigOperators.Group.List.Basic
import Mathlib.Data.List.Count
import Mathlib.Data.List.Induction
import Mathlib.Data.List.Nodup
import ServerFleet.Proofs.Text.Order
import ServerFleet.Scan

/-!
Counts of texts. A tally lists the texts that occur in ascending order, each with the number of its
occurrences. So it has no zeros, it adds up to the number of all occurrences, and the order in which
they came does not show.
-/

namespace ServerFleet.Scan

open Std (TransCmp OrientedCmp LawfulEqCmp)

variable {e k : String} {n : Nat} {counts : List (String × Nat)} {es es' : List String}

def Ascending (counts : List (String × Nat)) : Prop :=
  counts.Pairwise fun a b => compareText a.1 b.1 = .lt

def countOf (counts : List (String × Nat)) (e : String) : Nat :=
  ((counts.find? (·.1 = e)).map (·.2)).getD 0

lemma countOf_cons (c : String × Nat) (counts : List (String × Nat)) (e : String) :
    countOf (c :: counts) e = if c.1 = e then c.2 else countOf counts e := by
  unfold countOf
  by_cases h : c.1 = e <;> simp [h]

lemma countOf_eq_zero (h : ∀ c ∈ counts, c.1 ≠ e) : countOf counts e = 0 := by
  unfold countOf
  rw [List.find?_eq_none.2 (by simpa using h)]
  rfl

namespace Ascending

lemma nodup (h : Ascending counts) : (counts.map (·.1)).Nodup :=
  List.pairwise_map.2 (h.imp ne_of_compareText_lt)

lemma ne_of_mem {c c' : String × Nat} (h : Ascending (c :: counts)) (hc : c' ∈ counts) :
    c'.1 ≠ c.1 :=
  (ne_of_compareText_lt ((List.pairwise_cons.1 h).1 c' hc)).symm

/-- An entry is found under its text. -/
theorem countOf_of_mem (h : Ascending counts) (hmem : (e, n) ∈ counts) : countOf counts e = n := by
  induction counts with
  | nil => cases hmem
  | cons c counts ih =>
    rw [countOf_cons]
    rcases List.mem_cons.1 hmem with rfl | hmem
    · exact if_pos rfl
    · rw [if_neg (h.ne_of_mem hmem).symm]
      exact ih h.of_cons hmem

/-- A text in front of all entries has no count. -/
theorem countOf_of_lt {first : String × Nat} (h : Ascending (first :: counts))
    (hlt : compareText e first.1 = .lt) : countOf (first :: counts) e = 0 := by
  refine countOf_eq_zero fun c hc heq => ?_
  have hbehind : compareText e c.1 = .lt := by
    rcases List.mem_cons.1 hc with rfl | hc
    · exact hlt
    · exact TransCmp.lt_trans hlt ((List.pairwise_cons.1 h).1 c hc)
  exact ne_of_compareText_lt hbehind heq.symm

/-- Where no count is zero, the entries are the texts that have counts. -/
theorem mem_iff (h : Ascending counts) (hpos : ∀ c ∈ counts, 0 < c.2) :
    (e, n) ∈ counts ↔ 0 < n ∧ n = countOf counts e := by
  constructor
  · intro hmem
    exact ⟨hpos _ hmem, (h.countOf_of_mem hmem).symm⟩
  · rintro ⟨hn, rfl⟩
    unfold countOf at hn ⊢
    cases hfind : counts.find? (·.1 = e) with
    | none => simp [hfind] at hn
    | some c =>
      have hc : c.1 = e := by simpa using List.find?_some hfind
      have hmem := List.mem_of_find?_eq_some hfind
      rw [← hc]
      exact hmem

end Ascending

section Increment

lemma text_mem_increment {c : String × Nat} (h : c ∈ increment e counts) :
    c.1 = e ∨ ∃ c' ∈ counts, c'.1 = c.1 := by
  induction counts with
  | nil => exact .inl (congrArg Prod.fst (List.mem_singleton.1 h))
  | cons first counts ih =>
    unfold increment at h
    split at h
    · rcases List.mem_cons.1 h with rfl | h
      · exact .inl rfl
      · exact .inr ⟨c, h, rfl⟩
    · rcases List.mem_cons.1 h with rfl | h
      · exact .inr ⟨first, List.mem_cons_self, rfl⟩
      · exact .inr ⟨c, List.mem_cons_of_mem _ h, rfl⟩
    · rcases List.mem_cons.1 h with rfl | h
      · exact .inr ⟨c, List.mem_cons_self, rfl⟩
      · exact (ih h).imp_right fun ⟨c', hc', heq⟩ => ⟨c', List.mem_cons_of_mem _ hc', heq⟩

lemma Ascending.increment (h : Ascending counts) (e : String) :
    Ascending (increment e counts) := by
  induction counts with
  | nil => exact List.pairwise_singleton _ _
  | cons first counts ih =>
    obtain ⟨hfirst, hrest⟩ := List.pairwise_cons.1 h
    unfold Scan.increment
    split
    · next hlt =>
      refine .cons (fun c hc => ?_) h
      rcases List.mem_cons.1 hc with rfl | hc
      · exact hlt
      · exact TransCmp.lt_trans hlt (hfirst c hc)
    · exact .cons hfirst hrest
    · next hgt =>
      refine .cons (fun c hc => ?_) (ih hrest)
      rcases text_mem_increment hc with heq | ⟨c', hc', heq⟩
      · rw [heq]
        exact OrientedCmp.gt_iff_lt.1 hgt
      · rw [← heq]
        exact hfirst c' hc'

lemma countOf_increment (h : Ascending counts) (e k : String) :
    countOf (increment e counts) k = countOf counts k + if e = k then 1 else 0 := by
  induction counts with
  | nil =>
    rw [increment, countOf_cons]
    exact (Nat.zero_add _).symm
  | cons first counts ih =>
    unfold increment
    split
    · next hlt =>
      rw [countOf_cons]
      split
      · next heq =>
        replace heq : e = k := heq
        rw [← heq, h.countOf_of_lt hlt]
      · rfl
    · next heq =>
      have he : e = first.1 := LawfulEqCmp.eq_of_compare heq
      subst he
      rw [countOf_cons, countOf_cons]
      split <;> rfl
    · next hgt =>
      have hne : first.1 ≠ e := ne_of_compareText_lt (OrientedCmp.gt_iff_lt.1 hgt)
      rw [countOf_cons, countOf_cons, ih h.of_cons]
      split
      · next hk => rw [if_neg (by rw [← hk]; exact hne.symm), Nat.add_zero]
      · rfl

lemma pos_increment (h : ∀ c ∈ counts, 0 < c.2) : ∀ c ∈ increment e counts, 0 < c.2 := by
  induction counts with
  | nil =>
    intro c hc
    rw [List.mem_singleton.1 hc]
    exact Nat.one_pos
  | cons first counts ih =>
    obtain ⟨hfirst, hrest⟩ := List.forall_mem_cons.1 h
    unfold increment
    split
    · exact List.forall_mem_cons.2 ⟨Nat.one_pos, h⟩
    · exact List.forall_mem_cons.2 ⟨Nat.succ_pos _, hrest⟩
    · exact List.forall_mem_cons.2 ⟨hfirst, ih hrest⟩

lemma sum_increment (e : String) (counts : List (String × Nat)) :
    ((increment e counts).map (·.2)).sum = (counts.map (·.2)).sum + 1 := by
  induction counts with
  | nil => rfl
  | cons first counts ih =>
    unfold increment
    split
    · simp only [List.map_cons, List.sum_cons]
      omega
    · simp only [List.map_cons, List.sum_cons]
      omega
    · simp only [List.map_cons, List.sum_cons, ih]
      omega

end Increment

section Tally

lemma tally_concat (es : List String) (e : String) :
    tally (es ++ [e]) = increment e (tally es) := by
  rw [tally, List.foldl_append]
  rfl

lemma ascending_tally (es : List String) : Ascending (tally es) := by
  induction es using List.reverseRecOn with
  | nil => exact .nil
  | append_singleton es e ih =>
    rw [tally_concat]
    exact ih.increment e

/-- A tally counts occurrences. -/
theorem countOf_tally (es : List String) (e : String) : countOf (tally es) e = es.count e := by
  induction es using List.reverseRecOn with
  | nil => rfl
  | append_singleton es last ih =>
    rw [tally_concat, countOf_increment (ascending_tally es), ih, List.count_append,
      List.count_singleton]
    simp only [beq_iff_eq]

lemma pos_tally (es : List String) : ∀ c ∈ tally es, 0 < c.2 := by
  induction es using List.reverseRecOn with
  | nil => exact nofun
  | append_singleton es e ih =>
    rw [tally_concat]
    exact pos_increment ih

/-- A tally lists the texts that occur, with the numbers of their occurrences. -/
theorem mem_tally : (e, n) ∈ tally es ↔ 0 < n ∧ n = es.count e := by
  rw [(ascending_tally es).mem_iff (pos_tally es), countOf_tally]

lemma sum_tally (es : List String) : ((tally es).map (·.2)).sum = es.length := by
  induction es using List.reverseRecOn with
  | nil => rfl
  | append_singleton es e ih => rw [tally_concat, sum_increment, ih, List.length_append]; rfl

/-- A tally does not depend on the order in which the texts come. -/
theorem tally_perm (h : es.Perm es') : tally es = tally es' := by
  have hmem (c : String × Nat) : c ∈ tally es ↔ c ∈ tally es' := by
    obtain ⟨e, n⟩ := c
    rw [mem_tally, mem_tally, h.count_eq]
  have hnodup (es : List String) : (tally es).Nodup := (ascending_tally es).nodup.of_map _
  refine List.Perm.eq_of_pairwise (fun a b _ _ hab hba => ?_) (ascending_tally es)
    (ascending_tally es') ((List.perm_ext_iff_of_nodup (hnodup es) (hnodup es')).2 hmem)
  exact absurd hba (OrientedCmp.not_lt_of_lt hab)

lemma count_add_countP {ks : List String} (hk : k ∉ ks) (es : List String) :
    es.count k + es.countP (· ∈ ks) = es.countP (· ∈ k :: ks) := by
  induction es with
  | nil => rfl
  | cons e es ih =>
    rw [List.count_cons, List.countP_cons, List.countP_cons, ← ih]
    by_cases he : e = k
    · subst he
      simp [hk]
      omega
    · simp [he]
      omega

/-- The counts of different texts add up to the number of all their occurrences. -/
theorem sum_countOf_tally {ks : List String} (h : ks.Nodup) (es : List String) :
    (ks.map (countOf (tally es))).sum = es.countP (· ∈ ks) := by
  induction ks with
  | nil => simp
  | cons k ks ih =>
    obtain ⟨hk, hks⟩ := List.nodup_cons.1 h
    rw [List.map_cons, List.sum_cons, ih hks, countOf_tally, count_add_countP hk]

end Tally

end ServerFleet.Scan
