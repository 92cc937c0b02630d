import ServerFleet.Definition.Basic
import ServerFleet.Proofs.Instance.Order

/-!
Texts in the order of their octets. A text is determined by its octets, so the order is total, and
a sorted set of texts stands in strictly ascending order. So do the entries of a table by instances
once they are sorted, and their order does not depend on how the table keeps them.
-/

namespace ServerFleet

open Std (TransCmp ReflCmp LawfulEqCmp OrientedCmp)

lemma Bytes.toList_loop (b : ByteArray) (i : Nat) (r : List UInt8) :
    ByteArray.toList.loop b i r = r.reverse ++ b.data.toList.drop i := by
  fun_induction ByteArray.toList.loop b i r with
  | case1 i r hi ih =>
    have hdrop : b.data.toList.drop i = b.get! i :: b.data.toList.drop (i + 1) := by
      simpa [ByteArray.get!, hi] using List.drop_eq_getElem_cons (l := b.data.toList) (i := i) hi
    rw [ih, hdrop, List.reverse_cons, List.append_assoc]
    rfl
  | case2 i r hi =>
    have hdrop : b.data.toList.drop i = [] :=
      List.drop_eq_nil_of_le (by simpa using Nat.le_of_not_gt hi)
    rw [hdrop, List.append_nil]

/-- A text is determined by its octets. -/
theorem Bytes.ofString_injective : Function.Injective Bytes.ofString := by
  intro a b h
  have hdata : a.toByteArray.data.toList = b.toByteArray.data.toList := by
    simpa [Bytes.ofString, ByteArray.toList, Bytes.toList_loop] using h
  exact String.toByteArray_inj.1 (ByteArray.ext (Array.toList_inj.1 hdata))

instance : TransCmp compareText := transCmp_on Bytes.ofString Bytes.compare

instance : LawfulEqCmp compareText where
  eq_of_compare h := Bytes.ofString_injective (LawfulEqCmp.eq_of_compare h)

lemma compareText_self (a : String) : compareText a a = .eq :=
  ReflCmp.compare_self

lemma ne_of_compareText_lt {a b : String} (h : compareText a b = .lt) : a ≠ b := by
  rintro rfl
  rw [compareText_self] at h
  cases h

lemma pairwise_eraseDups {α : Type} [BEq α] [LawfulBEq α] {R : α → α → Prop} {l : List α}
    (h : l.Pairwise R) : l.eraseDups.Pairwise fun a b => R a b ∧ a ≠ b := by
  induction hn : l.length using Nat.strongRecOn generalizing l with
  | ind n ih =>
    cases l with
    | nil => exact .nil
    | cons a l =>
      obtain ⟨ha, hl⟩ := List.pairwise_cons.1 h
      have hshorter : (l.filter fun b => !b == a).length < n := by
        rw [← hn, List.length_cons]
        exact Nat.lt_succ_of_le (List.length_filter_le _ _)
      rw [List.eraseDups_cons]
      refine .cons (fun b hb => ?_) (ih _ hshorter (hl.filter _) rfl)
      obtain ⟨hmem, hne⟩ := List.mem_filter.1 (List.mem_eraseDups.1 hb)
      exact ⟨ha b hmem, fun hab => by simp [hab] at hne⟩

lemma eraseDups_of_nodup {α : Type} [BEq α] [LawfulBEq α] {l : List α} (h : l.Nodup) :
    l.eraseDups = l := by
  induction l with
  | nil => rfl
  | cons a l ih =>
    obtain ⟨ha, hl⟩ := List.nodup_cons.1 h
    have hfilter : l.filter (fun b => !b == a) = l := by
      refine List.filter_eq_self.2 fun b hb => ?_
      have hne : b ≠ a := by
        rintro rfl
        exact ha hb
      simpa using hne
    rw [List.eraseDups_cons, hfilter, ih hl]

/-- A set of texts stands in strictly ascending order. -/
theorem pairwise_sortedTexts (ss : List String) :
    (sortedTexts ss).Pairwise fun a b => compareText a b = .lt := by
  refine (pairwise_eraseDups (pairwise_mergeSort compareText ss)).imp fun {a b} hab => ?_
  obtain ⟨hle, hne⟩ := hab
  cases hc : compareText a b with
  | lt => rfl
  | eq => exact absurd (LawfulEqCmp.eq_of_compare hc) hne
  | gt => simp [hc] at hle

/-- Keys that are not before one another name the same instance. -/
theorem InstanceKey.compare_eq_iff {a b : InstanceKey} :
    a.compare b = .eq ↔ (a == b) = true := by
  rw [InstanceKey.compare, Ordering.then_eq_eq, InstanceKey.beq_iff, Path.compare_eq_iff,
    LawfulEqCmp.compare_eq_iff_eq]

namespace Manager.Roster

variable {α : Type}

/-- Sorted entries with different keys increase strictly. -/
theorem pairwise_lt_sortByKey (t : Table InstanceKey α) :
    (sortByKey t.entries).Pairwise fun a b => a.1.compare b.1 = .lt := by
  have hdistinct : (sortByKey t.entries).Pairwise fun a b => (a.1 == b.1) = false := by
    refine ((sortByKey_perm _).pairwise_iff fun {a b} h => ?_).2 t.distinct
    rwa [BEq.comm]
  refine ((pairwise_sortByKey t.entries).and hdistinct).imp fun {a b} h => ?_
  obtain ⟨hle, hne⟩ := h
  cases hc : a.1.compare b.1 with
  | lt => rfl
  | eq =>
    rw [InstanceKey.compare_eq_iff.1 hc] at hne
    cases hne
  | gt =>
    rw [hc] at hle
    cases hle

/-- The order of the live clients does not depend on how they are kept. -/
theorem sortByKey_eq_of_perm {t t' : Table InstanceKey α} (h : t'.entries.Perm t.entries) :
    sortByKey t'.entries = sortByKey t.entries := by
  have hperm := (sortByKey_perm t'.entries).trans (h.trans (sortByKey_perm t.entries).symm)
  refine List.Perm.eq_of_pairwise (fun a b _ _ hab hba => ?_) (pairwise_lt_sortByKey t')
    (pairwise_lt_sortByKey t) hperm
  exact absurd hba (OrientedCmp.not_lt_of_lt hab)

end Manager.Roster

end ServerFleet
