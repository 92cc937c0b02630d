import Mathlib.Order.Compare
import ServerFleet.Manager.Roster
import ServerFleet.Proofs.Table

/-!
The order of instances. Paths are ordered by their components and keys by the id of their server and
then by their root. Both orders are total, and paths that are not before one another have the same
components. So entries that are sorted by their keys stand in the order of the roots, one server
after the other.
-/

namespace ServerFleet

open Std (OrientedCmp TransCmp ReflCmp LawfulEqCmp)

/-- What is ordered by a part of it is ordered as that part is. -/
theorem transCmp_on {α β : Type} (f : α → β) (cmp : β → β → Ordering) [TransCmp cmp] :
    TransCmp fun a b => cmp (f a) (f b) where
  eq_swap := OrientedCmp.eq_swap
  isLE_trans := TransCmp.isLE_trans

/-- What is sorted stands in order. -/
theorem pairwise_mergeSort {α : Type} (cmp : α → α → Ordering) [TransCmp cmp] (l : List α) :
    (l.mergeSort fun a b => (cmp a b).isLE).Pairwise fun a b => (cmp a b).isLE = true := by
  refine List.pairwise_mergeSort (fun a b c => TransCmp.isLE_trans) (fun a b => ?_) l
  have hswap : cmp b a = (cmp a b).swap := OrientedCmp.eq_swap
  rw [hswap]
  cases cmp a b <;> rfl

lemma Bytes.compare_eq_compareLex (a b : Bytes) :
    Bytes.compare a b = List.compareLex Ord.compare a b := by
  induction a generalizing b with
  | nil => cases b <;> rfl
  | cons x xs ih =>
    cases b with
    | nil => rfl
    | cons y ys =>
      have hxy : Ord.compare x y = if x < y then .lt else if x = y then .eq else .gt := rfl
      rw [List.compareLex_cons_cons, Bytes.compare, ih, hxy]
      by_cases hlt : x < y
      · simp [hlt]
      · by_cases heq : x = y
        · subst heq
          simp
        · have hgt : y < x := UInt8.lt_of_le_of_ne (UInt8.not_lt.1 hlt) (Ne.symm heq)
          simp [hlt, heq, hgt]

instance : TransCmp Bytes.compare := by
  have h : Bytes.compare = List.compareLex Ord.compare := by
    funext a b
    exact Bytes.compare_eq_compareLex a b
  rw [h]
  infer_instance

instance : LawfulEqCmp Bytes.compare := by
  have h : Bytes.compare = List.compareLex Ord.compare := by
    funext a b
    exact Bytes.compare_eq_compareLex a b
  rw [h]
  infer_instance

namespace Component

def text : Component → Bytes
  | name t => t
  | _ => []

lemma compare_eq_compareLex :
    Component.compare =
      compareLex (fun a b => Ord.compare a.rank b.rank) fun a b => Bytes.compare a.text b.text := by
  funext a b
  cases a <;> cases b <;> rfl

lemma eq_of_rank_of_text {a b : Component} (hr : a.rank = b.rank) (ht : a.text = b.text) :
    a = b := by
  cases a <;> cases b <;> simp_all [rank, text]

instance : TransCmp Component.compare := by
  have hr := transCmp_on Component.rank Ord.compare
  have ht := transCmp_on Component.text Bytes.compare
  rw [compare_eq_compareLex]
  infer_instance

instance : LawfulEqCmp Component.compare where
  eq_of_compare {a b} h := by
    rw [compare_eq_compareLex, compareLex_eq_eq] at h
    exact eq_of_rank_of_text (LawfulEqCmp.eq_of_compare h.1) (LawfulEqCmp.eq_of_compare h.2)

end Component

namespace Path

lemma compareComponents_eq_compareLex (a b : List Component) :
    compareComponents a b = List.compareLex Component.compare a b := by
  induction a generalizing b with
  | nil => cases b <;> rfl
  | cons x xs ih =>
    cases b with
    | nil => rfl
    | cons y ys => rw [List.compareLex_cons_cons, compareComponents, ih]

lemma compare_eq_compareLex :
    Path.compare = fun p q => List.compareLex Component.compare p.components q.components := by
  funext p q
  exact compareComponents_eq_compareLex _ _

instance : TransCmp Path.compare := by
  rw [compare_eq_compareLex]
  exact transCmp_on Path.components _

/-- Paths that are not before one another are the same path, perhaps in two spellings. -/
theorem compare_eq_iff {p q : Path} : p.compare q = .eq ↔ (p == q) = true := by
  rw [compare_eq_compareLex, beq_iff]
  exact LawfulEqCmp.compare_eq_iff_eq

end Path

namespace InstanceKey

instance : TransCmp InstanceKey.compare := by
  have hid := transCmp_on (fun k : InstanceKey => Bytes.ofString k.serverId) Bytes.compare
  have hroot := transCmp_on InstanceKey.root Path.compare
  exact inferInstanceAs (TransCmp (compareLex
    (fun a b : InstanceKey => Bytes.compare (Bytes.ofString a.serverId) (Bytes.ofString b.serverId))
    fun a b => a.root.compare b.root))

/-- The instances of one server are ordered by their roots. -/
theorem compare_of_serverId_eq {a b : InstanceKey} (h : a.serverId = b.serverId) :
    a.compare b = a.root.compare b.root := by
  have hid : compareText a.serverId b.serverId = .eq := by
    rw [h]
    exact @ReflCmp.compare_self _ Bytes.compare _ _
  rw [InstanceKey.compare, hid]
  rfl

end InstanceKey

namespace Manager.Roster

variable {α : Type}

lemma mem_sortByKey {l : List (InstanceKey × α)} {e : InstanceKey × α} :
    e ∈ sortByKey l ↔ e ∈ l :=
  List.mem_mergeSort

lemma sortByKey_perm (l : List (InstanceKey × α)) : (sortByKey l).Perm l :=
  List.mergeSort_perm l _

/-- Sorted entries stand in the order of their keys. -/
theorem pairwise_sortByKey (l : List (InstanceKey × α)) :
    (sortByKey l).Pairwise fun a b => (a.1.compare b.1).isLE = true := by
  have hkeys := transCmp_on (fun e : InstanceKey × α => e.1) InstanceKey.compare
  exact pairwise_mergeSort (fun a b => a.1.compare b.1) l

end Manager.Roster

end ServerFleet
