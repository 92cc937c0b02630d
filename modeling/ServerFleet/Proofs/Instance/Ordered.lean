import ServerFleet.Proofs.Text.Order

/-!
Maps in the order of their keys. Such a map looks at nothing but how two instances compare, where a
table looks at nothing but whether they are the same one. Order and sameness agree, so an ordered
map finds what the table with its entries does, and keys that go into the one and the other leave
the same entries behind. In contrast to a table it also forgets the order in which they came.
-/

namespace ServerFleet

open Std (OrientedCmp TransCmp)

/-- Entries in the strictly ascending order of their keys. -/
@[ext]
structure OrderedMap (α : Type) where
  entries : List (InstanceKey × α)
  ascending : entries.Pairwise fun x y => x.1.compare y.1 = .lt

namespace InstanceKey

variable {k k' : InstanceKey}

lemma beq_eq_false_of_lt (h : k.compare k' = .lt) : (k == k') = false := by
  rw [Bool.eq_false_iff, Ne, ← compare_eq_iff, h]
  simp

end InstanceKey

namespace OrderedMap

variable {α : Type} {m m' : OrderedMap α} {t t' : Table InstanceKey α} {k k' : InstanceKey}
  {a b : α} {l : List (InstanceKey × α)}

def empty : OrderedMap α := ⟨[], .nil⟩

/-- Looks for a key up to the first entry that is not before it. -/
def seek (k : InstanceKey) : List (InstanceKey × α) → Option α
  | [] => none
  | e :: rest =>
    match k.compare e.1 with
    | .lt => none
    | .eq => some e.2
    | .gt => seek k rest

def find? (m : OrderedMap α) (k : InstanceKey) : Option α := seek k m.entries

/-- Puts a value into the entry of its key, or in front of the first entry behind it. -/
def place (k : InstanceKey) (a : α) : List (InstanceKey × α) → List (InstanceKey × α)
  | [] => [(k, a)]
  | e :: rest =>
    match k.compare e.1 with
    | .lt => (k, a) :: e :: rest
    | .eq => (e.1, a) :: rest
    | .gt => e :: place k a rest

lemma lt_of_mem_place (hk : k'.compare k = .lt) (hl : ∀ e ∈ l, k'.compare e.1 = .lt) :
    ∀ e ∈ place k a l, k'.compare e.1 = .lt := by
  induction l with
  | nil => simpa [place] using hk
  | cons e rest ih =>
    obtain ⟨he, hrest⟩ := List.forall_mem_cons.1 hl
    unfold place
    split
    · exact List.forall_mem_cons.2 ⟨hk, hl⟩
    · exact List.forall_mem_cons.2 ⟨he, hrest⟩
    · exact List.forall_mem_cons.2 ⟨he, ih hrest⟩

lemma pairwise_place (h : l.Pairwise fun x y => x.1.compare y.1 = .lt) :
    (place k a l).Pairwise fun x y => x.1.compare y.1 = .lt := by
  induction h with
  | nil => exact List.pairwise_singleton _ _
  | @cons e rest he hrest ih =>
    unfold place
    split
    · next hlt =>
      refine .cons (List.forall_mem_cons.2 ⟨hlt, fun x hx => ?_⟩) (.cons he hrest)
      exact TransCmp.lt_trans hlt (he x hx)
    · exact .cons he hrest
    · next hgt => exact .cons (lt_of_mem_place (OrientedCmp.lt_of_gt hgt) he) ih

/-- Gives a key a value. A key that comes again keeps its first spelling. -/
def insert (m : OrderedMap α) (k : InstanceKey) (a : α) : OrderedMap α :=
  ⟨place k a m.entries, pairwise_place m.ascending⟩

/-- Gives a key a value if it has none. -/
def insertNew (m : OrderedMap α) (k : InstanceKey) (a : α) : OrderedMap α :=
  if (m.find? k).isSome then m else m.insert k a

def toTable (m : OrderedMap α) : Table InstanceKey α :=
  ⟨m.entries, m.ascending.imp InstanceKey.beq_eq_false_of_lt⟩

def ofTable (t : Table InstanceKey α) : OrderedMap α :=
  ⟨Manager.Roster.sortByKey t.entries, Manager.Roster.pairwise_lt_sortByKey t⟩

lemma entries_ofTable_perm (t : Table InstanceKey α) : (ofTable t).entries.Perm t.entries :=
  Manager.Roster.sortByKey_perm _

/-- There is one order in which entries ascend. -/
theorem eq_of_perm (h : m.entries.Perm m'.entries) : m = m' := by
  refine OrderedMap.ext (h.eq_of_pairwise (fun x y _ _ hxy hyx => ?_) m.ascending m'.ascending)
  exact absurd hyx (OrientedCmp.not_lt_of_lt hxy)

lemma ofTable_toTable (m : OrderedMap α) : ofTable m.toTable = m :=
  eq_of_perm (entries_ofTable_perm _)

lemma ofTable_congr (h : ∀ k, t.findEntry? k = t'.findEntry? k) :
    ofTable t = ofTable t' :=
  eq_of_perm ((entries_ofTable_perm t).trans
    ((Table.perm_of_findEntry?_eq h).trans (entries_ofTable_perm t').symm))

section Agreement

/-- A key that is in front of all entries is in none of them. -/
theorem beq_eq_false_of_front {e : InstanceKey × α} (he : k.compare e.1 = .lt)
    (hl : ∀ x ∈ l, e.1.compare x.1 = .lt) : ∀ x ∈ e :: l, (x.1 == k) = false := by
  intro x hx
  rw [BEq.comm]
  refine InstanceKey.beq_eq_false_of_lt ?_
  obtain rfl | hx := List.mem_cons.1 hx
  · exact he
  · exact TransCmp.lt_trans he (hl x hx)

lemma insertEntry_of_forall (h : ∀ e ∈ l, (e.1 == k) = false) :
    Table.insertEntry k a l = l ++ [(k, a)] := by
  induction l with
  | nil => rfl
  | cons e rest ih =>
    obtain ⟨he, hrest⟩ := List.forall_mem_cons.1 h
    rw [Table.insertEntry, if_neg (by simp [he]), ih hrest]
    rfl

lemma seek_eq (h : l.Pairwise fun x y => x.1.compare y.1 = .lt) :
    seek k l = (l.find? (·.1 == k)).map (·.2) := by
  induction h with
  | nil => rfl
  | @cons e rest he hrest ih =>
    unfold seek
    split
    · next hlt =>
      have hnone : (e :: rest).find? (·.1 == k) = none :=
        List.find?_eq_none.2 fun x hx => by simp [beq_eq_false_of_front hlt he x hx]
      rw [hnone]
      rfl
    · next heq =>
      have hk : (e.1 == k) = true := BEq.symm (InstanceKey.compare_eq_iff.1 heq)
      simp [hk]
    · next hgt =>
      have hk : (e.1 == k) = false := InstanceKey.beq_eq_false_of_lt (OrientedCmp.lt_of_gt hgt)
      rw [List.find?_cons_of_neg (by simp [hk]), ih]

lemma find?_toTable (m : OrderedMap α) (k : InstanceKey) : m.toTable.find? k = m.find? k :=
  (seek_eq m.ascending).symm

/-- What a table finds, its entries in order find too. -/
theorem find?_ofTable (t : Table InstanceKey α) (k : InstanceKey) :
    (ofTable t).find? k = t.find? k := by
  rw [← find?_toTable]
  exact congrArg (Option.map _) (Table.findEntry?_eq_of_perm (entries_ofTable_perm t) k)

/-- A map and a table with the same entries have the same entries after an insertion. -/
theorem place_perm (h : l.Pairwise fun x y => x.1.compare y.1 = .lt) :
    (place k a l).Perm (Table.insertEntry k a l) := by
  induction h with
  | nil => exact .refl _
  | @cons e rest he hrest ih =>
    unfold place
    split
    · next hlt =>
      rw [insertEntry_of_forall (beq_eq_false_of_front hlt he)]
      exact (List.perm_append_singleton (k, a) (e :: rest)).symm
    · next heq =>
      have hk : (e.1 == k) = true := BEq.symm (InstanceKey.compare_eq_iff.1 heq)
      rw [Table.insertEntry, if_pos hk]
    · next hgt =>
      have hk : (e.1 == k) = false := InstanceKey.beq_eq_false_of_lt (OrientedCmp.lt_of_gt hgt)
      rw [Table.insertEntry, if_neg (by simp [hk])]
      exact ih.cons e

/-- It makes no difference whether a key goes into a table or into its entries in order. -/
theorem ofTable_insert (t : Table InstanceKey α) (k : InstanceKey) (a : α) :
    ofTable (t.insert k a) = (ofTable t).insert k a := by
  have hfind (j : InstanceKey) :
      Table.findEntry? (t.insert k a) j =
        Table.findEntry? ((ofTable t).toTable.insert k a) j := by
    have hsame (j : InstanceKey) : t.findEntry? j = Table.findEntry? (ofTable t).toTable j :=
      (Table.findEntry?_eq_of_perm (entries_ofTable_perm t) j).symm
    rw [Table.findEntry?_insert, Table.findEntry?_insert, hsame]
  have htables := Table.perm_of_findEntry?_eq hfind
  exact eq_of_perm ((entries_ofTable_perm _).trans
    (htables.trans (place_perm (ofTable t).ascending).symm))

lemma ofTable_insertNew (t : Table InstanceKey α) (k : InstanceKey) (a : α) :
    ofTable (if t.contains k then t else t.insert k a) = (ofTable t).insertNew k a := by
  unfold insertNew Table.contains
  rw [find?_ofTable]
  split
  · rfl
  · exact ofTable_insert t k a

end Agreement

section Insertion

/-- Equal keys are found alike. -/
theorem find?_congr (m : OrderedMap α) (h : (k == k') = true) : m.find? k = m.find? k' := by
  rw [← ofTable_toTable m, find?_ofTable, find?_ofTable, Table.find?_congr _ h]

lemma find?_insert (m : OrderedMap α) (k k' : InstanceKey) (a : α) :
    (m.insert k a).find? k' = if k == k' then some a else m.find? k' := by
  rw [← ofTable_toTable m, ← ofTable_insert, find?_ofTable, find?_ofTable, Table.find?_insert]

/-- Different keys may be inserted in either order. -/
theorem insert_comm (m : OrderedMap α) (h : (k == k') = false) (a b : α) :
    (m.insert k a).insert k' b = (m.insert k' b).insert k a := by
  rw [← ofTable_toTable m, ← ofTable_insert, ← ofTable_insert, ← ofTable_insert, ← ofTable_insert]
  refine ofTable_congr fun j => ?_
  simp only [Table.findEntry?_insert]
  cases hk : k == j with
  | true =>
    have hk' : (k' == j) = false := by rw [← BEq.congr_right hk, BEq.comm, h]
    simp [hk']
  | false => cases k' == j <;> rfl

lemma insertNew_comm (m : OrderedMap α) (h : (k == k') = false) (a b : α) :
    (m.insertNew k a).insertNew k' b = (m.insertNew k' b).insertNew k a := by
  have hk (x : α) : (m.insert k x).find? k' = m.find? k' := by
    rw [find?_insert, h, if_neg Bool.false_ne_true]
  have hk' (x : α) : (m.insert k' x).find? k = m.find? k := by
    rw [find?_insert, BEq.comm, h, if_neg Bool.false_ne_true]
  unfold insertNew
  cases hm : m.find? k <;> cases hm' : m.find? k' <;>
    simp [hm, hm', hk, hk', insert_comm m h]

end Insertion

end OrderedMap

end ServerFleet
