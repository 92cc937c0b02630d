import Mathlib.Algebra.GroupWithZero.Nat
import Mathlib.Tactic.Common
import ServerFleet.Table

/-!
More look-ups in tables: what a filter by keys leaves, how entries and look-ups correspond, what a
table is made of that takes over the keys of others, and tables that are numbered, whose keys are
the numbers below their size.
-/

namespace ServerFleet.Table

section Lookup

variable {κ : Type u} {α : Type v} [BEq κ]

lemma contains_iff {t : Table κ α} {k : κ} : t.contains k = true ↔ ∃ a, t.find? k = some a :=
  Option.isSome_iff_exists

lemma contains_eq_false {t : Table κ α} {k : κ} : t.contains k = false ↔ t.find? k = none := by
  unfold contains
  cases t.find? k <;> simp

/-- An entry that is found stands in the table under the same key. -/
theorem mem_entries_of_find? {t : Table κ α} {k : κ} {a : α} (h : t.find? k = some a) :
    ∃ k', (k' == k) = true ∧ (k', a) ∈ t.entries := by
  obtain ⟨e, he, rfl⟩ := Option.map_eq_some_iff.1 h
  unfold findEntry? at he
  have hk := List.find?_some he
  exact ⟨e.1, hk, List.mem_of_find?_eq_some he⟩

/-- An entry is what its key is found with. -/
theorem find?_of_mem [ReflBEq κ] {t : Table κ α} {k : κ} {a : α} (h : (k, a) ∈ t.entries) :
    t.find? k = some a := by
  obtain ⟨entries, distinct⟩ := t
  unfold find? findEntry?
  dsimp only at h ⊢
  induction distinct with
  | nil => cases h
  | @cons e rest hall hp ih =>
    obtain rfl | h := List.mem_cons.1 h
    · simp
    · rw [List.find?_cons_of_neg (by simpa using hall _ h)]
      exact ih h

lemma mem_values_iff [ReflBEq κ] {t : Table κ α} {a : α} :
    a ∈ t.values ↔ ∃ k, t.find? k = some a := by
  constructor
  · intro h
    obtain ⟨e, he, rfl⟩ := List.mem_map.1 h
    exact ⟨e.1, find?_of_mem he⟩
  · rintro ⟨k, h⟩
    obtain ⟨k', -, hmem⟩ := mem_entries_of_find? h
    exact List.mem_map.2 ⟨(k', a), hmem, rfl⟩

/-- A filter that looks at keys only keeps a key with its value or drops it. -/
theorem find?_filter_key (t : Table κ α) {p : κ → Bool} (hp : ∀ a b, (a == b) = true → p a = p b)
    (k : κ) : (t.filter fun k _ => p k).find? k = if p k then t.find? k else none := by
  unfold filter find? findEntry?
  simp only [List.find?_filter]
  split
  · next hk =>
    congr 2
    funext e
    cases he : e.1 == k with
    | false => simp
    | true => simp [hp _ _ he, hk]
  · next hk =>
    rw [List.find?_eq_none.2]
    · rfl
    · intro e _ h
      simp only [Bool.decide_and, Bool.decide_eq_true, Bool.and_eq_true] at h
      exact hk (hp _ _ h.2 ▸ h.1)

lemma contains_filter_key (t : Table κ α) {p : κ → Bool}
    (hp : ∀ a b, (a == b) = true → p a = p b) (k : κ) :
    (t.filter fun k _ => p k).contains k = (p k && t.contains k) := by
  unfold contains
  rw [find?_filter_key t hp]
  cases p k <;> simp

variable [EquivBEq κ]

lemma insertEntry_insertEntry (k : κ) (a b : α) (l : List (κ × α)) :
    insertEntry k b (insertEntry k a l) = insertEntry k b l := by
  induction l with
  | nil => simp [insertEntry]
  | cons e rest ih =>
    by_cases he : e.1 == k
    · simp [insertEntry, he]
    · simp [insertEntry, he, ih]

/-- Of two values that are given to a key one after the other the second one stays. -/
@[simp] theorem insert_insert (t : Table κ α) (k : κ) (a b : α) :
    (t.insert k a).insert k b = t.insert k b := by
  simp only [insert, insertEntry_insertEntry]

@[simp] lemma contains_insert (t : Table κ α) (k k' : κ) (a : α) :
    (t.insert k a).contains k' = (k == k' || t.contains k') := by
  unfold contains
  rw [find?_insert]
  cases k == k' <;> simp

@[simp] lemma contains_erase (t : Table κ α) (k k' : κ) :
    (t.erase k).contains k' = (!(k == k') && t.contains k') := by
  unfold contains
  rw [find?_erase]
  cases k == k' <;> simp

lemma contains_congr (t : Table κ α) {k k' : κ} (h : k == k') :
    t.contains k = t.contains k' := by
  unfold contains
  rw [find?_congr t h]

omit [EquivBEq κ] in
lemma contains_eq_any (t : Table κ α) (k : κ) : t.contains k = t.keys.any (· == k) := by
  simp [contains, find?, findEntry?, keys, List.isSome_find?, Function.comp_def]

omit [EquivBEq κ] in
/-- Tables with the same keys contain the same. -/
theorem contains_eq_of_keys {β : Type w} {t : Table κ α} {t' : Table κ β} (h : t.keys = t'.keys)
    (k : κ) : t.contains k = t'.contains k := by
  rw [contains_eq_any, contains_eq_any, h]

/-- A key that is in the table differs from one that is not. -/
theorem not_beq_of_contains {t : Table κ α} {k k' : κ} (h : t.contains k = true)
    (h' : t.contains k' = false) : (k == k') = false := by
  cases he : k == k' with
  | false => rfl
  | true =>
    rw [← contains_congr t he, h] at h'
    cases h'

omit [EquivBEq κ] in
lemma contains_eq_any_entries (t : Table κ α) (k : κ) :
    t.contains k = t.entries.any fun e => e.1 == k := by
  rw [contains_eq_any, keys, List.any_map]
  rfl

/-- Entries that are all inserted with one value, over what was there before. -/
theorem find?_foldl_insert {β : Type w} (l : List (κ × α)) (t : Table κ β) (b : β) (k : κ) :
    (l.foldl (fun t e => t.insert e.1 b) t).find? k =
      if l.any (·.1 == k) then some b else t.find? k := by
  induction l generalizing t with
  | nil => rfl
  | cons e rest ih =>
    rw [List.foldl_cons, ih, find?_insert, List.any_cons]
    cases e.1 == k with
    | true => simp
    | false => rw [Bool.false_or, if_neg Bool.false_ne_true]

/-- Entries that are inserted with one value where nothing was before. -/
theorem find?_foldl_insert_new {β : Type w} (l : List (κ × α)) (t : Table κ β) (b : β) (k : κ) :
    (l.foldl (fun t e => if t.contains e.1 then t else t.insert e.1 b) t).find? k =
      (t.find? k).or (if l.any (·.1 == k) then some b else none) := by
  induction l generalizing t with
  | nil => simp
  | cons e rest ih =>
    rw [List.foldl_cons, ih, List.any_cons]
    cases hk : e.1 == k with
    | true =>
      have hc := contains_congr t hk
      split
      · next he =>
        obtain ⟨a, ha⟩ := contains_iff.1 (hc.symm.trans he)
        simp [ha]
      · next he =>
        have hn : t.find? k = none := contains_eq_false.1 (by simpa [hc] using he)
        simp [hk, hn]
    | false =>
      rw [Bool.false_or]
      split
      · rfl
      · rw [find?_insert, hk, if_neg Bool.false_ne_true]

/-- A key that is in the table is in one entry. -/
theorem countP_entries (t : Table κ α) (k : κ) :
    t.entries.countP (·.1 == k) = (t.contains k).toNat := by
  obtain ⟨entries, distinct⟩ := t
  rw [contains_eq_any_entries]
  dsimp only
  induction distinct with
  | nil => rfl
  | @cons e rest hall hp ih =>
    cases hk : e.1 == k with
    | true =>
      have hrest : rest.countP (·.1 == k) = 0 := by
        refine List.countP_eq_zero.2 fun x hx hxk => ?_
        have hne := hall x hx
        rw [BEq.trans hk (BEq.symm hxk)] at hne
        cases hne
      simp [hk, hrest]
    | false => simpa [hk] using ih

end Lookup

section Entry

variable {κ : Type u} {α : Type v} [BEq κ] [EquivBEq κ] {t t' : Table κ α}

lemma findEntry?_insert (t : Table κ α) (k k' : κ) (a : α) :
    findEntry? (t.insert k a) k' =
      if k == k' then some (((t.findEntry? k').map (·.1)).getD k, a) else t.findEntry? k' := by
  unfold insert findEntry?
  dsimp only
  induction t.entries with
  | nil => cases h : k == k' <;> simp [insertEntry, h]
  | cons e rest ih =>
    unfold insertEntry
    cases he : e.1 == k with
    | true =>
      have hc : (e.1 == k') = (k == k') := BEq.congr_left he
      cases h : k == k' <;> simp [hc, h]
    | false =>
      cases hk : e.1 == k' with
      | true =>
        have hf : (k == k') = false := by rw [← BEq.congr_right hk, BEq.comm, he]
        simp [hk, hf]
      | false => simpa [hk] using ih

/-- An entry is found under the keys that name it. -/
theorem findEntry?_eq_some_iff {k : κ} {e : κ × α} :
    t.findEntry? k = some e ↔ e ∈ t.entries ∧ (e.1 == k) = true := by
  constructor
  · intro h
    unfold findEntry? at h
    have hk := List.find?_some h
    exact ⟨List.mem_of_find?_eq_some h, hk⟩
  · rintro ⟨hmem, hk⟩
    obtain ⟨entries, distinct⟩ := t
    unfold findEntry?
    dsimp only at hmem ⊢
    induction distinct with
    | nil => cases hmem
    | @cons first rest hall _ ih =>
      rcases List.mem_cons.1 hmem with rfl | hmem
      · exact List.find?_cons_of_pos hk
      · have hne : (first.1 == k) = false := by rw [← BEq.congr_right hk, hall e hmem]
        rw [List.find?_cons_of_neg (by simp [hne])]
        exact ih hmem

/-- A table has no two spellings of one key. -/
theorem eq_of_mem_keys {k k' : κ} (h : k ∈ t.keys) (h' : k' ∈ t.keys) (hk : (k == k') = true) :
    k = k' := by
  obtain ⟨e, he, rfl⟩ := List.mem_map.1 h
  obtain ⟨e', he', rfl⟩ := List.mem_map.1 h'
  have hfind := findEntry?_eq_some_iff.2 ⟨he, hk⟩
  have hfind' := findEntry?_eq_some_iff.2 ⟨he', BEq.rfl⟩
  rw [hfind] at hfind'
  cases hfind'
  rfl

omit [EquivBEq κ] in
/-- A change of every value is made to the one that is found. -/
theorem find?_map {β : Type w} [LawfulBEq κ] (t : Table κ α) (f : κ → α → β) (k : κ) :
    (t.map f).find? k = (t.find? k).map (f k) := by
  unfold map find? findEntry?
  dsimp only
  induction t.entries with
  | nil => rfl
  | cons e rest ih =>
    cases hk : e.1 == k with
    | true => simp [eq_of_beq hk]
    | false => simpa [hk] using ih

/-- The order of the entries does not matter to what is found. -/
theorem findEntry?_eq_of_perm (h : t.entries.Perm t'.entries) (k : κ) :
    t.findEntry? k = t'.findEntry? k := by
  refine Option.ext fun e => ?_
  rw [findEntry?_eq_some_iff, findEntry?_eq_some_iff, h.mem_iff]

lemma nodup_entries (t : Table κ α) : t.entries.Nodup :=
  t.distinct.imp fun {a b} hab he => by simp [he] at hab

/-- Tables in which the same is found have the same entries. -/
theorem perm_of_findEntry?_eq (h : ∀ k, t.findEntry? k = t'.findEntry? k) :
    t.entries.Perm t'.entries := by
  refine (List.perm_ext_iff_of_nodup t.nodup_entries t'.nodup_entries).2 fun e => ?_
  have hself : ∀ t : Table κ α, e ∈ t.entries ↔ t.findEntry? e.1 = some e := by
    intro t
    simp [findEntry?_eq_some_iff]
  rw [hself, hself, h]

end Entry

section Total

variable {κ : Type u} {α : Type v} [BEq κ]

/-- What the entries weigh together. -/
def total (w : κ → α → Nat) (t : Table κ α) : Nat := (t.entries.map fun e => w e.1 e.2).sum

variable {w : κ → α → Nat}

@[simp] lemma total_empty (w : κ → α → Nat) : (empty : Table κ α).total w = 0 := rfl

lemma le_total_of_mem {t : Table κ α} {e : κ × α} (h : e ∈ t.entries) :
    w e.1 e.2 ≤ t.total w := by
  obtain ⟨l, r, hl⟩ := List.append_of_mem h
  rw [total, hl, List.map_append, List.sum_append, List.map_cons, List.sum_cons]
  omega

lemma total_eq_zero {t : Table κ α} (h : ∀ e ∈ t.entries, w e.1 e.2 = 0) : t.total w = 0 := by
  refine List.sum_eq_zero_iff_forall_eq_nat.2 fun n hn => ?_
  obtain ⟨e, he, rfl⟩ := List.mem_map.1 hn
  exact h e he

/-- A table falls into two parts. -/
theorem total_filter (p : κ → α → Bool) (t : Table κ α) :
    (t.filter fun k a => !p k a).total w + (t.filter p).total w = t.total w := by
  unfold total filter
  dsimp only
  induction t.entries with
  | nil => rfl
  | cons e rest ih =>
    simp only [List.filter_cons]
    cases p e.1 e.2 <;> simp <;> omega

variable (hw : ∀ {k k' : κ} (a : α), (k == k') = true → w k a = w k' a)
include hw

lemma le_total {t : Table κ α} {k : κ} {a : α} (h : t.find? k = some a) :
    w k a ≤ t.total w := by
  obtain ⟨k', hk, hmem⟩ := mem_entries_of_find? h
  rw [← hw a hk]
  exact le_total_of_mem hmem

/-- A value weighs what it does in the place of the one before it. -/
theorem total_insert (t : Table κ α) (k : κ) (a : α) :
    (t.insert k a).total w + (t.find? k).elim 0 (w k) = t.total w + w k a := by
  unfold total insert find? findEntry?
  dsimp only
  induction t.entries with
  | nil => simp [insertEntry]
  | cons e rest ih =>
    unfold insertEntry
    cases he : e.1 == k with
    | true =>
      have ha := hw a he
      have hold := hw e.2 he
      simp [he]
      omega
    | false =>
      simp [he, -Option.elim_map]
      omega

lemma total_insert_old {t : Table κ α} {k : κ} {b : α} (h : t.find? k = some b) (a : α) :
    (t.insert k a).total w + w k b = t.total w + w k a := by
  have hi := total_insert hw t k a
  rwa [h] at hi

lemma total_insert_new {t : Table κ α} {k : κ} (h : t.find? k = none) (a : α) :
    (t.insert k a).total w = t.total w + w k a := by
  have hi := total_insert hw t k a
  rwa [h] at hi

lemma total_erase [EquivBEq κ] (t : Table κ α) (k : κ) :
    (t.erase k).total w + (t.find? k).elim 0 (w k) = t.total w := by
  obtain ⟨entries, distinct⟩ := t
  unfold total erase filter find? findEntry?
  dsimp only
  induction distinct with
  | nil => rfl
  | @cons e rest hall hp ih =>
    cases he : e.1 == k with
    | true =>
      -- no other entry has this key
      have hrest : rest.filter (fun x => !(x.1 == k)) = rest := by
        refine List.filter_eq_self.2 fun x hx => ?_
        have hne := hall x hx
        rw [BEq.congr_left he, BEq.comm] at hne
        rw [hne]
        rfl
      have hold := hw e.2 he
      simp [he, hrest]
      omega
    | false =>
      simp [he, -Option.elim_map]
      omega

end Total

section Numbered

variable {α : Type v}

lemma find?_insert_self (t : Table Nat α) (k : Nat) (a : α) :
    (t.insert k a).find? k = some a := by
  simp

lemma find?_insert_of_ne (t : Table Nat α) {k k' : Nat} (h : k' ≠ k) (a : α) :
    (t.insert k a).find? k' = t.find? k' := by
  simp [Ne.symm h]

/-- What is found after an insertion is the new value or was there before. -/
theorem find?_insert_cases {t : Table Nat α} {k k' : Nat} {a b : α}
    (h : (t.insert k a).find? k' = some b) :
    k' = k ∧ b = a ∨ k' ≠ k ∧ t.find? k' = some b := by
  by_cases hk : k' = k
  · subst hk
    rw [find?_insert_self] at h
    exact .inl ⟨rfl, (Option.some.inj h).symm⟩
  · rw [find?_insert_of_ne t hk] at h
    exact .inr ⟨hk, h⟩

/-- The keys of the table are the numbers below its size. -/
def Numbered (t : Table Nat α) : Prop := ∀ id, t.contains id = true ↔ id < t.size

lemma insertEntry_length (k : Nat) (a : α) (l : List (Nat × α)) :
    (insertEntry k a l).length = l.length + if (l.find? (·.1 == k)).isSome then 0 else 1 := by
  induction l with
  | nil => rfl
  | cons e rest ih =>
    unfold insertEntry
    by_cases he : e.1 == k
    · simp [he]
    · simp only [he, Bool.false_eq_true, if_false, List.length_cons, ih]
      rw [List.find?_cons_of_neg (by simpa using he)]
      omega

lemma size_insert (t : Table Nat α) (k : Nat) (a : α) :
    (t.insert k a).size = t.size + if t.contains k then 0 else 1 := by
  have h := insertEntry_length k a t.entries
  simpa only [size, insert, contains, find?, findEntry?, Option.isSome_map] using h

lemma numbered_empty : (empty : Table Nat α).Numbered := by
  intro id
  simp [size, empty, contains, find?, findEntry?]

namespace Numbered

variable {t : Table Nat α}

/-- The next number is not taken. -/
theorem find?_size (h : t.Numbered) : t.find? t.size = none :=
  contains_eq_false.1 (by simpa using (h t.size).not.2 (Nat.lt_irrefl _))

lemma lt_size (h : t.Numbered) {id : Nat} {a : α} (hf : t.find? id = some a) : id < t.size :=
  (h id).1 (contains_iff.2 ⟨a, hf⟩)

lemma insert_next (h : t.Numbered) (a : α) : (t.insert t.size a).Numbered := by
  intro id
  have hn : t.contains t.size = false := contains_eq_false.2 h.find?_size
  have hid := h id
  rw [size_insert, contains_insert, hn]
  simp only [Bool.or_eq_true, beq_iff_eq, hid, Bool.false_eq_true, if_false]
  omega

lemma insert_old (h : t.Numbered) {k : Nat} {a : α} (hf : t.find? k = some a) (b : α) :
    (t.insert k b).Numbered := by
  intro id
  have hk : t.contains k = true := contains_iff.2 ⟨a, hf⟩
  have hid := h id
  rw [size_insert, contains_insert, hk]
  simp only [Bool.or_eq_true, beq_iff_eq, hid, if_true, Nat.add_zero, or_iff_right_iff_imp]
  rintro rfl
  exact h.lt_size hf

end Numbered

end Numbered

end ServerFleet.Table
