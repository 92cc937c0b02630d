/-!
Finite tables with a key equality of their own. A table keeps its entries in the order of their
first insertion; a key that comes again keeps its first spelling and takes the new value. The
lemmas describe each operation by what `find?` returns afterwards.
-/

namespace ServerFleet

/-- Entries whose keys are pairwise different under `==`. -/
structure Table (κ : Type u) (α : Type v) [BEq κ] where
  entries : List (κ × α)
  distinct : entries.Pairwise fun a b => (a.1 == b.1) = false

namespace Table

variable {κ : Type u} {α : Type v} [BEq κ]

def empty : Table κ α := ⟨[], .nil⟩

instance : Inhabited (Table κ α) := ⟨empty⟩

/-- The entry of a key, as spelled at its first insertion. -/
def findEntry? (t : Table κ α) (k : κ) : Option (κ × α) := t.entries.find? (·.1 == k)

def find? (t : Table κ α) (k : κ) : Option α := (t.findEntry? k).map (·.2)

def contains (t : Table κ α) (k : κ) : Bool := (t.find? k).isSome

/-- The keys as spelled, in order. -/
def keys (t : Table κ α) : List κ := t.entries.map (·.1)

def values (t : Table κ α) : List α := t.entries.map (·.2)

def size (t : Table κ α) : Nat := t.entries.length

def isEmpty (t : Table κ α) : Bool := t.entries.isEmpty

/-- Puts a value into the entry of its key, or behind all entries. -/
def insertEntry (k : κ) (a : α) : List (κ × α) → List (κ × α)
  | [] => [(k, a)]
  | e :: rest => if e.1 == k then (e.1, a) :: rest else e :: insertEntry k a rest

theorem mem_insertEntry {k : κ} {a : α} {l : List (κ × α)} {x : κ × α}
    (h : x ∈ insertEntry k a l) : (∃ e ∈ l, e.1 = x.1) ∨ x = (k, a) := by
  induction l with
  | nil => simp_all [insertEntry]
  | cons e rest ih =>
    unfold insertEntry at h
    split at h
    · rcases List.mem_cons.1 h with rfl | h
      · exact .inl ⟨e, by simp, rfl⟩
      · exact .inl ⟨x, by simp [h], rfl⟩
    · rcases List.mem_cons.1 h with rfl | h
      · exact .inl ⟨x, by simp, rfl⟩
      · rcases ih h with ⟨y, hy, hk⟩ | hx
        · exact .inl ⟨y, by simp [hy], hk⟩
        · exact .inr hx

theorem pairwise_insertEntry {k : κ} {a : α} {l : List (κ × α)}
    (h : l.Pairwise fun a b => (a.1 == b.1) = false) :
    (insertEntry k a l).Pairwise fun a b => (a.1 == b.1) = false := by
  induction l with
  | nil => simp [insertEntry]
  | cons e rest ih =>
    rw [List.pairwise_cons] at h
    unfold insertEntry
    split
    · rw [List.pairwise_cons]
      exact ⟨fun b hb => h.1 b hb, h.2⟩
    · rename_i hne
      rw [List.pairwise_cons]
      refine ⟨fun b hb => ?_, ih h.2⟩
      rcases mem_insertEntry hb with ⟨y, hy, hk⟩ | rfl
      · rw [← hk]; exact h.1 y hy
      · simpa using hne

def insert (t : Table κ α) (k : κ) (a : α) : Table κ α :=
  ⟨insertEntry k a t.entries, pairwise_insertEntry t.distinct⟩

def filter (p : κ → α → Bool) (t : Table κ α) : Table κ α :=
  ⟨t.entries.filter fun e => p e.1 e.2, t.distinct.filter _⟩

def erase (t : Table κ α) (k : κ) : Table κ α := t.filter fun k' _ => !(k' == k)

def map (f : κ → α → β) (t : Table κ α) : Table κ β :=
  ⟨t.entries.map fun e => (e.1, f e.1 e.2), by
    rw [List.pairwise_map]; exact t.distinct⟩

/-- Changes the value of a key, from a default if it has none. -/
def alter (t : Table κ α) (k : κ) (start : α) (f : α → α) : Table κ α :=
  t.insert k (f ((t.find? k).getD start))

def ofList (l : List (κ × α)) : Table κ α := l.foldl (fun t e => t.insert e.1 e.2) empty

section Lemmas

variable [EquivBEq κ]

theorem find?_insertEntry (k k' : κ) (a : α) (l : List (κ × α)) :
    ((insertEntry k a l).find? (·.1 == k')).map (·.2) =
      if k == k' then some a else (l.find? (·.1 == k')).map (·.2) := by
  induction l with
  | nil => by_cases h : k == k' <;> simp [insertEntry, h]
  | cons e rest ih =>
    unfold insertEntry
    by_cases he : e.1 == k
    · have hc : (e.1 == k') = (k == k') := BEq.congr_left he
      by_cases h : k == k' <;> simp [he, hc, h]
    · by_cases hk : e.1 == k'
      · have hf : (k == k') = false := by
          cases h : k == k' with
          | false => rfl
          | true => exact absurd (PartialEquivBEq.trans hk (PartialEquivBEq.symm h)) he
        simp [he, hk, hf]
      · simp only [he, Bool.false_eq_true, if_false]
        rw [List.find?_cons_of_neg (by simpa using hk), ih,
          List.find?_cons_of_neg (by simpa using hk)]

@[simp] theorem find?_insert (t : Table κ α) (k k' : κ) (a : α) :
    (t.insert k a).find? k' = if k == k' then some a else t.find? k' :=
  find?_insertEntry k k' a t.entries

@[simp] theorem find?_erase (t : Table κ α) (k k' : κ) :
    (t.erase k).find? k' = if k == k' then none else t.find? k' := by
  unfold erase filter find? findEntry?
  simp only
  induction t.entries with
  | nil => simp
  | cons e rest ih =>
    by_cases he : e.1 == k
    · rw [List.filter_cons_of_neg (by simp [he]), ih]
      by_cases h : k == k'
      · simp [h]
      · have hk : ¬ (e.1 == k') = true := by
          rw [BEq.congr_left he]; exact h
        simp [h, hk]
    · rw [List.filter_cons_of_pos (by simp [he])]
      by_cases hk : e.1 == k'
      · have hf : (k == k') = false := by
          cases h : k == k' with
          | false => rfl
          | true => exact absurd (PartialEquivBEq.trans hk (PartialEquivBEq.symm h)) he
        simp [hk, hf]
      · rw [List.find?_cons_of_neg (by simpa using hk), ih,
          List.find?_cons_of_neg (by simpa using hk)]

omit [EquivBEq κ] in
@[simp] theorem find?_empty (k : κ) : (empty : Table κ α).find? k = none := rfl

theorem find?_congr (t : Table κ α) {k k' : κ} (h : k == k') : t.find? k = t.find? k' := by
  unfold find? findEntry?
  congr 2
  funext e
  exact BEq.congr_right h

end Lemmas

end Table

end ServerFleet
