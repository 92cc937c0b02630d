import Mathlib.Data.List.Nodup
import ServerFleet.Json.Parser

/-!
Members by name. Putting a member in keeps names apart, so a value that was read from JSON text has
each name at most once in every object.
-/

namespace ServerFleet

namespace ByName

variable {α : Type} {name k : String} {a : α} {m : String × α} {ms : List (String × α)}

def value? (name : String) (ms : List (String × α)) : Option α :=
  (ms.find? (·.1 = name)).map (·.2)

/-- Gives a name its value: in the place of an earlier one, or at the end. -/
def put (name : String) (a : α) : List (String × α) → List (String × α)
  | [] => [(name, a)]
  | m :: rest => if m.1 = name then (name, a) :: rest else m :: put name a rest

lemma value?_cons (m : String × α) (ms : List (String × α)) (k : String) :
    value? k (m :: ms) = if m.1 = k then some m.2 else value? k ms := by
  unfold value?
  by_cases h : m.1 = k <;> simp [h]

lemma value?_put (name k : String) (a : α) (ms : List (String × α)) :
    value? k (put name a ms) = if name = k then some a else value? k ms := by
  induction ms with
  | nil => exact value?_cons _ _ _
  | cons m rest ih =>
    unfold put
    by_cases hm : m.1 = name
    · subst hm
      rw [if_pos rfl, value?_cons, value?_cons]
      split <;> rfl
    · rw [if_neg hm, value?_cons, value?_cons, ih]
      by_cases hk : name = k
      · rw [if_pos hk, if_pos hk, if_neg (by rwa [← hk])]
      · rw [if_neg hk, if_neg hk]

lemma names_put (name : String) (a : α) (ms : List (String × α)) :
    (put name a ms).map (·.1) =
      if name ∈ ms.map (·.1) then ms.map (·.1) else ms.map (·.1) ++ [name] := by
  induction ms with
  | nil => rfl
  | cons m rest ih =>
    unfold put
    by_cases hm : m.1 = name
    · simp [hm]
    · have hne : name ≠ m.1 := Ne.symm hm
      rw [if_neg hm, List.map_cons, ih]
      simp only [List.map_cons, List.mem_cons, hne, false_or]
      split <;> rfl

lemma nodup_put (h : (ms.map (·.1)).Nodup) (name : String) (a : α) :
    ((put name a ms).map (·.1)).Nodup := by
  rw [names_put]
  split
  · exact h
  · next hnew => exact List.concat_eq_append ▸ h.concat hnew

lemma mem_put (h : m ∈ put name a ms) : m = (name, a) ∨ m ∈ ms := by
  induction ms with
  | nil => exact .inl (List.mem_singleton.1 h)
  | cons first rest ih =>
    unfold put at h
    split at h
    · rcases List.mem_cons.1 h with rfl | h
      · exact .inl rfl
      · exact .inr (List.mem_cons_of_mem _ h)
    · rcases List.mem_cons.1 h with rfl | h
      · exact .inr List.mem_cons_self
      · exact (ih h).imp_right (List.mem_cons_of_mem _)

/-- A new name comes at the end. -/
theorem put_of_notMem (h : name ∉ ms.map (·.1)) (a : α) : put name a ms = ms ++ [(name, a)] := by
  induction ms with
  | nil => rfl
  | cons m rest ih =>
    rw [List.map_cons, List.mem_cons, not_or] at h
    rw [put, if_neg (Ne.symm h.1), ih h.2, List.cons_append]

lemma mem_of_value? (h : value? name ms = some a) : (name, a) ∈ ms := by
  obtain ⟨m, hfind, rfl⟩ := Option.map_eq_some_iff.1 h
  have hname : m.1 = name := by simpa using List.find?_some hfind
  rw [← hname]
  exact List.mem_of_find?_eq_some hfind

lemma value?_of_mem (h : (ms.map (·.1)).Nodup) (hm : (name, a) ∈ ms) :
    value? name ms = some a := by
  induction ms with
  | nil => cases hm
  | cons m rest ih =>
    rw [List.map_cons, List.nodup_cons] at h
    rw [value?_cons]
    rcases List.mem_cons.1 hm with rfl | hm
    · exact if_pos rfl
    · rw [if_neg, ih h.2 hm]
      rintro rfl
      exact h.1 (List.mem_map.2 ⟨_, hm, rfl⟩)

lemma value?_isSome_iff : (value? name ms).isSome = true ↔ name ∈ ms.map (·.1) := by
  simp [value?, List.find?_isSome]

end ByName

namespace Json

open ByName

/-- No object inside a value has two members of one name. -/
inductive NamesOnce : Json → Prop
  | leaf {j : Json} (harray : j.asArray? = none) (hobject : j.asObject? = none) : NamesOnce j
  | array {items : List Json} (h : ∀ j ∈ items, NamesOnce j) : NamesOnce (.array items)
  | object {ms : List (String × Json)} (hnames : (ms.map (·.1)).Nodup)
      (h : ∀ m ∈ ms, NamesOnce m.2) : NamesOnce (.object ms)

lemma setMember_eq_put (name : String) (j : Json) (ms : List (String × Json)) :
    setMember name j ms = put name j ms := by
  induction ms with
  | nil => rfl
  | cons m rest ih =>
    obtain ⟨n, v⟩ := m
    unfold setMember put
    by_cases h : n = name
    · simp [h]
    · simp [h, ih]

variable {j : Json} {ms : List (String × Json)} {cs rest : List Char} {fuel depth : Nat}

lemma NamesOnce.nodup (h : NamesOnce (.object ms)) : (ms.map (·.1)).Nodup := by
  cases h with
  | leaf _ hobject => cases hobject
  | object hnames _ => exact hnames

lemma NamesOnce.of_mem (h : NamesOnce (.object ms)) {m : String × Json} (hm : m ∈ ms) :
    m.2.NamesOnce := by
  cases h with
  | leaf _ hobject => cases hobject
  | object _ h => exact h m hm

lemma NamesOnce.put (h : NamesOnce (.object ms)) (hj : j.NamesOnce) (name : String) :
    NamesOnce (.object (put name j ms)) := by
  refine .object (nodup_put h.nodup name j) fun m hm => ?_
  rcases mem_put hm with rfl | hm
  · exact hj
  · exact h.of_mem hm

lemma namesOnce_empty : NamesOnce (.object []) := .object List.nodup_nil nofun

section Reading

variable {negative : Bool} {exponent : Option (Bool × List Char)} {whole fraction : List Char}

lemma namesOnce_of_scaleFloat? {significand : Nat} {shift : Int}
    (h : scaleFloat? negative significand shift = some j) : j.NamesOnce := by
  unfold scaleFloat? at h
  dsimp only at h
  split_ifs at h <;> cases h <;> exact .leaf rfl rfl

lemma namesOnce_of_fractional? (h : fractional? negative whole fraction exponent = some j) :
    j.NamesOnce := by
  unfold fractional? at h
  dsimp only at h
  split at h
  · exact namesOnce_of_scaleFloat? h
  · split_ifs at h
    · cases h
      exact .leaf rfl rfl
    · exact namesOnce_of_scaleFloat? h
    · exact namesOnce_of_scaleFloat? h

lemma namesOnce_of_integral? (h : integral? negative whole = some j) : j.NamesOnce := by
  unfold integral? at h
  dsimp only at h
  split_ifs at h
  · exact namesOnce_of_fractional? h
  all_goals
    cases h
    exact .leaf rfl rfl

lemma namesOnce_of_readNumber (h : readNumber cs = some (j, rest)) : j.NamesOnce := by
  unfold readNumber at h
  dsimp only at h
  split_ifs at h
  split at h
  · split_ifs at h
    obtain ⟨_, _, h⟩ := Option.bind_eq_some_iff.1 h
    obtain ⟨value, hvalue, h⟩ := Option.bind_eq_some_iff.1 h
    cases h
    exact namesOnce_of_fractional? hvalue
  · obtain ⟨⟨exponent, _⟩, _, h⟩ := Option.bind_eq_some_iff.1 h
    cases exponent with
    | none =>
      obtain ⟨value, hvalue, h⟩ := Option.bind_eq_some_iff.1 h
      cases h
      exact namesOnce_of_integral? hvalue
    | some exponent =>
      obtain ⟨value, hvalue, h⟩ := Option.bind_eq_some_iff.1 h
      cases h
      exact namesOnce_of_fractional? hvalue

/-- What is read with a bound has every name once. -/
structure ReadsOnce (fuel : Nat) : Prop where
  value : ∀ {depth cs j rest}, readValue fuel depth cs = some (j, rest) → j.NamesOnce
  items : ∀ {depth cs items rest}, readItems fuel depth cs = some (items, rest) →
    ∀ j ∈ items, j.NamesOnce
  members : ∀ {depth found cs ms rest}, NamesOnce (.object found) →
    readMembers fuel depth found cs = some (ms, rest) → NamesOnce (.object ms)

lemma ReadsOnce.value_succ (h : ReadsOnce fuel)
    (hread : readValue (fuel + 1) depth cs = some (j, rest)) : j.NamesOnce := by
  unfold readValue at hread
  dsimp only at hread
  split at hread
  · cases depth with
    | zero => cases hread
    | succ depth =>
      dsimp only at hread
      split at hread
      · cases hread
        exact .array nofun
      · obtain ⟨⟨items, _⟩, hitems, hread⟩ := Option.bind_eq_some_iff.1 hread
        cases hread
        exact .array (h.items hitems)
  · cases depth with
    | zero => cases hread
    | succ depth =>
      dsimp only at hread
      split at hread
      · cases hread
        exact namesOnce_empty
      · obtain ⟨⟨ms, _⟩, hmembers, hread⟩ := Option.bind_eq_some_iff.1 hread
        cases hread
        exact h.members namesOnce_empty hmembers
  · obtain ⟨_, _, hread⟩ := Option.bind_eq_some_iff.1 hread
    cases hread
    exact .leaf rfl rfl
  iterate 3
    · obtain ⟨_, _, hread⟩ := Option.map_eq_some_iff.1 hread
      cases hread
      exact .leaf rfl rfl
  · exact namesOnce_of_readNumber hread

lemma ReadsOnce.items_succ (h : ReadsOnce fuel) {items : List Json}
    (hread : readItems (fuel + 1) depth cs = some (items, rest)) : ∀ j ∈ items, j.NamesOnce := by
  unfold readItems at hread
  obtain ⟨⟨item, _⟩, hitem, hread⟩ := Option.bind_eq_some_iff.1 hread
  have hfirst := h.value hitem
  dsimp only at hread
  split at hread
  · obtain ⟨⟨more, _⟩, hmore, hread⟩ := Option.bind_eq_some_iff.1 hread
    cases hread
    exact List.forall_mem_cons.2 ⟨hfirst, h.items hmore⟩
  · cases hread
    exact List.forall_mem_singleton.2 hfirst
  · cases hread

lemma ReadsOnce.members_succ (h : ReadsOnce fuel) {found : List (String × Json)}
    (hfound : NamesOnce (.object found))
    (hread : readMembers (fuel + 1) depth found cs = some (ms, rest)) :
    NamesOnce (.object ms) := by
  unfold readMembers at hread
  dsimp only at hread
  split at hread
  · obtain ⟨⟨text, _⟩, _, hread⟩ := Option.bind_eq_some_iff.1 hread
    dsimp only at hread
    split at hread
    · obtain ⟨⟨value, _⟩, hvalue, hread⟩ := Option.bind_eq_some_iff.1 hread
      dsimp only at hread
      rw [setMember_eq_put] at hread
      have hput := hfound.put (h.value hvalue) (String.ofList text)
      split at hread
      · exact h.members hput hread
      · cases hread
        exact hput
      · cases hread
    · cases hread
  · cases hread

lemma readsOnce (fuel : Nat) : ReadsOnce fuel := by
  induction fuel with
  | zero => exact ⟨nofun, nofun, nofun⟩
  | succ fuel ih => exact ⟨ih.value_succ, ih.items_succ, ih.members_succ⟩

/-- A value that is read from text has every name once. -/
theorem namesOnce_of_parse? {text : String} (h : parse? text = some j) : j.NamesOnce := by
  unfold parse? at h
  dsimp only at h
  split at h
  · next value rest hread =>
    split at h
    · cases h
      exact (readsOnce _).value hread
    · cases h
  · cases h

end Reading

end Json

end ServerFleet
