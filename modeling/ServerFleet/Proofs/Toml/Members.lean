import ServerFleet.Proofs.Json.Members
import ServerFleet.Toml.Document

/-!
Names in documents. No statement of a document gives a table a second member of one name, neither a
header nor a dotted key nor an inline table. So a document that is read has each name at most once
in every object.
-/

namespace ServerFleet.Toml

open ByName

/-- No table inside a part of a document has two members of one name. -/
inductive Node.NamesOnce : Node → Prop
  | value {j : Json} (h : j.NamesOnce) : NamesOnce (.value j)
  | table {origin : Origin} {ms : Members} (hnames : (ms.map (·.1)).Nodup)
      (h : ∀ m ∈ ms, NamesOnce m.2) : NamesOnce (.table origin ms)
  | tables {elements : List Members} (hnames : ∀ ms ∈ elements, (ms.map (·.1)).Nodup)
      (h : ∀ ms ∈ elements, ∀ m ∈ ms, NamesOnce m.2) : NamesOnce (.tables elements)

/-- The members of a table in which every name stands once. -/
structure Once (ms : Members) : Prop where
  nodup : (ms.map (·.1)).Nodup
  of_mem : ∀ m ∈ ms, m.2.NamesOnce

variable {name : String} {n : Node} {j : Json} {ms ms' last : Members} {before : List Members}
  {origin : Origin} {key path : List String}

lemma once_nil : Once [] := ⟨List.nodup_nil, nofun⟩

lemma namesOnce_tables_nil : (Node.tables []).NamesOnce :=
  .tables (by simp) (by simp)

lemma namesOnce_table_iff : (Node.table origin ms).NamesOnce ↔ Once ms := by
  constructor
  · rintro (_ | ⟨hnames, h⟩)
    exact ⟨hnames, h⟩
  · exact fun h => .table h.nodup h.of_mem

lemma namesOnce_tables_iff :
    (Node.tables (last :: before)).NamesOnce ↔ Once last ∧ (Node.tables before).NamesOnce := by
  constructor
  · rintro (_ | _ | ⟨hnames, h⟩)
    rw [List.forall_mem_cons] at hnames h
    exact ⟨⟨hnames.1, h.1⟩, .tables hnames.2 h.2⟩
  · rintro ⟨hlast, _ | _ | ⟨hnames, h⟩⟩
    exact .tables (List.forall_mem_cons.2 ⟨hlast.nodup, hnames⟩)
      (List.forall_mem_cons.2 ⟨hlast.of_mem, h⟩)

lemma store_eq_put (name : String) (n : Node) (ms : Members) :
    store name n ms = put name n ms := by
  induction ms with
  | nil => rfl
  | cons m rest ih => rw [store, put, ih]

lemma once_store (h : Once ms) (hn : n.NamesOnce) (name : String) : Once (store name n ms) := by
  rw [store_eq_put]
  refine ⟨nodup_put h.nodup name n, fun m hm => ?_⟩
  rcases mem_put hm with rfl | hm
  · exact hn
  · exact h.of_mem m hm

lemma namesOnce_of_lookup (h : Once ms) (hn : lookup name ms = some n) : n.NamesOnce :=
  h.of_mem _ (mem_of_value? hn)

lemma once_of_lookup_table (h : Once ms) (hn : lookup name ms = some (.table origin ms')) :
    Once ms' :=
  namesOnce_table_iff.1 (namesOnce_of_lookup h hn)

lemma once_of_lookup_tables (h : Once ms)
    (hn : lookup name ms = some (.tables (last :: before))) :
    Once last ∧ (Node.tables before).NamesOnce :=
  namesOnce_tables_iff.1 (namesOnce_of_lookup h hn)

section Edits

variable {x : Option Members}

/-- A table that was changed goes back under its name. -/
theorem once_of_store_table (h : Once ms) (hinner : ∀ inner, x = some inner → Once inner)
    (hms' : (do return store name (.table origin (← x)) ms) = some ms') : Once ms' := by
  obtain ⟨inner, hx, hms'⟩ := Option.bind_eq_some_iff.1 hms'
  cases hms'
  exact once_store h (namesOnce_table_iff.2 (hinner inner hx)) name

/-- The latest of several tables that was changed goes back among them. -/
theorem once_of_store_tables (h : Once ms) (hbefore : (Node.tables before).NamesOnce)
    (hinner : ∀ inner, x = some inner → Once inner)
    (hms' : (do return store name (.tables ((← x) :: before)) ms) = some ms') : Once ms' := by
  obtain ⟨inner, hx, hms'⟩ := Option.bind_eq_some_iff.1 hms'
  cases hms'
  exact once_store h (namesOnce_tables_iff.2 ⟨hinner inner hx, hbefore⟩) name

lemma once_assign (hj : j.NamesOnce) (h : Once ms) (hms' : assign j key ms = some ms') :
    Once ms' := by
  fun_induction assign j key ms generalizing ms' with
  | case1 => cases hms'
  | case2 =>
    cases hms'
    exact once_store h (.value hj) _
  | case3 => cases hms'
  | case4 _ _ _ _ _ ih => exact once_of_store_table h (fun _ => ih once_nil) hms'
  | case5 => cases hms'
  | case6 _ _ _ _ _ _ _ hfound ih =>
    exact once_of_store_table h (fun _ => ih (once_of_lookup_table h hfound)) hms'
  | case7 => cases hms'

lemma once_openTable (h : Once ms) (hms' : openTable key ms = some ms') : Once ms' := by
  fun_induction openTable key ms generalizing ms' with
  | case1 => cases hms'
  | case2 =>
    cases hms'
    exact once_store h (namesOnce_table_iff.2 once_nil) _
  | case3 _ _ _ hfound =>
    cases hms'
    exact once_store h (namesOnce_table_iff.2 (once_of_lookup_table h hfound)) _
  | case4 => cases hms'
  | case5 _ _ _ _ _ ih => exact once_of_store_table h (fun _ => ih once_nil) hms'
  | case6 _ _ _ _ _ _ hfound ih =>
    exact once_of_store_table h (fun _ => ih (once_of_lookup_table h hfound)) hms'
  | case7 _ _ _ _ _ _ hfound ih =>
    obtain ⟨hlast, hbefore⟩ := once_of_lookup_tables h hfound
    exact once_of_store_tables h hbefore (fun _ => ih hlast) hms'
  | case8 => cases hms'

lemma once_openElement (h : Once ms) (hms' : openElement key ms = some ms') : Once ms' := by
  fun_induction openElement key ms generalizing ms' with
  | case1 => cases hms'
  | case2 =>
    cases hms'
    exact once_store h (namesOnce_tables_iff.2 ⟨once_nil, namesOnce_tables_nil⟩) _
  | case3 _ _ _ hfound =>
    cases hms'
    exact once_store h (namesOnce_tables_iff.2 ⟨once_nil, namesOnce_of_lookup h hfound⟩) _
  | case4 => cases hms'
  | case5 _ _ _ _ _ ih => exact once_of_store_table h (fun _ => ih once_nil) hms'
  | case6 _ _ _ _ _ _ hfound ih =>
    exact once_of_store_table h (fun _ => ih (once_of_lookup_table h hfound)) hms'
  | case7 _ _ _ _ _ _ hfound ih =>
    obtain ⟨hlast, hbefore⟩ := once_of_lookup_tables h hfound
    exact once_of_store_tables h hbefore (fun _ => ih hlast) hms'
  | case8 => cases hms'

lemma once_assignWithin (hj : j.NamesOnce) (h : Once ms)
    (hms' : assignWithin key j path ms = some ms') : Once ms' := by
  fun_induction assignWithin key j path ms generalizing ms' with
  | case1 => exact once_assign hj h hms'
  | case2 _ _ _ _ _ hfound ih =>
    exact once_of_store_table h (fun _ => ih (once_of_lookup_table h hfound)) hms'
  | case3 _ _ _ _ _ hfound ih =>
    obtain ⟨hlast, hbefore⟩ := once_of_lookup_tables h hfound
    exact once_of_store_tables h hbefore (fun _ => ih hlast) hms'
  | case4 => cases hms'

end Edits

section Values

variable {cs rest : List Char} {fuel : Nat}

lemma membersJson_eq_map (ms : Members) :
    membersJson ms = ms.map fun m => (m.1, m.2.toJson) := by
  induction ms with
  | nil => rfl
  | cons m rest ih => rw [membersJson, ih, List.map_cons]

lemma elementsJson_eq_map (elements : List Members) :
    elementsJson elements = elements.map fun ms => .object (membersJson ms) := by
  induction elements with
  | nil => rfl
  | cons ms rest ih => rw [elementsJson, ih, List.map_cons]

lemma namesOnce_membersJson (hnames : (ms.map (·.1)).Nodup)
    (h : ∀ m ∈ ms, m.2.toJson.NamesOnce) : Json.NamesOnce (.object (membersJson ms)) := by
  rw [membersJson_eq_map]
  refine .object (by simpa [Function.comp_def] using hnames) fun m hm => ?_
  obtain ⟨m, hmem, rfl⟩ := List.mem_map.1 hm
  exact h m hmem

/-- The JSON form of a part has names only once if the part has. -/
theorem Node.NamesOnce.toJson (h : n.NamesOnce) : n.toJson.NamesOnce := by
  induction h with
  | value h => exact h
  | table hnames _ ih => exact namesOnce_membersJson hnames ih
  | @tables elements hnames _ ih =>
    refine .array fun j hj => ?_
    rw [elementsJson_eq_map, List.mem_reverse] at hj
    obtain ⟨ms, hms, rfl⟩ := List.mem_map.1 hj
    exact namesOnce_membersJson (hnames ms hms) (ih ms hms)

lemma Once.namesOnce (h : Once ms) : Json.NamesOnce (.object (membersJson ms)) :=
  namesOnce_membersJson h.nodup fun m hm => (h.of_mem m hm).toJson

lemma namesOnce_of_basedInteger? {base : Nat} {isDigit : Char → Bool}
    (h : basedInteger? base isDigit cs = some j) : j.NamesOnce := by
  obtain ⟨_, _, h⟩ := Option.bind_eq_some_iff.1 h
  dsimp only at h
  split_ifs at h
  cases h
  exact .leaf rfl rfl

lemma namesOnce_of_decimalInteger? (h : decimalInteger? cs = some j) : j.NamesOnce := by
  obtain ⟨_, _, h⟩ := Option.bind_eq_some_iff.1 h
  dsimp only at h
  split_ifs at h
  all_goals
    cases h
    exact .leaf rfl rfl

lemma namesOnce_of_specialFloat? (h : specialFloat? cs = some j) : j.NamesOnce := by
  unfold specialFloat? at h
  dsimp only at h
  split_ifs at h
  all_goals
    cases h
    exact .leaf rfl rfl

lemma namesOnce_of_fractional? (h : fractional? cs = some j) : j.NamesOnce := by
  obtain ⟨_, _, h⟩ := Option.bind_eq_some_iff.1 h
  dsimp only at h
  split at h
  all_goals
    obtain ⟨_, _, h⟩ := Option.bind_eq_some_iff.1 h
    split at h
    · obtain ⟨_, _, h⟩ := Option.bind_eq_some_iff.1 h
      split_ifs at h
      cases h
      exact .leaf rfl rfl
    · obtain ⟨_, _, h⟩ := Option.bind_eq_some_iff.1 h
      obtain ⟨_, _, h⟩ := Option.bind_eq_some_iff.1 h
      split_ifs at h
      cases h
      exact .leaf rfl rfl

lemma namesOnce_of_moment? (h : moment? cs = some j) : j.NamesOnce := by
  unfold moment? at h
  split at h
  · cases h
    exact .leaf rfl rfl
  · split_ifs at h
    obtain ⟨_, _, h⟩ := Option.bind_eq_some_iff.1 h
    obtain ⟨_, _, h⟩ := Option.bind_eq_some_iff.1 h
    dsimp only at h
    split_ifs at h
    cases h
    exact .leaf rfl rfl
  · obtain ⟨_, _, h⟩ := Option.bind_eq_some_iff.1 h
    dsimp only at h
    split_ifs at h
    cases h
    exact .leaf rfl rfl

lemma namesOnce_of_bareValue? (h : bareValue? cs = some j) : j.NamesOnce := by
  unfold bareValue? at h
  split at h
  iterate 2
    · cases h
      exact .leaf rfl rfl
  iterate 3
    · exact namesOnce_of_basedInteger? h
  · simp only [Option.or_eq_some_iff] at h
    rcases h with h | ⟨-, h | ⟨-, h | ⟨-, h⟩⟩⟩
    · exact namesOnce_of_decimalInteger? h
    · exact namesOnce_of_specialFloat? h
    · exact namesOnce_of_fractional? h
    · exact namesOnce_of_moment? h

/-- What is read with a bound has every name once. -/
structure ReadsOnce (fuel : Nat) : Prop where
  value : ∀ {cs j rest}, value? fuel cs = some (j, rest) → j.NamesOnce
  items : ∀ {cs items rest}, items? fuel cs = some (items, rest) → ∀ j ∈ items, j.NamesOnce
  members : ∀ {found cs ms rest}, Once found →
    inlineMembers? fuel found cs = some (ms, rest) → Once ms

lemma ReadsOnce.value_succ (h : ReadsOnce fuel) (hread : value? (fuel + 1) cs = some (j, rest)) :
    j.NamesOnce := by
  unfold value? at hread
  dsimp only at hread
  split at hread
  iterate 2
    · obtain ⟨_, _, hread⟩ := Option.bind_eq_some_iff.1 hread
      cases hread
      exact .leaf rfl rfl
  · obtain ⟨⟨items, _⟩, hitems, hread⟩ := Option.bind_eq_some_iff.1 hread
    cases hread
    exact .array (h.items hitems)
  · obtain ⟨⟨ms, _⟩, hmembers, hread⟩ := Option.bind_eq_some_iff.1 hread
    cases hread
    exact (h.members once_nil hmembers).namesOnce
  · obtain ⟨_, hvalue, hread⟩ := Option.bind_eq_some_iff.1 hread
    cases hread
    exact namesOnce_of_bareValue? hvalue

lemma ReadsOnce.items_succ (h : ReadsOnce fuel) {items : List Json}
    (hread : items? (fuel + 1) cs = some (items, rest)) : ∀ j ∈ items, j.NamesOnce := by
  unfold items? at hread
  obtain ⟨_, _, hread⟩ := Option.bind_eq_some_iff.1 hread
  dsimp only at hread
  split at hread
  · cases hread
    simp
  · obtain ⟨⟨item, _⟩, hitem, hread⟩ := Option.bind_eq_some_iff.1 hread
    have hfirst := h.value hitem
    obtain ⟨_, _, hread⟩ := Option.bind_eq_some_iff.1 hread
    dsimp only at hread
    split at hread
    · obtain ⟨⟨more, _⟩, hmore, hread⟩ := Option.bind_eq_some_iff.1 hread
      cases hread
      exact List.forall_mem_cons.2 ⟨hfirst, h.items hmore⟩
    · cases hread
      exact List.forall_mem_singleton.2 hfirst
    · cases hread

lemma ReadsOnce.members_succ (h : ReadsOnce fuel) {found : Members} (hfound : Once found)
    (hread : inlineMembers? (fuel + 1) found cs = some (ms, rest)) : Once ms := by
  unfold inlineMembers? at hread
  obtain ⟨_, _, hread⟩ := Option.bind_eq_some_iff.1 hread
  dsimp only at hread
  split at hread
  · cases hread
    exact hfound
  · obtain ⟨_, _, hread⟩ := Option.bind_eq_some_iff.1 hread
    split at hread
    · obtain ⟨⟨value, _⟩, hvalue, hread⟩ := Option.bind_eq_some_iff.1 hread
      obtain ⟨found', hassign, hread⟩ := Option.bind_eq_some_iff.1 hread
      obtain ⟨_, _, hread⟩ := Option.bind_eq_some_iff.1 hread
      have honce := once_assign (h.value hvalue) hfound hassign
      split at hread
      · exact h.members honce hread
      · cases hread
        exact honce
      · cases hread
    · cases hread

lemma readsOnce (fuel : Nat) : ReadsOnce fuel := by
  induction fuel with
  | zero => exact ⟨nofun, nofun, nofun⟩
  | succ fuel ih => exact ⟨ih.value_succ, ih.items_succ, ih.members_succ⟩

lemma once_of_statements? (h : Once ms) (hms' : statements? fuel path ms cs = some ms') :
    Once ms' := by
  induction fuel generalizing path ms cs with
  | zero => cases hms'
  | succ fuel ih =>
    unfold statements? at hms'
    obtain ⟨_, _, hms'⟩ := Option.bind_eq_some_iff.1 hms'
    dsimp only at hms'
    split at hms'
    · cases hms'
      exact h
    · obtain ⟨_, _, hms'⟩ := Option.bind_eq_some_iff.1 hms'
      split at hms'
      · obtain ⟨opened, hopened, hms'⟩ := Option.bind_eq_some_iff.1 hms'
        obtain ⟨_, _, hms'⟩ := Option.bind_eq_some_iff.1 hms'
        exact ih (once_openElement h hopened) hms'
      · cases hms'
    · obtain ⟨_, _, hms'⟩ := Option.bind_eq_some_iff.1 hms'
      split at hms'
      · obtain ⟨opened, hopened, hms'⟩ := Option.bind_eq_some_iff.1 hms'
        obtain ⟨_, _, hms'⟩ := Option.bind_eq_some_iff.1 hms'
        exact ih (once_openTable h hopened) hms'
      · cases hms'
    · obtain ⟨_, _, hms'⟩ := Option.bind_eq_some_iff.1 hms'
      split at hms'
      · obtain ⟨⟨value, _⟩, hvalue, hms'⟩ := Option.bind_eq_some_iff.1 hms'
        obtain ⟨assigned, hassigned, hms'⟩ := Option.bind_eq_some_iff.1 hms'
        obtain ⟨_, _, hms'⟩ := Option.bind_eq_some_iff.1 hms'
        exact ih (once_assignWithin ((readsOnce _).value hvalue) h hassigned) hms'
      · cases hms'

/-- A document that is read has every name once. -/
theorem namesOnce_of_parse? {text : String} (h : parse? text = some j) : j.NamesOnce := by
  obtain ⟨ms, hms, h⟩ := Option.bind_eq_some_iff.1 h
  cases h
  exact (once_of_statements? once_nil hms).namesOnce

end Values

end ServerFleet.Toml
