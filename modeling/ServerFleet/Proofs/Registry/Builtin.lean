import ServerFleet.Proofs.Definition.Sketch

/-!
The table of the known servers. Definitions with new ids are registered in their order, and as the
patterns of the known servers are plain names, none of them is refused.
-/

namespace ServerFleet.Registry

variable {r : Registry} {d : ServerDefinition} {sketches : List ServerSketch}
  {definitions : List ServerDefinition}

lemma get?_eq_some_of_mem (h : r.ids.Nodup) (hd : d ∈ r.servers) : r.get? d.id = some d := by
  obtain ⟨servers⟩ := r
  unfold get?
  induction servers with
  | nil => cases hd
  | cons first rest ih =>
    obtain ⟨hfirst, hrest⟩ := List.nodup_cons.1 h
    rcases List.mem_cons.1 hd with rfl | hd
    · exact List.find?_cons_of_pos (by simp)
    · have hne : first.id ≠ d.id := by
        intro he
        exact hfirst (List.mem_map.2 ⟨d, hd, he.symm⟩)
      rw [List.find?_cons_of_neg (by simpa using hne)]
      exact ih hrest hd

lemma get?_eq_none_of_notMem {id : String} (h : id ∉ r.ids) : r.get? id = none := by
  refine List.find?_eq_none.2 fun x hx => ?_
  have hne : x.id ≠ id := by
    intro he
    exact h (List.mem_map.2 ⟨x, hx, he⟩)
  simpa using hne

lemma register_of_notMem (h : d.id ∉ r.ids) : r.register d = .ok ⟨r.servers ++ [d]⟩ := by
  rw [register, contains, get?_eq_none_of_notMem h]
  rfl

/-- The definitions of sketches with new ids are added in their order. -/
theorem registerAll_eq_ok (h : List.Forall₂ (fun s d => d.Realizes s) sketches definitions)
    (hids : (r.ids ++ sketches.map (·.id)).Nodup) :
    r.registerAll sketches = .ok ⟨r.servers ++ definitions⟩ := by
  induction h generalizing r with
  | nil => rw [registerAll, List.append_nil]
  | @cons s d sketches definitions hs _ ih =>
    have hid := hs.id
    have hnew : d.id ∉ r.ids := by
      rw [hid]
      intro hmem
      exact List.disjoint_of_nodup_append hids hmem (by simp)
    have hrest : (ids ⟨r.servers ++ [d]⟩ ++ sketches.map (·.id)).Nodup := by
      simpa [ids, hid] using hids
    rw [registerAll, ServerDefinition.ofSketch_eq_ok_iff.2 hs]
    show (r.register d >>= fun r' => r'.registerAll sketches) = _
    rw [register_of_notMem hnew]
    show Registry.registerAll ⟨r.servers ++ [d]⟩ sketches = _
    rw [ih hrest, List.append_assoc]
    rfl

lemma exists_definitions (h : ∀ s ∈ sketches, s.ValidPatterns) :
    ∃ definitions : List ServerDefinition,
      List.Forall₂ (fun s d => d.Realizes s) sketches definitions := by
  induction sketches with
  | nil => exact ⟨[], .nil⟩
  | cons s sketches ih =>
    obtain ⟨hs, hsketches⟩ := List.forall_mem_cons.1 h
    obtain ⟨d, hd⟩ := ServerDefinition.exists_ofSketch_iff.2 hs
    obtain ⟨definitions, hdefinitions⟩ := ih hsketches
    exact ⟨d :: definitions, .cons (ServerDefinition.ofSketch_eq_ok_iff.1 hd) hdefinitions⟩

lemma validPatterns_builtinSketches : ∀ s ∈ builtinSketches, s.ValidPatterns := by
  have hplain : ∀ s ∈ builtinSketches, ∀ p ∈ s.rootPatterns ++ s.excludePatterns,
      hasWildcard p = false := by
    decide +kernel
  intro s hs
  constructor
  · intro p hp
    exact validPattern_of_plain (hplain s hs p (List.mem_append_left _ hp))
  · intro p hp
    exact validPattern_of_plain (hplain s hs p (List.mem_append_right _ hp))

/-- The known servers are registered in the order of their sketches. -/
theorem exists_builtin : ∃ r, builtin = .ok r ∧
    List.Forall₂ (fun s d => d.Realizes s) builtinSketches r.servers := by
  obtain ⟨definitions, h⟩ := exists_definitions validPatterns_builtinSketches
  refine ⟨⟨definitions⟩, ?_, h⟩
  rw [builtin, registerAll_eq_ok h (by decide)]
  rfl

lemma map_id_of_forall₂ (h : List.Forall₂ (fun s d => d.Realizes s) sketches definitions) :
    definitions.map (·.id) = sketches.map (·.id) := by
  induction h with
  | nil => rfl
  | cons hs _ ih => rw [List.map_cons, List.map_cons, hs.id, ih]

lemma exists_of_forall₂ (h : List.Forall₂ (fun s d => d.Realizes s) sketches definitions)
    {s : ServerSketch} (hs : s ∈ sketches) : ∃ d ∈ definitions, d.Realizes s := by
  induction h with
  | nil => cases hs
  | @cons first d sketches definitions hfirst _ ih =>
    rcases List.mem_cons.1 hs with rfl | hs
    · exact ⟨d, List.mem_cons_self, hfirst⟩
    · obtain ⟨d', hd', hrealizes⟩ := ih hs
      exact ⟨d', List.mem_cons_of_mem _ hd', hrealizes⟩

/-- Each known server is found under its id. -/
theorem exists_get?_builtin : ∃ r, builtin = .ok r ∧ r.ids = builtinSketches.map (·.id) ∧
    ∀ s ∈ builtinSketches, ∃ d ∈ r.servers, d.Realizes s ∧ r.get? s.id = some d := by
  obtain ⟨r, hr, h⟩ := exists_builtin
  have hids : r.ids = _ := map_id_of_forall₂ h
  have hnodup : r.ids.Nodup := by
    rw [hids]
    decide
  refine ⟨r, hr, hids, fun s hs => ?_⟩
  obtain ⟨d, hd, hsd⟩ := exists_of_forall₂ h hs
  refine ⟨d, hd, hsd, ?_⟩
  rw [← hsd.id]
  exact get?_eq_some_of_mem hnodup hd

lemma mem_forFile {file : Path} {e : String} (h : fileExtension file = some e) :
    d ∈ r.forFile file ↔ d ∈ r.servers ∧ e ∈ d.extensions := by
  unfold forFile
  rw [h]
  simp [ServerDefinition.handles]

end ServerFleet.Registry
