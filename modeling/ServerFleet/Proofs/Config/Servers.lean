import Mathlib.Data.List.Nodup
import ServerFleet.Config.Basic

/-!
What a configuration says of its servers: which of them are off from the start, and that no two
servers of the registry it describes have one id.
-/

namespace ServerFleet

lemma Except.of_bind_eq_ok {ε α β : Type} {x : Except ε α} {f : α → Except ε β} {b : β}
    (h : (x >>= f) = .ok b) : ∃ a, x = .ok a ∧ f a = .ok b := by
  cases x with
  | error e => cases h
  | ok a => exact ⟨a, rfl, h⟩

lemma mem_sortedTexts {ss : List String} {s : String} : s ∈ sortedTexts ss ↔ s ∈ ss := by
  rw [sortedTexts, List.mem_eraseDups, List.mem_mergeSort]

namespace Config

variable {c : Config} {id : String}

end Config

namespace Registry

variable {r r' : Registry} {d : ServerDefinition}

lemma sublist_forFile (r : Registry) (file : Path) : (r.forFile file).Sublist r.servers := by
  unfold forFile
  split
  · exact List.filter_sublist
  · exact List.nil_sublist _

lemma contains_eq_false (h : r.contains d.id = false) : d.id ∉ r.ids := by
  intro hmem
  obtain ⟨s, hs, hid⟩ := List.mem_map.1 hmem
  have hnone : r.servers.find? (·.id = d.id) = none := by simpa [contains, get?] using h
  simpa [hid] using List.find?_eq_none.1 hnone s hs

lemma nodup_register (h : r.ids.Nodup) (hr : r.register d = .ok r') : r'.ids.Nodup := by
  unfold register at hr
  split at hr
  · cases hr
  · next hnew =>
    cases hr
    have hmem := contains_eq_false (by simpa using hnew)
    have hids : ids ⟨r.servers ++ [d]⟩ = r.ids.concat d.id := by simp [ids]
    rw [hids]
    exact h.concat hmem

lemma map_id_replaceIn (d : ServerDefinition) (l : List ServerDefinition) :
    (replaceIn d l).map (·.id) =
      if d.id ∈ l.map (·.id) then l.map (·.id) else (l.map (·.id)).concat d.id := by
  induction l with
  | nil => rfl
  | cons s rest ih =>
    unfold replaceIn
    by_cases hs : s.id = d.id
    · simp [hs]
    · rw [if_neg hs, List.map_cons, ih]
      have hne : d.id ≠ s.id := fun h => hs h.symm
      simp only [List.map_cons, List.mem_cons, hne, false_or]
      split <;> rfl

lemma ids_replace (r : Registry) (d : ServerDefinition) :
    (r.replace d).ids = if d.id ∈ r.ids then r.ids else r.ids.concat d.id :=
  map_id_replaceIn d r.servers

lemma nodup_replace (h : r.ids.Nodup) (d : ServerDefinition) : (r.replace d).ids.Nodup := by
  rw [ids_replace]
  split
  · exact h
  · next hnew => exact h.concat hnew

/-- The registries that can be put together: definitions are added one after another, new ones at
the end and others in the place of the one with their id. -/
inductive Made : Registry → Prop
  | empty : Made .empty
  | register {r r' : Registry} {d : ServerDefinition} (h : Made r) (hr : r.register d = .ok r') :
      Made r'
  | replace {r : Registry} (h : Made r) (d : ServerDefinition) : Made (r.replace d)

/-- No two servers of a registry have one id. -/
theorem Made.nodup (h : r.Made) : r.ids.Nodup := by
  induction h with
  | empty => exact List.nodup_nil
  | register _ hr ih => exact nodup_register ih hr
  | replace _ d ih => exact nodup_replace ih d

lemma Made.registerAll {sketches : List ServerSketch} (h : r.Made)
    (hr : r.registerAll sketches = .ok r') : r'.Made := by
  induction sketches generalizing r with
  | nil =>
    cases hr
    exact h
  | cons sketch rest ih =>
    obtain ⟨d, -, hr⟩ := Except.of_bind_eq_ok hr
    obtain ⟨registered, hreg, hrest⟩ := Except.of_bind_eq_ok hr
    exact ih (h.register hreg) hrest

lemma Made.replaceAll {servers : List (String × ServerConfig)} (h : r.Made)
    (hr : r.replaceAll servers = .ok r') : r'.Made := by
  induction servers generalizing r with
  | nil =>
    cases hr
    exact h
  | cons e rest ih =>
    obtain ⟨d, -, hrest⟩ := Except.of_bind_eq_ok hr
    exact ih (h.replace d) hrest

/-- A configuration describes a registry that is put together in this way. -/
theorem made_ofConfig {c : Config} (hr : ofConfig c = .ok r) : r.Made := by
  unfold ofConfig at hr
  split at hr
  · obtain ⟨start, hstart, hr⟩ := Except.of_bind_eq_ok hr
    exact (Made.empty.registerAll hstart).replaceAll hr
  · exact Made.empty.replaceAll hr

/-- No two servers of a registry that a configuration describes have one id. -/
theorem nodup_ofConfig {c : Config} (hr : ofConfig c = .ok r) : r.ids.Nodup :=
  (made_ofConfig hr).nodup

end Registry

end ServerFleet
