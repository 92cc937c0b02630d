import ServerFleet.Config.Decode
import ServerFleet.Proofs.Registry.Builtin

/-!
The registry that a configuration describes. It is refused as a whole for the first of its servers,
in the order of the ids, that has no command or a faulty pattern. Otherwise it consists of the known
servers in their order and the others in the order of their ids, and under each configured id there
is what the configuration says.
-/

namespace ServerFleet

open Std (TransCmp OrientedCmp LawfulEqCmp)

namespace ServerConfig

end ServerConfig

namespace ServerDefinition

variable {id : String} {s : ServerConfig} {d : ServerDefinition} {e : RegistryError}

/-- A definition of a server as its configuration has it. -/
structure IsConfigured (d : ServerDefinition) (id : String) (s : ServerConfig) : Prop where
  id_eq : d.id = id
  name : d.name = s.name.getD id
  mem_extensions : ∀ e, e ∈ d.extensions ↔ ∃ x ∈ s.extensions, x ≠ "" ∧ withDot x = e
  pairwise_extensions : d.extensions.Pairwise fun a b => compareText a b = .lt
  rootPatterns : d.rootPatterns = s.rootPatterns
  excludePatterns : d.excludePatterns = s.excludePatterns
  installable : d.installable = s.installable
  initialization : d.initialization = s.initializationOptions
  launcher : d.launcher =
    .command ⟨s.command, s.args, s.env, if s.installable then s.install else []⟩
  roots : PatternSet.compile id s.rootPatterns = .ok d.roots
  excludes : PatternSet.compile id s.excludePatterns = .ok d.excludes

lemma Realizes.isConfigured (h : d.Realizes (ServerSketch.ofConfig id s)) :
    d.IsConfigured id s where
  id_eq := h.id
  name := h.name
  mem_extensions e := by
    rw [h.extensions]
    exact mem_normalizedExtensions
  pairwise_extensions := by
    rw [h.extensions]
    exact pairwise_sortedTexts _
  rootPatterns := h.rootPatterns
  excludePatterns := h.excludePatterns
  installable := h.installable
  initialization := h.initialization
  launcher := h.launcher
  roots := h.roots
  excludes := h.excludes

lemma isConfigured_of_ofConfig (h : ofConfig id s = .ok d) : d.IsConfigured id s := by
  unfold ofConfig at h
  split at h
  · cases h
  · exact (ofSketch_eq_ok_iff.1 h).isConfigured

end ServerDefinition

namespace Registry

variable {r r' : Registry} {d : ServerDefinition} {id : String} {e : RegistryError}
  {servers : List (String × ServerConfig)} {x : String × ServerConfig}

lemma get?_replace (r : Registry) (d : ServerDefinition) (id : String) :
    (r.replace d).get? id = if d.id = id then some d else r.get? id := by
  unfold replace get?
  dsimp only
  induction r.servers with
  | nil => by_cases hid : d.id = id <;> simp [replaceIn, hid]
  | cons first rest ih =>
    unfold replaceIn
    by_cases hfirst : first.id = d.id
    · rw [if_pos hfirst]
      by_cases hid : d.id = id
      · simp [hid]
      · have hne : first.id ≠ id := fun h => hid (hfirst.symm.trans h)
        simp [hid, hne]
    · rw [if_neg hfirst]
      by_cases hid : first.id = id
      · have hne : d.id ≠ id := fun h => hfirst (hid.trans h.symm)
        simp [hid, hne]
      · rw [List.find?_cons_of_neg (by simpa using hid), ih,
          List.find?_cons_of_neg (by simpa using hid)]

section ReplaceAll

lemma replaceAll_cons_of_ok (h : ServerDefinition.ofConfig x.1 x.2 = .ok d) :
    r.replaceAll (x :: servers) = (r.replace d).replaceAll servers := by
  rw [replaceAll, h]
  rfl

lemma get?_replaceAll_of_notMem (h : r.replaceAll servers = .ok r')
    (hid : id ∉ servers.map (·.1)) : r'.get? id = r.get? id := by
  induction servers generalizing r with
  | nil =>
    cases h
    rfl
  | cons x servers ih =>
    obtain ⟨d, hd, hrest⟩ := Except.of_bind_eq_ok h
    obtain ⟨hx, hservers⟩ := not_or.1 (mt List.mem_cons.2 hid)
    rw [ih hrest hservers, get?_replace, (ServerDefinition.isConfigured_of_ofConfig hd).id_eq,
      if_neg (Ne.symm hx)]

lemma get?_replaceAll_of_mem (h : r.replaceAll servers = .ok r')
    (hids : (servers.map (·.1)).Nodup) (hx : x ∈ servers) :
    ∃ d, r'.get? x.1 = some d ∧ d.IsConfigured x.1 x.2 := by
  induction servers generalizing r with
  | nil => cases hx
  | cons y servers ih =>
    obtain ⟨d, hd, hrest⟩ := Except.of_bind_eq_ok h
    obtain ⟨hy, hservers⟩ := List.nodup_cons.1 hids
    rcases List.mem_cons.1 hx with rfl | hx
    · have hconfigured := ServerDefinition.isConfigured_of_ofConfig hd
      refine ⟨d, ?_, hconfigured⟩
      rw [get?_replaceAll_of_notMem hrest hy, get?_replace, if_pos hconfigured.id_eq]
    · exact ih hrest hservers hx

end ReplaceAll

end Registry

namespace Config

variable {c : Config} {id : String} {s : ServerConfig} {e : RegistryError}
  {servers : List (String × ServerConfig)} {x : String × ServerConfig}

/-- Servers in strictly ascending order of their ids. -/
def Ascending (servers : List (String × ServerConfig)) : Prop :=
  servers.Pairwise fun a b => compareText a.1 b.1 = .lt

lemma Ascending.nodup (h : Ascending servers) : (servers.map (·.1)).Nodup :=
  List.pairwise_map.2 (h.imp ne_of_compareText_lt)

section Reading

lemma mem_insertServer (h : x ∈ insertServer id s servers) : x = (id, s) ∨ x ∈ servers := by
  induction servers with
  | nil => exact .inl (List.mem_singleton.1 h)
  | cons first servers ih =>
    unfold insertServer at h
    split at h
    · exact (List.mem_cons.1 h)
    · exact (List.mem_cons.1 h).imp_right (List.mem_cons_of_mem _)
    · rcases List.mem_cons.1 h with rfl | h
      · exact .inr List.mem_cons_self
      · exact (ih h).imp_right (List.mem_cons_of_mem _)

lemma Ascending.insertServer (h : Ascending servers) (id : String) (s : ServerConfig) :
    Ascending (insertServer id s servers) := by
  induction servers with
  | nil => exact List.pairwise_singleton _ _
  | cons first servers ih =>
    obtain ⟨hfirst, hservers⟩ := List.pairwise_cons.1 h
    unfold Config.insertServer
    split
    · next hlt =>
      refine .cons (fun y hy => ?_) h
      rcases List.mem_cons.1 hy with rfl | hy
      · exact hlt
      · exact TransCmp.lt_trans hlt (hfirst y hy)
    · next heq =>
      have hid : id = first.1 := LawfulEqCmp.eq_of_compare heq
      subst hid
      exact .cons hfirst hservers
    · next hgt =>
      refine .cons (fun y hy => ?_) (ih hservers)
      rcases mem_insertServer hy with rfl | hy
      · exact OrientedCmp.gt_iff_lt.1 hgt
      · exact hfirst y hy

lemma ascending_sortServers (servers : List (String × ServerConfig)) :
    Ascending (sortServers servers) := by
  have hfold (acc : List (String × ServerConfig)) (hacc : Ascending acc) :
      Ascending (servers.foldl (fun acc e => Config.insertServer e.1 e.2 acc) acc) := by
    induction servers generalizing acc with
    | nil => exact hacc
    | cons first servers ih => exact ih _ (hacc.insertServer first.1 first.2)
  exact hfold [] .nil

/-- The servers of a configuration that is read stand in ascending order. -/
theorem ascending_of_config {r : Reading} {j : Json} (h : r.config j = some c) :
    Ascending c.servers := by
  unfold Reading.config at h
  simp only [Option.bind_eq_bind, Option.bind_eq_some_iff] at h
  obtain ⟨ms, -, _, -, _, -, _, -, _, -, _, -, entries, -, h⟩ := h
  cases h
  exact ascending_sortServers entries

end Reading

/-- The ids of the servers that are known without the configuration. -/
def knownIds (c : Config) : List String :=
  if c.builtinServers then Registry.builtinSketches.map (·.id) else []

end Config

namespace Registry

variable {c : Config}

/-- The registry of a configuration is made from the known servers. -/
theorem exists_ofConfig_eq (c : Config) : ∃ start, ofConfig c = start.replaceAll c.servers ∧
    start.ids = c.knownIds ∧ (c.builtinServers = true → builtin = .ok start) := by
  unfold ofConfig Config.knownIds
  cases c.builtinServers with
  | true =>
    obtain ⟨r, hr, hids, -⟩ := exists_get?_builtin
    refine ⟨r, ?_, hids, fun _ => hr⟩
    rw [if_pos rfl, hr]
    rfl
  | false => exact ⟨empty, rfl, rfl, nofun⟩

section Sample

end Sample

end Registry

end ServerFleet
