import ServerFleet.Proofs.Config.Files
import ServerFleet.Proofs.Config.Layering
import ServerFleet.Proofs.Config.Registry

/-!
What a configuration is loaded from. Every setting has the value of the highest layer that sets it:
the environment, the file that was asked for, the file of the user, the defaults. Tables are merged
name by name, so a server that both files configure has the settings of both.
-/

namespace ServerFleet.Config

open Json (NamesOnce)
open ByName

section Variables

variable {e : Environment} {key : String}

def variableFields : List String :=
  ["diagnostics_timeout_ms", "initialize_timeout_ms", "builtin_servers"]

/-- The variables with the common beginning are for these settings. -/
def PlainVariables (e : Environment) : Prop :=
  ∀ v ∈ e, variableMark <+: loweredName v.1 →
    ∃ key ∈ variableFields, loweredName v.1 = variableMark ++ key.toList

/-- What the variable for a setting sets it to; the last one counts. -/
def envSetting? (e : Environment) (key : String) : Option Json :=
  ((e.filter fun v => loweredName v.1 = variableMark ++ key.toList).getLast?).map
    fun v => .string v.2

lemma environmentLayer_cons (v : String × String) (rest : Environment) :
    environmentLayer (v :: rest) =
      if variableMark.isPrefixOf (loweredName v.1) then
        (String.ofList ((loweredName v.1).drop variableMark.length), .string v.2) ::
          environmentLayer rest
      else environmentLayer rest := by
  by_cases h : variableMark.isPrefixOf (loweredName v.1) = true
  · rw [if_pos h]
    exact List.filterMap_cons_some (if_pos h)
  · rw [if_neg h]
    exact List.filterMap_cons_none (if_neg h)

lemma filter_environmentLayer (e : Environment) (key : String) :
    (environmentLayer e).filter (·.1 = key) =
      (e.filter fun v => loweredName v.1 = variableMark ++ key.toList).map
        fun v => (key, .string v.2) := by
  induction e with
  | nil => rfl
  | cons v rest ih =>
    rw [environmentLayer_cons]
    by_cases hmark : variableMark <+: loweredName v.1
    · obtain ⟨name, hname⟩ := hmark
      rw [← hname, if_pos (List.isPrefixOf_iff_prefix.2 ⟨name, rfl⟩), List.drop_left]
      have hiff : String.ofList name = key ↔ loweredName v.1 = variableMark ++ key.toList := by
        rw [← hname, List.append_cancel_left_eq]
        constructor
        · rintro rfl
          exact String.toList_ofList.symm
        · rintro rfl
          exact String.ofList_toList
      by_cases hkey : String.ofList name = key
      · rw [List.filter_cons_of_pos (by simpa using hkey),
          List.filter_cons_of_pos (by simpa using hiff.1 hkey), List.map_cons, ih, hkey]
      · rw [List.filter_cons_of_neg (by simpa using hkey),
          List.filter_cons_of_neg (by simpa using mt hiff.2 hkey), ih]
    · have hne : loweredName v.1 ≠ variableMark ++ key.toList := fun h => hmark ⟨_, h.symm⟩
      rw [if_neg (by simpa using hmark), ih, List.filter_cons_of_neg (by simpa using hne)]

lemma lastValue?_environmentLayer (e : Environment) (key : String) :
    lastValue? key (environmentLayer e) = envSetting? e key := by
  rw [lastValue?, filter_environmentLayer, List.getLast?_map, Option.map_map]
  rfl

lemma leaf_of_mem_environmentLayer {m : String × Json} (h : m ∈ environmentLayer e) :
    m.2.asObject? = none := by
  obtain ⟨v, -, hv⟩ := List.mem_filterMap.1 h
  dsimp only at hv
  split at hv
  · cases hv
    rfl
  · cases hv

lemma PlainVariables.mem_fields (h : PlainVariables e) {m : String × Json}
    (hm : m ∈ environmentLayer e) : m.1 ∈ variableFields := by
  obtain ⟨v, hv, hm⟩ := List.mem_filterMap.1 hm
  dsimp only at hm
  split at hm
  · next hmark =>
    cases hm
    obtain ⟨key, hkey, hname⟩ := h v hv (List.isPrefixOf_iff_prefix.1 hmark)
    rw [hname, List.drop_left, String.ofList_toList]
    exact hkey
  · cases hm

lemma PlainVariables.envSetting?_eq_none (h : PlainVariables e) (hkey : key ∉ variableFields) :
    envSetting? e key = none := by
  rw [← lastValue?_environmentLayer, lastValue?, List.filter_eq_nil_iff.2]
  · rfl
  · intro m hm hname
    exact hkey (by simpa using (of_decide_eq_true hname) ▸ h.mem_fields hm)

end Variables

section Records

variable {ms : List (String × Json)} {c : Config} {s : ServerConfig}
  {servers : List (String × ServerConfig)} {x : String × ServerConfig}

/-- The members of a table from which a configuration is read. -/
structure ReadFrom (ms : List (String × Json)) (c : Config) : Prop where
  diagnosticsTimeout : readOr Reading.lenientNumber Config.default.diagnosticsTimeout
    (value? "diagnostics_timeout_ms" ms) = some c.diagnosticsTimeout
  initializeTimeout : readOr (Reading.nullable Reading.lenientNumber)
    Config.default.initializeTimeout (value? "initialize_timeout_ms" ms) = some c.initializeTimeout
  retryDelays : readOr (Reading.list Reading.lenientNumber) Config.default.retryDelays
    (value? "retry_delays_ms" ms) = some c.retryDelays
  builtinServers : readOr Reading.lenientFlag Config.default.builtinServers
    (value? "builtin_servers" ms) = some c.builtinServers
  disabled : readOr (Reading.list Reading.lenientText) Config.default.disabled
    (value? "disabled" ms) = some c.disabled
  servers : ∃ servers, readOr (Reading.dictionary Reading.lenient.server) []
    (value? "server" ms) = some servers ∧ c.servers = sortServers servers

lemma readFrom_of_config (h : Reading.lenient.config (.object ms) = some c) : ReadFrom ms c := by
  unfold Reading.config at h
  simp only [Option.bind_eq_bind, Option.bind_eq_some_iff, member_eq_readOr] at h
  obtain ⟨_, hms, _, hdiagnostics, _, hinitialize, _, hdelays, _, hbuiltin, _, hdisabled, servers,
    hservers, h⟩ := h
  cases hms
  cases h
  exact ⟨hdiagnostics, hinitialize, hdelays, hbuiltin, hdisabled, servers, hservers, rfl⟩

/-- The members of a table from which the configuration of a server is read. -/
structure ServerReadFrom (ms : List (String × Json)) (s : ServerConfig) : Prop where
  command : readOr Reading.lenientText ServerConfig.default.command (value? "command" ms) =
    some s.command
  args : readOr (Reading.list Reading.lenientText) ServerConfig.default.args (value? "args" ms) =
    some s.args
  env : readOr (Reading.dictionary Reading.lenientText) ServerConfig.default.env
    (value? "env" ms) = some s.env
  name : readOr (Reading.nullable Reading.lenientText) ServerConfig.default.name
    (value? "name" ms) = some s.name
  extensions : readOr (Reading.list Reading.lenientText) ServerConfig.default.extensions
    (value? "extensions" ms) = some s.extensions
  rootPatterns : readOr (Reading.list Reading.lenientText) ServerConfig.default.rootPatterns
    (value? "root_patterns" ms) = some s.rootPatterns
  excludePatterns : readOr (Reading.list Reading.lenientText) ServerConfig.default.excludePatterns
    (value? "exclude_patterns" ms) = some s.excludePatterns
  installable : readOr Reading.lenientFlag ServerConfig.default.installable
    (value? "installable" ms) = some s.installable
  install : readOr (Reading.list Reading.lenientText) ServerConfig.default.install
    (value? "install" ms) = some s.install
  initializationOptions : readOr (Reading.nullable Reading.whole)
    ServerConfig.default.initializationOptions (value? "initialization_options" ms) =
      some s.initializationOptions
  enabled : readOr Reading.lenientFlag ServerConfig.default.enabled (value? "enabled" ms) =
    some s.enabled

lemma serverReadFrom_of_server (h : Reading.lenient.server (.object ms) = some s) :
    ServerReadFrom ms s := by
  unfold Reading.server at h
  simp only [Option.bind_eq_bind, Option.bind_eq_some_iff, member_eq_readOr] at h
  obtain ⟨_, hms, _, hcommand, _, hargs, _, henv, _, hname, _, hextensions, _, hroots, _,
    hexcludes, _, hinstallable, _, hinstall, _, hoptions, _, henabled, h⟩ := h
  cases hms
  cases h
  exact ⟨hcommand, hargs, henv, hname, hextensions, hroots, hexcludes, hinstallable, hinstall,
    hoptions, henabled⟩

lemma mem_insertServer_iff {id : String} (h : id ∉ servers.map (·.1)) :
    x ∈ insertServer id s servers ↔ x = (id, s) ∨ x ∈ servers := by
  refine ⟨mem_insertServer, fun hx => ?_⟩
  induction servers with
  | nil =>
    rcases hx with rfl | hx
    · exact List.mem_cons_self
    · cases hx
  | cons first servers ih =>
    rw [List.map_cons, List.mem_cons, not_or] at h
    unfold insertServer
    split
    · exact List.mem_cons.2 hx
    · next heq => exact absurd (Std.LawfulEqCmp.eq_of_compare heq) h.1
    · rcases hx with hx | hx
      · exact List.mem_cons_of_mem _ (ih h.2 (.inl hx))
      · rcases List.mem_cons.1 hx with rfl | hx
        · exact List.mem_cons_self
        · exact List.mem_cons_of_mem _ (ih h.2 (.inr hx))

lemma sortServers_concat (servers : List (String × ServerConfig)) (x : String × ServerConfig) :
    sortServers (servers ++ [x]) = insertServer x.1 x.2 (sortServers servers) := by
  rw [sortServers, List.foldl_append]
  rfl

/-- Servers with different ids all stand in the list that is sorted. -/
theorem mem_sortServers_iff (h : (servers.map (·.1)).Nodup) :
    x ∈ sortServers servers ↔ x ∈ servers := by
  induction servers using List.reverseRecOn generalizing x with
  | nil => exact Iff.rfl
  | append_singleton servers last ih =>
    rw [List.map_append] at h
    have hsorted (y : String × ServerConfig) := ih (x := y) (List.nodup_append.1 h).1
    have hnew : last.1 ∉ (sortServers servers).map (·.1) := by
      intro hmem
      obtain ⟨y, hy, hid⟩ := List.mem_map.1 hmem
      have hmem' : last.1 ∈ servers.map (·.1) := List.mem_map.2 ⟨y, (hsorted y).1 hy, hid⟩
      exact List.disjoint_of_nodup_append h hmem' List.mem_cons_self
    rw [sortServers_concat, mem_insertServer_iff hnew, hsorted, List.mem_append,
      List.mem_singleton, or_comm]

end Records

section Layered

variable {α : Type} {e : Environment} {below above : List (String × Json)} {c : Config}
  {id name : String} {s : ServerConfig} {read : Json → Option α} {fallback x : α}

def serverSetting? (layer : List (String × Json)) (id : String) : Option Json :=
  (value? "server" layer).bind (·.get? id)

def fieldSetting? (layer : List (String × Json)) (id name : String) : Option Json :=
  (serverSetting? layer id).bind (·.get? name)

/-- A layer as the documentation describes it: its settings have documented names, each of its
servers is a table, and options are not `null`. -/
structure Documented (layer : List (String × Json)) : Prop where
  names : ∀ m ∈ layer, m.1 ∈ Reading.configFields
  servers : ∀ id, ∀ j ∈ serverSetting? layer id, j.asObject?.isSome = true
  options : ∀ id, fieldSetting? layer id "initialization_options" ≠ some .null

/-- Whether a layer is as the documentation describes it. -/
def isDocumented (layer : List (String × Json)) : Bool :=
  layer.all (fun m => decide (m.1 ∈ Reading.configFields)) &&
    (tableMembers (valueAt "server" layer)).all fun m =>
      m.2.asObject?.isSome && match m.2.get? "initialization_options" with
        | some .null => false
        | _ => true

lemma documented_of_isDocumented {layer : List (String × Json)} (h : isDocumented layer = true) :
    Documented layer := by
  obtain ⟨hnames, hservers⟩ := (Bool.and_eq_true _ _).mp h
  rw [List.all_eq_true] at hnames hservers
  have hentry {id : String} {j : Json} (hj : serverSetting? layer id = some j) :=
    hservers (id, j) (by
      obtain ⟨servers, hvalue, hj⟩ := Option.bind_eq_some_iff.1 hj
      rw [show valueAt "server" layer = servers from congrArg (·.getD .null) hvalue]
      rw [get?_eq_value?] at hj
      exact mem_of_value? hj)
  refine ⟨fun m hm => of_decide_eq_true (hnames m hm), fun id j hj => ?_, fun id hnull => ?_⟩
  · exact ((Bool.and_eq_true _ _).mp (hentry hj)).1
  · obtain ⟨j, hj, hnull⟩ := Option.bind_eq_some_iff.1 hnull
    have hoptions := ((Bool.and_eq_true _ _).mp (hentry hj)).2
    dsimp only at hoptions
    rw [hnull] at hoptions
    cases hoptions

/-- A field of a server is as the file above sets it, else as the file below does, else it has its
default. -/
def FieldSettled (below above : List (String × Json)) (id name : String) (read : Json → Option α)
    (fallback x : α) : Prop :=
  Settled read fallback [fieldSetting? above id name, fieldSetting? below id name] x

/-- A server has the settings of both files: for each field that is no table those of one of them,
and for tables those of both under each name. -/
structure ServerLayered (below above : List (String × Json)) (id : String) (s : ServerConfig) :
    Prop where
  command : FieldSettled below above id "command" Reading.lenientText
    ServerConfig.default.command s.command
  args : FieldSettled below above id "args" (Reading.list Reading.lenientText)
    ServerConfig.default.args s.args
  env : ∀ name, Settled (entry Reading.lenientText) (value? name ServerConfig.default.env)
    [(fieldSetting? above id "env").bind (·.get? name),
      (fieldSetting? below id "env").bind (·.get? name)] (value? name s.env)
  name : FieldSettled below above id "name" (Reading.nullable Reading.lenientText)
    ServerConfig.default.name s.name
  extensions : FieldSettled below above id "extensions" (Reading.list Reading.lenientText)
    ServerConfig.default.extensions s.extensions
  rootPatterns : FieldSettled below above id "root_patterns" (Reading.list Reading.lenientText)
    ServerConfig.default.rootPatterns s.rootPatterns
  excludePatterns : FieldSettled below above id "exclude_patterns"
    (Reading.list Reading.lenientText) ServerConfig.default.excludePatterns s.excludePatterns
  installable : FieldSettled below above id "installable" Reading.lenientFlag
    ServerConfig.default.installable s.installable
  install : FieldSettled below above id "install" (Reading.list Reading.lenientText)
    ServerConfig.default.install s.install
  initializationOptions : Merges (fieldSetting? below id "initialization_options")
    (fieldSetting? above id "initialization_options") s.initializationOptions
  enabled : FieldSettled below above id "enabled" Reading.lenientFlag
    ServerConfig.default.enabled s.enabled

/-- A configuration over its layers: the environment, the file above, the file below and the
defaults. -/
structure Layered (e : Environment) (below above : List (String × Json)) (c : Config) : Prop where
  diagnosticsTimeout : Settled Reading.lenientNumber Config.default.diagnosticsTimeout
    [envSetting? e "diagnostics_timeout_ms", value? "diagnostics_timeout_ms" above,
      value? "diagnostics_timeout_ms" below] c.diagnosticsTimeout
  initializeTimeout : Settled (Reading.nullable Reading.lenientNumber)
    Config.default.initializeTimeout
    [envSetting? e "initialize_timeout_ms", value? "initialize_timeout_ms" above,
      value? "initialize_timeout_ms" below] c.initializeTimeout
  builtinServers : Settled Reading.lenientFlag Config.default.builtinServers
    [envSetting? e "builtin_servers", value? "builtin_servers" above,
      value? "builtin_servers" below] c.builtinServers
  retryDelays : Settled (Reading.list Reading.lenientNumber) Config.default.retryDelays
    [value? "retry_delays_ms" above, value? "retry_delays_ms" below] c.retryDelays
  disabled : Settled (Reading.list Reading.lenientText) Config.default.disabled
    [value? "disabled" above, value? "disabled" below] c.disabled
  nodup : (c.servers.map (·.1)).Nodup
  ids : ∀ id, id ∈ c.servers.map (·.1) ↔
    (serverSetting? above id).isSome = true ∨ (serverSetting? below id).isSome = true
  servers : ∀ id s, (id, s) ∈ c.servers → ServerLayered below above id s

lemma isSome_combine (b a : Option Json) :
    (combine b a).isSome = true ↔ a.isSome = true ∨ b.isSome = true := by
  cases a <;> simp [combine]

lemma fieldSettled_of_readOr (htable : ∀ ms, read (.object ms) = none)
    (h : readOr read fallback
      (combine (fieldSetting? below id name) (fieldSetting? above id name)) = some x) :
    FieldSettled below above id name read fallback x :=
  settled_combine htable settled_single h

lemma namesOnce_serverSetting? {layer : List (String × Json)} (h : NamesOnce (.object layer)) :
    ∀ j ∈ serverSetting? layer id, j.NamesOnce := by
  intro j hj
  obtain ⟨servers, hservers, hj⟩ := Option.bind_eq_some_iff.1 hj
  exact namesOnce_of_get? (h.of_mem (mem_of_value? hservers)) hj

lemma namesOnce_fieldSetting? {layer : List (String × Json)} (h : NamesOnce (.object layer)) :
    ∀ j ∈ fieldSetting? layer id name, j.NamesOnce := by
  intro j hj
  obtain ⟨server, hserver, hj⟩ := Option.bind_eq_some_iff.1 hj
  exact namesOnce_of_get? (namesOnce_serverSetting? h server hserver) hj

/-- A server that both files set is a table with the combined settings of both. -/
theorem exists_fields_of_combine (ha : NamesOnce (.object above)) (hbelow : Documented below)
    (habove : Documented above) {j : Json}
    (h : combine (serverSetting? below id) (serverSetting? above id) = some j) :
    ∃ fields, j = .object fields ∧ ∀ name, value? name fields =
      combine (fieldSetting? below id name) (fieldSetting? above id name) := by
  have htable : ∃ fields, j = .object fields := by
    cases hsetting : serverSetting? above id with
    | none =>
      rw [hsetting] at h
      have hobject := hbelow.servers id j h
      cases j with
      | object fields => exact ⟨fields, rfl⟩
      | _ => cases hobject
    | some v =>
      rw [hsetting] at h
      have hobject := habove.servers id v hsetting
      cases v with
      | object ms => exact ⟨_, (Option.some.inj h).symm⟩
      | _ => cases hobject
  obtain ⟨fields, rfl⟩ := htable
  refine ⟨fields, rfl, fun name => ?_⟩
  have hname := get?_combine (b := serverSetting? below id) (a := serverSetting? above id)
    (fun v hv => ⟨namesOnce_serverSetting? ha v hv, habove.servers id v hv⟩) name
  rw [h] at hname
  exact hname

lemma combine_ne_null {b a : Option Json} (hb : b ≠ some .null) (ha : a ≠ some .null) :
    combine b a ≠ some .null := by
  cases a with
  | none => exact hb
  | some v =>
    cases v with
    | null => exact absurd rfl ha
    | _ => exact nofun

lemma eq_of_readOr_whole {setting x : Option Json} (hnull : setting ≠ some .null)
    (h : readOr (Reading.nullable Reading.whole) none setting = some x) : x = setting := by
  cases setting with
  | none => exact (Option.some.inj h).symm
  | some j =>
    cases j with
    | null => exact absurd rfl hnull
    | _ => exact (Option.some.inj h).symm

lemma serverLayered_of_readFrom (hb : NamesOnce (.object below)) (ha : NamesOnce (.object above))
    (hbelow : Documented below) (habove : Documented above) {fields : List (String × Json)}
    (hfields : ∀ name, value? name fields =
      combine (fieldSetting? below id name) (fieldSetting? above id name))
    (h : ServerReadFrom fields s) : ServerLayered below above id s := by
  have hoptions := h.initializationOptions
  have henv := h.env
  rw [hfields] at hoptions henv
  have hmerged := eq_of_readOr_whole
    (combine_ne_null (hbelow.options id) (habove.options id)) hoptions
  exact {
    command := fieldSettled_of_readOr (fun _ => rfl) (hfields _ ▸ h.command)
    args := fieldSettled_of_readOr (fun _ => rfl) (hfields _ ▸ h.args)
    env := fun name => settled_combine (entry_object fun _ => rfl) settled_single
      (readOr_dictionary_combine (namesOnce_fieldSetting? ha) henv name)
    name := fieldSettled_of_readOr (nullable_object fun _ => rfl) (hfields _ ▸ h.name)
    extensions := fieldSettled_of_readOr (fun _ => rfl) (hfields _ ▸ h.extensions)
    rootPatterns := fieldSettled_of_readOr (fun _ => rfl) (hfields _ ▸ h.rootPatterns)
    excludePatterns := fieldSettled_of_readOr (fun _ => rfl) (hfields _ ▸ h.excludePatterns)
    installable := fieldSettled_of_readOr (fun _ => rfl) (hfields _ ▸ h.installable)
    install := fieldSettled_of_readOr (fun _ => rfl) (hfields _ ▸ h.install)
    initializationOptions := hmerged ▸
      merges_combine (namesOnce_fieldSetting? hb) (namesOnce_fieldSetting? ha)
    enabled := fieldSettled_of_readOr (fun _ => rfl) (hfields _ ▸ h.enabled) }

/-- What stands under a name in all four layers together. -/
theorem value?_foldl_addLayer (hb : NamesOnce (.object below)) (ha : NamesOnce (.object above))
    (hbelow : Documented below) (habove : Documented above) (he : PlainVariables e)
    (k : String) :
    value? k ([defaultLayer, below, above, environmentLayer e].foldl addLayer []) =
      combine (combine (combine (value? k defaultLayer) (value? k below)) (value? k above))
        (envSetting? e k) := by
  have hdefault : addLayer [] defaultLayer = defaultLayer := by
    rw [addLayer_eq_overlayMembers (by decide)]
    rfl
  have hfields : ∀ m ∈ environmentLayer e, m.1 ∈ Reading.configFields := by
    intro m hm
    have hsub : ∀ key ∈ variableFields, key ∈ Reading.configFields := by decide
    exact hsub _ (he.mem_fields hm)
  simp only [List.foldl_cons, List.foldl_nil]
  rw [hdefault, addLayer_eq_overlayMembers hbelow.names, addLayer_eq_overlayMembers habove.names,
    addLayer_eq_overlayMembers hfields,
    value?_overlayMembers_of_leaves fun m hm => leaf_of_mem_environmentLayer hm,
    lastValue?_environmentLayer, value?_overlayMembers ha.nodup, value?_overlayMembers hb.nodup]

/-- A setting that is no table is that of the highest layer. -/
theorem settled_of_layers {d b a v : Option Json} (htable : ∀ ms, read (.object ms) = none)
    (hdefault : readOr read fallback d = some fallback)
    (h : readOr read fallback (combine (combine (combine d b) a) v) = some x) :
    Settled read fallback [v, a, b] x :=
  settled_combine htable (settled_combine htable (settled_combine htable fun hd =>
    Option.some.inj (hd.symm.trans hdefault))) h

lemma combine_none_of_namesOnce {b : Option Json} (h : ∀ u ∈ b, u.NamesOnce) :
    combine none b = b := by
  cases b with
  | none => rfl
  | some u => exact congrArg some (overlay_null (h u rfl))

/-- The servers are those of both files, each with its settings in both. -/
theorem servers_of_readOr (hb : NamesOnce (.object below)) (ha : NamesOnce (.object above))
    (hbelow : Documented below) (habove : Documented above)
    {servers : List (String × ServerConfig)}
    (h : readOr (Reading.dictionary Reading.lenient.server) []
      (combine (value? "server" below) (value? "server" above)) = some servers) :
    (servers.map (·.1)).Nodup ∧
      (∀ id, id ∈ servers.map (·.1) ↔
        (serverSetting? above id).isSome = true ∨ (serverSetting? below id).isSome = true) ∧
      ∀ id s, (id, s) ∈ servers → ServerLayered below above id s := by
  have hbOnce : ∀ u ∈ value? "server" below, u.NamesOnce := fun u hu => hb.of_mem (mem_of_value? hu)
  have haOnce : ∀ v ∈ value? "server" above, v.NamesOnce := fun v hv => ha.of_mem (mem_of_value? hv)
  have hnodup := nodup_names_of_dictionary hbOnce haOnce h
  have hentry (id : String) : readOr (entry Reading.lenient.server) none
      (combine (serverSetting? below id) (serverSetting? above id)) = some (value? id servers) :=
    readOr_dictionary_combine haOnce h id
  refine ⟨hnodup, fun id => ?_, fun id s hs => ?_⟩
  · rw [← value?_isSome_iff, ← isSome_combine, isSome_of_readOr_entry (hentry id)]
  · have hid := hentry id
    rw [value?_of_mem hnodup hs] at hid
    obtain ⟨j, hj, hread⟩ := exists_of_readOr_entry hid
    obtain ⟨fields, rfl, hfields⟩ := exists_fields_of_combine ha hbelow habove hj
    exact serverLayered_of_readFrom hb ha hbelow habove hfields (serverReadFrom_of_server hread)

/-- The servers of a configuration that is put together from layers have ids in ascending order. -/
theorem ascending_of_ofLayers {layers : List (List (String × Json))}
    (h : ofLayers layers = .ok c) : Ascending c.servers := by
  unfold ofLayers at h
  split at h
  · next hc =>
    cases h
    exact ascending_of_config hc
  · cases h

lemma layered_of_ofLayers (hb : NamesOnce (.object below)) (ha : NamesOnce (.object above))
    (hbelow : Documented below) (habove : Documented above) (he : PlainVariables e)
    (h : ofLayers [defaultLayer, below, above, environmentLayer e] = .ok c) :
    Layered e below above c := by
  have hread : ReadFrom ([defaultLayer, below, above, environmentLayer e].foldl addLayer []) c := by
    unfold ofLayers at h
    split at h
    · next c' hc =>
      cases h
      exact readFrom_of_config hc
    · cases h
  have hvalue := value?_foldl_addLayer hb ha hbelow habove he
  have hdelays : envSetting? e "retry_delays_ms" = none := he.envSetting?_eq_none (by decide)
  have hdisabled : envSetting? e "disabled" = none := he.envSetting?_eq_none (by decide)
  have hserver :
      value? "server" ([defaultLayer, below, above, environmentLayer e].foldl addLayer []) =
        combine (value? "server" below) (value? "server" above) := by
    rw [hvalue, he.envSetting?_eq_none (by decide)]
    show combine (combine none (value? "server" below)) (value? "server" above) = _
    rw [combine_none_of_namesOnce fun u hu => hb.of_mem (mem_of_value? hu)]
  obtain ⟨servers, hservers, hsorted⟩ := hread.servers
  rw [hserver] at hservers
  obtain ⟨hnodup, hids, hlayered⟩ := servers_of_readOr hb ha hbelow habove hservers
  have hmem (x : String × ServerConfig) : x ∈ c.servers ↔ x ∈ servers := by
    rw [hsorted, mem_sortServers_iff hnodup]
  exact {
    diagnosticsTimeout := settled_of_layers (fun _ => rfl) (by decide +kernel)
      (hvalue _ ▸ hread.diagnosticsTimeout)
    initializeTimeout := settled_of_layers (nullable_object fun _ => rfl) rfl
      (hvalue _ ▸ hread.initializeTimeout)
    builtinServers := settled_of_layers (fun _ => rfl) rfl (hvalue _ ▸ hread.builtinServers)
    retryDelays := settled_of_layers (v := none) (fun _ => rfl) rfl
      (hdelays ▸ hvalue _ ▸ hread.retryDelays)
    disabled := settled_of_layers (v := none) (fun _ => rfl) rfl
      (hdisabled ▸ hvalue _ ▸ hread.disabled)
    nodup := (ascending_of_ofLayers h).nodup
    ids := fun id => by
      rw [← hids id]
      simp only [List.mem_map, hmem]
    servers := fun id s hs => hlayered id s ((hmem _).1 hs) }

/-- The configurations that are loaded are ones that a registry can be made of: no id is given
twice, and the ids ascend. -/
theorem Formats.ascending_of_loadLayers {fs : Formats} {t : Tree} {cwd : Location}
    {user asked : Option Path} (h : fs.loadLayers t cwd e user asked = .ok c) :
    Ascending c.servers := by
  rw [loadLayers_eq_bind] at h
  obtain ⟨below, -, h⟩ := Except.of_bind_eq_ok h
  obtain ⟨above, -, h⟩ := Except.of_bind_eq_ok h
  exact ascending_of_ofLayers h

/-- Whatever the formats of files are, a configuration that is loaded has every setting from the
highest layer that sets it, and the servers of both files. A file of the user that is missing is
like none. A file that was asked for and is missing is an error, unless files with the extensions of
formats stand behind its name: if there is one, it is read in its place. -/
theorem loadLayers_layered {fs : Formats} (hfs : fs.ReadOnce) (t : Tree) (cwd : Location)
    (e : Environment) :
    (∀ user asked c, fs.loadLayers t cwd e user asked = .ok c → PlainVariables e →
      ∃ below above, fs.userLayer t cwd user = .ok below ∧ fs.askedLayer t cwd asked = .ok above ∧
        (Documented below → Documented above → Layered e below above c)) ∧
    (∀ p asked, t.pathExists cwd p = false →
      fs.loadLayers t cwd e (some p) asked = fs.loadLayers t cwd e none asked) ∧
    (∀ user p, t.pathExists cwd p = false →
      (∀ name ∈ fs.extensions, ∀ p', ¬ Completes t cwd p name p') →
        fs.loadLayers t cwd e user (some p) = .error .build) ∧
    ∀ user p p', t.pathExists cwd p = false →
      ∀ name ∈ fs.extensions, Completes t cwd p name p' →
        (∀ name' ∈ fs.extensions, name' ≠ name → ∀ p'', ¬ Completes t cwd p name' p'') →
          fs.loadLayers t cwd e user (some p) = fs.loadLayers t cwd e user (some p') := by
  refine ⟨fun user asked c h he => ?_, fun p asked h => Formats.loadLayers_of_user_missing h asked,
    fun user p h hnone => Formats.loadLayers_of_asked_missing h hnone user,
    fun user p p' h name hname hp' honly =>
      Formats.loadLayers_of_asked_completes h hname hp' honly user⟩
  rw [Formats.loadLayers_eq_bind] at h
  obtain ⟨below, hbelow, h⟩ := Except.of_bind_eq_ok h
  obtain ⟨above, habove, h⟩ := Except.of_bind_eq_ok h
  have hb := Formats.namesOnce_of_userLayer hfs hbelow
  have ha := Formats.namesOnce_of_askedLayer hfs habove
  exact ⟨below, above, hbelow, habove, fun hdocBelow hdocAbove =>
    layered_of_ofLayers hb ha hdocBelow hdocAbove he h⟩

end Layered

section Sample

lemma exists_of_isOk {ε α : Type} {x : Except ε α} (h : x.isOk = true) : ∃ a, x = .ok a := by
  cases x with
  | error => cases h
  | ok a => exact ⟨a, rfl⟩

/-- A tree with a file of the user and another file in another format. -/
def twoFileTree : Tree :=
  ⟨.ofList [([.ofString "u.toml"],
      .file (.ofString "disabled=['a']\n[server.s]\ncommand='u'\nargs=['x']") false),
    ([.ofString "c.json5"],
      .file (.ofString "\x7b\"server\":\x7b\"s\":\x7b\"command\":\"c\"\x7d\x7d\x7d") false)]⟩

/-- The formats of this library and one more, which reads a text that is JSON as JSON. -/
def sampleFormats : Formats := ownFormats ++ [⟨"json5", Format.json.read?, by decide +kernel⟩]

lemma readOnce_sampleFormats : sampleFormats.ReadOnce := by
  intro f hf text ms h
  obtain hf | hf := List.mem_append.1 hf
  · exact readOnce_ownFormats f hf text ms h
  · obtain rfl := List.mem_singleton.1 hf
    exact readOnce_ownFormats .json (by simp [ownFormats]) text ms h

def switchingEnvironment : Environment := [("CONDUCTOR_BUILTIN_SERVERS", "off")]

lemma plainVariables_switchingEnvironment : PlainVariables switchingEnvironment := by
  intro v hv _
  rw [List.mem_singleton.1 hv]
  exact ⟨"builtin_servers", by decide, by decide +kernel⟩

/-- Of two files that configure a server the one that was asked for comes first, and what it does
not say is as the other one says it. Without its extension the file is found as well, but where
there is none, none is found. -/
theorem loadLayers_layered_sample :
    ∃ c, sampleFormats.loadLayers twoFileTree [] switchingEnvironment (some (.ofString "u.toml"))
        (some (.ofString "c")) = .ok c ∧
      c.diagnosticsTimeout = 3000 ∧ c.builtinServers = false ∧ c.disabled = ["a"] ∧
      (∃ s, ("s", s) ∈ c.servers ∧ s.command = "c" ∧ s.args = ["x"]) ∧
      sampleFormats.loadLayers twoFileTree [] switchingEnvironment none (some (.ofString "d")) =
        .error .build := by
  obtain ⟨hlayers, -, hmissing, hcompletes⟩ :=
    loadLayers_layered readOnce_sampleFormats twoFileTree [] switchingEnvironment
  have hsame := hcompletes (some (.ofString "u.toml")) (.ofString "c") (.ofString "/c.json5")
    (by decide +kernel) "json5" (by decide) ⟨by decide +kernel, by decide +kernel⟩ (by
      have honly : ∀ name ∈ sampleFormats.extensions, name ≠ "json5" →
          ((withExtension? [] (.ofString "c") name).bind (twoFileTree.read? [])).isSome =
            false := by decide +kernel
      exact fun name hname hne p => not_completes (honly name hname hne))
  have hnone : sampleFormats.loadLayers twoFileTree [] switchingEnvironment none
      (some (.ofString "d")) = .error .build := by
    have hfiles : ∀ name ∈ sampleFormats.extensions,
        ((withExtension? [] (.ofString "d") name).bind (twoFileTree.read? [])).isSome = false := by
      decide +kernel
    exact hmissing none _ (by decide +kernel) fun name hname p => not_completes (hfiles name hname)
  obtain ⟨c, hload⟩ := exists_of_isOk (x := sampleFormats.loadLayers twoFileTree []
    switchingEnvironment (some (.ofString "u.toml")) (some (.ofString "/c.json5")))
    (by decide +kernel)
  obtain ⟨below, above, hbelow, habove, hlayered⟩ :=
    hlayers _ _ c hload plainVariables_switchingEnvironment
  obtain rfl : below =
      (sampleFormats.userLayer twoFileTree [] (some (.ofString "u.toml"))).toOption.getD [] := by
    rw [hbelow]
    rfl
  obtain rfl : above =
      (sampleFormats.askedLayer twoFileTree [] (some (.ofString "/c.json5"))).toOption.getD [] := by
    rw [habove]
    rfl
  replace hlayered := hlayered (documented_of_isDocumented (by decide +kernel))
    (documented_of_isDocumented (by decide +kernel))
  have hid : "s" ∈ c.servers.map (·.1) := (hlayered.ids "s").2 (.inl (by decide +kernel))
  obtain ⟨⟨id, s⟩, hs, rfl⟩ := List.mem_map.1 hid
  have hserver := hlayered.servers _ s hs
  refine ⟨c, hsame.trans hload, hlayered.diagnosticsTimeout.eq_of_readOr (by decide +kernel),
    hlayered.builtinServers.eq_of_readOr (by decide +kernel),
    hlayered.disabled.eq_of_readOr (by decide +kernel), ⟨s, hs, ?_, ?_⟩, hnone⟩
  · exact hserver.command.eq_of_readOr (by decide +kernel)
  · exact hserver.args.eq_of_readOr (by decide +kernel)

def oneFileTree : Tree :=
  ⟨.ofList [([.ofString "c.toml"], .file (.ofString "diagnostics_timeout_ms=5") false)]⟩

/-- The path `c` does not exist there, and a configuration is loaded from it all the same. -/
theorem loadLayers_missing_loaded :
    oneFileTree.pathExists [] (.ofString "c") = false ∧
      ∃ c, loadLayers oneFileTree [] [] none (some (.ofString "c")) = .ok c :=
  ⟨by decide +kernel, exists_of_isOk (by decide +kernel)⟩

end Sample

end ServerFleet.Config
