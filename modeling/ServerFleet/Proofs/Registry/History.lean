import ServerFleet.Proofs.Config.Registry
import ServerFleet.Proofs.Path.Extension

/-!
What a registry holds after any calls that add definitions. An id takes the next place with its
first call and keeps it, the last call that was accepted for an id says what it stands for, and a
call that is refused leaves no trace. The definitions for a file are those whose sketches list its
extension, with or without the dot.
-/

namespace ServerFleet

/-- A definition with the sketch it was built from. -/
structure BuiltDefinition where
  sketch : ServerSketch
  definition : ServerDefinition
  realizes : definition.Realizes sketch

namespace ServerSketch

/-- The sketch names an extension, with its dot or, unless nothing is left then, without it. -/
def Lists (s : ServerSketch) (e : String) : Prop :=
  "." ++ e ∈ s.extensions ∨ e ≠ "" ∧ e ∈ s.extensions

instance (s : ServerSketch) (e : String) : Decidable (s.Lists e) :=
  inferInstanceAs (Decidable (_ ∨ _))

end ServerSketch

namespace ServerDefinition

/-- With its dot an extension is spelled in two ways at most. -/
theorem withDot_eq_iff {x e : String} (he : '.' ∉ e.toList) :
    x ≠ "" ∧ withDot x = "." ++ e ↔ x = "." ++ e ∨ x = e ∧ e ≠ "" := by
  unfold withDot
  split
  · next hdot =>
    have hx : x ≠ "" := by
      rintro rfl
      cases hdot
    have hxe : x ≠ e := by
      rintro rfl
      exact he (List.mem_of_head? hdot)
    simp [hx, hxe]
  · next hdot =>
    have hne : x ≠ "." ++ e := by
      rintro rfl
      exact hdot (by simp)
    have hcancel : "." ++ x = "." ++ e ↔ x = e := by simp [← String.toList_inj]
    rw [hcancel]
    constructor
    · rintro ⟨hx, rfl⟩
      exact .inr ⟨rfl, hx⟩
    · rintro (h | ⟨rfl, hx⟩)
      · exact absurd h hne
      · exact ⟨hx, rfl⟩

lemma Realizes.mem_extensions_iff {d : ServerDefinition} {s : ServerSketch} {e : String}
    (h : d.Realizes s) (he : '.' ∉ e.toList) : "." ++ e ∈ d.extensions ↔ s.Lists e := by
  rw [h.extensions, mem_normalizedExtensions]
  simp only [withDot_eq_iff he]
  unfold ServerSketch.Lists
  constructor
  · rintro ⟨x, hx, rfl | ⟨rfl, hne⟩⟩
    · exact .inl hx
    · exact .inr ⟨hne, hx⟩
  · rintro (hdotted | ⟨hne, hplain⟩)
    · exact ⟨_, hdotted, .inl rfl⟩
    · exact ⟨_, hplain, .inr ⟨rfl, hne⟩⟩

end ServerDefinition

namespace Registry

/-- A call that adds a definition. -/
inductive Edit where
  /-- Adds a definition under a new id. -/
  | register (b : BuiltDefinition)
  /-- Adds a definition, in the place of the one with its id if there is one. -/
  | replace (b : BuiltDefinition)

namespace Edit

def built : Edit → BuiltDefinition
  | register b => b
  | replace b => b

def definition (e : Edit) : ServerDefinition := e.built.definition

def id (e : Edit) : String := e.definition.id

def apply (r : Registry) : Edit → Except RegistryError Registry
  | register b => r.register b.definition
  | replace b => .ok (r.replace b.definition)

end Edit

/-- The registry behind a call, which is the one before it if the call is refused. -/
def after (r : Registry) (e : Edit) : Registry :=
  match e.apply r with
  | .ok r' => r'
  | .error _ => r

/-- The registry behind a sequence of calls. -/
def follow (r : Registry) (edits : List Edit) : Registry := edits.foldl after r

def accepted (r : Registry) : List Edit → List Edit
  | [] => []
  | e :: rest =>
    match e.apply r with
    | .ok r' => e :: r'.accepted rest
    | .error _ => r.accepted rest

variable {r r' start : Registry} {e : Edit} {edits : List Edit} {id : String}

lemma contains_iff (r : Registry) (id : String) : r.contains id = true ↔ id ∈ r.ids := by
  simp [contains, get?, ids]

/-- The only call that is refused registers a definition under an id of the registry. -/
theorem apply_eq_error_iff {fault : RegistryError} : e.apply r = .error fault ↔
    (∃ b, e = .register b) ∧ e.id ∈ r.ids ∧ fault = .duplicate e.id := by
  cases e with
  | register b =>
    simp only [Edit.apply, register, contains_iff, Edit.id, Edit.definition, Edit.built]
    split <;> simp [*, eq_comm]
  | replace b => simp [Edit.apply]

lemma after_of_ok (h : e.apply r = .ok r') : r.after e = r' := by
  rw [after, h]

lemma after_of_error {fault : RegistryError} (h : e.apply r = .error fault) : r.after e = r := by
  rw [after, h]

lemma apply_eq_ok_cases (h : e.apply r = .ok r') :
    r' = r.replace e.definition ∨ e.id ∉ r.ids ∧ r' = ⟨r.servers ++ [e.definition]⟩ := by
  cases e with
  | register b =>
    by_cases hmem : b.definition.id ∈ r.ids
    · have hrefused : (Edit.register b).apply r = .error (.duplicate b.definition.id) :=
        apply_eq_error_iff.2 ⟨⟨b, rfl⟩, hmem, rfl⟩
      rw [hrefused] at h
      cases h
    · refine .inr ⟨hmem, ?_⟩
      have hok : (Edit.register b).apply r = .ok ⟨r.servers ++ [b.definition]⟩ :=
        register_of_notMem hmem
      rw [hok] at h
      exact (Except.ok.inj h).symm
  | replace b => exact .inl (Except.ok.inj h).symm

/-- An accepted call adds its id at the end, unless the registry has it already. -/
theorem ids_of_ok (h : e.apply r = .ok r') :
    r'.ids = if e.id ∈ r.ids then r.ids else r.ids ++ [e.id] := by
  rcases apply_eq_ok_cases h with rfl | ⟨hnew, rfl⟩
  · rw [ids_replace, List.concat_eq_append]
    rfl
  · rw [if_neg hnew]
    simp [ids, Edit.id]

lemma ids_after (r : Registry) (e : Edit) :
    (r.after e).ids = if e.id ∈ r.ids then r.ids else r.ids ++ [e.id] := by
  cases h : e.apply r with
  | ok r' => rw [after_of_ok h, ids_of_ok h]
  | error fault => rw [after_of_error h, if_pos (apply_eq_error_iff.1 h).2.1]

/-- An accepted call says what its id stands for, and leaves the other ids alone. -/
theorem get?_of_ok (h : e.apply r = .ok r') (id : String) :
    r'.get? id = if e.id = id then some e.definition else r.get? id := by
  rcases apply_eq_ok_cases h with rfl | ⟨hnew, rfl⟩
  · exact get?_replace r e.definition id
  · have happend : get? ⟨r.servers ++ [e.definition]⟩ id =
        (r.get? id).or (if e.id = id then some e.definition else none) := by
      by_cases hid : e.definition.id = id <;> simp [get?, Edit.id, hid]
    rw [happend]
    split
    · next hid =>
      rw [get?_eq_none_of_notMem (hid ▸ hnew)]
      rfl
    · simp

/-- The ids stand in the order in which they first came. -/
theorem ids_follow (h : r.ids.Nodup) (edits : List Edit) :
    (r.follow edits).ids = (r.ids ++ edits.map (·.id)).eraseDups := by
  induction edits using List.reverseRecOn with
  | nil =>
    rw [List.map_nil, List.append_nil, eraseDups_of_nodup h]
    rfl
  | append_singleton edits e ih =>
    have hstep : r.follow (edits ++ [e]) = (r.follow edits).after e := List.foldl_concat ..
    have hmem : e.id ∈ (r.follow edits).ids ↔ e.id ∈ r.ids ++ edits.map (·.id) := by
      rw [ih, List.mem_eraseDups]
    rw [hstep, ids_after, List.map_append, ← List.append_assoc, List.eraseDups_append]
    by_cases he : e.id ∈ r.ids ++ edits.map (·.id)
    · rw [if_pos (hmem.2 he), ih]
      simp [List.cons_removeAll, he]
    · rw [if_neg (mt hmem.1 he), ih]
      simp [List.cons_removeAll, he]
      rfl

/-- What an id stands for was said by the last accepted call for it, or else in the beginning. -/
theorem get?_follow (r : Registry) (edits : List Edit) (id : String) :
    (r.follow edits).get? id =
      (((r.accepted edits).reverse.find? (·.id = id)).map (·.definition)).or (r.get? id) := by
  induction edits generalizing r with
  | nil => rfl
  | cons e edits ih =>
    have hstep : r.follow (e :: edits) = (r.after e).follow edits := rfl
    rw [hstep, accepted]
    cases h : e.apply r with
    | ok r' =>
      dsimp only
      rw [after_of_ok h, ih, get?_of_ok h, List.reverse_cons, List.find?_append]
      cases (r'.accepted edits).reverse.find? (·.id = id) with
      | some last => rfl
      | none => by_cases he : e.id = id <;> simp [he]
    | error fault => rw [after_of_error h, ih]

/-- The refused calls leave no trace. -/
theorem follow_accepted (r : Registry) (edits : List Edit) :
    r.follow (r.accepted edits) = r.follow edits := by
  induction edits generalizing r with
  | nil => rfl
  | cons e edits ih =>
    have hstep : r.follow (e :: edits) = (r.after e).follow edits := rfl
    rw [hstep, accepted]
    cases h : e.apply r with
    | ok r' =>
      have hfirst : r.follow (e :: r'.accepted edits) = (r.after e).follow (r'.accepted edits) :=
        rfl
      rw [hfirst, after_of_ok h, ih]
    | error fault => rw [after_of_error h, ih]

/-- Every definition of a registry was built from a sketch. -/
def Built (r : Registry) : Prop := ∀ d ∈ r.servers, ∃ b : BuiltDefinition, b.definition = d

lemma mem_replaceIn {d x : ServerDefinition} {l : List ServerDefinition}
    (h : x ∈ replaceIn d l) : x = d ∨ x ∈ l := by
  induction l with
  | nil => simpa [replaceIn] using h
  | cons first rest ih =>
    unfold replaceIn at h
    split at h
    · rcases List.mem_cons.1 h with rfl | h
      · exact .inl rfl
      · exact .inr (List.mem_cons_of_mem _ h)
    · rcases List.mem_cons.1 h with rfl | h
      · exact .inr List.mem_cons_self
      · exact (ih h).imp_right (List.mem_cons_of_mem _)

lemma Built.after (h : r.Built) (e : Edit) : (r.after e).Built := by
  intro d hd
  have hnew : d = e.definition ∨ d ∈ r.servers := by
    cases happly : e.apply r with
    | ok r' =>
      rw [after_of_ok happly] at hd
      rcases apply_eq_ok_cases happly with rfl | ⟨-, rfl⟩
      · exact mem_replaceIn hd
      · simpa [or_comm] using hd
    | error fault =>
      rw [after_of_error happly] at hd
      exact .inr hd
  rcases hnew with rfl | hd
  · exact ⟨e.built, rfl⟩
  · exact h d hd

lemma Built.follow (h : r.Built) (edits : List Edit) : (r.follow edits).Built := by
  induction edits generalizing r with
  | nil => exact h
  | cons e edits ih => exact ih (h.after e)

lemma Built.exists_list (h : r.Built) :
    ∃ bs : List BuiltDefinition, bs.map (·.definition) = r.servers := by
  obtain ⟨servers⟩ := r
  induction servers with
  | nil => exact ⟨[], rfl⟩
  | cons d servers ih =>
    obtain ⟨b, rfl⟩ := h d List.mem_cons_self
    obtain ⟨bs, hbs⟩ := ih fun x hx => h x (List.mem_cons_of_mem _ hx)
    exact ⟨b :: bs, congrArg (b.definition :: ·) hbs⟩

lemma built_of_forall₂ {sketches : List ServerSketch}
    (h : List.Forall₂ (fun s d => d.Realizes s) sketches r.servers) : r.Built := by
  obtain ⟨servers⟩ := r
  intro d hd
  dsimp only at h hd
  induction h with
  | nil => cases hd
  | @cons s first _ _ hs _ ih =>
    rcases List.mem_cons.1 hd with rfl | hd
    · exact ⟨⟨s, d, hs⟩, rfl⟩
    · exact ih hd

/-- The registry is the empty one or that of the known servers. -/
def Initial (r : Registry) : Prop := r = .empty ∨ builtin = .ok r

lemma Initial.nodup (h : r.Initial) : r.ids.Nodup := by
  rcases h with rfl | h
  · exact List.nodup_nil
  · exact (Made.empty.registerAll h).nodup

lemma Initial.built (h : r.Initial) : r.Built := by
  rcases h with rfl | h
  · intro d hd
    cases hd
  · obtain ⟨r', hr', hall⟩ := exists_builtin
    obtain rfl : r' = r := Except.ok.inj (hr'.symm.trans h)
    exact built_of_forall₂ hall

lemma forFile_of_none {file : Path} (h : file.extension?.bind Bytes.decode? = none) :
    r.forFile file = [] := by
  rw [forFile, fileExtension, h]
  rfl

/-- A file is for the definitions whose sketches name its extension. -/
theorem forFile_eq_filter {file : Path} {e : String} {bs : List BuiltDefinition}
    (h : file.extension?.bind Bytes.decode? = some e) (hbs : bs.map (·.definition) = r.servers) :
    r.forFile file = (bs.filter fun b => b.sketch.Lists e).map (·.definition) := by
  have hdot := Path.dot_notMem_extension? h
  have hfile : fileExtension file = some ("." ++ e) := by rw [fileExtension, h]; rfl
  have hhandles : ∀ b : BuiltDefinition,
      b.definition.handles ("." ++ e) = decide (b.sketch.Lists e) := by
    intro b
    have hmem := b.realizes.mem_extensions_iff hdot
    simp only [ServerDefinition.handles, ← hmem, List.contains_eq_mem]
  rw [forFile, hfile]
  dsimp only
  rw [← hbs, List.filter_map]
  simp only [Function.comp_def, hhandles]

/-- What is known of the registry that a sequence of calls makes of another one. -/
structure Recounts (start : Registry) (edits : List Edit) (r : Registry) : Prop where
  nodup : r.ids.Nodup
  /-- The ids stand in the order in which they first came. -/
  ids : r.ids = (start.ids ++ edits.map (·.id)).eraseDups
  /-- No further call moves an id. -/
  places : ∀ more, r.ids <+: (r.follow more).ids
  /-- An id stands for what the last accepted call for it says. -/
  get? : ∀ id, r.get? id =
    (((start.accepted edits).reverse.find? (·.id = id)).map (·.definition)).or (start.get? id)
  /-- What is refused is to register a definition under an id of the registry. -/
  refused : ∀ (e : Edit) (fault : RegistryError), e.apply r = .error fault ↔
    (∃ b, e = .register b) ∧ e.id ∈ r.ids ∧ fault = .duplicate e.id
  /-- A refused call leaves the registry as it is. -/
  unchanged : ∀ (e : Edit) (fault : RegistryError), e.apply r = .error fault → r.after e = r
  /-- The calls that were refused can be left out. -/
  accepted : start.follow (start.accepted edits) = r
  built : ∃ bs : List BuiltDefinition, bs.map (·.definition) = r.servers
  /-- The definitions for a file are those that were built from a sketch with its extension. -/
  forFile : ∀ (file : Path) (e : String), file.extension?.bind Bytes.decode? = some e →
    ∀ bs : List BuiltDefinition, bs.map (·.definition) = r.servers →
      r.forFile file = (bs.filter fun b => b.sketch.Lists e).map (·.definition)
  nodup_forFile : ∀ file : Path, ((r.forFile file).map (·.id)).Nodup
  forFile_of_none : ∀ file : Path, file.extension?.bind Bytes.decode? = none → r.forFile file = []

/-- Any calls from the empty registry or from that of the known servers make a table without
repetitions, in which each id keeps its place and stands for what it was last given. -/
theorem follow_recounts (h : start.Initial) (edits : List Edit) :
    Recounts start edits (start.follow edits) := by
  have hids := ids_follow h.nodup edits
  have hnodup : (start.follow edits).ids.Nodup := by
    rw [hids]
    exact (pairwise_eraseDups (List.pairwise_of_forall fun _ _ => trivial)).imp And.right
  have hplaces : ∀ more, (start.follow edits).ids <+: ((start.follow edits).follow more).ids := by
    intro more
    rw [ids_follow hnodup, List.eraseDups_append, eraseDups_of_nodup hnodup]
    exact List.prefix_append _ _
  exact {
    nodup := hnodup
    ids := hids
    places := hplaces
    get? := get?_follow start edits
    refused := fun _ _ => apply_eq_error_iff
    unchanged := fun _ _ => after_of_error
    accepted := follow_accepted start edits
    built := (h.built.follow edits).exists_list
    forFile := fun _ _ he _ hbs => forFile_eq_filter he hbs
    nodup_forFile := fun file => hnodup.sublist ((sublist_forFile _ file).map _)
    forFile_of_none := fun _ => Registry.forFile_of_none
  }

/-- A server without patterns, as it is built from its sketch. -/
def plainServer (id : String) (extensions : List String) : BuiltDefinition where
  sketch := builtinSketch id id id [] extensions [] [] []
  definition := {
    id
    name := id
    extensions := ServerDefinition.normalizedExtensions extensions
    rootPatterns := []
    excludePatterns := []
    installable := false
    initialization := none
    roots := .empty
    excludes := .empty
    launcher := .command ⟨id, [], [], []⟩
  }
  realizes := ⟨rfl, rfl, rfl, rfl, rfl, rfl, rfl, rfl, rfl, rfl⟩

/-- A known server is replaced, registered once more in vain, and a new one is registered. -/
def sampleEdits : List Edit :=
  [.replace (plainServer "deno" ["vue"]), .register (plainServer "deno" [".ts"]),
    .register (plainServer "zls" ["zig", "", ".zig"])]

theorem follow_recounts_sample : ∃ start, builtin = .ok start ∧
    Recounts start sampleEdits (start.follow sampleEdits) ∧
    (start.follow sampleEdits).ids = builtinSketches.map (·.id) ++ ["zls"] := by
  obtain ⟨start, hstart, hall⟩ := exists_builtin
  have hrecounts := follow_recounts (.inr hstart) sampleEdits
  refine ⟨start, hstart, hrecounts, ?_⟩
  have hids : start.ids = builtinSketches.map (·.id) := map_id_of_forall₂ hall
  rw [hrecounts.ids, hids]
  decide +kernel

end Registry

end ServerFleet
