import Mathlib.Tactic.Lemma
import ServerFleet.Config.Load
import ServerFleet.Proofs.Config.Servers
import ServerFleet.Proofs.Path.Extension
import ServerFleet.Proofs.Text.Order
import ServerFleet.Proofs.Toml.Members

/-!
The files of a configuration. Formats read each name at most once in every table, so that a file
that is read has each name at most once. The file of the user may be missing. For a file that was
asked for and is missing, the one with the extension of a format behind its name is read; without
that it is an error.
-/

namespace ServerFleet.Config

open Json (NamesOnce)

/-- Each name stands at most once in every table that is read. -/
def Formats.ReadOnce (fs : Formats) : Prop :=
  ∀ f ∈ fs, ∀ text ms, f.read? text = some ms → NamesOnce (.object ms)

lemma namesOnce_of_asObject? {j : Json} {ms : List (String × Json)} (hj : j.NamesOnce)
    (h : j.asObject? = some ms) : NamesOnce (.object ms) := by
  cases j with
  | object => cases h; exact hj
  | _ => cases h

lemma readOnce_ownFormats : ownFormats.ReadOnce := by
  intro f hf text ms h
  obtain rfl | hf := List.mem_cons.1 hf
  · obtain ⟨j, hj, hobject⟩ := Option.bind_eq_some_iff.1 h
    exact namesOnce_of_asObject? (Toml.namesOnce_of_parse? hj) hobject
  · obtain rfl := List.mem_singleton.1 hf
    obtain ⟨j, hj, hobject⟩ := Option.bind_eq_some_iff.1 h
    exact namesOnce_of_asObject? (Json.namesOnce_of_parse? hj) hobject

namespace Formats

section Settings

variable {fs : Formats} {t : Tree} {cwd : Location} {p : Path} {ms : List (String × Json)}
  {user asked : Option Path}

lemma mem_of_findFile? {found : Bytes × Format} (h : fs.findFile? t cwd p = some found) :
    found.2 ∈ fs := by
  unfold findFile? at h
  split at h
  · obtain ⟨f, hf, rfl⟩ := Option.map_eq_some_iff.1 h
    obtain ⟨e, -, hf⟩ := Option.bind_eq_some_iff.1 hf
    exact List.mem_of_find?_eq_some hf
  · obtain ⟨f, hf, h⟩ := List.exists_of_findSome?_eq_some h
    obtain ⟨p', -, h⟩ := Option.bind_eq_some_iff.1 h
    obtain ⟨contents, -, rfl⟩ := Option.map_eq_some_iff.1 h
    exact hf

lemma namesOnce_of_fileLayer (hfs : fs.ReadOnce) (h : fs.fileLayer t cwd p = .ok ms) :
    NamesOnce (.object ms) := by
  unfold fileLayer at h
  split at h
  · cases h
  · next contents format hfind =>
    split at h
    · next found hread =>
      cases h
      exact hfs format (mem_of_findFile? hfind) _ _ hread
    · cases h

/-- The layer of the user, which has nothing in it if the file is missing. -/
def userLayer (fs : Formats) (t : Tree) (cwd : Location) :
    Option Path → Except LoadError (List (String × Json))
  | some p => if t.pathExists cwd p then fs.fileLayer t cwd p else .ok []
  | none => .ok []

def askedLayer (fs : Formats) (t : Tree) (cwd : Location) :
    Option Path → Except LoadError (List (String × Json))
  | some p => fs.fileLayer t cwd p
  | none => .ok []

lemma namesOnce_of_userLayer (hfs : fs.ReadOnce) (h : fs.userLayer t cwd user = .ok ms) :
    NamesOnce (.object ms) := by
  unfold userLayer at h
  split at h
  · split at h
    · exact namesOnce_of_fileLayer hfs h
    · cases h
      exact Json.namesOnce_empty
  · cases h
    exact Json.namesOnce_empty

lemma namesOnce_of_askedLayer (hfs : fs.ReadOnce) (h : fs.askedLayer t cwd asked = .ok ms) :
    NamesOnce (.object ms) := by
  unfold askedLayer at h
  split at h
  · exact namesOnce_of_fileLayer hfs h
  · cases h
    exact Json.namesOnce_empty

lemma loadLayers_eq_bind (fs : Formats) (t : Tree) (cwd : Location) (e : Environment)
    (user asked : Option Path) :
    fs.loadLayers t cwd e user asked = (do
      let below ← fs.userLayer t cwd user
      let above ← fs.askedLayer t cwd asked
      ofLayers [defaultLayer, below, above, environmentLayer e]) := by
  unfold loadLayers
  cases user with
  | none => cases asked <;> rfl
  | some p =>
    unfold userLayer
    dsimp only
    cases t.pathExists cwd p <;> cases asked <;> rfl

end Settings

section Missing

variable {fs : Formats} {t : Tree} {cwd : Location} {e : Environment} {p p' : Path} {f : Format}
  {name : String} {user asked : Option Path}

lemma read?_of_pathExists_eq_false (h : t.pathExists cwd p = false) : t.read? cwd p = none := by
  unfold Tree.pathExists at h
  unfold Tree.read?
  cases hlookup : t.lookup cwd p with
  | error => rfl
  | ok entry =>
    rw [hlookup] at h
    cases h

/-- A file of the user that is missing says nothing. -/
theorem loadLayers_of_user_missing (h : t.pathExists cwd p = false) (asked : Option Path) :
    fs.loadLayers t cwd e (some p) asked = fs.loadLayers t cwd e none asked := by
  rw [loadLayers_eq_bind, loadLayers_eq_bind]
  unfold userLayer
  dsimp only
  rw [h]
  rfl

lemma eq_build_of_fileLayer {error : LoadError} (h : fs.fileLayer t cwd p = .error error) :
    error = .build := by
  unfold fileLayer at h
  split at h
  · cases h
    rfl
  · split at h
    · cases h
    · cases h
      rfl

lemma eq_build_of_userLayer {error : LoadError} (h : fs.userLayer t cwd user = .error error) :
    error = .build := by
  unfold userLayer at h
  split at h
  · split at h
    · exact eq_build_of_fileLayer h
    · cases h
  · cases h

lemma loadLayers_of_asked_error (h : fs.fileLayer t cwd p = .error .build)
    (user : Option Path) : fs.loadLayers t cwd e user (some p) = .error .build := by
  rw [loadLayers_eq_bind]
  cases huser : fs.userLayer t cwd user with
  | error error =>
    rw [eq_build_of_userLayer huser]
    rfl
  | ok below =>
    show (fs.fileLayer t cwd p >>= _) = _
    rw [h]
    rfl

end Missing

end Formats

section Completion

variable {fs : Formats} {t : Tree} {cwd : Location} {e : Environment} {p p' : Path} {f : Format}
  {name : String} {user : Option Path}

/-- A file stands at the path with an extension behind its last name. -/
structure Completes (t : Tree) (cwd : Location) (p : Path) (name : String) (p' : Path) : Prop where
  path : withExtension? cwd p name = some p'
  file : (t.read? cwd p').isSome = true

lemma not_completes (h : ((withExtension? cwd p name).bind (t.read? cwd)).isSome = false) :
    ¬ Completes t cwd p name p' := by
  rintro ⟨hpath, hfile⟩
  rw [hpath, Option.bind_some, hfile] at h
  cases h

lemma completion_eq_none (h : ∀ p', ¬ Completes t cwd p f.extension p') :
    ((withExtension? cwd p f.extension).bind fun p' => (t.read? cwd p').map (·, f)) = none := by
  cases hpath : withExtension? cwd p f.extension with
  | none => rfl
  | some p' =>
    have hread : t.read? cwd p' = none := by
      rw [← Option.not_isSome_iff_eq_none]
      exact fun hfile => h p' ⟨hpath, hfile⟩
    rw [Option.bind_some, hread]
    rfl

/-- With the extension of a format behind its name a path has that extension. -/
lemma extension?_of_withExtension? (h : withExtension? cwd p f.extension = some p') :
    p'.extension? = some (Bytes.ofString f.extension) := by
  obtain ⟨-, hdot, hslash⟩ := f.plain
  obtain ⟨name, hname, h⟩ := Option.bind_eq_some_iff.1 h
  obtain ⟨directory, -, h⟩ := Option.bind_eq_some_iff.1 h
  have hstep := Path.isStep_of_fileName? hname
  obtain ⟨hpart, hup⟩ := hstep.append_dot hslash
  cases h
  rw [Path.extension?, Path.fileName?_join directory hpart hup, Option.bind_some,
    Path.nameExtension?_append hstep.ne_nil hdot]

namespace Formats

/-- A path to no file stands for the first file with a known extension behind its name. -/
lemma findFile?_of_read?_eq_none (h : t.read? cwd p = none) :
    fs.findFile? t cwd p = fs.findSome? fun f =>
      (withExtension? cwd p f.extension).bind fun p' => (t.read? cwd p').map (·, f) := by
  unfold findFile?
  rw [h]

lemma findFile?_eq_none (h : t.read? cwd p = none)
    (hnone : ∀ name ∈ fs.extensions, ∀ p', ¬ Completes t cwd p name p') :
    fs.findFile? t cwd p = none := by
  rw [findFile?_of_read?_eq_none h]
  exact List.findSome?_eq_none_iff.2 fun f hf =>
    completion_eq_none (hnone _ (List.mem_map_of_mem hf))

lemma loadLayers_of_asked_missing (h : t.pathExists cwd p = false)
    (hnone : ∀ name ∈ fs.extensions, ∀ p', ¬ Completes t cwd p name p') (user : Option Path) :
    fs.loadLayers t cwd e user (some p) = .error .build := by
  refine loadLayers_of_asked_error ?_ user
  rw [fileLayer, findFile?_eq_none (read?_of_pathExists_eq_false h) hnone]

/-- If a path leads to no file and files with one extension only stand behind its name, it stands
for the file with this extension, read in the first format that has it. -/
lemma findFile?_of_completes (hname : name ∈ fs.extensions) (h : t.read? cwd p = none)
    (hp' : Completes t cwd p name p')
    (honly : ∀ name' ∈ fs.extensions, name' ≠ name → ∀ p'', ¬ Completes t cwd p name' p'') :
    fs.findFile? t cwd p = fs.findFile? t cwd p' := by
  obtain ⟨contents, hcontents⟩ := Option.isSome_iff_exists.1 hp'.file
  obtain ⟨f, -, rfl⟩ := List.mem_map.1 hname
  have hfound : fs.findFile? t cwd p' =
      (fs.find? (Bytes.ofString ·.extension = Bytes.ofString f.extension)).map (contents, ·) := by
    unfold findFile? forPath?
    rw [hcontents, extension?_of_withExtension? hp'.path]
    rfl
  rw [hfound, findFile?_of_read?_eq_none h]
  clear hname hfound
  induction fs with
  | nil => rfl
  | cons g fs ih =>
    have hrest := ih fun name hname => honly name (List.mem_cons_of_mem _ hname)
    by_cases heq : g.extension = f.extension
    · rw [List.findSome?_cons, heq, hp'.path, List.find?_cons_of_pos (by simp [heq]),
        Option.bind_some, hcontents]
      rfl
    · have hne : Bytes.ofString g.extension ≠ Bytes.ofString f.extension :=
        fun hbytes => heq (Bytes.ofString_injective hbytes)
      rw [List.findSome?_cons, completion_eq_none (honly _ List.mem_cons_self heq),
        List.find?_cons_of_neg (by simpa using hne)]
      exact hrest

lemma loadLayers_of_asked_completes (h : t.pathExists cwd p = false)
    (hname : name ∈ fs.extensions) (hp' : Completes t cwd p name p')
    (honly : ∀ name' ∈ fs.extensions, name' ≠ name → ∀ p'', ¬ Completes t cwd p name' p'')
    (user : Option Path) :
    fs.loadLayers t cwd e user (some p) = fs.loadLayers t cwd e user (some p') := by
  have hlayer : fs.fileLayer t cwd p = fs.fileLayer t cwd p' := by
    unfold fileLayer
    rw [findFile?_of_completes hname (read?_of_pathExists_eq_false h) hp' honly]
  rw [loadLayers_eq_bind, loadLayers_eq_bind]
  show (fs.userLayer t cwd user >>= fun below => fs.fileLayer t cwd p >>= _) = _
  rw [hlayer]
  rfl

end Formats

end Completion

end ServerFleet.Config
