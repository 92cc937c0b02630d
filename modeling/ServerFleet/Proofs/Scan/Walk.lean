import Mathlib.Data.List.Nodup
import Mathlib.Data.List.Infix
import ServerFleet.Proofs.Path.Extension
import ServerFleet.Proofs.Tree.Links
import ServerFleet.Scan

/-!
Walks through the entries below a directory. A walk comes once to every entry that neither is left
out nor is below one that is, down to a depth. The walk that goes down into one directory after the
other is such a walk. In a tree without ignore files and repositories only hidden names are left
out.
-/

namespace ServerFleet

namespace Tree

/-- Every entry stands below directories, under names that paths can spell. -/
def Standing (t : Tree) : Prop := ∀ loc, (t.entry? loc).isSome = true → t.Stands loc

variable {t : Tree} {dir : Location} {n : Bytes} {e : Entry}

lemma mem_children_iff : (n, e) ∈ t.children dir ↔ t.entry? (dir ++ [n]) = some e := by
  have hentry : t.entry? (dir ++ [n]) = t.entries.find? (dir ++ [n]) := if_neg (by simp)
  rw [hentry]
  constructor
  · intro h
    obtain ⟨⟨key, e'⟩, hkey, hf⟩ := List.mem_filterMap.1 h
    cases hlast : key.getLast? with
    | none => simp [hlast] at hf
    | some last =>
      obtain ⟨above, rfl⟩ := List.getLast?_eq_some_iff.1 hlast
      obtain ⟨rfl, rfl, rfl⟩ : above = dir ∧ last = n ∧ e' = e := by simpa using hf
      exact Table.find?_of_mem hkey
  · intro h
    obtain ⟨key, hkey, hmem⟩ := Table.mem_entries_of_find? h
    rw [eq_of_beq hkey] at hmem
    exact List.mem_filterMap.2 ⟨_, hmem, by simp⟩

lemma standing_of_keys
    (hdir : ∀ loc ∈ t.entries.keys, ∀ k < loc.length, t.entry? (loc.take k) = some .directory)
    (hname : ∀ loc ∈ t.entries.keys, ∀ n ∈ loc, IsName n) : t.Standing := by
  intro loc hsome
  by_cases hnil : loc = []
  · rw [hnil]
    exact stands_root
  rw [Tree.entry?, if_neg hnil] at hsome
  obtain ⟨e, he⟩ := Option.isSome_iff_exists.1 hsome
  obtain ⟨key, hkey, hmem⟩ := Table.mem_entries_of_find? he
  have hloc : loc ∈ t.entries.keys := eq_of_beq hkey ▸ List.mem_map_of_mem hmem
  refine ⟨fun {above n rest} heq => ?_, hname loc hloc⟩
  have habove := hdir loc hloc above.length (by simp [heq])
  rwa [heq, List.take_left] at habove

/-- No directory has two entries of one name. -/
theorem nodup_children (t : Tree) (dir : Location) : ((t.children dir).map (·.1)).Nodup := by
  refine List.pairwise_map.2 (t.entries.distinct.filterMap _ ?_)
  rintro ⟨key, e⟩ ⟨key', e'⟩ hne ⟨n, d⟩ hc ⟨n', d'⟩ hc' heq
  rcases List.eq_nil_or_concat' key with rfl | ⟨above, last, rfl⟩
  · simp at hc
  rcases List.eq_nil_or_concat' key' with rfl | ⟨above', last', rfl⟩
  · simp at hc'
  obtain ⟨rfl, rfl, rfl⟩ : above = dir ∧ last = n ∧ e = d := by simpa using hc
  obtain ⟨rfl, rfl, rfl⟩ : above' = above ∧ last' = n' ∧ e' = d' := by simpa using hc'
  obtain rfl : last = last' := heq
  rw [beq_self_eq_true] at hne
  cases hne

section Absent

variable {p : Path}

/-- No entry of a tree has the name of an ignore file or of the top of a repository. -/
def Unruled (t : Tree) : Prop :=
  ∀ name ∈ [".ignore", ".git", ".jj"], ∀ loc, t.entry? (loc ++ [Bytes.ofString name]) = none

/-- A name that no entry has leads nowhere. -/
theorem exists_locate_eq_error (cwd : Location) (h : ∀ loc, t.entry? (loc ++ [n]) = none)
    (hn : IsName n) (hp : p.bytes ≠ []) :
    ∃ missing, t.locate cwd (p.join ⟨n⟩) = .error missing := by
  obtain ⟨left, hleft⟩ := t.exists_follow_append maxLinks (walkStart cwd p) (p.steps.map moveOf)
  rw [locate_join hp hn.not_isAbsolute, if_neg hn.ne_nil, moves_name hn, hleft]
  cases t.follow maxLinks (walkStart cwd p) (p.steps.map moveOf) with
  | error missing => exact ⟨missing, rfl⟩
  | ok loc =>
    show ∃ missing, t.follow left loc [.into n] = .error missing
    unfold follow advance
    cases t.entry? loc with
    | none => exact ⟨_, rfl⟩
    | some e =>
      cases e with
      | file => exact ⟨_, rfl⟩
      | link => exact ⟨_, rfl⟩
      | directory =>
        simp only [h loc]
        exact ⟨_, rfl⟩

variable {name : String}

lemma isName_of_ruling (h : name ∈ [".ignore", ".git", ".jj"]) :
    IsName (Bytes.ofString name) := by
  simp only [List.mem_cons, List.not_mem_nil, or_false] at h
  rcases h with rfl | rfl | rfl
  all_goals exact ⟨⟨by decide +kernel, by decide +kernel⟩, by decide +kernel⟩

lemma Unruled.exists_lookup_eq_error (h : t.Unruled) (name : String)
    (hname : name ∈ [".ignore", ".git", ".jj"]) (dir : Location) :
    ∃ missing, t.lookup [] (Ignore.below dir name) = .error missing := by
  have hslash : (Ignore.pathOf dir).bytes ≠ [] := List.cons_ne_nil _ _
  obtain ⟨missing, hmissing⟩ :=
    exists_locate_eq_error [] (h name hname) (isName_of_ruling hname) hslash
  exact ⟨missing, lookup_of_error hmissing⟩

end Absent

end Tree

namespace Scan

variable {t : Tree} {r : Ignore.Rules} {root dir loc l : Location} {depth : Nat} {n : Bytes}

section Reaches

/-- Neither a location below `root` nor a directory on the way to it is left out. -/
structure Admits (t : Tree) (r : Ignore.Rules) (root loc : Location) : Prop where
  below : root <+: loc
  ne_root : loc ≠ root
  kept : ∀ l, root <+: l → l ≠ root → l <+: loc → r.skips l (isPlainDirectory t l) = false

lemma length_lt_of_prefix (h : root <+: l) (hne : l ≠ root) : root.length < l.length := by
  rcases Nat.lt_or_eq_of_le h.length_le with hlt | heq
  · exact hlt
  · exact absurd (h.eq_of_length heq).symm hne

lemma mem_between_iff (h : root <+: loc) :
    l ∈ between root loc ↔ root <+: l ∧ l ≠ root ∧ l <+: loc := by
  simp only [between, List.mem_map, List.mem_range]
  constructor
  · rintro ⟨n, hn, rfl⟩
    have hlength : (loc.take (root.length + n + 1)).length = root.length + n + 1 := by
      rw [List.length_take]
      omega
    refine ⟨?_, ?_, List.take_prefix _ _⟩
    · exact List.prefix_of_prefix_length_le h (List.take_prefix _ _) (by omega)
    · intro heq
      rw [heq] at hlength
      omega
  · rintro ⟨hroot, hne, hl⟩
    have hlt := length_lt_of_prefix hroot hne
    have hle := hl.length_le
    refine ⟨l.length - root.length - 1, by omega, ?_⟩
    rw [show root.length + (l.length - root.length - 1) + 1 = l.length by omega]
    exact (List.prefix_iff_eq_take.1 hl).symm

/-- A depth limit only cuts off what is deeper. -/
theorem reaches_iff :
    reaches t r root depth loc = true ↔
      Admits t r root loc ∧ loc.length ≤ root.length + depth := by
  simp only [reaches, Bool.and_eq_true, decide_eq_true_eq, List.all_eq_true, Bool.not_eq_true',
    List.isPrefixOf_iff_prefix]
  constructor
  · rintro ⟨⟨⟨hroot, hlt⟩, hdepth⟩, hkept⟩
    refine ⟨⟨hroot, ?_, fun l hl hne hloc => ?_⟩, hdepth⟩
    · rintro rfl
      exact absurd hlt (Nat.lt_irrefl _)
    · exact hkept l ((mem_between_iff hroot).2 ⟨hl, hne, hloc⟩)
  · rintro ⟨⟨hroot, hne, hkept⟩, hdepth⟩
    refine ⟨⟨⟨hroot, length_lt_of_prefix hroot hne⟩, hdepth⟩, fun l hl => ?_⟩
    obtain ⟨hlroot, hlne, hlloc⟩ := (mem_between_iff hroot).1 hl
    exact hkept l hlroot hlne hlloc

/-- What is below a directory is admitted from the entry of the directory it is in, or is that
entry. -/
theorem admits_below_iff (h : dir ++ [n] <+: loc) :
    Admits t r dir loc ↔ r.skips (dir ++ [n]) (isPlainDirectory t (dir ++ [n])) = false ∧
      (loc = dir ++ [n] ∨ Admits t r (dir ++ [n]) loc) := by
  have hdir : dir <+: dir ++ [n] := List.prefix_append _ _
  have hne : dir ++ [n] ≠ dir := by simp
  constructor
  · intro hadmits
    refine ⟨hadmits.kept _ hdir hne h, ?_⟩
    by_cases heq : loc = dir ++ [n]
    · exact .inl heq
    · refine .inr ⟨h, heq, fun l hl hlne hloc => ?_⟩
      refine hadmits.kept l (hdir.trans hl) ?_ hloc
      rintro rfl
      exact absurd hl.length_le (by simp)
  · rintro ⟨hskips, hrest⟩
    refine ⟨hdir.trans h, ?_, fun l hl hlne hloc => ?_⟩
    · rintro rfl
      exact absurd h.length_le (by simp)
    · by_cases heq : l = dir ++ [n]
      · rw [heq]
        exact hskips
      · -- both are beginnings of the location, and `l` is the longer one
        have hbelow : dir ++ [n] <+: l := by
          refine List.prefix_of_prefix_length_le h hloc ?_
          have hlt := length_lt_of_prefix hl hlne
          rw [List.length_append, List.length_singleton]
          exact hlt
        rcases hrest with rfl | hrest
        · exact absurd (hloc.eq_of_length_le hbelow.length_le) heq
        · exact hrest.kept l hbelow heq hloc

end Reaches

section Descent

/-- A walk comes once to every entry below a directory that is not left out, down to a depth. -/
structure Yields (t : Tree) (r : Ignore.Rules) (root : Location) (depth : Nat)
    (walk : List Location) : Prop where
  nodup : walk.Nodup
  mem_iff : ∀ loc, loc ∈ walk ↔ (t.entry? loc).isSome = true ∧ Admits t r root loc ∧
    loc.length ≤ root.length + depth

/-- The walk that comes to each entry of a directory and then, if it is a directory, to what is
below it. -/
def descend (t : Tree) (r : Ignore.Rules) : Nat → Location → List Location
  | 0, _ => []
  | depth + 1, dir => (t.children dir).flatMap fun (name, e) =>
      let loc := dir ++ [name]
      if r.skips loc (e == .directory) then []
      else loc :: if e = .directory then descend t r depth loc else []

lemma mem_descend_succ_iff :
    loc ∈ descend t r (depth + 1) dir ↔ ∃ n e, t.entry? (dir ++ [n]) = some e ∧
      r.skips (dir ++ [n]) (isPlainDirectory t (dir ++ [n])) = false ∧
        (loc = dir ++ [n] ∨ e = .directory ∧ loc ∈ descend t r depth (dir ++ [n])) := by
  simp only [descend, List.mem_flatMap, Prod.exists, Tree.mem_children_iff]
  refine exists_congr fun n => exists_congr fun e => and_congr_right fun he => ?_
  have hplain : isPlainDirectory t (dir ++ [n]) = (e == .directory) := by
    rw [isPlainDirectory, he]
    rfl
  rw [hplain]
  split
  · next hskips => simp [hskips]
  · next hskips =>
    rw [Bool.not_eq_true] at hskips
    rw [List.mem_cons, and_iff_right hskips]
    split
    · next hdir => simp [hdir]
    · next hdir => simp [hdir]

lemma mem_descend_iff (ht : t.Standing) :
    loc ∈ descend t r depth dir ↔ (t.entry? loc).isSome = true ∧ Admits t r dir loc ∧
      loc.length ≤ dir.length + depth := by
  induction depth generalizing dir with
  | zero =>
    refine iff_of_false List.not_mem_nil ?_
    rintro ⟨-, hadmits, hdepth⟩
    have hlt := length_lt_of_prefix hadmits.below hadmits.ne_root
    omega
  | succ depth ih =>
    have hlength (n : Bytes) : (dir ++ [n]).length + depth = dir.length + (depth + 1) := by
      rw [List.length_append, List.length_singleton]
      omega
    simp only [mem_descend_succ_iff, ih, hlength]
    constructor
    · rintro ⟨n, e, he, hskips, rfl | ⟨-, hsome, hadmits, hdepth⟩⟩
      · exact ⟨by rw [he]; rfl, (admits_below_iff List.prefix_rfl).2 ⟨hskips, .inl rfl⟩,
          by rw [List.length_append, List.length_singleton]; omega⟩
      · exact ⟨hsome, (admits_below_iff hadmits.below).2 ⟨hskips, .inr hadmits⟩, hdepth⟩
    · rintro ⟨hsome, hadmits, hdepth⟩
      obtain ⟨rest, rfl⟩ := hadmits.below
      cases rest with
      | nil => exact absurd (List.append_nil dir) hadmits.ne_root
      | cons n rest =>
        have hprefix : dir ++ [n] <+: dir ++ n :: rest := ⟨rest, by simp⟩
        obtain ⟨hskips, hrest⟩ := (admits_below_iff hprefix).1 hadmits
        rcases hrest with heq | hrest
        · obtain ⟨e, he⟩ := Option.isSome_iff_exists.1 hsome
          rw [heq] at he
          exact ⟨n, e, he, hskips, .inl heq⟩
        · -- the entry is deeper, so that a directory stands on the way to it
          obtain ⟨more, hmore⟩ := hprefix
          cases more with
          | nil => exact absurd (by simpa using hmore.symm) hrest.ne_root
          | cons m more =>
            have hdir := (ht _ hsome).above hmore.symm
            exact ⟨n, .directory, hdir, hskips, .inr ⟨rfl, hsome, hrest, hdepth⟩⟩

/-- What a walk comes to from an entry of a directory is below that entry. -/
theorem below_of_mem_branch (ht : t.Standing) {c : Bytes × Entry}
    (h : loc ∈ (if r.skips (dir ++ [c.1]) (c.2 == .directory) then []
      else (dir ++ [c.1]) :: if c.2 = .directory then descend t r depth (dir ++ [c.1]) else [])) :
    dir ++ [c.1] <+: loc := by
  split at h
  · cases h
  · rcases List.mem_cons.1 h with rfl | h
    · exact List.prefix_rfl
    · split at h
      · exact ((mem_descend_iff ht).1 h).2.1.below
      · cases h

lemma nodup_descend (ht : t.Standing) : (descend t r depth dir).Nodup := by
  induction depth generalizing dir with
  | zero => exact List.nodup_nil
  | succ depth ih =>
    rw [descend, List.nodup_flatMap]
    refine ⟨fun c _ => ?_, ?_⟩
    · dsimp only
      split
      · exact List.nodup_nil
      · refine List.nodup_cons.2 ⟨fun hmem => ?_, ?_⟩
        · split at hmem
          · exact ((mem_descend_iff ht).1 hmem).2.1.ne_root rfl
          · cases hmem
        · split
          · exact ih
          · exact List.nodup_nil
    · refine (List.pairwise_map.1 (t.nodup_children dir)).imp fun {c c'} hne loc hloc hloc' => ?_
      have hprefix := List.prefix_of_prefix_length_le (below_of_mem_branch ht hloc)
        (below_of_mem_branch ht hloc') (by simp)
      have heq := hprefix.eq_of_length (by simp)
      exact hne (by simpa using heq)

/-- The walk from directory to directory is one that comes to every entry once. -/
theorem yields_descend (ht : t.Standing) (r : Ignore.Rules) (dir : Location) (depth : Nat) :
    Yields t r dir depth (descend t r depth dir) where
  nodup := nodup_descend ht
  mem_iff _ := mem_descend_iff ht

end Descent

section Unruled

variable {cwd : Location} {e : Environment}

/-- Without ignore files and repositories no rule says anything. -/
theorem verdict?_of_unruled (h : t.Unruled) (loc : Location) (isDirectory : Bool) :
    (Ignore.Rules.ofTree t cwd e).verdict? loc isDirectory = none := by
  have hshared (dir : Location) : (Ignore.Rules.ofTree t cwd e).shared dir = [] := by
    obtain ⟨missing, hmissing⟩ := h.exists_lookup_eq_error ".ignore" (by simp) dir
    show Ignore.rulesAt t (Ignore.below dir ".ignore") = []
    unfold Ignore.rulesAt Tree.read?
    rw [hmissing]
  have htop (dir : Location) : (Ignore.Rules.ofTree t cwd e).isTop dir = false := by
    obtain ⟨_, hgit⟩ := h.exists_lookup_eq_error ".git" (by simp) dir
    obtain ⟨_, hjj⟩ := h.exists_lookup_eq_error ".jj" (by simp) dir
    show Ignore.isRepository t dir = false
    unfold Ignore.isRepository Tree.pathExists
    rw [hgit, hjj]
    rfl
  have hnone : Ignore.firstVerdict? (Ignore.Rules.ofTree t cwd e).shared loc isDirectory
      (Ignore.upward loc.dropLast) = none := by
    refine List.findSome?_eq_none_iff.2 fun dir _ => ?_
    rw [hshared]
    rfl
  unfold Ignore.Rules.verdict?
  dsimp only
  rw [if_neg (by simp [htop]), hnone]

/-- Without ignore files and repositories only hidden entries are left out. -/
theorem skips_of_unruled (h : t.Unruled) (loc : Location) (isDirectory : Bool) :
    (Ignore.Rules.ofTree t cwd e).skips loc isDirectory =
      (loc.getLast?.map Ignore.isHidden).getD false := by
  rw [Ignore.Rules.skips, verdict?_of_unruled h]

lemma admits_iff_of_unruled (h : t.Unruled) :
    Admits t (.ofTree t cwd e) root loc ↔ root <+: loc ∧ loc ≠ root ∧
      ∀ n ∈ loc.drop root.length, Ignore.isHidden n = false := by
  constructor
  · intro hadmits
    refine ⟨hadmits.below, hadmits.ne_root, fun n hn => ?_⟩
    obtain ⟨rest, rfl⟩ := hadmits.below
    rw [List.drop_left] at hn
    obtain ⟨before, after, rfl⟩ := List.append_of_mem hn
    have hkept := hadmits.kept (root ++ before ++ [n]) ⟨before ++ [n], by simp⟩ (by simp)
      ⟨after, by simp⟩
    rw [skips_of_unruled h, List.getLast?_concat] at hkept
    exact hkept
  · rintro ⟨hroot, hne, hhidden⟩
    refine ⟨hroot, hne, fun l hl hlne hloc => ?_⟩
    rw [skips_of_unruled h]
    obtain ⟨rest, rfl⟩ := hl
    rcases List.eq_nil_or_concat' rest with rfl | ⟨before, n, rfl⟩
    · exact absurd (List.append_nil root) hlne
    · obtain ⟨more, rfl⟩ := hloc
      rw [← List.append_assoc, List.getLast?_concat]
      refine hhidden n ?_
      rw [List.append_assoc, List.drop_left]
      simp

end Unruled

section Extension

variable {p : Path}

/-- The path by which a walk along `p`, which leads to `dir`, comes to a location. -/
def entryPath (p : Path) (dir loc : Location) : Path :=
  (loc.drop dir.length).foldl (fun above n => above.join ⟨n⟩) p

lemma fileName?_entryPath (hp : p.bytes ≠ []) (hloc : t.Stands loc) (hdir : dir <+: loc)
    (hne : loc ≠ dir) : (entryPath p dir loc).fileName? = loc.getLast? := by
  obtain ⟨names, rfl⟩ := hdir
  rcases List.eq_nil_or_concat' names with rfl | ⟨before, n, rfl⟩
  · exact absurd (List.append_nil dir) hne
  have hnames : ∀ part ∈ before ++ [n], Tree.IsName part := fun part hpart =>
    hloc.isName part (List.mem_append_right _ hpart)
  have hsegments : (entryPath p dir (dir ++ (before ++ [n]))).segments =
      p.trunk ++ before ++ [n] := by
    rw [entryPath, List.drop_left, List.append_assoc]
    exact Path.segments_foldl_join (by simp) (fun part hpart => (hnames part hpart).toIsStep) hp
  have hn := hnames n (by simp)
  rw [Path.fileName?_of_segments hsegments hn.toIsStep hn.ne_up, ← List.append_assoc,
    List.getLast?_concat]

/-- The extension of an entry is found from its location. -/
theorem fileExtension_entryPath (hp : p.bytes ≠ []) (hloc : t.Stands loc) (hdir : dir <+: loc)
    (hne : loc ≠ dir) : fileExtension (entryPath p dir loc) = extensionOf loc := by
  rw [fileExtension, Path.extension?, fileName?_entryPath hp hloc hdir hne]
  rfl

end Extension

end Scan

end ServerFleet
