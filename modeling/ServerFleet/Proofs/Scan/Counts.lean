import ServerFleet.Proofs.CommandLine.Promise
import ServerFleet.Proofs.Scan.Tally
import ServerFleet.Proofs.Scan.Walk

/-!
The count of the files of a workspace. It is what is counted on any walk that comes once to each
entry, in whatever order. So a file counts once for its extension, greater depths only add files,
and the number that is shown for a server is that of the files it handles.
-/

namespace ServerFleet

namespace Tree

variable {t : Tree} {cwd dir : Location} {p : Path}

/-- The last move along a path to a directory does not end at a file. -/
theorem entry?_last_ne_file {links : Nat} {here : Location} {n : Bytes}
    (h : t.follow links here [.into n] = .ok dir) (hdir : t.entry? dir = some .directory) :
    ∃ e, t.entry? (here ++ [n]) = some e ∧ ∀ contents x, e ≠ .file contents x := by
  unfold follow advance at h
  cases hhere : t.entry? here with
  | none => simp [hhere] at h
  | some e =>
    cases e with
    | file => simp [hhere] at h
    | link => simp [hhere] at h
    | directory =>
      cases hn : t.entry? (here ++ [n]) with
      | none => simp [hhere, hn] at h
      | some e =>
        refine ⟨e, rfl, ?_⟩
        rintro contents x rfl
        simp only [hhere, hn, advance, Except.ok.injEq] at h
        rw [← h, hn] at hdir
        cases hdir

end Tree

namespace Scan

variable {t : Tree} {r : Ignore.Rules} {cwd root dir loc : Location} {e : Environment} {p : Path}
  {depth : Nat} {walk : List Location}

section Start

/-- The start of a scan is not taken for a file if it leads to a directory. -/
theorem exists_locateEntry? (hp : t.locate cwd p = .ok dir)
    (hdir : t.entry? dir = some .directory) :
    ∃ loc, locateEntry? t cwd p = some loc ∧
      ∀ contents x, t.entry? loc ≠ some (.file contents x) := by
  have hne : p.bytes ≠ [] := by
    intro hnil
    rw [Tree.locate, if_pos hnil] at hp
    cases hp
  have hplain : ∃ loc, (t.locate cwd p).toOption = some loc ∧
      ∀ contents x, t.entry? loc ≠ some (.file contents x) :=
    ⟨dir, by rw [hp]; rfl, by simp [hdir]⟩
  unfold locateEntry?
  dsimp only
  rw [if_neg hne]
  split
  · next n hlast =>
    obtain ⟨init, hinit⟩ := List.getLast?_eq_some_iff.1 hlast
    rw [Tree.locate, if_neg hne, hinit] at hp
    rw [hinit, List.dropLast_concat]
    obtain ⟨left, hleft⟩ :=
      t.exists_follow_append Tree.maxLinks (if p.isAbsolute then [] else cwd) init
    rw [hleft] at hp
    cases hbefore : t.follow Tree.maxLinks (if p.isAbsolute then [] else cwd) init with
    | error missing =>
      rw [hbefore] at hp
      cases hp
    | ok here =>
      rw [hbefore] at hp
      obtain ⟨entry, hentry, hfile⟩ := Tree.entry?_last_ne_file hp hdir
      refine ⟨here ++ [n], by simp [hentry], fun contents x h => ?_⟩
      rw [hentry] at h
      exact hfile contents x (Option.some.inj h)
  · exact hplain

lemma extensions_eq (hp : t.locate cwd p = .ok dir) (hdir : t.entry? dir = some .directory) :
    extensions t cwd e p depth =
      tally ((filesBelow t (.ofTree t cwd e) dir depth).filterMap extensionOf) := by
  obtain ⟨loc, hloc, hfile⟩ := exists_locateEntry? hp hdir
  have hplain : isPlainDirectory t dir = true := by
    rw [isPlainDirectory, hdir]
    rfl
  unfold extensions
  rw [hloc, hp]
  dsimp only
  split
  · next h => exact absurd h (hfile _ _)
  · exact if_pos hplain

end Start

section Files

/-- Whether a file stands at a location, links not followed. -/
def isPlainFile (t : Tree) (loc : Location) : Bool :=
  match t.entry? loc with
  | some (.file _ _) => true
  | _ => false

lemma entry?_of_mem {entry : Entry} (h : (loc, entry) ∈ t.entries.entries) (hne : loc ≠ []) :
    t.entry? loc = some entry := by
  rw [Tree.entry?, if_neg hne]
  exact Table.find?_of_mem h

lemma ne_nil_of_reaches (h : reaches t r root depth loc = true) : loc ≠ [] := by
  rintro rfl
  have hadmits := (reaches_iff.1 h).1
  exact hadmits.ne_root (List.prefix_nil.1 hadmits.below).symm

lemma filesBelow_eq (t : Tree) (r : Ignore.Rules) (root : Location) (depth : Nat) :
    filesBelow t r root depth =
      (t.entries.keys.filter (isPlainFile t)).filter (reaches t r root depth) := by
  rw [List.filter_filter, ← List.filterMap_eq_filter, Table.keys, List.filterMap_map, filesBelow]
  refine List.filterMap_congr ?_
  rintro ⟨loc, entry⟩ hmem
  simp only [Function.comp_apply, Option.guard, Bool.and_eq_true]
  by_cases hreaches : reaches t r root depth loc = true
  · have hentry := entry?_of_mem hmem (ne_nil_of_reaches hreaches)
    cases entry <;> simp [isPlainFile, hentry, hreaches]
  · cases entry <;> simp [hreaches]

lemma mem_filesBelow_iff :
    loc ∈ filesBelow t r root depth ↔ isPlainFile t loc = true ∧ Admits t r root loc ∧
      loc.length ≤ root.length + depth := by
  rw [filesBelow_eq, List.mem_filter, List.mem_filter, reaches_iff]
  refine ⟨fun h => ⟨h.1.2, h.2⟩, fun ⟨hfile, hadmits, hdepth⟩ => ⟨⟨?_, hfile⟩, hadmits, hdepth⟩⟩
  have hne := ne_nil_of_reaches (reaches_iff.2 ⟨hadmits, hdepth⟩)
  have hsome : (t.entries.find? loc).isSome = true := by
    unfold isPlainFile at hfile
    rw [Tree.entry?, if_neg hne] at hfile
    cases hfind : t.entries.find? loc with
    | none => simp [hfind] at hfile
    | some entry => rfl
  obtain ⟨entry, hentry⟩ := Option.isSome_iff_exists.1 hsome
  obtain ⟨key, hkey, hmem⟩ := Table.mem_entries_of_find? hentry
  rw [← eq_of_beq hkey]
  exact List.mem_map_of_mem hmem

lemma nodup_filesBelow : (filesBelow t r root depth).Nodup := by
  rw [filesBelow_eq]
  refine ((List.Pairwise.filter _ ?_).filter _)
  exact List.pairwise_map.2 (t.entries.distinct.imp fun {a b} hab heq => by simp [heq] at hab)

/-- Greater depths only add files. -/
theorem filesBelow_sublist (t : Tree) (r : Ignore.Rules) (root : Location) (depth more : Nat) :
    (filesBelow t r root depth).Sublist (filesBelow t r root (depth + more)) := by
  rw [filesBelow_eq, filesBelow_eq]
  refine List.monotone_filter_right _ fun loc h => ?_
  obtain ⟨hadmits, hdepth⟩ := reaches_iff.1 h
  exact reaches_iff.2 ⟨hadmits, by omega⟩

/-- The files of a walk are those below its start. -/
theorem Yields.files_perm (h : Yields t r root depth walk) :
    (walk.filter (isPlainFile t)).Perm (filesBelow t r root depth) := by
  refine (List.perm_ext_iff_of_nodup (h.nodup.filter _) nodup_filesBelow).2 fun loc => ?_
  rw [List.mem_filter, h.mem_iff, mem_filesBelow_iff]
  have hsome : isPlainFile t loc = true → (t.entry? loc).isSome = true := by
    unfold isPlainFile
    cases t.entry? loc <;> simp
  exact ⟨fun hl => ⟨hl.2, hl.1.2⟩, fun hl => ⟨⟨hsome hl.1, hl.2⟩, hl.1⟩⟩

end Files

section Count

/-- The extension of the file that a walk along `p` has come to. -/
def extensionAt? (t : Tree) (p : Path) (dir loc : Location) : Option String :=
  if isPlainFile t loc then fileExtension (entryPath p dir loc) else none

/-- Counts the files of a walk by extension, one entry after the other. -/
def countWalk (t : Tree) (p : Path) (dir : Location) (walk : List Location) :
    List (String × Nat) :=
  walk.foldl (fun counts loc =>
    match extensionAt? t p dir loc with
    | some e => increment e counts
    | none => counts) []

lemma countWalk_eq (t : Tree) (p : Path) (dir : Location) (walk : List Location) :
    countWalk t p dir walk = tally (walk.filterMap (extensionAt? t p dir)) := by
  rw [tally, List.foldl_filterMap, countWalk]
  congr 1
  funext counts loc
  cases extensionAt? t p dir loc <;> rfl

/-- A walk comes to the files that count, each with its extension. -/
theorem Yields.extensions_perm (h : Yields t r dir depth walk) (ht : t.Standing)
    (hp : p.bytes ≠ []) : (walk.filterMap (extensionAt? t p dir)).Perm
      ((filesBelow t r dir depth).filterMap extensionOf) := by
  have hwalk : walk.filterMap (extensionAt? t p dir) =
      (walk.filter (isPlainFile t)).filterMap extensionOf := by
    rw [← List.filterMap_eq_filter, List.filterMap_filterMap]
    refine List.filterMap_congr fun loc hloc => ?_
    obtain ⟨hsome, hadmits, -⟩ := (h.mem_iff loc).1 hloc
    unfold extensionAt?
    rw [fileExtension_entryPath hp (ht loc hsome) hadmits.below hadmits.ne_root]
    cases hfile : isPlainFile t loc <;> simp [Option.guard, hfile]
  rw [hwalk]
  exact h.files_perm.filterMap _

variable {f : Location → Option String}

lemma count_filterMap (ext : String) (walk : List Location) :
    (walk.filterMap f).count ext = (walk.filter (f · = some ext)).length := by
  rw [← List.countP_eq_length_filter, List.count, List.countP_filterMap]
  refine List.countP_congr fun loc _ => ?_
  cases f loc <;> simp

lemma length_filterMap (walk : List Location) :
    (walk.filterMap f).length = (walk.filter fun loc => (f loc).isSome).length := by
  rw [← List.countP_eq_length_filter, List.length_filterMap_eq_countP]

lemma countP_filterMap (exts : List String) (walk : List Location) :
    (walk.filterMap f).countP (· ∈ exts) =
      (walk.filter fun loc => (f loc).any exts.contains).length := by
  rw [← List.countP_eq_length_filter, List.countP_filterMap]
  refine List.countP_congr fun loc _ => ?_
  cases f loc <;> simp

end Count

end Scan

namespace CommandLine

variable {d : ServerDefinition} {s : ServerSketch} {counts : List (String × Nat)}

lemma fileCount_eq_sum (counts : List (String × Nat)) (d : ServerDefinition) :
    fileCount counts d = (d.extensions.map (Scan.countOf counts)).sum := by
  unfold fileCount
  induction d.extensions with
  | nil => rfl
  | cons e rest ih =>
    rw [List.map_cons, List.sum_cons, ← ih, Scan.countOf, List.filterMap_cons]
    cases counts.find? (·.1 = e) with
    | none => exact (Nat.zero_add _).symm
    | some c => rfl

lemma nodup_extensions (h : d.Realizes s) : d.extensions.Nodup := by
  rw [h.extensions]
  exact (pairwise_sortedTexts _).imp ne_of_compareText_lt

/-- A server is shown with the number of the files it handles. -/
theorem fileCount_tally (h : d.Realizes s) (es : List String) :
    fileCount (Scan.tally es) d = es.countP (· ∈ d.extensions) := by
  rw [fileCount_eq_sum, Scan.sum_countOf_tally (nodup_extensions h)]

/-- Of an enabled server whose program is there, the check shows the number of its files. -/
theorem finding_of_isInstalled {w : Workplace} {c : Config} (henabled : c.isEnabled d.id = true)
    (hinstalled : w.isInstalled d = true) :
    finding w c counts d =
      if fileCount counts d = 0 then .skipped else .installed (fileCount counts d) := by
  simp [finding, henabled, hinstalled]

end CommandLine

namespace Scan

open CommandLine

variable {t : Tree} {cwd dir : Location} {e : Environment} {p : Path} {depth : Nat}
  {walk : List Location}

lemma ne_nil_of_locate (h : t.locate cwd p = .ok dir) : p.bytes ≠ [] := by
  intro hnil
  rw [Tree.locate, if_pos hnil] at h
  cases h

/-- The count is a tally of the files of any walk. -/
theorem extensions_eq_tally (ht : t.Standing) (hp : t.locate cwd p = .ok dir)
    (hdir : t.entry? dir = some .directory) (hwalk : Yields t (.ofTree t cwd e) dir depth walk) :
    extensions t cwd e p depth = tally (walk.filterMap (extensionAt? t p dir)) := by
  rw [extensions_eq hp hdir]
  exact (tally_perm (hwalk.extensions_perm ht (ne_nil_of_locate hp))).symm

/-- A walk that goes deeper counts no fewer files of an extension. -/
theorem countOf_extensions_le (hp : t.locate cwd p = .ok dir)
    (hdir : t.entry? dir = some .directory) (ext : String) (depth more : Nat) :
    countOf (extensions t cwd e p depth) ext ≤
      countOf (extensions t cwd e p (depth + more)) ext := by
  rw [extensions_eq hp hdir, extensions_eq hp hdir, countOf_tally, countOf_tally]
  exact ((filesBelow_sublist t _ dir depth more).filterMap _).count_le ext

/-- Without ignore files and repositories a walk comes to the files with no hidden name on the
way. -/
theorem Yields.file_mem_iff (h : Yields t (.ofTree t cwd e) dir depth walk) (ht : t.Unruled)
    (loc : Location) :
    loc ∈ walk ∧ isPlainFile t loc = true ↔
      isPlainFile t loc = true ∧ dir <+: loc ∧ loc ≠ dir ∧ loc.length ≤ dir.length + depth ∧
        ∀ n ∈ loc.drop dir.length, Ignore.isHidden n = false := by
  have hmem := (h.files_perm.mem_iff (a := loc)).trans mem_filesBelow_iff
  rw [List.mem_filter, admits_iff_of_unruled ht] at hmem
  rw [hmem]
  tauto

/-- Whatever walk comes once to each entry below a directory, down to a depth, the scan counts its
files: the count of an extension is the number of files with it, extensions without files do not
stand there, the counts add up to the number of files that have an extension, the order of the walk
does not show, and greater depths count no fewer files. Without ignore files and repositories the
files are those with no hidden name on the way. So a server is shown with the number of the files
it handles. -/
theorem extensions_count_files (ht : t.Standing) (hp : t.locate cwd p = .ok dir)
    (hdir : t.entry? dir = some .directory)
    (hwalk : Yields t (.ofTree t cwd e) dir depth walk) :
    countWalk t p dir walk = extensions t cwd e p depth ∧
      ((extensions t cwd e p depth).map (·.1)).Nodup ∧
      (∀ ext n, (ext, n) ∈ extensions t cwd e p depth ↔
        0 < n ∧ n = (walk.filter (extensionAt? t p dir · = some ext)).length) ∧
      ((extensions t cwd e p depth).map (·.2)).sum =
        (walk.filter fun loc => (extensionAt? t p dir loc).isSome).length ∧
      (∀ ext more, countOf (extensions t cwd e p depth) ext ≤
        countOf (extensions t cwd e p (depth + more)) ext) ∧
      (t.Unruled → ∀ loc, loc ∈ walk ∧ isPlainFile t loc = true ↔
        isPlainFile t loc = true ∧ dir <+: loc ∧ loc ≠ dir ∧ loc.length ≤ dir.length + depth ∧
          ∀ n ∈ loc.drop dir.length, Ignore.isHidden n = false) ∧
      ∀ (c : Config) (r : Registry) (i : Nat) (d : ServerDefinition) (s : ServerSketch)
        (columns : Nat) (interactive : Bool) (config : Option Path) (colorless : Bool),
        p = .ofLocation cwd → depth = scanDepth → r.servers[i]? = some d → d.Realizes s →
          c.isEnabled d.id = true →
          Workplace.isInstalled ⟨t, cwd, e, columns, interactive⟩ d = true →
            let files := walk.filter fun loc => (extensionAt? t p dir loc).any d.handles
            (doctorLines ⟨t, cwd, e, columns, interactive⟩ c r config colorless)[5 + i]? =
              some (Finding.line (!colorless && interactive) (Text.padRight d.id (longestId r))
                (if files.length = 0 then .skipped else .installed files.length)) := by
  have htally := extensions_eq_tally ht hp hdir hwalk
  refine ⟨?_, ?_, ?_, ?_, fun ext more => countOf_extensions_le hp hdir ext depth more,
    fun hunruled => hwalk.file_mem_iff hunruled, ?_⟩
  · rw [countWalk_eq, htally]
  · rw [htally]
    exact (ascending_tally _).nodup
  · intro ext n
    rw [htally, mem_tally, count_filterMap]
  · rw [htally, sum_tally, length_filterMap]
  · rintro c r i d s columns interactive config colorless rfl rfl hd hs henabled hinstalled
    rw [getElem?_doctorLines hd, finding_of_isInstalled henabled hinstalled, Workplace.fileCounts,
      htally, fileCount_tally hs, countP_filterMap]
    rfl

section Sample

/-- The tree with the files `/a.x`, `/.b.x` and `/d/c.x` and the link `/l.x`. -/
def mixedTree : Tree :=
  ⟨.ofList [([.ofString "a.x"], .file [] false), ([.ofString ".b.x"], .file [] false),
    ([.ofString "d"], .directory), ([.ofString "d", .ofString "c.x"], .file [] false),
    ([.ofString "l.x"], .link (.ofString "a.x"))]⟩

lemma standing_mixedTree : mixedTree.Standing := by
  refine Tree.standing_of_keys (by decide +kernel) fun loc hloc n hn => ?_
  have hnames : ∀ loc ∈ mixedTree.entries.keys, ∀ n ∈ loc,
      Path.insignificant n = false ∧ Bytes.slash ∉ n ∧ n ≠ [Bytes.dot, Bytes.dot] := by
    decide +kernel
  obtain ⟨hsignificant, hslash, hup⟩ := hnames loc hloc n hn
  exact ⟨⟨hsignificant, hslash⟩, hup⟩

def hostedServer : ServerDefinition :=
  ⟨"x", "x", [".x"], [], [], false, none, .empty, .empty, .hosted⟩

lemma realizes_hostedServer :
    hostedServer.Realizes ⟨"x", "x", [".x"], [], [], false, none, .hosted⟩ := by
  refine ⟨rfl, rfl, ?_, rfl, rfl, rfl, rfl, rfl, rfl, rfl⟩
  decide +kernel

/-- Two files of the tree count: neither the hidden one nor the link does. -/
theorem extensions_count_files_sample :
    extensions mixedTree [] [] (.ofLocation []) scanDepth = [(".x", 2)] ∧
      (doctorLines ⟨mixedTree, [], [], defaultColumns, false⟩ Config.default ⟨[hostedServer]⟩ none
        true)[5]? = some "x  ✓ installed (2 files)" := by
  have hwalk := yields_descend standing_mixedTree (.ofTree mixedTree [] []) [] scanDepth
  have hroot : mixedTree.locate [] (.ofLocation []) = .ok [] := by decide +kernel
  obtain ⟨hcount, -, -, -, -, -, hdoctor⟩ :=
    extensions_count_files standing_mixedTree hroot rfl hwalk
  have hfiles : ((descend mixedTree (.ofTree mixedTree [] []) scanDepth []).filter fun loc =>
      (extensionAt? mixedTree (.ofLocation []) [] loc).any hostedServer.handles).length = 2 := by
    decide +kernel
  refine ⟨hcount.symm.trans (by decide +kernel), ?_⟩
  have hline := hdoctor Config.default ⟨[hostedServer]⟩ 0 hostedServer _ defaultColumns false none
    true rfl rfl rfl realizes_hostedServer (by decide +kernel) rfl
  dsimp only at hline
  rw [hfiles] at hline
  exact hline.trans (by decide +kernel)

end Sample

end Scan

end ServerFleet
