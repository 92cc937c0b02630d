import ServerFleet.Diagnostics.Aggregate
import ServerFleet.Proofs.Table

/-!
What is collected from any reports of servers. The lists for a path are joined in the order of the
reports, whatever the order of the files in a report, and a diagnostic without a source is
attributed to the first server that passes it on. Nothing is dropped, so what the reports hold can
be counted in what is collected.
-/

namespace ServerFleet

namespace Diagnostic

/-- A tag is put where there is no source, and nowhere else. -/
theorem tag_eq (server : String) (d : Diagnostic) :
    d.tag server = if d.source = none then { d with source := some server } else d := by
  obtain ⟨severity, source, rest⟩ := d
  cases source <;> rfl

/-- The first tag stays. -/
@[simp] theorem tag_tag (server other : String) (d : Diagnostic) :
    (d.tag server).tag other = d.tag server := rfl

@[simp] lemma isError_tag (server : String) (d : Diagnostic) :
    (d.tag server).isError = d.isError := rfl

end Diagnostic

namespace Aggregate

section Extend

variable {a : Aggregate} {server : String} {l l' : List (Path × List Diagnostic)}

/-- Appends what a server reports for some files, one after another. -/
def extendAll (a : Aggregate) (server : String) (l : List (Path × List Diagnostic)) : Aggregate :=
  l.foldl (fun a e => a.extendFile server e.1 e.2) a

lemma findEntry?_extendFile (a : Aggregate) (server : String) (file : Path)
    (ds : List Diagnostic) (p : Path) :
    Table.findEntry? (a.extendFile server file ds).files p =
      if file == p then
        some (((a.files.findEntry? p).map (·.1)).getD file,
          (a.files.find? p).getD [] ++ ds.map (·.tag server))
      else a.files.findEntry? p := by
  unfold extendFile Table.alter
  rw [Table.findEntry?_insert]
  cases h : file == p with
  | true => simp [Table.find?_congr a.files h]
  | false => rfl

lemma find?_extendFile (a : Aggregate) (server : String) (file : Path) (ds : List Diagnostic) :
    (a.extendFile server file ds).files.find? file =
      some ((a.files.find? file).getD [] ++ ds.map (·.tag server)) := by
  rw [Table.find?, findEntry?_extendFile, if_pos BEq.rfl]
  rfl

/-- A report with at most one list for each path adds its list for a path at the end. -/
theorem findEntry?_extendAll (h : l.Pairwise fun x y => (x.1 == y.1) = false) (p : Path) :
    Table.findEntry? (a.extendAll server l).files p =
      match l.find? (·.1 == p) with
      | some e => some (((a.files.findEntry? p).map (·.1)).getD e.1,
          (a.files.find? p).getD [] ++ e.2.map (·.tag server))
      | none => a.files.findEntry? p := by
  induction h generalizing a with
  | nil => rfl
  | @cons e rest hall _ ih =>
    have hstep : a.extendAll server (e :: rest) =
      (a.extendFile server e.1 e.2).extendAll server rest := rfl
    have hentry := findEntry?_extendFile a server e.1 e.2 p
    rw [hstep, ih]
    cases hk : e.1 == p with
    | true =>
      -- no later list is for this path
      have hrest : rest.find? (·.1 == p) = none := by
        refine List.find?_eq_none.2 fun x hx hxp => ?_
        have hne := hall x hx
        rw [BEq.congr_left hk, BEq.comm, hxp] at hne
        cases hne
      have hfirst : (e :: rest).find? (·.1 == p) = some e := by simp [hk]
      rw [hrest, hfirst, hentry, if_pos hk]
    | false =>
      have hlater : (e :: rest).find? (·.1 == p) = rest.find? (·.1 == p) := by simp [hk]
      rw [hk, if_neg Bool.false_ne_true] at hentry
      rw [hlater, Table.find?, hentry]
      rfl

/-- The order in which the files of a report come does not matter. -/
theorem perm_extendAll (h : l.Pairwise fun x y => (x.1 == y.1) = false) (hp : l.Perm l') :
    (a.extendAll server l').files.entries.Perm (a.extendAll server l).files.entries := by
  have h' : l'.Pairwise fun x y => (x.1 == y.1) = false :=
    hp.pairwise h fun hxy => by rwa [BEq.comm]
  refine Table.perm_of_findEntry?_eq fun p => ?_
  have hfind : l.find? (·.1 == p) = l'.find? (·.1 == p) := by
    have htables : Table.findEntry? ⟨l, h⟩ p = Table.findEntry? ⟨l', h'⟩ p :=
      Table.findEntry?_eq_of_perm hp p
    exact htables
  rw [findEntry?_extendAll h, findEntry?_extendAll h', hfind]

/-- What is found after a report. -/
theorem find?_extendAll (h : l.Pairwise fun x y => (x.1 == y.1) = false) (p : Path) :
    (a.extendAll server l).files.find? p =
      match (l.find? (·.1 == p)).map (·.2) with
      | some ds => some ((a.files.find? p).getD [] ++ ds.map (·.tag server))
      | none => a.files.find? p := by
  have hentry : Table.findEntry? (a.extendAll server l).files p = _ := findEntry?_extendAll h p
  rw [Table.find?, hentry]
  cases l.find? (·.1 == p) <;> rfl

variable {q : Diagnostic → Bool}

lemma size_eq (a : Aggregate) : a.size = a.all.length := by
  unfold size all
  induction a.files.values with
  | nil => rfl
  | cons ds rest ih => rw [List.foldr_cons, ih, List.flatten_cons, List.length_append]

lemma countP_all (a : Aggregate) (q : Diagnostic → Bool) :
    a.all.countP q = a.files.total fun _ ds => ds.countP q := by
  rw [all, List.countP_flatten, Table.total, Table.values, List.map_map]
  rfl

/-- What is appended is counted in addition, if tags do not matter. -/
theorem countP_all_extendFile (hq : ∀ d : Diagnostic, q (d.tag server) = q d) (a : Aggregate)
    (file : Path) (ds : List Diagnostic) :
    (a.extendFile server file ds).all.countP q = a.all.countP q + ds.countP q := by
  have htags : (ds.map (·.tag server)).countP q = ds.countP q := by
    rw [List.countP_map]
    exact List.countP_congr fun d _ => by simp [hq]
  have hinsert := Table.total_insert (w := fun (_ : Path) (ds : List Diagnostic) => ds.countP q)
    (fun _ _ => rfl) a.files file ((a.files.find? file).getD [] ++ ds.map (·.tag server))
  rw [List.countP_append, htags] at hinsert
  rw [countP_all, countP_all, extendFile, Table.alter]
  cases hold : a.files.find? file with
  | none =>
    rw [hold] at hinsert
    simpa using hinsert
  | some old =>
    rw [hold] at hinsert
    simp only [Option.elim_some, Option.getD_some] at hinsert ⊢
    omega

lemma countP_all_extendAll (hq : ∀ d : Diagnostic, q (d.tag server) = q d) (a : Aggregate)
    (l : List (Path × List Diagnostic)) :
    (a.extendAll server l).all.countP q = a.all.countP q + (l.map (·.2)).flatten.countP q := by
  induction l generalizing a with
  | nil => rfl
  | cons e rest ih =>
    have hstep : a.extendAll server (e :: rest) =
      (a.extendFile server e.1 e.2).extendAll server rest := rfl
    rw [hstep, ih, countP_all_extendFile hq, List.map_cons, List.flatten_cons, List.countP_append]
    omega

end Extend

/-- A call that adds diagnostics of a server. -/
inductive Report where
  /-- All files of a server. -/
  | table (server : String) (found : DiagnosticTable)
  /-- One file of a server. -/
  | file (server : String) (path : Path) (found : List Diagnostic)

namespace Report

def server : Report → String
  | table server _ => server
  | file server _ _ => server

/-- The lists that are passed in, with their paths. -/
def entries : Report → List (Path × List Diagnostic)
  | table _ found => found.entries
  | file _ path found => [(path, found)]

def found? (x : Report) (p : Path) : Option (List Diagnostic) :=
  (x.entries.find? (·.1 == p)).map (·.2)

def passed (x : Report) : List Diagnostic := (x.entries.map (·.2)).flatten

lemma passed_eq_nil_iff {x : Report} : x.passed = [] ↔ ∀ e ∈ x.entries, e.2 = [] := by
  rw [passed, List.flatten_eq_nil_iff, List.forall_mem_map]

lemma distinct (x : Report) : x.entries.Pairwise fun a b => (a.1 == b.1) = false := by
  cases x with
  | table server found => exact found.distinct
  | file server path found => exact List.pairwise_singleton _ _

end Report

def take (a : Aggregate) : Report → Aggregate
  | .table server found => a.extend server found
  | .file server path found => a.extendFile server path found

def takeAll (a : Aggregate) (reports : List Report) : Aggregate := reports.foldl take a

/-- What the calls give for a path, attributed to their servers. -/
def joined (reports : List Report) (p : Path) : List Diagnostic :=
  reports.flatMap fun x => ((x.found? p).getD []).map (·.tag x.server)

lemma take_eq (a : Aggregate) (x : Report) : a.take x = a.extendAll x.server x.entries := by
  cases x <;> rfl

lemma find?_take (a : Aggregate) (x : Report) (p : Path) : (a.take x).files.find? p =
    match x.found? p with
    | some ds => some ((a.files.find? p).getD [] ++ ds.map (·.tag x.server))
    | none => a.files.find? p := by
  rw [take_eq, find?_extendAll x.distinct]
  rfl

/-- A path has a list as soon as one call gives it one, and its list joins all of them. -/
theorem find?_takeAll (a : Aggregate) (reports : List Report) (p : Path) :
    (a.takeAll reports).files.find? p =
      if (a.files.find? p).isSome || reports.any fun x => (x.found? p).isSome then
        some ((a.files.find? p).getD [] ++ joined reports p)
      else none := by
  induction reports generalizing a with
  | nil => cases h : a.files.find? p <;> simp [takeAll, joined, h]
  | cons x reports ih =>
    have hstep : a.takeAll (x :: reports) = (a.take x).takeAll reports := rfl
    have htake := find?_take a x p
    have hjoined : joined (x :: reports) p =
      ((x.found? p).getD []).map (·.tag x.server) ++ joined reports p := rfl
    rw [hstep, ih, htake, hjoined, List.any_cons]
    cases x.found? p with
    | some ds => simp
    | none => simp

lemma countP_takeAll {q : Diagnostic → Bool}
    (hq : ∀ (server : String) (d : Diagnostic), q (d.tag server) = q d) (a : Aggregate)
    (reports : List Report) : (a.takeAll reports).all.countP q =
      a.all.countP q + (reports.flatMap (·.passed)).countP q := by
  induction reports generalizing a with
  | nil => rfl
  | cons x reports ih =>
    have hstep : a.takeAll (x :: reports) = (a.take x).takeAll reports := rfl
    rw [hstep, ih, take_eq, countP_all_extendAll (hq x.server), List.flatMap_cons,
      List.countP_append, Report.passed]
    omega

/-- What is collected from nothing but a sequence of calls. -/
def gather (reports : List Report) : Aggregate := empty.takeAll reports

lemma find?_gather (reports : List Report) (p : Path) : (gather reports).files.find? p =
    if reports.any fun x => (x.found? p).isSome then some (joined reports p) else none := by
  have h := find?_takeAll empty reports p
  rw [show empty.files.find? p = none from rfl] at h
  rw [gather, h]
  rfl

lemma countP_gather {q : Diagnostic → Bool}
    (hq : ∀ (server : String) (d : Diagnostic), q (d.tag server) = q d) (reports : List Report) :
    (gather reports).all.countP q = (reports.flatMap (·.passed)).countP q := by
  rw [gather, countP_takeAll hq]
  exact Nat.zero_add _

lemma size_gather (reports : List Report) :
    (gather reports).size = (reports.flatMap (·.passed)).length := by
  have h := countP_gather (q := fun _ => true) (fun _ _ => rfl) reports
  rw [size_eq]
  simpa only [List.countP_true] using h

/-- What the table and the counters say of the calls they come from. -/
structure Collects (reports : List Report) (a : Aggregate) : Prop where
  /-- A path has a list if a call gives it one. The list joins those of the calls in their order,
  attributed to their servers. -/
  find? : ∀ p, a.files.find? p =
    if reports.any fun x => (x.found? p).isSome then some (joined reports p) else none
  file : ∀ p, a.file p = (a.files.find? p).getD []
  /-- A report about many files may as well be made file by file, in any order. -/
  extend : ∀ (server : String) (found : DiagnosticTable) (l : List (Path × List Diagnostic)),
    l.Perm found.entries →
      (l.foldl (fun a e => a.extendFile server e.1 e.2) a).files.entries.Perm
        (a.extend server found).files.entries
  size : a.size = (reports.flatMap (·.passed)).length
  errorCount : a.errorCount = (reports.flatMap (·.passed)).countP (·.isError)
  isEmpty : a.isEmpty = true ↔ ∀ x ∈ reports, ∀ e ∈ x.entries, e.2 = []

/-- Whatever servers report is collected file by file in the order of the calls, with nothing left
out, and each diagnostic keeps its source or the first server that it comes from. -/
theorem gather_collects (reports : List Report) : Collects reports (gather reports) ∧
    ∀ (server other : String) (ds : List Diagnostic),
      ds.map (·.tag server) =
        (ds.map fun d => if d.source = none then { d with source := some server } else d) ∧
      (ds.map (·.tag server)).map (·.tag other) = ds.map (·.tag server) := by
  have hempty : (gather reports).isEmpty = true ↔ ∀ x ∈ reports, ∀ e ∈ x.entries, e.2 = [] := by
    rw [isEmpty, size_gather, beq_iff_eq, List.length_eq_zero_iff, List.flatMap_eq_nil_iff]
    simp only [Report.passed_eq_nil_iff]
  refine ⟨{
    find? := find?_gather reports
    file := fun _ => rfl
    extend := fun server found l hl => perm_extendAll found.distinct hl.symm
    size := size_gather reports
    errorCount := countP_gather Diagnostic.isError_tag reports
    isEmpty := hempty
  }, fun server other ds => ⟨?_, ?_⟩⟩
  · exact List.map_congr_left fun d _ => Diagnostic.tag_eq server d
  · rw [List.map_map]
    exact List.map_congr_left fun d _ => Diagnostic.tag_tag server other d

def sampleDiagnostics : List Diagnostic := [⟨some 1, none, []⟩, ⟨some 2, some "eslint", []⟩]

/-- The report of a server about two files, of which the second one has nothing. -/
def sampleFound : DiagnosticTable where
  entries := [(.ofString "/proj/x.ts", sampleDiagnostics), (.ofString "/proj/y.ts", [])]
  distinct := List.pairwise_pair.2 (by decide +kernel)

/-- Two servers report about one file under two spellings. -/
def sampleReports : List Report :=
  [.table "typescript" sampleFound, .file "deno" (.ofString "/proj/./x.ts") sampleDiagnostics]

theorem gather_collects_sample :
    (gather sampleReports).size = 4 ∧ (gather sampleReports).errorCount = 2 ∧
    (gather sampleReports).files.find? (.ofString "/proj/x.ts") =
      some [⟨some 1, some "typescript", []⟩, ⟨some 2, some "eslint", []⟩,
        ⟨some 1, some "deno", []⟩, ⟨some 2, some "eslint", []⟩] ∧
    ([(.ofString "/proj/y.ts", []), (.ofString "/proj/x.ts", sampleDiagnostics)].foldl
      (fun a e => a.extendFile "deno" e.1 e.2) (gather sampleReports)).files.entries.Perm
      ((gather sampleReports).extend "deno" sampleFound).files.entries := by
  obtain ⟨h, -⟩ := gather_collects sampleReports
  refine ⟨h.size.trans (by decide +kernel), h.errorCount.trans (by decide +kernel), ?_, ?_⟩
  · rw [h.find?, if_pos (by decide +kernel)]
    with_unfolding_all rfl
  · exact h.extend "deno" sampleFound _ (.swap _ _ [])

end Aggregate

end ServerFleet
