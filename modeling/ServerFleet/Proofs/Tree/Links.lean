import ServerFleet.Proofs.Path.Ancestry
import ServerFleet.Proofs.Table
import ServerFleet.Proofs.Tree.Walk

/-!
Walks through a tree that may hold symbolic links. A walk goes on from where its beginning leads,
with the links that are left to it, and to stay in place on the way changes nothing. So what is
found in a directory does not depend on how the path of the directory is spelled.
-/

namespace ServerFleet.Tree

open ServerFleet.Path

variable {t : Tree} {here loc cwd : Location} {links : Nat} {m : Move} {ms ms' : List Move}
  {p q : Path}

/-- How a walk goes on after a halt. -/
def Halt.goOn (t : Tree) (ms : List Move) : Halt → Except Missing Halt
  | .arrived loc => t.advance loc ms
  | .atLink directory target left => .ok (.atLink directory target (left ++ ms))

lemma advance_append (ms ms' : List Move) :
    t.advance here (ms ++ ms') = (t.advance here ms).bind (Halt.goOn t ms') := by
  induction ms generalizing here with
  | nil => rfl
  | cons m ms ih =>
    rw [List.cons_append]
    simp only [advance]
    cases he : t.entry? here with
    | none => rfl
    | some e =>
      cases e with
      | file | link => rfl
      | directory =>
        cases m with
        | stay | up => exact ih
        | into n =>
          cases hn : t.entry? (here ++ [n]) with
          | none => simp only [hn]; rfl
          | some e =>
            cases e with
            | link => simp only [hn]; rfl
            | file | directory => simp only [hn]; exact ih

/-- A walk goes on from where its beginning leads, with the links that are left. -/
theorem exists_follow_append (t : Tree) (links : Nat) (here : Location) (ms : List Move) :
    ∃ left, ∀ ms', t.follow links here (ms ++ ms') =
      (t.follow links here ms).bind fun loc => t.follow left loc ms' := by
  induction links generalizing here ms with
  | zero =>
    refine ⟨0, fun ms' => ?_⟩
    rw [follow, follow, advance_append]
    cases t.advance here ms with
    | error e => rfl
    | ok halt =>
      cases halt with
      | arrived loc =>
        simp only [Except.bind, Halt.goOn]
        rw [follow]
      | atLink => rfl
  | succ links ih =>
    rw [follow]
    cases ha : t.advance here ms with
    | error e =>
      refine ⟨0, fun ms' => ?_⟩
      rw [follow, advance_append, ha]
      rfl
    | ok halt =>
      cases halt with
      | arrived there =>
        refine ⟨links + 1, fun ms' => ?_⟩
        rw [follow, advance_append, ha]
        simp only [Except.bind, Halt.goOn]
        rw [follow]
      | atLink directory target left =>
        obtain ⟨links', hlinks⟩ := ih (if target.isAbsolute then [] else directory)
          (moves target ++ left)
        refine ⟨links', fun ms' => ?_⟩
        rw [follow, advance_append, ha]
        simp only [Except.bind, Halt.goOn, ← List.append_assoc]
        exact hlinks ms'

section Stays

/-- The moves without those that stay in place, unless one of them is the last. -/
def settled (ms : List Move) : List Move :=
  ms.filter (· ≠ .stay) ++ if ms.getLast? = some .stay then [.stay] else []

lemma settled_cons_of_ne (h : m ≠ .stay) : settled (m :: ms) = m :: settled ms := by
  unfold settled
  rw [List.filter_cons_of_pos (by simpa using h), List.getLast?_cons, List.cons_append]
  cases ms.getLast? <;> simp [h]

lemma settled_stay_cons (h : ms ≠ []) : settled (.stay :: ms) = settled ms := by
  obtain ⟨m, rest, rfl⟩ := List.exists_cons_of_ne_nil h
  unfold settled
  rw [List.getLast?_cons_cons]
  rfl

lemma filter_settled (ms : List Move) :
    (settled ms).filter (· ≠ .stay) = ms.filter (· ≠ .stay) := by
  unfold settled
  split <;> simp

lemma getLast?_settled (ms : List Move) : (settled ms).getLast? = ms.getLast? := by
  unfold settled
  split
  · next hlast => rw [List.getLast?_concat, hlast]
  · next hlast =>
    rcases List.eq_nil_or_concat' ms with rfl | ⟨before, m, rfl⟩
    · rfl
    · rw [List.getLast?_concat] at hlast ⊢
      have hm : m ≠ .stay := fun h => hlast (congrArg some h)
      simp [hm]

lemma settled_append_settled (ms ms' : List Move) :
    settled (ms ++ settled ms') = settled (ms ++ ms') := by
  have hfilter : (ms ++ settled ms').filter (· ≠ .stay) = (ms ++ ms').filter (· ≠ .stay) := by
    rw [List.filter_append, filter_settled, List.filter_append]
  have hlast : (ms ++ settled ms').getLast? = (ms ++ ms').getLast? := by
    rw [List.getLast?_append, getLast?_settled, List.getLast?_append]
  rw [settled, hfilter, hlast, settled]

lemma settled_append_congr {more : List Move}
    (h : ms.filter (· ≠ .stay) = ms'.filter (· ≠ .stay)) (hmore : more ≠ []) :
    settled (ms ++ more) = settled (ms' ++ more) := by
  obtain ⟨before, m, rfl⟩ := (List.eq_nil_or_concat' more).resolve_left hmore
  unfold settled
  rw [List.filter_append, h, ← List.filter_append, ← List.append_assoc, ← List.append_assoc,
    List.getLast?_concat, List.getLast?_concat]

lemma advance_settled (ms : List Move) :
    t.advance here (settled ms) = (t.advance here ms).map fun
      | .arrived loc => .arrived loc
      | .atLink directory target left => .atLink directory target (settled left) := by
  induction ms generalizing here with
  | nil => rfl
  | cons m ms ih =>
    by_cases hm : m = .stay
    · subst hm
      by_cases hms : ms = []
      · subst hms
        rw [show settled [.stay] = [Move.stay] from rfl]
        simp only [advance]
        cases t.entry? here with
        | none => rfl
        | some e => cases e <;> rfl
      · rw [settled_stay_cons hms, ih]
        obtain ⟨m, rest, rfl⟩ := List.exists_cons_of_ne_nil hms
        simp only [advance]
        cases t.entry? here with
        | none => rfl
        | some e => cases e <;> rfl
    · rw [settled_cons_of_ne hm]
      simp only [advance]
      cases he : t.entry? here with
      | none => rfl
      | some e =>
        cases e with
        | file | link => rfl
        | directory =>
          cases m with
          | stay => exact absurd rfl hm
          | up => exact ih
          | into n =>
            cases hn : t.entry? (here ++ [n]) with
            | none => simp only [hn]; rfl
            | some e =>
              cases e with
              | link => simp only [hn]; rfl
              | file | directory => simp only [hn]; exact ih

/-- To stay in place before the last move does not change where a walk leads. -/
theorem follow_settled (ms : List Move) :
    t.follow links here (settled ms) = t.follow links here ms := by
  induction links generalizing here ms with
  | zero =>
    rw [follow, follow, advance_settled]
    cases t.advance here ms with
    | error e => rfl
    | ok halt => cases halt <;> rfl
  | succ links ih =>
    rw [follow, follow, advance_settled]
    cases t.advance here ms with
    | error e => rfl
    | ok halt =>
      cases halt with
      | arrived => rfl
      | atLink directory target left =>
        simp only [Except.map]
        rw [← ih, settled_append_settled, ih]

lemma follow_congr (h : settled ms = settled ms') :
    t.follow links here ms = t.follow links here ms' := by
  rw [← follow_settled ms, h, follow_settled]

end Stays

section Below

lemma follow_stay : t.follow links loc [.stay] =
    match t.entry? loc with
    | none => .error .noEntry
    | some .directory => .ok loc
    | some _ => .error .notDirectory := by
  unfold follow advance
  cases t.entry? loc with
  | none => rfl
  | some e => cases e <;> rfl

lemma filter_steps (p : Path) :
    (p.steps.map moveOf).filter (· ≠ .stay) = p.steps.map moveOf := by
  refine List.filter_eq_self.2 fun m hm => ?_
  obtain ⟨part, hpart, rfl⟩ := List.mem_map.1 hm
  simpa using moveOf_ne_stay (isStep_of_mem_steps hpart)

lemma settled_moves_append (p : Path) (hms : ms ≠ []) :
    settled (moves p ++ ms) = settled (p.steps.map moveOf ++ ms) :=
  settled_append_congr (by rw [filter_moves, filter_steps]) hms

lemma settled_parts_append (p : Path) (hms : ms ≠ []) :
    settled ((p.segments.filter (· ≠ [])).map moveOf ++ ms) =
      settled (p.steps.map moveOf ++ ms) :=
  settled_append_congr (by rw [filter_map_moveOf, filter_steps]; rfl) hms

lemma moves_ne_nil (hq : q.isAbsolute = false) (hne : q.bytes ≠ []) : moves q ≠ [] := by
  rw [moves_eq]
  have hparts := filter_segments_ne_nil hq hne
  exact List.append_ne_nil_of_left_ne_nil (mt List.map_eq_nil_iff.1 hparts) _

/-- Where a path below another one leads. -/
theorem locate_join (hp : p.bytes ≠ []) (hq : q.isAbsolute = false) :
    t.locate cwd (p.join q) = t.follow maxLinks (walkStart cwd p)
      (p.steps.map moveOf ++ if q.bytes = [] then [.stay] else moves q) := by
  have hne := bytes_join_ne_nil hp hq
  have hstart : walkStart cwd (p.join q) = walkStart cwd p := by
    unfold walkStart
    rw [isAbsolute_join hp hq]
  rw [locate, if_neg hne]
  show t.follow maxLinks (walkStart cwd (p.join q)) _ = _
  rw [hstart]
  split
  · next hempty =>
    rw [moves_join_empty_of_ne_nil hp hempty]
    by_cases hparts : p.segments.filter (· ≠ []) = []
    · -- the path consists of separators, and the root directory is a directory
      have hroot : p.isAbsolute = true := by
        cases habs : p.isAbsolute with
        | true => rfl
        | false => exact absurd hparts (filter_segments_ne_nil habs hp)
      have hsteps : p.steps = [] := by
        refine List.filter_eq_nil_iff.2 fun part hpart => ?_
        have hnil : part = [] := by simpa using List.filter_eq_nil_iff.1 hparts part hpart
        simp [hnil, insignificant]
      rw [hparts, hsteps, walkStart, if_pos hroot]
      rfl
    · rw [if_pos hparts]
      exact follow_congr (settled_parts_append p (by simp))
  · next hempty =>
    rw [moves_join_of_ne_nil hp hq hempty]
    exact follow_congr (settled_parts_append p (moves_ne_nil hq hempty))

/-- The names in a directory are those at the end of the steps to it. -/
theorem list?_eq (hp : p.bytes ≠ []) :
    t.list? cwd p =
      (t.follow maxLinks (walkStart cwd p) (p.steps.map moveOf ++ [.stay])).toOption.map
        fun dir => (t.children dir).map (·.1) := by
  have hlocate : t.locate cwd p = t.follow maxLinks (walkStart cwd p) (moves p) := if_neg hp
  obtain ⟨left, hleft⟩ := t.exists_follow_append maxLinks (walkStart cwd p) (moves p)
  rw [← follow_congr (settled_moves_append p (by simp)), hleft, list?, hlocate]
  cases t.follow maxLinks (walkStart cwd p) (moves p) with
  | error e => rfl
  | ok loc =>
    show (if t.entry? loc = some .directory then some ((t.children loc).map (·.1)) else none) = _
    rw [Except.bind, follow_stay]
    cases t.entry? loc with
    | none => rfl
    | some e =>
      cases e with
      | directory => rfl
      | file | link => rfl

/-- Below two spellings of a path the same is found. -/
theorem pathExists_join_congr (h : (p == q) = true) (name : Path) :
    t.pathExists cwd (p.join name) = t.pathExists cwd (q.join name) := by
  by_cases hp : p.bytes = []
  · rw [eq_of_bytes_eq_nil h hp]
  cases hname : name.isAbsolute with
  | true => rw [join, if_pos hname, join, if_pos hname]
  | false =>
    have hq : q.bytes ≠ [] := fun hq => hp (by rw [← eq_of_bytes_eq_nil (BEq.symm h) hq, hq])
    have hlocate : t.locate cwd (p.join name) = t.locate cwd (q.join name) := by
      rw [locate_join hp hname, locate_join hq hname, steps_congr h, walkStart, isAbsolute_congr h,
        walkStart]
    rw [Bool.eq_iff_iff, pathExists_iff, pathExists_iff, hlocate]

lemma list?_congr (h : (p == q) = true) : t.list? cwd p = t.list? cwd q := by
  by_cases hp : p.bytes = []
  · rw [eq_of_bytes_eq_nil h hp]
  · have hq : q.bytes ≠ [] := fun hq => hp (by rw [← eq_of_bytes_eq_nil (BEq.symm h) hq, hq])
    rw [list?_eq hp, list?_eq hq, steps_congr h, walkStart, isAbsolute_congr h, walkStart]

/-- What matches in a directory does not depend on how its path is spelled. -/
theorem matchesIn_congr (h : (p == q) = true) (patterns : PatternSet) :
    patterns.matchesIn t cwd p = patterns.matchesIn t cwd q := by
  unfold PatternSet.matchesIn
  simp only [pathExists_join_congr h, list?_congr h]

end Below

section WithoutLinks

variable {loc' : Location} (hl : t.LinkFree)
include hl

/-- Without links the steps of a path lead to where the path does. -/
theorem LinkFree.leads_steps (hp : t.locate cwd p = .ok loc) :
    p.bytes ≠ [] ∧ t.Leads (walkStart cwd p) (p.steps.map moveOf) loc := by
  obtain ⟨hne, hleads⟩ := hl.locate_eq_ok.1 hp
  have hsteps := hleads.filter_stay
  rw [filter_moves] at hsteps
  exact ⟨hne, hsteps⟩

lemma LinkFree.locate_join_eq_ok (hp : t.locate cwd p = .ok loc) (hq : q.isAbsolute = false) :
    t.locate cwd (p.join q) = .ok loc' ↔
      t.Leads loc (if q.bytes = [] then [.stay] else moves q) loc' := by
  obtain ⟨hne, hsteps⟩ := hl.leads_steps hp
  rw [locate_join hne hq, hl.follow_eq_ok, Leads.append_iff]
  constructor
  · rintro ⟨there, hthere, h⟩
    rwa [hthere.unique hsteps] at h
  · intro h
    exact ⟨loc, hsteps, h⟩

/-- What matches in a directory does not depend on which path leads to it. -/
theorem LinkFree.matchesIn_eq {cwd' : Location} (hp : t.locate cwd p = .ok loc)
    (hq : t.locate cwd' q = .ok loc) (patterns : PatternSet) :
    patterns.matchesIn t cwd p = patterns.matchesIn t cwd' q := by
  have hexists (name : Path) :
      t.pathExists cwd (p.join name) = t.pathExists cwd' (q.join name) := by
    rw [Bool.eq_iff_iff, Tree.pathExists_iff, Tree.pathExists_iff]
    cases hname : name.isAbsolute with
    | true =>
      have hlocate : t.locate cwd name = t.locate cwd' name := by
        rw [locate, locate, if_pos hname, if_pos hname]
      rw [join, if_pos hname, join, if_pos hname, hlocate]
    | false => simp only [hl.locate_join_eq_ok hp hname, hl.locate_join_eq_ok hq hname]
  have hlist : t.list? cwd p = t.list? cwd' q := by rw [list?, hp, list?, hq]
  unfold PatternSet.matchesIn
  simp only [hexists, hlist]

omit hl in
lemma Leads.eq_append {names : List Bytes} (h : t.Leads here (names.map moveOf) loc)
    (hn : ∀ n ∈ names, IsName n) : loc = here ++ names := by
  induction names generalizing here with
  | nil => rw [leads_nil_iff.1 h, List.append_nil]
  | cons n names ih =>
    obtain ⟨hn, hnames⟩ := List.forall_mem_cons.1 hn
    rw [List.map_cons, moveOf_of_isName hn, leads_cons_iff] at h
    rw [ih h.2 hnames, Move.target, List.append_assoc]
    rfl

/-- What is above a path without `..` contains what the path leads to. -/
theorem LinkFree.prefix_of_locate (hp : t.locate cwd p = .ok loc) (hq : t.locate cwd q = .ok loc')
    (hpq : p.components <+: q.components) (hup : .up ∉ q.components) : loc <+: loc' := by
  obtain ⟨hne, hpsteps⟩ := hl.leads_steps hp
  obtain ⟨-, hqsteps⟩ := hl.leads_steps hq
  have hstart : walkStart cwd q = walkStart cwd p := by
    rw [walkStart, walkStart, isAbsolute_of_prefix hne hpq]
  obtain ⟨more, hmore⟩ := hpq
  have hsteps : q.steps = p.steps ++ more.filterMap stepSpelling? := by
    rw [← filterMap_components, ← filterMap_components, ← hmore, List.filterMap_append]
  have hnames : ∀ n ∈ more.filterMap stepSpelling?, IsName n := by
    intro n hn
    have hmem : n ∈ q.steps := by
      rw [hsteps]
      exact List.mem_append_right _ hn
    refine ⟨isStep_of_mem_steps hmem, ?_⟩
    rintro rfl
    exact hup (up_mem_components hmem)
  rw [hstart, hsteps, List.map_append, Leads.append_iff] at hqsteps
  obtain ⟨there, hthere, hrest⟩ := hqsteps
  rw [hthere.unique hpsteps] at hrest
  exact ⟨_, (hrest.eq_append hnames).symm⟩

end WithoutLinks

section Names

variable {n : Bytes} {names : List Bytes}

/-- A directory lists the names of its entries. -/
theorem mem_children : n ∈ (t.children loc).map (·.1) ↔ (t.entry? (loc ++ [n])).isSome = true := by
  have hentry : t.entry? (loc ++ [n]) = t.entries.find? (loc ++ [n]) := by
    unfold entry?
    rw [if_neg (by simp)]
  rw [hentry, Option.isSome_iff_exists, List.mem_map]
  constructor
  · rintro ⟨⟨name, e⟩, hmem, rfl⟩
    obtain ⟨⟨key, e'⟩, hkey, hf⟩ := List.mem_filterMap.1 hmem
    cases hlast : key.getLast? with
    | none => simp [hlast] at hf
    | some last =>
      obtain ⟨above, rfl⟩ := List.getLast?_eq_some_iff.1 hlast
      obtain ⟨rfl, rfl, rfl⟩ : above = loc ∧ last = name ∧ e' = e := by
        simpa using hf
      exact ⟨e', Table.find?_of_mem hkey⟩
  · rintro ⟨e, he⟩
    obtain ⟨key, hkey, hmem⟩ := Table.mem_entries_of_find? he
    rw [eq_of_beq hkey] at hmem
    exact ⟨(n, e), List.mem_filterMap.2 ⟨_, hmem, by simp⟩, rfl⟩

lemma list?_eq_some_iff :
    t.list? cwd p = some names ↔
      ∃ loc, t.locate cwd p = .ok loc ∧ t.entry? loc = some .directory ∧
        names = (t.children loc).map (·.1) := by
  unfold list?
  cases t.locate cwd p with
  | error e => simp
  | ok loc => simp [eq_comm]

lemma moves_name (h : IsName n) : moves ⟨n⟩ = [.into n] := by
  have hend : n.getLast? ≠ some Bytes.slash := fun hlast =>
    h.slash_notMem (List.mem_of_getLast? hlast)
  rw [moves_eq, h.segments, List.filter_cons_of_pos (by simpa using h.ne_nil), List.filter_nil,
    List.map_singleton, moveOf_of_isName h]
  simp [hend]

/-- A name leads on from the directory below which it stands. -/
theorem exists_locate_join (h : t.locate cwd p = .ok loc) (hn : IsName n) :
    ∃ left, t.locate cwd (p.join ⟨n⟩) = t.follow left loc [.into n] := by
  have hp : p.bytes ≠ [] := by
    intro hnil
    rw [locate, if_pos hnil] at h
    cases h
  have hfollow : t.follow maxLinks (walkStart cwd p) (moves p) = .ok loc := by
    rwa [locate, if_neg hp] at h
  obtain ⟨left, hleft⟩ := t.exists_follow_append maxLinks (walkStart cwd p) (moves p)
  refine ⟨left, ?_⟩
  rw [locate_join hp hn.not_isAbsolute, if_neg hn.ne_nil, moves_name hn,
    ← follow_congr (settled_moves_append p (by simp)), hleft, hfollow]
  rfl

/-- What stands under a name in a directory is a link that leads nowhere. -/
def Dangles (t : Tree) (cwd : Location) (dir : Path) (n : Bytes) : Prop :=
  ∃ loc target, t.locate cwd dir = .ok loc ∧ t.entry? (loc ++ [n]) = some (.link target) ∧
    t.pathExists cwd (dir.join ⟨n⟩) = false

lemma pathExists_join_of_ne_link (h : t.locate cwd p = .ok loc)
    (hdir : t.entry? loc = some .directory) (hn : IsName n)
    (hlink : ∀ target, t.entry? (loc ++ [n]) ≠ some (.link target)) :
    t.pathExists cwd (p.join ⟨n⟩) = (t.entry? (loc ++ [n])).isSome := by
  obtain ⟨left, hleft⟩ := exists_locate_join h hn
  rw [Bool.eq_iff_iff, pathExists_iff, hleft]
  unfold follow advance
  cases he : t.entry? (loc ++ [n]) with
  | none => simp [hdir, he]
  | some e =>
    cases e with
    | link target => exact absurd he (hlink target)
    | file | directory => simp [hdir, he, advance]

/-- What a directory lists under a name is found there unless it is a link that leads nowhere. -/
theorem pathExists_join_name_iff (h : t.locate cwd p = .ok loc)
    (hdir : t.entry? loc = some .directory) (hn : IsName n) :
    t.pathExists cwd (p.join ⟨n⟩) = true ↔
      n ∈ (t.children loc).map (·.1) ∧ ¬ t.Dangles cwd p n := by
  rw [mem_children]
  by_cases hlink : ∃ target, t.entry? (loc ++ [n]) = some (.link target)
  · obtain ⟨target, htarget⟩ := hlink
    simp [Dangles, h, htarget]
  · have hne : ∀ target, t.entry? (loc ++ [n]) ≠ some (.link target) := not_exists.1 hlink
    rw [pathExists_join_of_ne_link h hdir hn hne]
    simp [Dangles, h, hne]

lemma Dangles.mem_children (hd : t.Dangles cwd p n) (h : t.locate cwd p = .ok loc) :
    n ∈ (t.children loc).map (·.1) := by
  obtain ⟨loc', target, hloc, htarget, -⟩ := hd
  rw [h] at hloc
  cases hloc
  rw [Tree.mem_children, htarget]
  rfl

end Names

end ServerFleet.Tree
