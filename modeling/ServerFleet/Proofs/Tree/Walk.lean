import ServerFleet.Definition.Basic
import ServerFleet.Proofs.Path.Spelling

/-!
Walks through a tree without symbolic links. Every part of a path is then one move from a
directory, so a path leads where its beginning and the rest of it lead one after the other.
-/

namespace ServerFleet

open ServerFleet.Path

namespace Tree

variable {t : Tree} {here there loc cwd : Location} {m : Move} {ms : List Move} {p : Path}

def LinkFree (t : Tree) : Prop := ∀ loc target, t.entry? loc ≠ some (.link target)

def Move.target (here : Location) : Move → Location
  | .into n => here ++ [n]
  | .up => here.dropLast
  | .stay => here

/-- A move is made from a directory, and downwards only to what is there. -/
structure Goes (t : Tree) (here : Location) (m : Move) (there : Location) : Prop where
  directory : t.entry? here = some .directory
  target : there = m.target here
  found : ∀ n, m = .into n → (t.entry? there).isSome = true

/-- Moves made one after another. -/
inductive Leads (t : Tree) : Location → List Move → Location → Prop
  | done {here : Location} : Leads t here [] here
  | move {here there loc : Location} {m : Move} {ms : List Move} (h : t.Goes here m there)
    (hms : Leads t there ms loc) : Leads t here (m :: ms) loc

lemma leads_nil_iff : t.Leads here [] loc ↔ loc = here := by
  constructor
  · intro h
    cases h
    rfl
  · rintro rfl
    exact .done

lemma leads_cons_iff :
    t.Leads here (m :: ms) loc ↔
      t.Goes here m (m.target here) ∧ t.Leads (m.target here) ms loc := by
  constructor
  · intro h
    cases h with
    | move hgo hms =>
      obtain rfl := hgo.target
      exact ⟨hgo, hms⟩
  · rintro ⟨hgo, hms⟩
    exact .move hgo hms

/-- Without links a walk that does not fail arrives. -/
theorem LinkFree.advance_eq_ok (hl : t.LinkFree) {halt : Halt} :
    t.advance here ms = .ok halt ↔ ∃ loc, halt = .arrived loc ∧ t.Leads here ms loc := by
  induction ms generalizing here with
  | nil =>
    simp only [advance, leads_nil_iff, Except.ok.injEq]
    constructor
    · rintro rfl
      exact ⟨here, rfl, rfl⟩
    · rintro ⟨loc, rfl, rfl⟩
      rfl
  | cons m ms ih =>
    have fails (hno : ¬ t.Goes here m (m.target here)) :
        ¬ ∃ loc, halt = .arrived loc ∧ t.Leads here (m :: ms) loc := by
      rintro ⟨loc, -, h⟩
      exact hno (leads_cons_iff.1 h).1
    have goes (hgo : t.Goes here m (m.target here)) :
        t.advance (m.target here) ms = .ok halt ↔
          ∃ loc, halt = .arrived loc ∧ t.Leads here (m :: ms) loc := by
      rw [ih]
      simp only [leads_cons_iff, hgo, true_and]
    unfold advance
    cases he : t.entry? here with
    | none => exact iff_of_false nofun (fails fun hgo => by simpa [he] using hgo.directory)
    | some e =>
      cases e with
      | file contents executable =>
        exact iff_of_false nofun (fails fun hgo => by simpa [he] using hgo.directory)
      | link target => exact absurd he (hl _ _)
      | directory =>
        cases m with
        | stay => exact goes ⟨he, rfl, nofun⟩
        | up => exact goes ⟨he, rfl, nofun⟩
        | into n =>
          cases hn : t.entry? (here ++ [n]) with
          | none =>
            simp only [hn]
            refine iff_of_false nofun (fails fun hgo => ?_)
            have hfound := hgo.found n rfl
            rw [Move.target, hn] at hfound
            cases hfound
          | some e =>
            have hgo : t.Goes here (.into n) (Move.target here (.into n)) :=
              ⟨he, rfl, fun n' hn' => by rw [Move.target, hn]; rfl⟩
            cases e with
            | link target => exact absurd hn (hl _ _)
            | file | directory =>
              simp only [hn]
              exact goes hgo

namespace Leads

lemma append_iff {ms' : List Move} :
    t.Leads here (ms ++ ms') loc ↔ ∃ there, t.Leads here ms there ∧ t.Leads there ms' loc := by
  induction ms generalizing here with
  | nil => simp [leads_nil_iff]
  | cons m ms ih =>
    simp only [List.cons_append, leads_cons_iff, ih]
    constructor
    · rintro ⟨hgo, there, hms, hms'⟩
      exact ⟨there, ⟨hgo, hms⟩, hms'⟩
    · rintro ⟨there, ⟨hgo, hms⟩, hms'⟩
      exact ⟨hgo, there, hms, hms'⟩

/-- Moves lead to one place. -/
theorem unique {loc' : Location} (h : t.Leads here ms loc) (h' : t.Leads here ms loc') :
    loc = loc' := by
  induction h with
  | done =>
    cases h'
    rfl
  | move hgo _ ih =>
    rw [leads_cons_iff, ← hgo.target] at h'
    exact ih h'.2

/-- To stay in a directory changes nothing. -/
theorem filter_stay (h : t.Leads here ms loc) :
    t.Leads here (ms.filter (· ≠ .stay)) loc := by
  induction h with
  | done => exact .done
  | @move here there loc m ms hgo _ ih =>
    by_cases hm : m = .stay
    · subst hm
      obtain rfl := hgo.target
      simpa using ih
    · rw [List.filter_cons_of_pos (by simpa using hm)]
      exact .move hgo ih

/-- Whoever stays at the end is in a directory. -/
theorem directory_of_stay (h : t.Leads here (ms ++ [.stay]) loc) :
    t.entry? loc = some .directory := by
  obtain ⟨there, -, hlast⟩ := append_iff.1 h
  obtain ⟨hgo, hnil⟩ := leads_cons_iff.1 hlast
  obtain rfl := leads_nil_iff.1 hnil
  exact hgo.directory

end Leads

section Locate

def walkStart (cwd : Location) (p : Path) : Location := if p.isAbsolute then [] else cwd

lemma LinkFree.follow_eq_ok (hl : t.LinkFree) {links : Nat} :
    t.follow links here ms = .ok loc ↔ t.Leads here ms loc := by
  unfold follow
  cases ha : t.advance here ms with
  | error e =>
    refine iff_of_false nofun fun h => ?_
    have hok := hl.advance_eq_ok.2 ⟨loc, rfl, h⟩
    rw [ha] at hok
    cases hok
  | ok halt =>
    obtain ⟨loc', rfl, h⟩ := hl.advance_eq_ok.1 ha
    constructor
    · intro he
      cases he
      exact h
    · intro h'
      rw [h.unique h']

lemma LinkFree.locate_eq_ok (hl : t.LinkFree) :
    t.locate cwd p = .ok loc ↔ p.bytes ≠ [] ∧ t.Leads (walkStart cwd p) (moves p) loc := by
  unfold locate
  by_cases hp : p.bytes = []
  · simp [hp]
  · rw [if_neg hp, hl.follow_eq_ok]
    simp [hp, walkStart]

lemma lookup_of_ok (h : t.locate cwd p = .ok loc) :
    t.lookup cwd p = match t.entry? loc with
      | some e => .ok e
      | none => .error .noEntry := by
  unfold lookup
  rw [h]
  rfl

lemma lookup_of_error {e : Missing} (h : t.locate cwd p = .error e) :
    t.lookup cwd p = .error e := by
  unfold lookup
  rw [h]
  rfl

lemma pathExists_iff :
    t.pathExists cwd p = true ↔
      ∃ loc, t.locate cwd p = .ok loc ∧ (t.entry? loc).isSome = true := by
  unfold pathExists
  cases hloc : t.locate cwd p with
  | error e =>
    rw [lookup_of_error hloc]
    exact iff_of_false nofun nofun
  | ok loc =>
    rw [lookup_of_ok hloc]
    cases he : t.entry? loc with
    | none => exact iff_of_false nofun (by simp [he])
    | some e => exact iff_of_true rfl ⟨loc, rfl, by simp [he]⟩

end Locate

section Moves

def moveOf (part : Bytes) : Move :=
  if part = [Bytes.dot] then .stay
  else if part = [Bytes.dot, Bytes.dot] then .up
  else .into part

lemma moves_eq (p : Path) :
    moves p = (p.segments.filter (· ≠ [])).map moveOf ++
      if p.bytes.getLast? = some Bytes.slash ∧ p.segments.filter (· ≠ []) ≠ [] then [.stay]
      else [] := by
  by_cases h : p.bytes.getLast? = some Bytes.slash ∧ p.segments.filter (· ≠ []) ≠ []
  · rw [if_pos h]
    exact if_pos h
  · rw [if_neg h, List.append_nil]
    exact if_neg h

lemma moveOf_eq_stay_iff {part : Bytes} : moveOf part = .stay ↔ part = [Bytes.dot] := by
  unfold moveOf
  split
  · next h => simp [h]
  · next h => split <;> simp [h]

lemma moveOf_ne_stay {part : Bytes} (h : IsStep part) : moveOf part ≠ .stay := by
  rw [Ne, moveOf_eq_stay_iff]
  rintro rfl
  cases h.significant

lemma filter_map_moveOf (parts : List Bytes) :
    ((parts.filter (· ≠ [])).map moveOf).filter (· ≠ .stay) =
      (parts.filter (!insignificant ·)).map moveOf := by
  induction parts with
  | nil => rfl
  | cons part parts ih =>
    by_cases hnil : part = []
    · simpa [hnil, insignificant] using ih
    · by_cases hdot : part = [Bytes.dot]
      · simpa [hdot, insignificant, moveOf] using ih
      · have hne : moveOf part ≠ .stay := fun he => hdot (moveOf_eq_stay_iff.1 he)
        simpa [hnil, hdot, insignificant, hne] using ih

/-- The moves along a path are its steps and what stays in place. -/
theorem filter_moves (p : Path) : (moves p).filter (· ≠ .stay) = p.steps.map moveOf := by
  have hend (c : Prop) [Decidable c] :
      (if c then [Move.stay] else []).filter (· ≠ .stay) = [] := by
    split <;> rfl
  rw [moves_eq, List.filter_append, filter_map_moveOf, hend, List.append_nil]
  rfl

lemma moves_of_spells {names : List Bytes} (h : p.Spells names) :
    moves p = names.map moveOf := by
  obtain ⟨-, ⟨lead, hlead, hs⟩, hsteps⟩ := id h
  have hparts := h.filter_segments
  have hend : ¬ (p.bytes.getLast? = some Bytes.slash ∧ names ≠ []) := by
    rintro ⟨hlast, hne⟩
    have hempty := (Bytes.getLast?_splitOn h.bytes_ne_nil).2 hlast
    obtain ⟨parts, n, rfl⟩ : ∃ parts n, names = parts ++ [n] :=
      ⟨_, _, (List.dropLast_append_getLast hne).symm⟩
    rw [show p.bytes.splitOn Bytes.slash = _ from hs, ← List.append_assoc,
      ← List.cons_append, List.getLast?_concat] at hempty
    exact (hsteps n (by simp)).ne_nil (Option.some.inj hempty)
  rw [moves_eq, hparts, if_neg hend, List.append_nil]

end Moves

section Stands

/-- A part that names an entry of a directory. -/
structure IsName (part : Bytes) : Prop extends IsStep part where
  ne_up : part ≠ [Bytes.dot, Bytes.dot]

lemma moveOf_of_isName {n : Bytes} (h : IsName n) : moveOf n = .into n := by
  have hdot : n ≠ [Bytes.dot] := by
    rintro rfl
    cases h.significant
  unfold moveOf
  rw [if_neg hdot, if_neg h.ne_up]

lemma isName_of_moveOf {part n : Bytes} (hslash : Bytes.slash ∉ part) (hne : part ≠ [])
    (h : moveOf part = .into n) : n = part ∧ IsName part := by
  unfold moveOf at h
  split at h
  · cases h
  · next hdot =>
    split at h
    · cases h
    · next hup =>
      cases h
      exact ⟨rfl, ⟨by simp [insignificant, hne, hdot], hslash⟩, hup⟩

/-- The moves along a path below another one are those along both. -/
theorem moves_join_of_ne_nil {q : Path} (hp : p.bytes ≠ []) (hq : q.isAbsolute = false)
    (hne : q.bytes ≠ []) :
    moves (p.join q) = (p.segments.filter (· ≠ [])).map moveOf ++ moves q := by
  have hparts : (p.join q).segments.filter (· ≠ []) =
      p.segments.filter (· ≠ []) ++ q.segments.filter (· ≠ []) := by
    rw [segments_join hp hq, List.filter_append, filter_trunk]
  have hlast : (p.join q).bytes.getLast? = q.bytes.getLast? := getLast?_join hq hne
  have hqparts := filter_segments_ne_nil hq hne
  have hall : p.segments.filter (· ≠ []) ++ q.segments.filter (· ≠ []) ≠ [] :=
    List.append_ne_nil_of_right_ne_nil _ hqparts
  rw [moves_eq, moves_eq, hparts, hlast, List.map_append, List.append_assoc]
  simp only [hall, hqparts, ne_eq, not_false_eq_true, and_true]

/-- Nothing below a path leaves it with an empty part at the end, so that only a directory will
do. -/
theorem moves_join_empty_of_ne_nil {q : Path} (hp : p.bytes ≠ []) (hq : q.bytes = []) :
    moves (p.join q) = (p.segments.filter (· ≠ [])).map moveOf ++
      if p.segments.filter (· ≠ []) ≠ [] then [.stay] else [] := by
  have hq' : q.isAbsolute = false := by simp [isAbsolute, hq]
  have hsegments : q.segments = [[]] := by
    unfold segments
    rw [hq]
    rfl
  have hparts : (p.join q).segments.filter (· ≠ []) = p.segments.filter (· ≠ []) := by
    rw [segments_join hp hq', List.filter_append, filter_trunk, hsegments]
    simp
  rw [moves_eq, hparts, getLast?_join_empty hp hq]
  simp only [true_and]

lemma isName_of_into_mem {n : Bytes} (h : .into n ∈ moves p) : IsName n := by
  rw [moves_eq] at h
  rcases List.mem_append.1 h with h | h
  · obtain ⟨part, hpart, hn⟩ := List.mem_map.1 h
    obtain ⟨hmem, hne⟩ := List.mem_filter.1 hpart
    have hslash := Bytes.not_mem_of_mem_splitOn hmem
    obtain ⟨rfl, hname⟩ := isName_of_moveOf hslash (by simpa using hne) hn
    exact hname
  · split at h <;> simp at h

/-- A location as walks reach it: below directories, under names that paths can spell. -/
structure Stands (t : Tree) (loc : Location) : Prop where
  above : ∀ {above n rest}, loc = above ++ n :: rest → t.entry? above = some .directory
  isName : ∀ n ∈ loc, IsName n

lemma stands_root : t.Stands [] where
  above h := by simp at h
  isName := nofun

lemma Stands.goes (h : t.Stands here) (hgo : t.Goes here m there)
    (hn : ∀ n, m = .into n → IsName n) : t.Stands there := by
  obtain rfl := hgo.target
  cases m with
  | stay => exact h
  | up =>
    rcases List.eq_nil_or_concat here with rfl | ⟨upper, x, rfl⟩
    · exact h
    · rw [Move.target, List.concat_eq_append, List.dropLast_concat]
      refine ⟨fun {above n rest} he => ?_, fun n hm => ?_⟩
      · have hhere : upper.concat x = above ++ n :: (rest ++ [x]) := by simp [he]
        exact h.above hhere
      · exact h.isName n (by simp [hm])
  | into name =>
    refine ⟨fun {above n rest} he => ?_, fun n hm => ?_⟩
    · rcases List.eq_nil_or_concat rest with rfl | ⟨rest, x, rfl⟩
      · obtain ⟨rfl, -⟩ := List.append_inj' he rfl
        exact hgo.directory
      · rw [List.concat_eq_append, ← List.cons_append, ← List.append_assoc] at he
        obtain ⟨hhere, -⟩ := List.append_inj' he rfl
        exact h.above hhere
    · rcases List.mem_append.1 hm with hm | hm
      · exact h.isName n hm
      · rw [List.mem_singleton.1 hm]
        exact hn name rfl

lemma Stands.leads (h : t.Stands here) (hms : t.Leads here ms loc)
    (hn : ∀ n, .into n ∈ ms → IsName n) : t.Stands loc := by
  induction hms with
  | done => exact h
  | move hgo _ ih =>
    have hthere := h.goes hgo fun n hm => hn n (by simp [hm])
    exact ih hthere fun n hm => hn n (List.mem_cons_of_mem _ hm)

lemma stands_of_leads {names : List Bytes} (hn : ∀ n ∈ names, IsStep n)
    (h : t.Leads [] (names.map moveOf) loc) : t.Stands loc := by
  refine stands_root.leads h fun n hm => ?_
  obtain ⟨part, hpart, hpn⟩ := List.mem_map.1 hm
  have hstep := hn part hpart
  obtain ⟨rfl, hname⟩ := isName_of_moveOf hstep.slash_notMem hstep.ne_nil hpn
  exact hname

/-- Above a location there are directories only. -/
theorem Stands.directory_dropLast (h : t.Stands loc) :
    t.entry? loc.dropLast = some .directory := by
  rcases List.eq_nil_or_concat' loc with rfl | ⟨above, x, rfl⟩
  · rfl
  · rw [List.dropLast_concat]
    exact h.above rfl

/-- The names of a location lead to it. -/
theorem Stands.leads_self (h : t.Stands loc) (hs : (t.entry? loc).isSome = true) :
    t.Leads [] (loc.map moveOf) loc := by
  induction loc using List.reverseRecOn with
  | nil => exact .done
  | append_singleton above n ih =>
    have hdir : t.entry? above = some .directory := h.above rfl
    have hname := h.isName n (by simp)
    have habove : t.Stands above := by
      refine ⟨fun {upper x rest} he => ?_, fun x hx => h.isName x (by simp [hx])⟩
      have hloc : above ++ [n] = upper ++ x :: (rest ++ [n]) := by simp [he]
      exact h.above hloc
    have hfirst := ih habove (by simp [hdir])
    rw [List.map_append, Leads.append_iff]
    refine ⟨above, hfirst, leads_cons_iff.2 ?_⟩
    rw [moveOf_of_isName hname, List.map_nil, leads_nil_iff]
    refine ⟨⟨hdir, rfl, ?_⟩, rfl⟩
    intro _ _
    exact hs

end Stands

section Reaches

/-- An absolute path that leads to a location step by step. -/
def Reaches (t : Tree) (p : Path) (loc : Location) : Prop :=
  ∃ names, p.Spells names ∧ t.Leads [] (names.map moveOf) loc

lemma Reaches.locate (hl : t.LinkFree) (h : t.Reaches p loc) : t.locate cwd p = .ok loc := by
  obtain ⟨names, hspells, hleads⟩ := h
  refine hl.locate_eq_ok.2 ⟨hspells.bytes_ne_nil, ?_⟩
  rw [walkStart, if_pos hspells.isAbsolute, moves_of_spells hspells]
  exact hleads

lemma Reaches.stands (h : t.Reaches p loc) : t.Stands loc := by
  obtain ⟨names, hspells, hleads⟩ := h
  exact stands_of_leads hspells.isStep hleads

lemma Stands.reaches (h : t.Stands loc) (hs : (t.entry? loc).isSome = true) :
    t.Reaches (.ofLocation loc) loc :=
  ⟨loc, spells_ofLocation fun n hm => (h.isName n hm).toIsStep, h.leads_self hs⟩

/-- A working directory is a directory that its own path leads to. -/
structure IsWorkingDirectory (t : Tree) (cwd : Location) : Prop where
  directory : t.entry? cwd = some .directory
  locate : t.locate [] (.ofLocation cwd) = .ok cwd

lemma IsWorkingDirectory.stands (h : t.IsWorkingDirectory cwd) (hl : t.LinkFree) :
    t.Stands cwd := by
  obtain ⟨-, hleads⟩ := hl.locate_eq_ok.1 h.locate
  have hstart : walkStart [] (Path.ofLocation cwd) = [] := by
    unfold walkStart
    split <;> rfl
  rw [hstart] at hleads
  exact stands_root.leads hleads fun _ => isName_of_into_mem

section File

variable (hl : t.LinkFree) (hcwd : t.IsWorkingDirectory cwd) (hp : t.locate cwd p = .ok loc)
  (hfile : t.entry? loc ≠ some .directory)
include hl hcwd hp hfile

lemma LinkFree.steps_ne_nil : p.steps ≠ [] := by
  intro hnil
  obtain ⟨-, hleads⟩ := hl.locate_eq_ok.1 hp
  have hstay := hleads.filter_stay
  rw [filter_moves, hnil, List.map_nil, leads_nil_iff] at hstay
  subst hstay
  unfold walkStart at hfile
  split at hfile
  · exact hfile rfl
  · exact hfile hcwd.directory

/-- Only a directory is spelled with a separator at the end. -/
theorem LinkFree.not_ends_in_slash : p.bytes.getLast? ≠ some Bytes.slash := by
  intro hlast
  obtain ⟨-, hleads⟩ := hl.locate_eq_ok.1 hp
  have hparts : p.segments.filter (· ≠ []) ≠ [] := by
    intro hnil
    refine hl.steps_ne_nil hcwd hp hfile (List.filter_eq_nil_iff.2 fun part hm => ?_)
    have hpart : part = [] := by simpa using List.filter_eq_nil_iff.1 hnil part hm
    simp [hpart, insignificant]
  rw [moves_eq, if_pos ⟨hlast, hparts⟩] at hleads
  exact hfile hleads.directory_of_stay

/-- A path to a file is, made absolute, one that leads there step by step. -/
theorem LinkFree.leads_absolute :
    (Path.absolute (.ofLocation cwd) p).Spells (walkStart cwd p ++ p.steps) ∧
      t.Leads [] ((walkStart cwd p ++ p.steps).map moveOf) loc := by
  obtain ⟨hne, hleads⟩ := hl.locate_eq_ok.1 hp
  have hsteps := hl.steps_ne_nil hcwd hp hfile
  have hstands := hcwd.stands hl
  have hnames : ∀ n ∈ cwd, IsStep n := fun n hm => (hstands.isName n hm).toIsStep
  have hstart : walkStart cwd p = if p.isAbsolute then [] else cwd := rfl
  constructor
  · have hroot : (Path.ofLocation cwd).bytes ≠ [] := by simp [ofLocation]
    obtain ⟨lead, hlead, hs⟩ := segments_absolute hroot (trunk_ofLocation hnames) hne
      (hl.not_ends_in_slash hcwd hp hfile) hsteps
    refine spells_of_segments hlead hs (by simp [hsteps]) fun n hm => ?_
    rcases List.mem_append.1 hm with hm | hm
    · rw [hstart] at hm
      split at hm
      · cases hm
      · exact hnames n hm
    · exact isStep_of_mem_steps hm
  · have hwalk := hleads.filter_stay
    rw [filter_moves] at hwalk
    rw [List.map_append, Leads.append_iff]
    refine ⟨walkStart cwd p, ?_, hwalk⟩
    rw [hstart]
    split
    · exact .done
    · exact hstands.leads_self (by simp [hcwd.directory])

end File

end Reaches

end Tree

end ServerFleet
