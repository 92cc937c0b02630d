import ServerFleet.Proofs.Table
import ServerFleet.Proofs.Tree.Links

/-!
The search for the root of a project in a tree without symbolic links. It goes up through the
directories that the path of the file was spelled with. Those that contain the file are all among
them, but a directory that a `..` leaves again is, too, and the search may end there. Unless it
does, the root is the one that the directories around the file determine, however the path was
spelled.
-/

namespace ServerFleet

open ServerFleet.Path ServerFleet.Tree

variable {t : Tree} {d : ServerDefinition} {cwd loc here there : Location} {p q : Path}

/-- A directory and those that contain it, the nearest first. -/
def Tree.enclosing (loc : Location) : List Location := loc.inits.reverse

lemma Tree.enclosing_concat (loc : Location) (n : Bytes) :
    enclosing (loc ++ [n]) = (loc ++ [n]) :: enclosing loc := by
  simp [enclosing, List.inits_append]

lemma Tree.mem_enclosing : here ∈ enclosing loc ↔ here <+: loc := by
  simp [enclosing]

namespace ServerDefinition

/-- Whether the search ends in a directory, with a root or without one. -/
def decides (d : ServerDefinition) (t : Tree) (cwd : Location) (dir : Path) : Bool :=
  d.excludesDirectory t cwd dir || d.isRootDirectory t cwd dir

lemma firstRoot?_eq (dirs : List Path) :
    d.firstRoot? t cwd dirs =
      (dirs.find? (d.decides t cwd)).filter fun dir => !d.excludesDirectory t cwd dir := by
  induction dirs with
  | nil => rfl
  | cons dir dirs ih =>
    rw [firstRoot?, List.find?_cons, decides]
    cases he : d.excludesDirectory t cwd dir with
    | true => simp [Option.filter, he]
    | false =>
      cases hr : d.isRootDirectory t cwd dir with
      | true => simp [Option.filter, he]
      | false => simpa using ih

/-- The root that the directories around a directory determine. -/
def rootAround? (d : ServerDefinition) (t : Tree) (dir : Location) : Option Location :=
  ((enclosing dir).find? fun l => d.decides t [] (.ofLocation l)).filter fun l =>
    !d.excludesDirectory t [] (.ofLocation l)

/-- The search for the root of a file at a location ends outside the directories that contain the
file, at a directory that excludes or at one that is a root. -/
def Strays (d : ServerDefinition) (t : Tree) (cwd : Location) (file : Path) (loc : Location)
    (excluded : Bool) : Prop :=
  ∃ start dir l, file.parent? = some start ∧
    start.ancestors.find? (d.decides t cwd) = some dir ∧ t.locate cwd dir = .ok l ∧
    ¬ l <+: loc.dropLast ∧ d.excludesDirectory t cwd dir = excluded

section Located

variable (hl : t.LinkFree) {cwd' : Location} (hp : t.locate cwd p = .ok loc)
  (hq : t.locate cwd' q = .ok loc)
include hl hp hq

lemma excludesDirectory_eq :
    d.excludesDirectory t cwd p = d.excludesDirectory t cwd' q := by
  unfold excludesDirectory
  rw [hl.matchesIn_eq hp hq]

lemma decides_eq : d.decides t cwd p = d.decides t cwd' q := by
  unfold decides isRootDirectory
  rw [excludesDirectory_eq hl hp hq, hl.matchesIn_eq hp hq]

end Located

end ServerDefinition

section Around

variable {passed : List Location} {f : Location → Bool}

lemma Tree.find?_enclosing_self (hf : f here = true) :
    (enclosing here).find? f = some here := by
  rcases List.eq_nil_or_concat' here with rfl | ⟨above, x, rfl⟩
  · exact List.find?_cons_of_pos hf
  · rw [enclosing_concat]
    exact List.find?_cons_of_pos hf

/-- A move goes one directory down, or stays, or goes one directory up. -/
theorem Tree.Goes.enclosing_cases {m : Move} (h : t.Goes here m there) :
    (enclosing there = there :: enclosing here ∧ ∀ l, l <+: there → l = there ∨ l <+: here) ∨
      there = here ∨
        (enclosing here = here :: enclosing there ∧ there <+: here ∧ ¬ here <+: there) := by
  obtain rfl := h.target
  cases m with
  | into n => exact .inl ⟨enclosing_concat here n, fun l hl => List.prefix_concat_iff.1 hl⟩
  | stay => exact .inr (.inl rfl)
  | up =>
    rcases List.eq_nil_or_concat' here with rfl | ⟨above, x, rfl⟩
    · exact .inr (.inl rfl)
    · refine .inr (.inr ?_)
      rw [Move.target, List.dropLast_concat]
      refine ⟨enclosing_concat above x, List.prefix_append _ _, fun hbeneath => ?_⟩
      have hlen := hbeneath.length_le
      rw [List.length_append, List.length_singleton] at hlen
      omega

/-- What is found first on the way is found first around a directory, if it is around at all. -/
structure Tree.Covers (passed : List Location) (here : Location) (f : Location → Bool) : Prop where
  missing : passed.find? f = none → (enclosing here).find? f = none
  found : ∀ {l}, passed.find? f = some l → l <+: here → (enclosing here).find? f = some l

lemma Tree.Covers.goes {m : Move} (h : Covers passed here f) (hgo : t.Goes here m there) :
    Covers (there :: passed) there f := by
  cases hf : f there with
  | true =>
    have hfirst : (there :: passed).find? f = some there := List.find?_cons_of_pos hf
    refine ⟨fun hn => ?_, fun hl _ => ?_⟩
    · rw [hfirst] at hn
      cases hn
    · rw [← hl, hfirst, find?_enclosing_self hf]
  | false =>
    have hf' : ¬ f there = true := by simp [hf]
    have hrest : (there :: passed).find? f = passed.find? f := List.find?_cons_of_neg hf'
    obtain ⟨hdown, hbeneath⟩ | rfl | ⟨hup, hbelow, hnot⟩ := hgo.enclosing_cases
    · refine ⟨fun hn => ?_, fun {l} hl hthere => ?_⟩ <;> rw [hrest] at *
      · rw [hdown, List.find?_cons_of_neg hf']
        exact h.missing hn
      · have hne : l ≠ there := by
          rintro rfl
          exact hf' (List.find?_some hl)
        rw [hdown, List.find?_cons_of_neg hf']
        exact h.found hl ((hbeneath l hthere).resolve_left hne)
    · exact ⟨fun hn => h.missing (hrest ▸ hn), fun hl => h.found (hrest ▸ hl)⟩
    · refine ⟨fun hn => ?_, fun {l} hl hthere => ?_⟩
      · have hall := List.find?_eq_none.1 (hup ▸ h.missing (hrest ▸ hn))
        exact List.find?_eq_none.2 fun y hy => hall y (List.mem_cons_of_mem _ hy)
      · have habove := h.found (hrest ▸ hl) (hthere.trans hbelow)
        rw [hup] at habove
        cases hx : f here with
        | true =>
          rw [List.find?_cons_of_pos hx] at habove
          cases habove
          exact absurd hthere hnot
        | false =>
          rw [List.find?_cons_of_neg (by simp [hx])] at habove
          exact habove

/-- The directories that a path passes through, from its end back to the root directory. -/
inductive Tree.Climb (t : Tree) : List Bytes → Location → List Location → Prop
  | root : Climb t [] [] [[]]
  | step {names : List Bytes} {n : Bytes} {here there : Location} {passed : List Location}
    (h : Climb t names here passed) (hgo : t.Goes here (moveOf n) there)
    (hdir : t.entry? there = some .directory) : Climb t (names ++ [n]) there (there :: passed)

lemma Tree.exists_climb {names : List Bytes} (h : t.Leads [] (names.map moveOf) loc)
    (hdir : t.entry? loc = some .directory) : ∃ passed, t.Climb names loc passed := by
  induction names using List.reverseRecOn generalizing loc with
  | nil =>
    rw [List.map_nil, leads_nil_iff] at h
    subst h
    exact ⟨_, .root⟩
  | append_singleton names n ih =>
    rw [List.map_append, Leads.append_iff] at h
    obtain ⟨here, hhere, hlast⟩ := h
    obtain ⟨hgo, hnil⟩ := leads_cons_iff.1 hlast
    obtain rfl := leads_nil_iff.1 hnil
    obtain ⟨passed, hclimb⟩ := ih hhere hgo.directory
    exact ⟨_, hclimb.step hgo hdir⟩

namespace Tree.Climb

variable {names : List Bytes}

lemma covers (h : t.Climb names here passed) (f : Location → Bool) : Covers passed here f := by
  induction h with
  | root => exact ⟨id, fun hl _ => hl⟩
  | step _ hgo _ ih => exact ih.goes hgo

lemma leads (h : t.Climb names here passed) : t.Leads [] (names.map moveOf) here := by
  induction h with
  | root => exact .done
  | step _ hgo _ ih =>
    rw [List.map_append, Leads.append_iff]
    exact ⟨_, ih, .move hgo .done⟩

lemma directory (h : t.Climb names here passed) : t.entry? here = some .directory := by
  cases h with
  | root => rfl
  | step _ _ hdir => exact hdir

/-- The paths spelled with the beginnings of the names lead to the directories passed. -/
theorem forall₂ (h : t.Climb names here passed) {dirs : List Path}
    (hd : List.Forall₂ Spells dirs (names.reverse.tails.map List.reverse)) :
    List.Forall₂ (fun dir l => t.Reaches dir l ∧ t.entry? l = some .directory) dirs passed := by
  induction h generalizing dirs with
  | root =>
    obtain _ | ⟨hdir, hrest⟩ := hd
    cases hrest
    exact .cons ⟨⟨_, hdir, .done⟩, rfl⟩ .nil
  | @step names n here there passed h hgo hthere ih =>
    rw [List.reverse_append, List.reverse_singleton, List.singleton_append, List.tails,
      List.map_cons] at hd
    obtain _ | ⟨hdir, hrest⟩ := hd
    have hleads := (h.step hgo hthere).leads
    rw [List.reverse_cons, List.reverse_reverse] at hdir
    exact .cons ⟨⟨_, hdir, hleads⟩, hthere⟩ (ih hrest)

/-- Names lead down only. -/
theorem prefix_of_isName (h : t.Climb names here passed) (hn : ∀ n ∈ names, IsName n) :
    ∀ l ∈ passed, l <+: here := by
  induction h with
  | root => simp
  | @step names n here there passed h hgo hthere ih =>
    have htarget := hgo.target
    rw [moveOf_of_isName (hn n (by simp))] at htarget
    subst htarget
    intro l hl
    rcases List.mem_cons.1 hl with rfl | hl
    · exact List.prefix_rfl
    · exact (ih (fun x hx => hn x (by simp [hx])) l hl).trans (List.prefix_append _ _)

end Tree.Climb

end Around

namespace ServerDefinition

section Search

variable (hl : t.LinkFree)
include hl

lemma find?_decides {dirs : List Path} {passed : List Location}
    (h : List.Forall₂ (fun dir l => t.Reaches dir l ∧ t.entry? l = some .directory) dirs passed) :
    (dirs.find? (d.decides t cwd) = none ∧
        passed.find? (fun l => d.decides t [] (.ofLocation l)) = none) ∨
      ∃ dir l, dirs.find? (d.decides t cwd) = some dir ∧
        passed.find? (fun l => d.decides t [] (.ofLocation l)) = some l ∧ t.locate cwd dir = .ok l ∧
        d.excludesDirectory t cwd dir = d.excludesDirectory t [] (.ofLocation l) := by
  induction h with
  | nil => exact .inl ⟨rfl, rfl⟩
  | @cons dir l dirs passed hfirst _ ih =>
    obtain ⟨hreaches, hdir⟩ := hfirst
    have hlocate : t.locate cwd dir = .ok l := hreaches.locate hl
    have hplain : t.locate [] (.ofLocation l) = .ok l :=
      (hreaches.stands.reaches (by simp [hdir])).locate hl
    have hdecides : d.decides t cwd dir = d.decides t [] (.ofLocation l) :=
      decides_eq hl hlocate hplain
    rw [List.find?_cons, List.find?_cons, hdecides]
    cases hd : d.decides t [] (.ofLocation l) with
    | true =>
      have hexcludes : d.excludesDirectory t cwd dir = d.excludesDirectory t [] (.ofLocation l) :=
        excludesDirectory_eq hl hlocate hplain
      exact .inr ⟨dir, l, rfl, rfl, hlocate, hexcludes⟩
    | false => exact ih

end Search

/-- Where a search ends: it finds what the directories around the file determine, or it strays to a
root or to an exclude match. -/
inductive SearchEnd (strays : Bool → Prop) (around : Option Location) (dir : Location) :
    Option Location → Prop
  | around (h : ∀ e, ¬ strays e) : SearchEnd strays around dir around
  | outside {l : Location} (h : ∀ e, strays e ↔ e = false) (hl : ¬ l <+: dir) :
    SearchEnd strays around dir (some l)
  | excluded (h : ∀ e, strays e ↔ e = true) : SearchEnd strays around dir none

namespace SearchEnd

variable {strays : Bool → Prop} {around root : Option Location} {dir : Location}

lemma not_strays (h : SearchEnd strays around dir root) (hroot : ∀ l ∈ root, l <+: dir) :
    ¬ strays false := by
  cases h with
  | around h => exact h false
  | outside _ hl => exact absurd (hroot _ rfl) hl
  | excluded h => simp [h]

lemma eq_none (h : SearchEnd strays around dir root) (hs : strays true) : root = none := by
  cases h with
  | around h => exact absurd hs (h true)
  | outside h => simp [h] at hs
  | excluded => rfl

lemma eq_around (h : SearchEnd strays around dir root) (hs : ∀ e, ¬ strays e) :
    root = around := by
  cases h with
  | around => rfl
  | outside h => exact absurd ((h false).2 rfl) (hs false)
  | excluded h => exact absurd ((h true).2 rfl) (hs true)

end SearchEnd

section Spelling

variable (hl : t.LinkFree) (hcwd : t.IsWorkingDirectory cwd) (hp : t.locate cwd p = .ok loc)
  {contents : Bytes} {executable : Bool} (hfile : t.entry? loc = some (.file contents executable))
include hl hcwd hp hfile

/-- The search for the root of a file climbs from the directory of the file. -/
theorem exists_climb_of_locate : ∃ names n start passed,
    walkStart cwd p ++ p.steps = names ++ [n] ∧
      (Path.absolute (.ofLocation cwd) p).parent? = some start ∧
      t.Climb names loc.dropLast passed ∧
      List.Forall₂ (fun dir l => t.Reaches dir l ∧ t.entry? l = some .directory) start.ancestors
        passed := by
  have hne : t.entry? loc ≠ some .directory := by simp [hfile]
  obtain ⟨hspells, hleads⟩ := hl.leads_absolute hcwd hp hne
  have hsteps : walkStart cwd p ++ p.steps ≠ [] :=
    List.append_ne_nil_of_right_ne_nil _ (hl.steps_ne_nil hcwd hp hne)
  obtain ⟨names, n, hnames⟩ : ∃ names n, walkStart cwd p ++ p.steps = names ++ [n] :=
    ⟨_, _, (List.dropLast_append_getLast hsteps).symm⟩
  rw [hnames] at hspells hleads
  -- the last move leads from the directory of the file down to it
  rw [List.map_append, Leads.append_iff] at hleads
  obtain ⟨here, hhere, hlast⟩ := hleads
  obtain ⟨hgo, hnil⟩ := leads_cons_iff.1 hlast
  have htarget := leads_nil_iff.1 hnil
  have hsteps' : ∀ x ∈ names, IsStep x := fun x hx => hspells.isStep x (by simp [hx])
  have hdirectory : here = loc.dropLast := by
    cases hm : moveOf n with
    | stay => exact absurd hm (moveOf_ne_stay (hspells.isStep n (by simp)))
    | into x => rw [htarget, hm, Move.target, List.dropLast_concat]
    | up =>
      rw [hm, Move.target] at htarget
      rw [htarget] at hne
      exact absurd (stands_of_leads hsteps' hhere).directory_dropLast hne
  subst hdirectory
  obtain ⟨passed, hclimb⟩ := exists_climb hhere hgo.directory
  have hancestors := hspells.properAncestors
  rw [List.reverse_append, List.reverse_singleton, List.singleton_append, List.tails,
    List.tail_cons] at hancestors
  have htails : names.reverse.tails = names.reverse :: names.reverse.tails.tail := by
    cases names.reverse <;> rfl
  have hparent : ∃ start, (Path.absolute (.ofLocation cwd) p).parent? = some start ∧
      start.Spells names := by
    rw [htails, List.map_cons, List.reverse_reverse] at hancestors
    unfold Path.parent?
    generalize (Path.absolute (.ofLocation cwd) p).properAncestors = above at hancestors
    cases hancestors with
    | cons hstart _ => exact ⟨_, rfl, hstart⟩
  obtain ⟨start, hstart, hspells'⟩ := hparent
  refine ⟨names, n, start, passed, hnames, hstart, hclimb, hclimb.forall₂ ?_⟩
  rw [htails, List.map_cons, List.reverse_reverse]
  exact .cons hspells' hspells'.properAncestors

lemma exists_searchEnd : ∃ root : Option Location,
    (d.detectRoot t cwd (.absolute (.ofLocation cwd) p)).map (t.locate cwd) = root.map .ok ∧
      SearchEnd (d.Strays t cwd (.absolute (.ofLocation cwd) p) loc) (d.rootAround? t loc.dropLast)
        loc.dropLast root := by
  obtain ⟨names, n, start, passed, -, hstart, hclimb, hreaches⟩ :=
    exists_climb_of_locate hl hcwd hp hfile
  have hcovers := hclimb.covers fun l => d.decides t [] (.ofLocation l)
  rw [detectRoot, hstart, Option.bind_some, firstRoot?_eq]
  have hstrays (e : Bool) : d.Strays t cwd (.absolute (.ofLocation cwd) p) loc e ↔
      ∃ dir l, start.ancestors.find? (d.decides t cwd) = some dir ∧ t.locate cwd dir = .ok l ∧
        ¬ l <+: loc.dropLast ∧ d.excludesDirectory t cwd dir = e := by
    simp [Strays, hstart]
  obtain ⟨hdirs, hpassed⟩ | ⟨dir, l, hdirs, hpassed, hlocate, hexcludes⟩ :=
    d.find?_decides hl hreaches
  · have hnone : d.rootAround? t loc.dropLast = none := by
      rw [rootAround?, hcovers.missing hpassed]
      rfl
    refine ⟨_, ?_, .around fun e => ?_⟩
    · rw [hdirs, hnone]
      rfl
    · rw [hstrays, hdirs]
      simp
  rw [hdirs]
  have hdecided (e : Bool) : d.Strays t cwd (.absolute (.ofLocation cwd) p) loc e ↔
      ¬ l <+: loc.dropLast ∧ d.excludesDirectory t cwd dir = e := by
    rw [hstrays, hdirs]
    simp [hlocate]
  by_cases hbeneath : l <+: loc.dropLast
  · refine ⟨_, ?_, .around fun e he => ?_⟩
    · rw [rootAround?, hcovers.found hpassed hbeneath]
      cases he : d.excludesDirectory t cwd dir with
      | true => simp [Option.filter, ← hexcludes, he]
      | false => simp [Option.filter, ← hexcludes, he, hlocate]
    · exact ((hdecided e).1 he).1 hbeneath
  · simp only [hbeneath, not_false_eq_true, true_and] at hdecided
    cases he : d.excludesDirectory t cwd dir with
    | true =>
      refine ⟨none, by simp [Option.filter, he], .excluded fun e => ?_⟩
      rw [hdecided, he, eq_comm]
    | false =>
      refine ⟨some l, by simp [Option.filter, he, hlocate], .outside (fun e => ?_) hbeneath⟩
      rw [hdecided, he, eq_comm]

/-- A spelling without `..` leads up through the directories around the file only. -/
theorem not_strays_of_names (hup : .up ∉ p.components) (e : Bool) :
    ¬ d.Strays t cwd (.absolute (.ofLocation cwd) p) loc e := by
  obtain ⟨names, n, start, passed, hnames, hstart, hclimb, hreaches⟩ :=
    exists_climb_of_locate hl hcwd hp hfile
  have hall : ∀ x ∈ names, IsName x := by
    intro x hx
    have hmem : x ∈ walkStart cwd p ++ p.steps := by
      rw [hnames]
      exact List.mem_append_left _ hx
    rcases List.mem_append.1 hmem with hx | hx
    · unfold walkStart at hx
      split at hx
      · cases hx
      · exact (hcwd.stands hl).isName x hx
    · refine ⟨isStep_of_mem_steps hx, ?_⟩
      rintro rfl
      exact hup (up_mem_components hx)
  rintro ⟨start', dir, l, hstart', hdirs, hlocate, hnot, -⟩
  obtain rfl := Option.some.inj (hstart.symm.trans hstart')
  obtain ⟨hnone, -⟩ | ⟨dir', l', hdirs', hpassed, hlocate', -⟩ :=
    d.find?_decides hl hreaches
  · rw [hdirs] at hnone
    cases hnone
  · obtain rfl := Option.some.inj (hdirs.symm.trans hdirs')
    obtain rfl : l = l' := by
      rw [hlocate] at hlocate'
      exact Except.ok.inj hlocate'
    exact hnot (hclimb.prefix_of_isName hall l (List.mem_of_find?_eq_some hpassed))

end Spelling

lemma prefix_of_rootAround? {dir l : Location} (h : d.rootAround? t dir = some l) :
    l <+: dir := by
  obtain ⟨hfind, -⟩ := Option.filter_eq_some_iff.1 h
  exact mem_enclosing.1 (List.mem_of_find?_eq_some hfind)

/-- Two spellings of a file yield one root, and one that contains the file, just when neither
strays to a root outside, and where one strays to an exclude match the other yields none, too. When
neither strays both yield what the directories around the file determine; a spelling without `..`
does not stray. -/
theorem detectRoot_spellings (hl : t.LinkFree) (hcwd : t.IsWorkingDirectory cwd)
    {contents : Bytes} {executable : Bool} (hp : t.locate cwd p = .ok loc)
    (hq : t.locate cwd q = .ok loc) (hfile : t.entry? loc = some (.file contents executable)) :
    ∃ a b : Option Location,
      (d.detectRoot t cwd (.absolute (.ofLocation cwd) p)).map (t.locate cwd) = a.map .ok ∧
      (d.detectRoot t cwd (.absolute (.ofLocation cwd) q)).map (t.locate cwd) = b.map .ok ∧
      ((a = b ∧ ∀ l ∈ a, l <+: loc.dropLast) ↔
        ¬ d.Strays t cwd (.absolute (.ofLocation cwd) p) loc false ∧
          ¬ d.Strays t cwd (.absolute (.ofLocation cwd) q) loc false ∧
          (d.Strays t cwd (.absolute (.ofLocation cwd) p) loc true ∨
            d.Strays t cwd (.absolute (.ofLocation cwd) q) loc true → a = none ∧ b = none)) ∧
      ((∀ e, ¬ d.Strays t cwd (.absolute (.ofLocation cwd) p) loc e) →
        a = d.rootAround? t loc.dropLast) ∧
      ((∀ e, ¬ d.Strays t cwd (.absolute (.ofLocation cwd) q) loc e) →
        b = d.rootAround? t loc.dropLast) ∧
      ∀ s ∈ [p, q], .up ∉ s.components →
        ∀ e, ¬ d.Strays t cwd (.absolute (.ofLocation cwd) s) loc e := by
  obtain ⟨a, ha, haend⟩ := exists_searchEnd (d := d) hl hcwd hp hfile
  obtain ⟨b, hb, hbend⟩ := exists_searchEnd (d := d) hl hcwd hq hfile
  refine ⟨a, b, ha, hb, ⟨?_, ?_⟩, haend.eq_around, hbend.eq_around, ?_⟩
  · rintro ⟨rfl, hroot⟩
    refine ⟨haend.not_strays hroot, hbend.not_strays hroot, ?_⟩
    rintro (hs | hs)
    · exact ⟨haend.eq_none hs, haend.eq_none hs⟩
    · exact ⟨hbend.eq_none hs, hbend.eq_none hs⟩
  · rintro ⟨hpf, hqf, hnone⟩
    by_cases hs : d.Strays t cwd (.absolute (.ofLocation cwd) p) loc true ∨
        d.Strays t cwd (.absolute (.ofLocation cwd) q) loc true
    · obtain ⟨rfl, rfl⟩ := hnone hs
      exact ⟨rfl, nofun⟩
    · obtain ⟨hpt, hqt⟩ := not_or.1 hs
      obtain rfl := haend.eq_around (Bool.forall_bool.2 ⟨hpf, hpt⟩)
      obtain rfl := hbend.eq_around (Bool.forall_bool.2 ⟨hqf, hqt⟩)
      exact ⟨rfl, fun l hl => prefix_of_rootAround? hl⟩
  · intro s hs hup e
    rcases List.mem_pair.1 hs with rfl | rfl
    · exact not_strays_of_names hl hcwd hp hfile hup e
    · exact not_strays_of_names hl hcwd hq hfile hup e

section Sample

/-- The tree with the files `/p/r`, `/p/x.ts` and `/q/x.ts`. -/
def sampleTree : Tree :=
  ⟨.ofList [([[112]], .directory), ([[112], [114]], .file [] false),
    ([[112], [120, 46, 116, 115]], .file [] false), ([[113]], .directory),
    ([[113], [120, 46, 116, 115]], .file [] false)]⟩

/-- A server whose projects have an entry `r` in their root. -/
def sampleMarked : ServerDefinition :=
  ⟨"a", "a", [".ts"], ["r"], [], false, none, ⟨["r"], []⟩, .empty, .hosted⟩

lemma linkFree_sampleTree : sampleTree.LinkFree := by
  intro loc target h
  unfold Tree.entry? at h
  split at h
  · cases h
  · obtain ⟨key, -, hmem⟩ := Table.mem_entries_of_find? h
    have hentries : sampleTree.entries.entries =
        [([[112]], .directory), ([[112], [114]], .file [] false),
          ([[112], [120, 46, 116, 115]], .file [] false), ([[113]], .directory),
          ([[113], [120, 46, 116, 115]], .file [] false)] := rfl
    rw [hentries] at hmem
    simp at hmem

/-- The paths `p/x.ts` and `/p/.//x.ts` yield one root. -/
theorem detectRoot_spellings_sample : ∃ a b : Option Location,
    (sampleMarked.detectRoot sampleTree [] (.absolute (.ofLocation [])
      ⟨[112, 47, 120, 46, 116, 115]⟩)).map (sampleTree.locate []) = a.map .ok ∧
    (sampleMarked.detectRoot sampleTree [] (.absolute (.ofLocation [])
      ⟨[47, 112, 47, 46, 47, 47, 120, 46, 116, 115]⟩)).map (sampleTree.locate []) = b.map .ok ∧
    a = b ∧ ∀ l ∈ a, l <+: [[112]] := by
  have hfile : sampleTree.locate [] ⟨[112, 47, 120, 46, 116, 115]⟩ =
      .ok [[112], [120, 46, 116, 115]] := rfl
  obtain ⟨a, b, ha, hb, hiff, -, -, hs⟩ := detectRoot_spellings (d := sampleMarked)
    (p := ⟨[112, 47, 120, 46, 116, 115]⟩) (q := ⟨[47, 112, 47, 46, 47, 47, 120, 46, 116, 115]⟩)
    linkFree_sampleTree ⟨rfl, rfl⟩ hfile rfl rfl
  have hp := hs _ List.mem_cons_self (by decide)
  have hq := hs _ (List.mem_cons_of_mem _ List.mem_cons_self) (by decide)
  exact ⟨a, b, ha, hb, hiff.2 ⟨hp false, hq false, fun h => (h.elim (hp true) (hq true)).elim⟩⟩

/-- The paths `p/../q/x.ts` and `q/x.ts` lead to one file. The first yields the root `/p`, which
does not contain the file, the second none. -/
theorem detectRoot_leaves_file :
    sampleTree.LinkFree ∧ sampleTree.IsWorkingDirectory [] ∧
      sampleTree.locate [] ⟨[112, 47, 46, 46, 47, 113, 47, 120, 46, 116, 115]⟩ =
        .ok [[113], [120, 46, 116, 115]] ∧
      sampleTree.locate [] ⟨[113, 47, 120, 46, 116, 115]⟩ = .ok [[113], [120, 46, 116, 115]] ∧
      sampleTree.entry? [[113], [120, 46, 116, 115]] = some (.file [] false) ∧
      (sampleMarked.detectRoot sampleTree [] (.absolute (.ofLocation [])
        ⟨[112, 47, 46, 46, 47, 113, 47, 120, 46, 116, 115]⟩)).map (sampleTree.locate []) =
          some (.ok [[112]]) ∧
      sampleMarked.detectRoot sampleTree [] (.absolute (.ofLocation [])
        ⟨[113, 47, 120, 46, 116, 115]⟩) = none ∧
      ¬ [[112]] <+: [[113]] := by
  refine ⟨linkFree_sampleTree, ⟨rfl, rfl⟩, rfl, rfl, rfl, ?_, ?_, ?_⟩
  · decide +kernel
  · decide +kernel
  · decide

end Sample

end ServerDefinition

end ServerFleet
