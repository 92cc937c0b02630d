import Mathlib.Data.List.Basic
import ServerFleet.Proofs.Diagnostics.Merging
import ServerFleet.Proofs.Manager.Custody
import ServerFleet.Proofs.Text.Order

/-!
The diagnostics a manager shows. Both kinds of calls go through the live clients in the order of
their instances, which does not depend on how the roster keeps them, and so the list for one file is
the one that it has among all files.
-/

namespace ServerFleet

namespace Aggregate

/-- One after another, what clients show for a path is collected alike whether they report all
their files or this one only. -/
theorem find?_foldl_found {p : Path} (tables : List (String × DiagnosticTable)) {a b : Aggregate}
    (h : a.files.find? p = b.files.find? p) :
    (tables.foldl (fun a (server, table) =>
      match table.find? p with
      | some found => a.extendFile server p found
      | none => a) a).files.find? p =
    (tables.foldl (fun a (server, table) => a.extend server table) b).files.find? p := by
  induction tables generalizing a b with
  | nil => exact h
  | cons x tables ih =>
    obtain ⟨server, table⟩ := x
    have htable : (b.extend server table).files.find? p =
        match table.find? p with
        | some ds => some ((b.files.find? p).getD [] ++ ds.map (·.tag server))
        | none => b.files.find? p := find?_take b (.table server table) p
    have hstep : (match table.find? p with
        | some found => a.extendFile server p found
        | none => a).files.find? p = (b.extend server table).files.find? p := by
      rw [htable]
      cases table.find? p with
      | none => exact h
      | some found => rw [find?_extendFile, h]
    exact ih hstep

end Aggregate

namespace Manager

namespace State

variable {s : State} {tables : ClientId → DiagnosticTable}

/-- The manager when its clients have certain diagnostics to show. -/
def showing (s : State) (tables : ClientId → DiagnosticTable) : State :=
  { s with clients := s.clients.map fun client r => { r with diagnostics := tables client } }

/-- What the live clients show, whatever that is, is collected in the order of their instances. -/
theorem liveTables_showing (h : s.Custody) : (s.showing tables).liveTables =
    s.roster.liveClients.map fun e => (e.1.serverId, tables e.2) := by
  have hfound : ∀ e ∈ s.roster.liveClients,
      (((s.showing tables).clients.find? e.2).map fun c => (e.1.serverId, c.diagnostics)) =
        some (e.1.serverId, tables e.2) := by
    intro e he
    obtain ⟨r, hr, -⟩ := h.live (Table.find?_of_mem (Roster.mem_sortByKey.1 he))
    have hmap := Table.find?_map s.clients
      (fun client r => { r with diagnostics := tables client }) e.2
    rw [hr] at hmap
    have hmap' : (s.showing tables).clients.find? e.2 = some { r with diagnostics := tables e.2 } :=
      hmap
    rw [hmap']
    rfl
  have hroster : (s.showing tables).roster = s.roster := rfl
  unfold liveTables
  rw [hroster]
  exact List.filterMap_eq_map_iff_forall_eq_some.2 hfound

lemma allDiagnostics_showing (h : s.Custody) : (s.showing tables).allDiagnostics =
    .gather (s.roster.liveClients.map fun e => .table e.1.serverId (tables e.2)) := by
  rw [allDiagnostics, liveTables_showing h, Aggregate.gather, Aggregate.takeAll, List.foldl_map,
    List.foldl_map]
  rfl

/-- The list of one file is its list among all files. -/
theorem diagnosticsFor_eq (s : State) (p : Path) :
    s.diagnosticsFor p = (s.allDiagnostics.files.find? p).getD [] :=
  congrArg (·.getD []) (Aggregate.find?_foldl_found s.liveTables rfl)

/-- The list of a path joins what the live clients show for it. -/
theorem find?_allDiagnostics (h : s.Custody) (p : Path) :
    (s.showing tables).allDiagnostics.files.find? p =
      if s.roster.liveClients.any fun e => ((tables e.2).find? p).isSome then
        some (s.roster.liveClients.flatMap fun e =>
          (((tables e.2).find? p).getD []).map fun d =>
            if d.source = none then { d with source := some e.1.serverId } else d)
      else none := by
  have hlist : ∀ (server : String) (ds : List Diagnostic),
      ds.map (·.tag server) =
        ds.map fun d => if d.source = none then { d with source := some server } else d := by
    intro server ds
    exact List.map_congr_left fun d _ => Diagnostic.tag_eq server d
  rw [allDiagnostics_showing h, Aggregate.find?_gather, Aggregate.joined, List.any_map,
    List.flatMap_map]
  simp only [hlist]
  rfl

/-- The order in which the roster keeps the live clients changes nothing. -/
theorem allDiagnostics_of_perm {live : Table InstanceKey ClientId}
    (h : live.entries.Perm s.roster.live.entries) :
    State.allDiagnostics { s with roster := { s.roster with live } } = s.allDiagnostics := by
  have hclients : Roster.liveClients { s.roster with live } = s.roster.liveClients :=
    Roster.sortByKey_eq_of_perm h
  unfold allDiagnostics liveTables
  rw [hclients]

/-- A call that is answered at once is answered in one step, which changes nothing but the call. -/
theorem step?_of_enter {id : CallId} {c : Call} {answer : Answer}
    (hc : s.calls.find? id = some c) (hst : c.stage = .entering)
    (henter : s.enter id c.request = s.finish id answer) :
    s.step? (.run (.call id)) =
      some ({ s with calls := s.calls.insert id (c.finish answer) }, [.answered id answer]) := by
  have hrun : s.runCall id = some (s.finish id answer) := by
    simp [runCall, hc, hst, henter]
  rw [finish_eq hc] at hrun
  exact hrun

end State

/-- Whatever the live clients of a manager show, the list for one file is its list among all files.
It joins the lists of the clients in the order of their instances, and a diagnostic without a source
is attributed to the server of its client. -/
theorem diagnostics_agree {settings : Settings} {surroundings : Surroundings} {delays : List Nat}
    {disabled : List String} {run : List Happening} {s : State}
    (h : Run (.create settings surroundings delays disabled) run s)
    (tables : ClientId → DiagnosticTable) :
    let u := s.showing tables
    (∀ id c, s.calls.find? id = some c → c.stage = .entering → c.request = .allDiagnostics →
      u.step? (.run (.call id)) =
        some ({ u with calls := u.calls.insert id (c.finish (.diagnostics u.allDiagnostics.files)) },
          [.answered id (.diagnostics u.allDiagnostics.files)])) ∧
    (∀ id c file, s.calls.find? id = some c → c.stage = .entering →
      c.request = .diagnosticsForFile file →
      let found := (u.allDiagnostics.files.find? (u.absolute file)).getD []
      u.step? (.run (.call id)) =
        some ({ u with calls := u.calls.insert id (c.finish (.fileDiagnostics found)) },
          [.answered id (.fileDiagnostics found)])) ∧
    (∀ p, u.allDiagnostics.files.find? p =
      if s.roster.liveClients.any fun e => ((tables e.2).find? p).isSome then
        some (s.roster.liveClients.flatMap fun e =>
          (((tables e.2).find? p).getD []).map fun d =>
            if d.source = none then { d with source := some e.1.serverId } else d)
      else none) ∧
    s.roster.liveClients.Perm s.roster.live.entries ∧
    s.roster.liveClients.Pairwise (fun a b => a.1.compare b.1 = .lt) ∧
    ∀ live : Table InstanceKey ClientId, live.entries.Perm s.roster.live.entries →
      State.allDiagnostics { u with roster := { u.roster with live } } = u.allDiagnostics := by
  have hcustody := h.custody (State.coherent_create ..) (State.custody_create ..)
  refine ⟨fun id c hc hst hr => ?_, fun id c file hc hst hr => ?_,
    State.find?_allDiagnostics hcustody, Roster.sortByKey_perm _, Roster.pairwise_lt_sortByKey _,
    fun live hlive => State.allDiagnostics_of_perm hlive⟩
  · exact State.step?_of_enter hc hst (by rw [hr]; rfl)
  · refine State.step?_of_enter hc hst ?_
    rw [hr, ← State.diagnosticsFor_eq]
    rfl

/-- Both instances of the sample manager go live, and two calls ask for diagnostics. -/
def sampleAsked : List Label :=
  sampleRequest 0 ++ sampleConnect 0 ++ sampleReady 0 ++
    [.run (.call 0), .run (.call 0), .run (.call 0)] ++ sampleConnect 1 ++ sampleReady 1 ++
    [.start .allDiagnostics, .start (.diagnosticsForFile sampleFile)]

def sampleTable : DiagnosticTable :=
  ⟨[(sampleFile, [⟨none, none, []⟩])], List.pairwise_singleton _ _⟩

/-- Both instances show something, in the order of their servers, and the call for the file gives
it. -/
theorem diagnostics_agree_sample :
    let u := (sample.follow sampleAsked).showing fun _ => sampleTable
    let found := (u.allDiagnostics.files.find? sampleFile).getD []
    found.map (·.source) = [some "a", some "b"] ∧
      ∃ t, u.step? (.run (.call 2)) = some (t, [.answered 2 (.fileDiagnostics found)]) := by
  have hrun := Run.of_trace sample sampleAsked
  obtain ⟨-, hfile, hfind, -⟩ := diagnostics_agree hrun fun _ => sampleTable
  dsimp only
  constructor
  · have hsorted : (sample.follow sampleAsked).roster.liveClients =
        [(sampleKey "a", 0), (sampleKey "b", 1)] :=
      List.mergeSort_of_pairwise (List.pairwise_pair.2 (by decide +kernel))
    rw [hfind, hsorted]
    decide +kernel
  · exact ⟨_, hfile 2 _ sampleFile rfl rfl rfl⟩

end Manager

end ServerFleet
