import ServerFleet.Proofs.Config.Servers
import ServerFleet.Proofs.Manager.Enrolment
import ServerFleet.Proofs.Manager.Exclusion
import ServerFleet.Proofs.Text.Order

/-!
The status of a manager. The three tables of the roster are put together into one, which is sorted
and then divided among the servers of the registry. No instance is lost on the way and none comes
twice: every one that is known belongs to exactly one server, and a key that several tables have
is one entry.
-/

namespace ServerFleet

def ServerStatus.keys (x : ServerStatus) : List InstanceKey :=
  x.instances.map fun i => ⟨x.id, i.root⟩

namespace Manager

namespace Roster

variable {r : Roster} {k : InstanceKey}

def knows (r : Roster) (k : InstanceKey) : Bool :=
  r.starting.contains k || r.live.contains k || r.broken.contains k

/-- The state of an instance that is known: being started comes before being live, and both before
being broken. -/
def stateOf (r : Roster) (k : InstanceKey) : InstanceState :=
  if r.starting.contains k then .spawning else if r.live.contains k then .running else .broken

lemma find?_states (r : Roster) (k : InstanceKey) :
    r.states.find? k = if r.knows k then some (r.stateOf k) else none := by
  unfold states knows stateOf
  simp only [Table.find?_foldl_insert, Table.find?_foldl_insert_new, Table.find?_empty,
    ← Table.contains_eq_any_entries]
  cases r.starting.contains k <;> cases r.live.contains k <;> cases r.broken.contains k <;> rfl

lemma contains_states (r : Roster) (k : InstanceKey) : r.states.contains k = r.knows k := by
  unfold Table.contains
  rw [find?_states]
  cases r.knows k <;> rfl

lemma live_of_stateOf (h : r.stateOf k = .running) : r.live.contains k = true := by
  unfold stateOf at h
  split at h
  · cases h
  · split at h
    · next hl => exact hl
    · cases h

/-- The entries of the instances of a server, in the order of their roots. -/
def entriesOf (r : Roster) (server : String) : List (InstanceKey × InstanceState) :=
  (sortByKey r.states.entries).filter fun e => e.1.serverId == server

lemma mem_entriesOf {server : String} {e : InstanceKey × InstanceState}
    (he : e ∈ r.entriesOf server) : e.1.serverId = server ∧ e.2 = r.stateOf e.1 := by
  obtain ⟨hmem, hid⟩ := List.mem_filter.1 he
  have hf := Table.find?_of_mem (mem_sortByKey.1 hmem)
  rw [find?_states] at hf
  split at hf
  · exact ⟨by simpa using hid, (Option.some.inj hf).symm⟩
  · cases hf

/-- An instance that is known has one entry with its own server, and none with the others. -/
theorem countP_entriesOf (r : Roster) (server : String) (k : InstanceKey) :
    (r.entriesOf server).countP (·.1 == k) =
      if k.serverId = server then (r.knows k).toNat else 0 := by
  rw [entriesOf, List.countP_filter]
  split
  · next hid =>
    rw [← contains_states, ← Table.countP_entries, (sortByKey_perm _).countP_eq]
    refine List.countP_congr fun e _ => ?_
    simp only [Bool.and_eq_true, beq_iff_eq]
    exact ⟨fun h => h.1, fun h => ⟨h, (InstanceKey.serverId_eq_of_beq h).trans hid⟩⟩
  · next hid =>
    refine List.countP_eq_zero.2 fun e _ h => ?_
    simp only [Bool.and_eq_true, beq_iff_eq] at h
    exact hid ((InstanceKey.serverId_eq_of_beq h.1).symm.trans h.2)

/-- The roots of a server increase: keys that are sorted and differ, with one id. -/
theorem pairwise_entriesOf (r : Roster) (server : String) :
    (r.entriesOf server).Pairwise fun a b => a.1.root.compare b.1.root = .lt := by
  refine ((pairwise_lt_sortByKey r.states).filter _).imp_of_mem fun {a b} ha hb h => ?_
  have hid : a.1.serverId = b.1.serverId :=
    (mem_entriesOf ha).1.trans (mem_entriesOf hb).1.symm
  rwa [InstanceKey.compare_of_serverId_eq hid] at h

end Roster

namespace State

variable {s : State} {k : InstanceKey}

def summary (s : State) (d : ServerDefinition) : ServerStatus :=
  ⟨d.id, d.name, !s.roster.isDisabled d.id, s.surroundings.installed d, d.extensions,
    s.roster.instances d.id⟩

lemma keys_summary (s : State) (d : ServerDefinition) :
    (s.summary d).keys = (s.roster.entriesOf d.id).map (·.1) := by
  unfold ServerStatus.keys summary Roster.instances
  rw [List.map_map]
  refine List.map_congr_left fun e he => ?_
  rw [← (Roster.mem_entriesOf he).1]
  rfl

/-- Servers with different ids share no instance, so all entries together have an instance as often
as the entry of its own server does. -/
theorem countP_keys {servers : List ServerDefinition} (h : (servers.map (·.id)).Nodup) :
    ((servers.map s.summary).flatMap ServerStatus.keys).countP (· == k) =
      if k.serverId ∈ servers.map (·.id) then (s.roster.knows k).toNat else 0 := by
  induction servers with
  | nil => rfl
  | cons d rest ih =>
    rw [List.map_cons, List.nodup_cons] at h
    rw [List.map_cons, List.flatMap_cons, List.countP_append, ih h.2, keys_summary, List.countP_map]
    have hd := s.roster.countP_entriesOf d.id k
    rw [show ((· == k) ∘ fun e : InstanceKey × InstanceState => e.1) = (·.1 == k) from rfl, hd]
    by_cases hid : k.serverId = d.id
    · have hrest : k.serverId ∉ rest.map (·.id) := hid ▸ h.1
      simp [hid, hid ▸ hrest]
    · simp [hid]

lemma mem_instances_summary {d : ServerDefinition} {i : InstanceStatus}
    (hi : i ∈ (s.summary d).instances) :
    i.state = s.roster.stateOf ⟨d.id, i.root⟩ ∧
      i.retries = s.roster.retries.retryCount ⟨d.id, i.root⟩ := by
  obtain ⟨e, he, rfl⟩ := List.mem_map.1 hi
  obtain ⟨hid, hstate⟩ := Roster.mem_entriesOf he
  have hk : (⟨d.id, e.1.root⟩ : InstanceKey) = e.1 := by rw [← hid]
  dsimp only
  rw [hk]
  exact ⟨hstate, rfl⟩

lemma pairwise_instances_summary (s : State) (d : ServerDefinition) :
    (s.summary d).instances.Pairwise fun i j => i.root.compare j.root = .lt :=
  List.pairwise_map.2 (s.roster.pairwise_entriesOf d.id)

/-- A call for the status gives it in one step, which changes nothing but the call. -/
theorem step?_status {id : CallId} {c : Call} (hc : s.calls.find? id = some c)
    (hst : c.stage = .entering) (hr : c.request = .status) :
    s.step? (.run (.call id)) =
      some ({ s with calls := s.calls.insert id (c.finish (.status s.status)) },
        [.answered id (.status s.status)]) := by
  have hrun : s.runCall id = some (s.finish id (.status s.status)) := by
    simp [runCall, hc, hst, hr, enter]
  rw [finish_eq hc] at hrun
  exact hrun

end State

/-- The status is an exact view of a manager: one entry for each server in the order of the
registry, and in it the instances of the server that are live, being started or broken, in the order
of their roots. No instance that the manager knows is missing and none comes twice. -/
theorem status_exact {settings : Settings} {surroundings : Surroundings} {delays : List Nat}
    {disabled : List String} {run : List Happening} {s : State} (hm : settings.registry.Made)
    (h : Run (.create settings surroundings delays disabled) run s) :
    (∀ id c, s.calls.find? id = some c → c.stage = .entering → c.request = .status →
      s.step? (.run (.call id)) =
        some ({ s with calls := s.calls.insert id (c.finish (.status s.status)) },
          [.answered id (.status s.status)])) ∧
    s.status.map (·.id) = settings.registry.ids ∧
    (∀ k, (s.status.flatMap ServerStatus.keys).countP (· == k) =
      if s.roster.live.contains k ∨ s.roster.starting.contains k ∨ s.roster.broken.contains k then 1
      else 0) ∧
    ∀ x ∈ s.status,
      (x.enabled = false ↔ x.id ∈ s.roster.disabled) ∧
      x.instances.Pairwise (fun i j => i.root.compare j.root = .lt) ∧
      ∀ i ∈ x.instances,
        i.state = (if s.roster.starting.contains ⟨x.id, i.root⟩ then .spawning
          else if s.roster.live.contains ⟨x.id, i.root⟩ then .running else .broken) ∧
        i.retries = s.roster.retries.retryCount ⟨x.id, i.root⟩ ∧
        i.retries ≤ delays.length ∧ (i.state = .running → i.retries = 0) := by
  have hc := State.coherent_create settings surroundings delays disabled
  have hr := State.rooted_create settings surroundings delays disabled
  have hs : s.settings = settings := h.settings_eq
  have hids : (s.settings.registry.servers.map (·.id)).Nodup := by
    rw [hs]
    exact hm.nodup
  refine ⟨fun id c => State.step?_status, ?_, fun k => ?_, fun x hx => ?_⟩
  · rw [← hs]
    exact List.map_map
  · have hcount : (s.status.flatMap ServerStatus.keys).countP (· == k) = _ :=
      State.countP_keys hids
    rw [hcount]
    by_cases hk : s.roster.live.contains k ∨ s.roster.starting.contains k ∨
        s.roster.broken.contains k
    · -- whatever is known belongs to a server of the registry
      have hmem := (h.enrolled hc hr (State.enrolled_create ..)).known (h.coherent hc)
        (h.rooted hc hr) hk
      have hmem' : k.serverId ∈ s.settings.registry.servers.map (·.id) := hmem
      rw [if_pos hmem', if_pos hk]
      obtain hk | hk | hk := hk <;> simp [Roster.knows, hk]
    · rw [if_neg hk]
      simp only [not_or, Bool.not_eq_true] at hk
      simp [Roster.knows, hk.1, hk.2.1, hk.2.2]
  · obtain ⟨d, -, rfl⟩ : ∃ d ∈ s.settings.registry.servers, s.summary d = x := List.mem_map.1 hx
    refine ⟨?_, s.pairwise_instances_summary d, fun i hi => ?_⟩
    · simp [State.summary, Roster.isDisabled]
    · obtain ⟨hstate, hretries⟩ := State.mem_instances_summary hi
      obtain ⟨hb, hd⟩ := h.bounded (RetryScheduler.bounded_create delays)
      refine ⟨hstate, hretries, ?_, fun hrunning => ?_⟩
      · have hle := hb ⟨d.id, i.root⟩
        rw [hd] at hle
        rw [hretries]
        exact hle
      · have hlive := Roster.live_of_stateOf (hstate.symm.trans hrunning)
        have hclear := h.exclusive hc (State.exclusive_create _ _ _ _) _ hlive
        rw [hretries]
        exact RetryScheduler.retryCount_of_not_contains _ hclear.no_record

/-- The registry of a sample manager is put together from its servers. -/
theorem made_sample : sample.settings.registry.Made :=
  .replace (.replace .empty (sampleServer "a")) (sampleServer "b")

/-- The sample manager when one instance is live and the other one is being started. -/
def sampleListed : State := sampleStarted.follow [.run (.call 0), .run (.call 0), .run (.call 0)]

/-- Both instances are in the status. -/
theorem status_exact_sample :
    sampleListed.roster.live.contains (sampleKey "a") = true ∧
      sampleListed.roster.starting.contains (sampleKey "b") = true ∧
      sampleListed.status.map (·.id) = ["a", "b"] ∧
      (sampleListed.status.flatMap ServerStatus.keys).countP (· == sampleKey "a") = 1 ∧
      (sampleListed.status.flatMap ServerStatus.keys).countP (· == sampleKey "b") = 1 := by
  have hrun := (Run.of_trace sample _).append (Run.of_trace sampleStarted
    [.run (.call 0), .run (.call 0), .run (.call 0)])
  obtain ⟨-, hids, hkeys, -⟩ := status_exact made_sample hrun
  have ha : sampleListed.roster.live.contains (sampleKey "a") = true := by decide
  have hb : sampleListed.roster.starting.contains (sampleKey "b") = true := by decide
  refine ⟨ha, hb, hids, ?_, ?_⟩
  · exact (hkeys _).trans (if_pos (.inl ha))
  · exact (hkeys _).trans (if_pos (.inr (.inl hb)))

end Manager

end ServerFleet
