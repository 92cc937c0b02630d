import ServerFleet.Proofs.Config.Servers
import ServerFleet.Proofs.Manager.Origin

/-!
Which servers a manager deals with. Calls go through definitions of the registry, which never
changes, so every instance that a manager knows belongs to a server of its registry.
-/

namespace ServerFleet.Manager

def CallStage.left : CallStage → List ServerDefinition
  | routing left _ => left
  | admitting _ left _ => left
  | joined _ left _ => left
  | _ => []

namespace State

variable {s s' : State} {l : Label} {effects : List Effect}

lemma Move.settings_eq (hm : s.Move l s' effects) : s'.settings = s.settings := by
  cases hm <;> rfl

/-- Calls and attempts are about servers of the registry. -/
structure Enrolled (s : State) : Prop where
  left : ∀ {id c}, s.calls.find? id = some c → c.stage.left ⊆ s.settings.registry.servers
  admitted : ∀ {id c k left found}, s.calls.find? id = some c →
    c.stage = .admitting k left found → k.serverId ∈ s.settings.registry.ids
  attempt : ∀ {id a}, s.attempts.find? id = some a → a.key.serverId ∈ s.settings.registry.ids

lemma enrolled_create (settings : Settings) (surroundings : Surroundings) (delays : List Nat)
    (disabled : List String) : (create settings surroundings delays disabled).Enrolled where
  left h := nomatch h
  admitted h := nomatch h
  attempt h := nomatch h

/-- A call goes on with definitions that it had before, or takes up those for its file. -/
theorem CallGoes.left_subset {id : CallId} {c c' : Call} (h : s.CallGoes id c l c' effects)
    (hc : c.stage.left ⊆ s.settings.registry.servers) :
    c'.stage.left ⊆ s.settings.registry.servers := by
  cases h with
  | route => exact (Registry.sublist_forFile _ _).subset
  | skip h | detect h =>
    rw [h] at hc
    exact fun d hd => hc (List.mem_cons_of_mem _ hd)
  | refuse h | find h | join h | obtain h =>
    rw [h] at hc
    exact hc
  | collect => exact hc
  | _ => exact List.nil_subset _

/-- The instance that a call looks up is one of the next definition. -/
theorem CallGoes.serverId_mem {id : CallId} {c c' : Call} (h : s.CallGoes id c l c' effects)
    (hc : c.stage.left ⊆ s.settings.registry.servers) {k : InstanceKey}
    {left : List ServerDefinition} {found : List ClientId}
    (hst : c'.stage = .admitting k left found) : k.serverId ∈ s.settings.registry.ids := by
  cases h with
  | detect h =>
    rw [h] at hc
    cases hst
    exact List.mem_map.2 ⟨_, hc List.mem_cons_self, rfl⟩
  | collect h =>
    rw [h] at hst
    cases hst
  | _ => cases hst

lemma left_dismiss (c : Call) (server : String) (enabled changed : Bool)
    (removed : List (InstanceKey × ClientId)) :
    (c.dismiss server enabled changed removed).stage.left = [] := by
  cases changed <;> rfl

lemma dismiss_ne (c : Call) (server : String) (enabled changed : Bool)
    (removed : List (InstanceKey × ClientId)) {k : InstanceKey} {left : List ServerDefinition}
    {found : List ClientId} :
    (c.dismiss server enabled changed removed).stage ≠ .admitting k left found := by
  cases changed <;> exact nofun

/-- Whatever routing began an attempt for belongs to the registry. -/
theorem Enrolled.routed (h : s.Enrolled) {k : InstanceKey} {epoch : Nat} (hk : s.Routed k epoch) :
    k.serverId ∈ s.settings.registry.ids := by
  obtain ⟨id, a, ha, hka, -⟩ := hk
  rw [← InstanceKey.serverId_eq_of_beq hka]
  exact h.attempt ha

/-- Attempts stay with the registry: a new one is for the instance that a call looks up, or repeats
one that routing began. -/
theorem Enrolled.attempt_move (h : s.Enrolled) (hr : s.Rooted) (hm : s.Move l s' effects)
    {id : AttemptId} {a : Attempt} (ha : s'.attempts.find? id = some a) :
    a.key.serverId ∈ s.settings.registry.ids := by
  cases hm with
  | attempt hf | connected hf | settle hf =>
    obtain ⟨-, rfl⟩ | ⟨-, ha⟩ := Table.find?_insert_cases ha
    · have hk := h.attempt hf
      exact hk
    · exact h.attempt ha
  | reserve hc hst =>
    obtain ⟨-, rfl⟩ | ⟨-, ha⟩ := Table.find?_insert_cases ha
    · have hk := h.admitted hc hst
      exact hk
    · exact h.attempt ha
  | retry hf =>
    obtain ⟨-, rfl⟩ | ⟨-, ha⟩ := Table.find?_insert_cases ha
    · have hk := h.routed (hr.fired hf)
      exact hk
    · exact h.attempt ha
  | _ => exact h.attempt ha

/-- Calls stay with the registry. -/
theorem Enrolled.call_move (h : s.Enrolled) (hm : s.Move l s' effects) {id : CallId} {c : Call}
    (hc : s'.calls.find? id = some c) :
    c.stage.left ⊆ s.settings.registry.servers ∧ ∀ k left found,
      c.stage = .admitting k left found → k.serverId ∈ s.settings.registry.ids := by
  have old : ∀ {c : Call}, s.calls.find? id = some c →
      c.stage.left ⊆ s.settings.registry.servers ∧ ∀ k left found,
        c.stage = .admitting k left found → k.serverId ∈ s.settings.registry.ids :=
    fun hc => ⟨h.left hc, fun _ _ _ => h.admitted hc⟩
  cases hm with
  | call hf hg =>
    obtain ⟨-, rfl⟩ | ⟨-, hc⟩ := Table.find?_insert_cases hc
    · exact ⟨hg.left_subset (h.left hf), fun _ _ _ => hg.serverId_mem (h.left hf)⟩
    · exact old hc
  | errand hf =>
    obtain ⟨rfl, rfl⟩ | ⟨-, hc⟩ := Table.find?_insert_cases hc
    · have hold := old hf
      exact hold
    · exact old hc
  | reserve hf hst =>
    obtain ⟨-, rfl⟩ | ⟨-, hc⟩ := Table.find?_insert_cases hc
    · have hl := h.left hf
      rw [hst] at hl
      exact ⟨hl, nofun⟩
    · exact old hc
  | start | cancel | forgetBroken | forgetRetries | shutDown =>
    obtain ⟨-, rfl⟩ | ⟨-, hc⟩ := Table.find?_insert_cases hc
    · exact ⟨List.nil_subset _, nofun⟩
    · exact old hc
  | enable | disable =>
    obtain ⟨-, rfl⟩ | ⟨-, hc⟩ := Table.find?_insert_cases hc
    · exact ⟨left_dismiss .. ▸ List.nil_subset _, fun _ _ _ hst => (dismiss_ne _ _ _ _ _ hst).elim⟩
    · exact old hc
  | _ => exact old hc

lemma Enrolled.move (h : s.Enrolled) (hr : s.Rooted) (hm : s.Move l s' effects) :
    s'.Enrolled := by
  have hs : s'.settings = s.settings := hm.settings_eq
  constructor
  · intro id c hc
    rw [hs]
    exact (h.call_move hm hc).1
  · intro id c k left found hc
    rw [hs]
    exact (h.call_move hm hc).2 k left found
  · intro id a ha
    rw [hs]
    exact h.attempt_move hr hm ha

/-- Every instance that a manager knows belongs to a server of its registry. -/
theorem Enrolled.known (h : s.Enrolled) (hc : s.Coherent) (hr : s.Rooted) {k : InstanceKey}
    (hk : s.roster.live.contains k = true ∨ s.roster.starting.contains k = true ∨
      s.roster.broken.contains k = true) : k.serverId ∈ s.settings.registry.ids := by
  obtain hk | hk | hk := hk
  · exact h.routed (hr.live hk)
  · obtain ⟨id, hid⟩ := Table.contains_iff.1 hk
    obtain ⟨a, ha, hka, -⟩ := hc.starting.1 hid
    rw [← InstanceKey.serverId_eq_of_beq hka]
    exact h.attempt ha
  · exact h.routed (hr.broken hk)

end State

lemma Run.enrolled {s t : State} {run : List Happening} (h : Run s run t) (hc : s.Coherent)
    (hr : s.Rooted) (hs : s.Enrolled) : t.Enrolled := by
  induction h with
  | start => exact hs
  | next h hn ih => exact ih.move (h.rooted hc hr) hn.move

lemma Run.settings_eq {s t : State} {run : List Happening} (h : Run s run t) :
    t.settings = s.settings := by
  induction h with
  | start => rfl
  | next _ hn ih => exact hn.move.settings_eq.trans ih

end ServerFleet.Manager
