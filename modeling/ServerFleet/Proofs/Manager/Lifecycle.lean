import ServerFleet.Proofs.Manager.Dismissal
import ServerFleet.Proofs.Manager.Shutdown

/-!
The life of a client. When all work has settled a client is live, or was refused, or has departed,
and its shutdowns and the announcements about it are as many as this calls for. The one exception
are clients of a call that was given up while it had to shut them down: nobody announces their end.
-/

namespace ServerFleet.Manager

def Scope.ofKey (k : InstanceKey) : Scope := ⟨fun k' _ => k' == k, fun _ h => BEq.congr_left h⟩

/-- What becomes of a client. -/
inductive Fate where
  /-- It is live. -/
  | serving
  /-- It never went live. -/
  | refused
  /-- It went live and left. -/
  | departed
deriving DecidableEq

/-- What a fate says of a client at the end of a run. -/
def HasFate (run : List Happening) (s : State) (client : ClientId) : Fate → Prop
  | .serving => (∃ k, s.roster.live.find? k = some client) ∧ shutdowns run client = 0 ∧
      (Scope.ofClient client).starts run = 1 ∧ (Scope.ofClient client).ends run = 0
  | .refused => (∀ x ∈ run, ∀ k, x.after.roster.live.find? k ≠ some client) ∧
      shutdowns run client = 1 ∧
      (Scope.ofClient client).starts run = 0 ∧ (Scope.ofClient client).ends run = 0
  | .departed => (∃ x ∈ run, ∃ k, x.after.roster.live.find? k = some client) ∧
      (∀ k, s.roster.live.find? k ≠ some client) ∧
      (Scope.ofClient client).starts run = 1 ∧ (Scope.ofClient client).ends run = 1 ∧
      ((∃ x ∈ run, x.Closes client) ∧ shutdowns run client = 0 ∨
        (∀ x ∈ run, ¬ x.Closes client) ∧ shutdowns run client = 1)

/-- A call is given up before it has announced the end of a client that it had to shut down. -/
def Happening.Loses (x : Happening) (client : ClientId) : Prop :=
  ∃ id c e, x.label = .cancel id ∧ x.before.calls.find? id = some c ∧ e ∈ c.duties ∧
    e.client = client ∧ e.call.isShutdown = true ∧ e.stage ≠ .collected

section Losses

variable {z : Scope} {p : ErrandStage → Bool} {run : List Happening}

/-- Whoever is lost is lost with a call that is given up too early. -/
theorem exists_loses (hp : p .collected = false) (h : 0 < lost z p run) :
    ∃ x ∈ run, ∃ client k, x.Loses client ∧ 0 < z.weight k client := by
  obtain ⟨n, hn, hpos⟩ := List.sum_pos_iff_exists_pos_nat.1 h
  obtain ⟨x, hx, rfl⟩ := List.mem_map.1 hn
  unfold State.lost at hpos
  split at hpos
  · next id hl =>
    cases hc : x.before.calls.find? id with
    | none =>
      rw [hc] at hpos
      cases hpos
    | some c =>
      rw [hc] at hpos
      obtain ⟨n, hn, hpos⟩ := List.sum_pos_iff_exists_pos_nat.1 hpos
      obtain ⟨e, he, rfl⟩ := List.mem_map.1 hn
      unfold Errand.held at hpos
      split at hpos
      · next hheld =>
        rw [Bool.and_eq_true] at hheld
        refine ⟨x, hx, e.client, e.key, ⟨id, c, e, hl, hc, he, rfl, hheld.1, fun hst => ?_⟩, hpos⟩
        rw [hst, hp] at hheld
        cases hheld.2
      · cases hpos
  · cases hpos

/-- Nothing is lost with calls that are not given up too early. -/
theorem lost_eq_zero (hp : p .collected = false)
    (h : ∀ x ∈ run, ∀ client, ¬ x.Loses client) : lost z p run = 0 := by
  refine Nat.eq_zero_of_not_pos fun hpos => ?_
  obtain ⟨x, hx, client, -, hlose, -⟩ := exists_loses hp hpos
  exact h x hx client hlose

/-- A client of a call that is given up too early is lost. -/
theorem Happening.Loses.lost_pos {x : Happening} {client : ClientId} (h : x.Loses client)
    (hx : x ∈ run) : 0 < lost (.ofClient client) ErrandStage.isOwed run := by
  obtain ⟨id, c, e, hl, hc, he, hcl, hs, hst⟩ := h
  have hheld : e.held (.ofClient client) ErrandStage.isOwed = 1 := by
    have howed : e.stage.isOwed = true := by
      cases hc : e.stage with
      | collected => exact absurd hc hst
      | _ => rfl
    simp [Errand.held, hs, howed, hcl, Scope.weight_ofClient]
  refine List.sum_pos_iff_exists_pos_nat.2 ⟨_, List.mem_map.2 ⟨x, hx, rfl⟩, ?_⟩
  rw [hl]
  simp only [State.lost, hc, Option.elim_some]
  refine List.sum_pos_iff_exists_pos_nat.2 ⟨_, List.mem_map.2 ⟨e, he, rfl⟩, ?_⟩
  rw [hheld]
  exact Nat.one_pos

end Losses

namespace State

variable {s : State} {z : Scope}

section Settled

lemma Settled.greeting (h : s.Settled) : s.greeting z = 0 := by
  refine Table.total_eq_zero fun e he => ?_
  rw [h.attempts (Table.find?_of_mem he)]
  rfl

lemma Settled.charge (h : s.Settled) (client : ClientId) : s.charge client = 0 := by
  refine Table.total_eq_zero fun e he => ?_
  rw [h.attempts (Table.find?_of_mem he)]
  rfl

lemma Settled.held (h : s.Settled) (p : ErrandStage → Bool) : s.held z p = 0 := by
  refine Table.total_eq_zero fun e he => Call.held_of_duties_eq_nil ?_
  have hover := h.calls (Table.find?_of_mem he)
  unfold Call.duties
  cases hst : e.2.stage with
  | announcing | joining =>
    rw [hst] at hover
    cases hover
  | _ => rfl

lemma Settled.reported (h : s.Settled) : s.reported z = 0 := by
  refine Table.total_eq_zero fun e he => ?_
  rw [ClientRecord.reported, h.pumps (Table.find?_of_mem he)]
  rfl

end Settled

lemma live_ofKey (s : State) (k : InstanceKey) :
    s.live (.ofKey k) = (s.roster.live.contains k).toNat := by
  have herase := Table.total_erase (Scope.ofKey k).weight_congr s.roster.live k
  have hrest : (s.roster.live.erase k).total (Scope.ofKey k).weight = 0 := by
    refine Table.total_eq_zero fun e he => ?_
    have hne := (List.mem_filter.1 he).2
    simpa [Scope.weight, Scope.ofKey] using hne
  rw [hrest, Nat.zero_add] at herase
  refine herase.symm.trans ?_
  unfold Table.contains
  cases s.roster.live.find? k with
  | none => rfl
  | some client => simp [Scope.weight, Scope.ofKey]

lemma live_ofClient_pos_iff {client : ClientId} :
    0 < s.live (.ofClient client) ↔ ∃ k, s.roster.live.find? k = some client := by
  constructor
  · intro h
    obtain ⟨n, hn, hpos⟩ := List.sum_pos_iff_exists_pos_nat.1 h
    obtain ⟨⟨k, c⟩, he, rfl⟩ := List.mem_map.1 hn
    refine ⟨k, (Table.find?_of_mem he).trans (congrArg some ?_)⟩
    by_contra hne
    rw [Scope.weight_ofClient, beq_false_of_ne hne] at hpos
    exact Nat.lt_irrefl _ hpos
  · rintro ⟨k, hk⟩
    have hle := Table.le_total (Scope.ofClient client).weight_congr hk
    rw [Scope.weight_ofClient, BEq.rfl] at hle
    exact hle

end State

/-- How the counts of a client hang together when all work has settled. -/
structure Counted (run : List Happening) (s : State) (client : ClientId) : Prop where
  starts : (Scope.ofClient client).starts run =
    s.live (.ofClient client) + (Scope.ofClient client).ends run
  connected : (s.clients.contains client).toNat =
    shutdownsBy TaskId.isAttempt run client + (Scope.ofClient client).starts run
  dismissed : ∃ closed, (0 < closed ↔ ∃ x ∈ run, x.Closes client) ∧
    shutdownsBy (!·.isAttempt) run client + closed = (Scope.ofClient client).ends run
  live : 0 < (Scope.ofClient client).starts run ↔
    ∃ x ∈ run, ∃ k, x.after.roster.live.find? k = some client

namespace Counted

variable {run : List Happening} {s : State} {client : ClientId}

/-- The counts of a client say what its fate is. -/
theorem exists_fate (h : Counted run s client) (hc : s.clients.contains client = true) :
    ∃ fate, HasFate run s client fate := by
  obtain ⟨closed, hclosed, hdismissed⟩ := h.dismissed
  have hstarts := h.starts
  have hconnected := h.connected
  have hshutdowns := shutdowns_eq run client
  rw [hc, Bool.toNat_true] at hconnected
  by_cases hstart : 0 < (Scope.ofClient client).starts run
  · by_cases hlive : 0 < s.live (.ofClient client)
    · exact ⟨.serving, State.live_ofClient_pos_iff.1 hlive, by omega, by omega, by omega⟩
    · refine ⟨.departed, h.live.1 hstart, fun k hk => ?_, by omega, by omega, ?_⟩
      · exact hlive (State.live_ofClient_pos_iff.2 ⟨k, hk⟩)
      · by_cases hpos : 0 < closed
        · exact .inl ⟨hclosed.1 hpos, by omega⟩
        · exact .inr ⟨fun x hx hcl => hpos (hclosed.2 ⟨x, hx, hcl⟩), by omega⟩
  · refine ⟨.refused, fun x hx k hk => ?_, by omega, by omega, by omega⟩
    exact hstart (h.live.2 ⟨x, hx, k, hk⟩)

end Counted

namespace HasFate

variable {run : List Happening} {s : State} {client : ClientId} {fate fate' : Fate}

/-- The announcements about a client tell its fate. -/
theorem eq_of_announced (h : HasFate run s client fate) :
    fate = if (Scope.ofClient client).starts run = 0 then .refused
      else if (Scope.ofClient client).ends run = 0 then .serving else .departed := by
  cases fate with
  | serving =>
    obtain ⟨-, -, hstarts, hends⟩ := h
    simp [hstarts, hends]
  | refused =>
    obtain ⟨-, -, hstarts, -⟩ := h
    simp [hstarts]
  | departed =>
    obtain ⟨-, -, hstarts, hends, -⟩ := h
    simp [hstarts, hends]

/-- A client that has a fate was not lost. -/
theorem lost_eq_zero (h : HasFate run s client fate) {lost : Nat}
    (hb : (Scope.ofClient client).starts run =
      s.live (.ofClient client) + (Scope.ofClient client).ends run + lost) : lost = 0 := by
  cases fate with
  | serving =>
    obtain ⟨hlive, -, hstarts, hends⟩ := h
    have hpos := State.live_ofClient_pos_iff.2 hlive
    omega
  | refused =>
    obtain ⟨-, -, hstarts, -⟩ := h
    omega
  | departed =>
    obtain ⟨-, -, hstarts, hends, -⟩ := h
    omega

end HasFate

section Runs

variable {settings : Settings} {surroundings : Surroundings} {delays : List Nat}
  {disabled : List String} {run : List Happening} {s : State}

/-- When all work has settled, who was announced is live, or has ended, or was lost. -/
theorem Run.settled_balance (h : Run (.create settings surroundings delays disabled) run s)
    (hs : s.Settled) (z : Scope) :
    z.starts run = s.live z + z.ends run + lost z ErrandStage.isOwed run := by
  have hbalance := h.balance z
  rwa [hs.greeting, hs.held, hs.reported] at hbalance

lemma Run.counted (h : Run (.create settings surroundings delays disabled) run s)
    (hs : s.Settled) (hl : ∀ x ∈ run, ∀ client, ¬ x.Loses client) (client : ClientId) :
    Counted run s client where
  starts := by
    have hbalance := h.settled_balance hs (.ofClient client)
    rwa [lost_eq_zero rfl hl] at hbalance
  connected := by
    have hconnected := h.connected client
    rw [hs.charge, Nat.zero_add] at hconnected
    exact hconnected
  dismissed := by
    obtain ⟨closed, hclosed, hdismissed⟩ := h.dismissed client
    rw [hs.held, hs.reported, lost_eq_zero rfl hl, Nat.zero_add] at hdismissed
    exact ⟨closed, hclosed, hdismissed⟩
  live := by
    have hlive := h.live_iff client
    rw [hs.greeting] at hlive
    exact hlive

/-- When all work has settled, every client has exactly one fate and every instance has had one
start more than ends if it is live, and as many otherwise, exactly if no call was given up before it
had announced the end of a client that it had to shut down. -/
theorem lifecycle_accounted_iff (h : Run (.create settings surroundings delays disabled) run s)
    (hs : s.Settled) :
    ((∀ client, s.clients.contains client = true → ∃! fate, HasFate run s client fate) ∧
      ∀ k, (Scope.ofKey k).starts run =
        (Scope.ofKey k).ends run + (s.roster.live.contains k).toNat) ↔
    ∀ x ∈ run, ∀ client, ¬ x.Loses client := by
  constructor
  · rintro ⟨hfate, -⟩ x hx client hlose
    -- a client that was lost has been announced to have started and is nowhere now
    have hlost := hlose.lost_pos hx
    have hbalance := h.settled_balance hs (.ofClient client)
    have hconnected := h.connected client
    have hcontains : s.clients.contains client = true := by
      by_contra hn
      rw [Bool.not_eq_true] at hn
      rw [hn, Bool.toNat_false] at hconnected
      omega
    obtain ⟨fate, hf, -⟩ := hfate client hcontains
    exact Nat.ne_of_gt hlost (hf.lost_eq_zero hbalance)
  · intro hl
    refine ⟨fun client hc => ?_, fun k => ?_⟩
    · obtain ⟨fate, hf⟩ := (h.counted hs hl client).exists_fate hc
      exact ⟨fate, hf, fun _ hf' => hf'.eq_of_announced.trans hf.eq_of_announced.symm⟩
    · have hbalance := h.settled_balance hs (.ofKey k)
      rw [lost_eq_zero rfl hl, State.live_ofKey] at hbalance
      omega

end Runs

/-- A manager of one server from its first call to the end of its shutdown. -/
def sampleLife : List Label :=
  sampleRequest 0 ++ sampleConnect 0 ++ sampleReady 0 ++ [.run (.attempt 0), .run (.call 0),
    .run (.call 0), .start .shutdown, .run (.call 1)] ++ sampleStop

lemma not_loses_of_trace {s : State} {labels : List Label} (h : labels.all (!·.isCancel) = true)
    {x : Happening} (hx : x ∈ s.trace labels) (client : ClientId) : ¬ x.Loses client := by
  rintro ⟨id, -, -, hl, -⟩
  have hc := List.all_eq_true.1 h _ (State.label_mem_of_trace hx)
  rw [hl] at hc
  cases hc

/-- The client of a manager that is shut down has departed. -/
theorem lifecycle_accounted_sample :
    ((sampleOf ["a"]).follow sampleLife).Settled ∧
      HasFate ((sampleOf ["a"]).trace sampleLife) ((sampleOf ["a"]).follow sampleLife) 0
        .departed := by
  have hs : ((sampleOf ["a"]).follow sampleLife).Settled :=
    .of_values (by decide) (by decide) (by decide)
  have hiff := lifecycle_accounted_iff (Run.of_trace (sampleOf ["a"]) sampleLife) hs
  obtain ⟨fate, hf, -⟩ :=
    (hiff.2 fun x hx client => not_loses_of_trace (by decide) hx client).1 0 (by decide)
  have hfate := hf.eq_of_announced
  have hstarts : (Scope.ofClient 0).starts ((sampleOf ["a"]).trace sampleLife) = 1 := by decide
  have hends : (Scope.ofClient 0).ends ((sampleOf ["a"]).trace sampleLife) = 1 := by decide
  rw [hstarts, hends] at hfate
  subst hfate
  exact ⟨hs, hf⟩

/-- An instance goes live, its server is disabled, and the call is given up while the client shuts
down. -/
def sampleDesert : List Label :=
  sampleRequest 0 ++ sampleConnect 0 ++ sampleReady 0 ++ [.run (.attempt 0), .run (.call 0),
    .run (.call 0), .start (.setServerEnabled "a" false), .run (.call 1), .run (.call 1),
    .run (.errand 1 0), .cancel 1]

/-- The end of a client is not announced when the call that shuts it down is given up. -/
theorem lifecycle_deserted_sample :
    ¬ ∀ (settings : Settings) (surroundings : Surroundings) (delays : List Nat)
      (disabled : List String) (run : List Happening) (s : State),
      Run (.create settings surroundings delays disabled) run s → s.Settled →
      (∀ client, s.clients.contains client = true → ∃! fate, HasFate run s client fate) ∧
        ∀ k, (Scope.ofKey k).starts run =
          (Scope.ofKey k).ends run + (s.roster.live.contains k).toNat := by
  intro hall
  obtain ⟨-, hk⟩ := hall _ _ _ _ _ _ (Run.of_trace (sampleOf ["a"]) sampleDesert)
    (.of_values (by decide) (by decide) (by decide))
  have := hk (sampleKey "a")
  revert this
  decide

end ServerFleet.Manager
