import ServerFleet.Proofs.Manager.Reservation

/-!
No instance is started twice at a time. At most one attempt of the current epoch is in flight for
a key, an attempt begins only where nothing forbids it, and all calls that wait for one attempt
are given the same result.
-/

namespace ServerFleet.Manager

namespace Happening

/-- A failed attempt sets up a retry in its own epoch, under the next timer. -/
def SetsUp (x : Happening) (timer : Nat) (plan : RetryPlan) : Prop :=
  (∃ id a, x.label = .run (.attempt id) ∧ x.before.attempts.find? id = some a ∧
    a.stage = .concluded .failed ∧ a.epoch = x.before.roster.epoch ∧ plan = ⟨a.key, a.epoch⟩) ∧
  x.before.roster.retries.nextTimer = timer ∧ x.after.roster.retries.nextTimer = timer + 1 ∧
    ∃ sleeper ∈ x.after.roster.retries.sleepers, sleeper.id = timer ∧ sleeper.action = plan

/-- A timer that has fired makes a retry go on. -/
def Retries (x : Happening) (timer : Nat) (plan : RetryPlan) : Prop :=
  x.label = .run (.timer timer) ∧ (timer, plan) ∈ x.before.fired

/-- A call looks an instance up and is told to wait for an attempt. -/
def Joins (x : Happening) (call : CallId) (k : InstanceKey) (id : AttemptId) : Prop :=
  ∃ c c' left found, x.label = .run (.call call) ∧
    x.before.calls.find? call = some c ∧ c.stage = .admitting k left found ∧
    x.after.calls.find? call = some c' ∧ c'.stage = .joined id left found

/-- A call that waits for an attempt goes on. -/
def Resumes (x : Happening) (call : CallId) (id : AttemptId) : Prop :=
  ∃ c left found, x.label = .run (.call call) ∧ x.before.calls.find? call = some c ∧
    c.stage = .joined id left found

/-- A call that waits for an attempt goes on with a result of it: a client, or none. -/
def Obtains (x : Happening) (call : CallId) (id : AttemptId) (result : Option ClientId) : Prop :=
  ∃ c left found, x.label = .run (.call call) ∧ x.before.calls.find? call = some c ∧
    c.stage = .joined id left found ∧
    x.after.calls.find? call = some { c with stage := .routing left (found ++ result.toList) }

end Happening

namespace State

variable {s s' : State} {l : Label} {effects : List Effect}

/-- A sleeping timer was there before, or is set up now. -/
theorem Move.mem_sleepers (hm : s.Move l s' effects) {x : Sleeper RetryPlan}
    (hx : x ∈ s'.roster.retries.sleepers) :
    (∃ y ∈ s.roster.retries.sleepers, y.id = x.id ∧ y.action = x.action) ∨
      (⟨s, l, effects, s'⟩ : Happening).SetsUp x.id x.action := by
  have old : x ∈ s.roster.retries.sleepers →
      (∃ y ∈ s.roster.retries.sleepers, y.id = x.id ∧ y.action = x.action) ∨
        (⟨s, l, effects, s'⟩ : Happening).SetsUp x.id x.action :=
    fun h => .inl ⟨x, h, rfl, rfl⟩
  cases hm with
  | @settle id a _ _ _ ha hst hr =>
    cases hr with
    | started => exact old (RetryScheduler.mem_sleepers_clear _ hx)
    | unavailable => exact old (RetryScheduler.mem_sleepers_clear _ hx)
    | failed he =>
      obtain h | ⟨hid, hact, hn⟩ := RetryScheduler.mem_sleepers_schedule _ _ _ _ hx
      · exact old h
      · refine .inr ⟨⟨id, a, rfl, ha, hst, he.symm, ?_⟩, hid.symm, ?_, x, hx, rfl, rfl⟩
        · rw [hact, he]
        · rw [hid]
          exact hn
    | _ => exact old hx
  | forgetRetries => exact old (RetryScheduler.mem_sleepers_clearServer _ hx)
  | shutDown => exact old (RetryScheduler.mem_sleepers_cancelAll hx)
  | unhook hu => exact old ((RetryScheduler.unhook?_eq hu).2.2.2.1 x hx)
  | wake hw => exact .inl ((RetryScheduler.wake?_eq hw).2.2.2 x hx)
  | _ => exact old hx

/-- A timer that has fired had fired before, or was asleep until now. -/
theorem Move.mem_fired (hm : s.Move l s' effects) {p : Nat × RetryPlan} (hp : p ∈ s'.fired) :
    p ∈ s.fired ∨ ∃ y ∈ s.roster.retries.sleepers, y.id = p.1 ∧ y.action = p.2 := by
  cases hm with
  | drop => exact .inl (List.mem_filter.1 hp).1
  | retry => exact .inl (List.mem_filter.1 hp).1
  | @unhook timer retries sleeper hu =>
    obtain hp | hp := List.mem_append.1 hp
    · exact .inl hp
    · obtain ⟨y, hy, rfl⟩ := List.mem_map.1 hp
      obtain ⟨hmem, hid⟩ := (RetryScheduler.unhook?_eq hu).2.2.2.2 y (Option.mem_toList.1 hy)
      exact .inr ⟨y, hmem, hid, rfl⟩
  | _ => exact .inl hp

section Calls

variable {call : CallId} {c : Call} {left : List ServerDefinition} {found : List ClientId}

/-- A call that waits for an attempt goes on only with what is published of it. -/
theorem Move.of_joined {id : AttemptId} (hm : s.Move (.run (.call call)) s' effects)
    (hc : s.calls.find? call = some c) (hst : c.stage = .joined id left found) :
    ∃ a result, s.attempts.find? id = some a ∧ a.published = some result ∧
      s' = { s with
        calls := s.calls.insert call
          { c with stage := .routing left (found ++ result.toList) } } := by
  cases hm with
  | attempt _ h => cases h
  | errand _ _ _ h => cases h
  | client _ h => cases h
  | call hc' h =>
    cases h with
    | obtain h ha hp =>
      cases hc.symm.trans hc'
      cases hst.symm.trans h
      exact ⟨_, _, ha, hp, rfl⟩
    | answer h =>
      cases hc.symm.trans hc'
      simp [hst] at h
    | _ h =>
      cases hc.symm.trans hc'
      cases hst.symm.trans h
  | reserve hc' h | enable hc' h | disable hc' h | forgetBroken hc' h | forgetRetries hc' h
  | shutDown hc' h =>
    cases hc.symm.trans hc'
    cases hst.symm.trans h

/-- A call that looks an instance up and then waits for an attempt waits for the one that is named
in the table after that. -/
theorem Move.of_admitting {k : InstanceKey} {id : AttemptId} {c' : Call}
    (hm : s.Move (.run (.call call)) s' effects) (hc : s.calls.find? call = some c)
    (hst : c.stage = .admitting k left found) (hc' : s'.calls.find? call = some c')
    (hst' : c'.stage = .joined id left found) : s'.roster.starting.find? k = some id := by
  cases hm with
  | attempt _ h => cases h
  | errand _ _ _ h => cases h
  | client _ h => cases h
  | call hb h =>
    cases h with
    | join h hk =>
      cases hc.symm.trans hb
      cases hst.symm.trans h
      simp only [Table.find?_insert_self, Option.some.injEq] at hc'
      cases hc'
      cases hst'
      exact hk
    | refuse h | find h =>
      cases hc.symm.trans hb
      simp only [Table.find?_insert_self, Option.some.injEq] at hc'
      cases hc'
      cases hst'
    | answer h =>
      cases hc.symm.trans hb
      simp [hst] at h
    | _ h =>
      cases hc.symm.trans hb
      cases hst.symm.trans h
  | reserve hb h =>
    cases hc.symm.trans hb
    cases hst.symm.trans h
    simp only [Table.find?_insert_self, Option.some.injEq] at hc'
    cases hc'
    cases hst'
    simp
  | enable hb h | disable hb h | forgetBroken hb h | forgetRetries hb h | shutDown hb h =>
    cases hc.symm.trans hb
    cases hst.symm.trans h

end Calls

end State

section Runs

variable {settings : Settings} {surroundings : Surroundings} {delays : List Nat}
  {disabled : List String} {run : List Happening} {s : State}

/-- Every timer of a run was set up in the run, whether it sleeps or has fired. -/
theorem Run.setsUp (h : Run (.create settings surroundings delays disabled) run s) :
    (∀ x ∈ s.roster.retries.sleepers, ∃ y ∈ run, y.SetsUp x.id x.action) ∧
      ∀ p ∈ s.fired, ∃ y ∈ run, y.SetsUp p.1 p.2 := by
  induction h with
  | start => exact ⟨nofun, nofun⟩
  | next _ hn ih =>
    obtain ⟨hs, hf⟩ := ih
    constructor
    · intro x hx
      obtain ⟨y, hy, hid, ha⟩ | hx := hn.move.mem_sleepers hx
      · obtain ⟨z, hz, hup⟩ := hs y hy
        rw [hid, ha] at hup
        exact ⟨z, List.mem_append_left _ hz, hup⟩
      · exact ⟨_, List.mem_append_right _ (List.mem_singleton.2 rfl), hx⟩
    · intro p hp
      obtain hp | ⟨y, hy, hid, ha⟩ := hn.move.mem_fired hp
      · obtain ⟨z, hz, hup⟩ := hf p hp
        exact ⟨z, List.mem_append_left _ hz, hup⟩
      · obtain ⟨z, hz, hup⟩ := hs y hy
        rw [hid, ha] at hup
        exact ⟨z, List.mem_append_left _ hz, hup⟩

/-- A new attempt begins where its key is free, and where it is not broken unless a retry of the
current epoch begins it. -/
theorem Happening.Begins.admitted {x : Happening} {id : AttemptId} {a : Attempt}
    (hb : x.Begins id a) (hm : x.before.Move x.label x.after x.effects) :
    x.before.roster.isDisabled a.key.serverId = false ∧
      x.before.roster.live.contains a.key = false ∧
      x.before.roster.starting.contains a.key = false ∧
      (x.before.roster.broken.contains a.key = false ∨
        a.byRetry = true ∧ ∃ timer plan, x.Retries timer plan ∧ plan.key = a.key ∧
          plan.epoch = x.before.roster.epoch) := by
  obtain ⟨hn, ha⟩ := hb
  cases hm.attempts with
  | keep hs | shutDown hs =>
    rw [hs, hn] at ha
    cases ha
  | forward hf _ hs | settle hf _ hs =>
    rw [hs] at ha
    obtain ⟨rfl, -⟩ | ⟨-, ha⟩ := Table.find?_insert_cases ha
    · cases hn.symm.trans hf
    · cases hn.symm.trans ha
  | reserve hd hb hl hk hs =>
    rw [hs] at ha
    obtain ⟨rfl, rfl⟩ | ⟨-, ha⟩ := Table.find?_insert_cases ha
    · exact ⟨hd, hl, Table.contains_eq_false.2 hk, .inl hb⟩
    · cases hn.symm.trans ha
  | @retry timer plan hr hp he hd hl hk hs =>
    rw [hs] at ha
    obtain ⟨rfl, rfl⟩ | ⟨-, ha⟩ := Table.find?_insert_cases ha
    · exact ⟨hd, hl, Table.contains_eq_false.2 hk,
        .inr ⟨rfl, timer, plan, ⟨hr, hp⟩, rfl, he⟩⟩
    · cases hn.symm.trans ha

/-- What a call obtains is published, and stays so to the end of the run. -/
theorem Run.obtains (h : Run (.create settings surroundings delays disabled) run s)
    {x : Happening} (hx : x ∈ run) {call : CallId} {id : AttemptId} (hr : x.Resumes call id) :
    ∃ a result, s.attempts.find? id = some a ∧ a.published = some result ∧
      x.Obtains call id result := by
  obtain ⟨earlier, later, rfl, he, hn, ht⟩ := h.split_of_mem hx
  have hcoh := he.coherent (State.coherent_create settings surroundings delays disabled)
  have hm := hn.move
  obtain ⟨c, left, found, hl, hc, hst⟩ := hr
  rw [hl] at hm
  obtain ⟨a, result, ha, hp, hs⟩ := hm.of_joined hc hst
  obtain ⟨b, hb, hab⟩ := hn.move.attempts.continues hcoh ha
  obtain ⟨d, hd, hbd⟩ := ht.continues (hcoh.move hn.move) hb
  refine ⟨d, result, hd, hbd.published (hab.published hp), c, left, found, hl, hc, hst, ?_⟩
  rw [hs]
  exact Table.find?_insert_self _ _ _

/-- The table of a manager names exactly the attempts in flight, one for a key. An attempt begins
only for an enabled server and a key that is neither live nor being started, and a broken one only
through a retry that was set up in the same epoch. All calls that wait for an attempt are given
one result. -/
theorem attempts_deduplicated (h : Run (.create settings surroundings delays disabled) run s) :
    (∀ k id, s.roster.starting.find? k = some id ↔ s.InFlight k id) ∧
    (∀ k id id', s.InFlight k id → s.InFlight k id' → id = id') ∧
    (∀ earlier x later id a, run = earlier ++ x :: later → x.Begins id a →
      x.before.roster.isDisabled a.key.serverId = false ∧
      x.before.roster.live.contains a.key = false ∧
      x.before.roster.starting.contains a.key = false ∧
      (x.before.roster.broken.contains a.key = false ∨
        a.byRetry = true ∧ ∃ timer plan, x.Retries timer plan ∧ plan.key = a.key ∧
          plan.epoch = x.before.roster.epoch ∧ ∃ y ∈ earlier, y.SetsUp timer plan)) ∧
    (∀ x ∈ run, ∀ call k id, x.Joins call k id → x.after.InFlight k id) ∧
    ∀ id, ∃ result, ∀ x ∈ run, ∀ call, x.Resumes call id → x.Obtains call id result := by
  have hcreate := State.coherent_create settings surroundings delays disabled
  have hcoh := h.coherent hcreate
  refine ⟨fun k id => hcoh.starting, ?_, ?_, ?_, ?_⟩
  · intro k id id' hf hf'
    have hid := hcoh.starting.2 hf
    rw [hcoh.starting.2 hf'] at hid
    exact (Option.some.inj hid).symm
  · rintro earlier x later id a rfl hb
    obtain ⟨he, hn, -⟩ := h.split
    obtain ⟨hd, hl, hs, hbr | ⟨hby, timer, plan, hr, hk, hp⟩⟩ := hb.admitted hn.move
    · exact ⟨hd, hl, hs, .inl hbr⟩
    · obtain ⟨y, hy, hup⟩ := he.setsUp.2 _ hr.2
      exact ⟨hd, hl, hs, .inr ⟨hby, timer, plan, hr, hk, hp, y, hy, hup⟩⟩
  · rintro x hx call k id ⟨c, c', left, found, hl, hc, hst, hc', hst'⟩
    obtain ⟨earlier, later, rfl, he, hn, -⟩ := h.split_of_mem hx
    have hm := hn.move
    rw [hl] at hm
    exact ((he.coherent hcreate).move hn.move).starting.1 (hm.of_admitting hc hst hc' hst')
  · intro id
    cases ha : s.attempts.find? id with
    | none =>
      refine ⟨none, fun x hx call hr => ?_⟩
      obtain ⟨a, -, ha', -⟩ := h.obtains hx hr
      cases ha.symm.trans ha'
    | some a =>
      refine ⟨a.published.join, fun x hx call hr => ?_⟩
      obtain ⟨a', result, ha', hp, ho⟩ := h.obtains hx hr
      cases ha.symm.trans ha'
      rw [hp]
      exact ho

end Runs

/-- Two calls for one file are told to wait for one attempt. -/
theorem attempts_deduplicated_sample :
    sampleShared.InFlight (sampleKey "a") 0 ∧
      ∀ id, sampleShared.InFlight (sampleKey "a") id → id = 0 := by
  obtain ⟨hs, hu, -⟩ := attempts_deduplicated
    (Run.of_trace sample (sampleRequest 0 ++ sampleRequest 1))
  have hf := (hs (sampleKey "a") 0).1 (by decide)
  exact ⟨hf, fun id hid => hu _ _ _ hid hf⟩

end ServerFleet.Manager
