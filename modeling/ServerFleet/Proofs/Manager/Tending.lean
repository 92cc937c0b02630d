import ServerFleet.Proofs.Manager.Exclusion
import ServerFleet.Proofs.Manager.Shutdown
import ServerFleet.Proofs.Manager.Timing

/-!
What can still become of a broken instance. Routing leaves it out, so only a retry can start it: one
that is set up, one that has fired, or one that is at work, unless the budget is spent. All of them
can come to nothing while the server is disabled, and the retries of a server can be forgotten
after an instance of it was marked. Enabling the server does not bring them back.
-/

namespace ServerFleet.Manager

/-- A retry of an instance is under way, or the budget is spent. -/
inductive State.Tended (s : State) (k : InstanceKey) : Prop
  | pending {plan : RetryPlan} (h : s.roster.retries.Awaits k plan)
      (hk : (plan.key == k) = true) (he : plan.epoch = s.roster.epoch)
  | fired {timer : Nat} {plan : RetryPlan} (h : (timer, plan) ∈ s.fired)
      (hk : (plan.key == k) = true) (he : plan.epoch = s.roster.epoch)
  | inFlight {id : AttemptId} (h : s.InFlight k id)
  | spent (h : s.roster.retries.retryCount k = s.roster.retries.delays.length)

/-- An instance is broken because an attempt to start it has failed. -/
def Roster.HasFailed (r : Roster) (k : InstanceKey) : Prop :=
  r.broken.find? k = some .failedAttempt

instance (r : Roster) (k : InstanceKey) : Decidable (r.HasFailed k) :=
  inferInstanceAs (Decidable (_ = _))

/-- A retry of an instance comes to nothing. -/
inductive Happening.Lapses (x : Happening) (k : InstanceKey) : Prop
  /-- An attempt is settled while the server is disabled. -/
  | settled {id : AttemptId} {a : Attempt} {o : Outcome} (hl : x.label = .run (.attempt id))
      (ha : x.before.attempts.find? id = some a) (hst : a.stage = .concluded o)
      (he : a.epoch = x.before.roster.epoch) (hk : (a.key == k) = true)
      (hd : x.before.roster.isDisabled k.serverId = true)
  /-- A retry that has fired is passed over while the server is disabled. -/
  | passedOver {timer : Nat} {plan : RetryPlan} (hr : x.Retries timer plan)
      (hk : (plan.key == k) = true) (he : plan.epoch = x.before.roster.epoch)
      (hd : x.before.roster.isDisabled k.serverId = true)
  /-- The retries of the server are forgotten. -/
  | forgotten {call : CallId} {c : Call} {cleared : Nat} (hl : x.label = .run (.call call))
      (hc : x.before.calls.find? call = some c) (hst : c.stage = .forgetting k.serverId cleared)

section Settles

variable {r r' : Roster} {now epoch : Nat} {key : InstanceKey} {o : Outcome}
  {x : Settlement} {k : InstanceKey}

/-- Entering an outcome leaves the other instances as they are. -/
theorem Roster.Settles.other (h : r.Settles now key epoch o r' x) (hs : r.retries.Sound)
    (hk : ¬ (r.epoch = epoch ∧ (key == k) = true)) :
    r'.broken.find? k = r.broken.find? k ∧ r'.retries.retryCount k = r.retries.retryCount k ∧
      ∀ plan, r.retries.Awaits k plan → r'.retries.Awaits k plan := by
  have hne (he : r.epoch = epoch) : (key == k) = false := by simpa [he] using hk
  have hne' (he : r.epoch = epoch) : (k == key) = false := BEq.comm.trans (hne he)
  have congr : ∀ a b : InstanceKey, (a == b) = true → (a == key) = (b == key) :=
    fun _ _ h => BEq.congr_left h
  cases h with
  | started he | unavailable he =>
    refine ⟨by simp [hne he], ?_, fun plan ha => ?_⟩
    · rw [RetryScheduler.clear_eq]
      exact RetryScheduler.retryCount_forget congr (hne' he)
    · exact ha.forget congr hs (hne' he)
  | dropped he => exact ⟨by simp [hne he], rfl, fun _ => id⟩
  | failed he =>
    refine ⟨by simp [hne he], ?_, fun plan ha => ?_⟩
    · exact RetryScheduler.retryCount_schedule_of_ne (hne he)
    · exact ha.schedule hs (hne he)
  | _ => exact ⟨rfl, rfl, fun _ => id⟩

end Settles

namespace State

variable {s s' : State} {l : Label} {effects : List Effect} {k : InstanceKey}

section Alive

lemma isAlive_eq_false_iff : s.isAlive = false ↔ s.released = true ∧ s.Settled := by
  rw [settled_iff]
  simp [isAlive, and_assoc, and_comm, and_left_comm]

lemma CallGoes.isOver_eq {id : CallId} {c c' : Call} (h : s.CallGoes id c l c' effects) :
    c.stage.isOver = false := by
  cases h with
  | answer h => obtain ⟨h, -⟩ | ⟨_, h⟩ | ⟨_, h⟩ := h <;> rw [h] <;> rfl
  | _ h => rw [h]; rfl

/-- A manager that is gone stays so. -/
theorem Move.isAlive_of (hm : s.Move l s' effects) (h : s'.isAlive = true) :
    s.isAlive = true := by
  by_contra hs
  have hdead := hs
  rw [Bool.not_eq_true, isAlive_eq_false_iff] at hdead
  obtain ⟨hreleased, hset⟩ := hdead
  have atWork : ∀ {id c}, s.calls.find? id = some c → c.stage.isOver = false → False :=
    fun hc ho => Bool.false_ne_true (ho.symm.trans (hset.calls hc))
  -- only clients can still change, and none of them is at work after that
  have client {id : ClientId} {c : ClientRecord}
      (h : State.isAlive { s with clients := s.clients.insert id c } = true) :
      c.pump.isBusy = true := by
    by_contra hp
    rw [← Bool.not_eq_false, isAlive_eq_false_iff] at h
    refine h ⟨hreleased, hset.attempts, hset.calls, fun hr => ?_⟩
    obtain ⟨-, rfl⟩ | ⟨-, hr⟩ := Table.find?_insert_cases hr
    · exact Bool.eq_false_iff.2 hp
    · exact hset.pumps hr
  cases hm with
  | start hr => exact Bool.false_ne_true (hr.symm.trans hreleased)
  | release => exact hs (by rw [← h]; simp [isAlive, hreleased])
  | attempt ha hg =>
    have hfin := hset.attempts ha
    cases hg with
    | _ hst => cases hst.symm.trans hfin
  | connected ha hst | settle ha hst => cases hst.symm.trans (hset.attempts ha)
  | cancel hc ho | errand hc ho => exact atWork hc ho
  | call hc hg => exact atWork hc hg.isOver_eq
  | reserve hc hst | enable hc hst | disable hc hst | forgetBroken hc hst | forgetRetries hc hst
  | shutDown hc hst => exact atWork hc (by rw [hst]; rfl)
  | client hc hg =>
    have hp := hset.pumps hc
    cases hg with
    | report | publish | forward =>
      have hbusy := client h
      exact Bool.false_ne_true (hp.symm.trans hbusy)
    | failed hst | announce hst =>
      rw [hst] at hp
      cases hp
  | deafen => cases client h
  | ignore hc =>
    have hbusy := client h
    exact Bool.false_ne_true ((hset.pumps hc).symm.trans hbusy)
  | close _ _ _ _ ha | fault _ _ _ _ ha | retry _ _ _ _ _ ha => exact hs ha
  | _ => exact hs h

end Alive

section Tended

/-- A retry that is scheduled for a failed attempt tends its instance. -/
theorem tended_schedule {r : Roster} {now : Nat} {key : InstanceKey}
    (hr : s.roster.retries = (r.retries.schedule now key ⟨key, r.epoch⟩).1)
    (he : s.roster.epoch = r.epoch) (hb : r.retries.Bounded) (hk : (key == k) = true) :
    s.Tended k := by
  obtain ⟨hle, hcount⟩ | ha := r.retries.schedule_awaits now key ⟨key, r.epoch⟩
  · refine .spent ?_
    have hkey := hb key
    have hcongr : s.roster.retries.retryCount k = s.roster.retries.retryCount key := by
      rw [RetryScheduler.retryCount_eq, RetryScheduler.retryCount_eq, ← Table.find?_congr _ hk]
    rw [hcongr, hr, hcount, RetryScheduler.delays_schedule]
    omega
  · obtain ⟨x, hx, hname, hact⟩ := ha
    have hawaits : s.roster.retries.Awaits k ⟨key, r.epoch⟩ := by
      refine ⟨x, ?_, ?_, hact⟩
      · rw [hr]
        exact hx
      · rw [hr, ← RetryScheduler.timer?_congr hk]
        exact hname
    exact .pending hawaits hk he.symm

lemma tended_of_starting (hc : s.Coherent) (h : s.roster.starting.contains k = true) :
    s.Tended k := by
  obtain ⟨id, hid⟩ := Table.contains_iff.1 h
  exact .inFlight (hc.starting.1 hid)

/-- What is done for an instance goes on in another state, in one way or another. -/
theorem Tended.carry (h : s.Tended k) (hc : s.Coherent) (hc' : s'.Coherent)
    (he : s'.roster.epoch = s.roster.epoch)
    (hd : s'.roster.retries.delays = s.roster.retries.delays)
    (hn : s'.roster.retries.retryCount k = s.roster.retries.retryCount k)
    (hs : s.roster.starting.contains k = true → s'.roster.starting.contains k = true)
    (ha : ∀ plan, s.roster.retries.Awaits k plan → s'.roster.retries.Awaits k plan ∨
      ∃ timer, (timer, plan) ∈ s'.fired)
    (hf : ∀ p ∈ s.fired, (p.2.key == k) = true → p.2.epoch = s.roster.epoch → p ∈ s'.fired) :
    s'.Tended k := by
  cases h with
  | @pending plan hp hk hep =>
    obtain hp | ⟨timer, hp⟩ := ha plan hp
    · exact .pending hp hk (hep.trans he.symm)
    · exact .fired hp hk (hep.trans he.symm)
  | fired hp hk hep => exact .fired (hf _ hp hk hep) hk (hep.trans he.symm)
  | inFlight hi =>
    exact tended_of_starting hc' (hs (Table.contains_iff.2 ⟨_, hc.starting.2 hi⟩))
  | spent hl => exact .spent (by rw [hn, hl, hd])

end Tended

section Steps

/-- A failed instance was one before, or its attempt fails now. -/
theorem Move.tended_settle (hm : s.Move l s' effects) (hc : s.Coherent) (ht : s.Timed)
    (hb : s.roster.retries.Bounded) {id : AttemptId} {a : Attempt} {o : Outcome} {roster : Roster}
    {settlement : Settlement} (hl : l = .run (.attempt id)) (ha : s.attempts.find? id = some a)
    (hst : a.stage = .concluded o)
    (hr : s.roster.Settles s.now a.key a.epoch o roster settlement) (hs : s'.roster = roster)
    (hf : s'.fired = s.fired) (hk : roster.HasFailed k)
    (h : s.roster.HasFailed k → s.Tended k) :
    s'.Tended k ∨ (⟨s, l, effects, s'⟩ : Happening).Lapses k := by
  subst hs
  by_cases hown : s.roster.epoch = a.epoch ∧ (a.key == k) = true
  · obtain ⟨he, hak⟩ := hown
    have lapses (hd : s.roster.isDisabled a.key.serverId = true) :
        (⟨s, l, effects, s'⟩ : Happening).Lapses k :=
      .settled hl ha hst he.symm hak (by rw [← InstanceKey.serverId_eq_of_beq hak]; exact hd)
    generalize hs : s'.roster = r at hr hk
    cases hr with
    | stale hne => exact absurd he hne
    | discarded _ hd | dropped _ hd => exact .inr (lapses hd)
    | started | unavailable => simp [Roster.HasFailed, hak] at hk
    | failed => exact .inl (tended_schedule (by rw [hs]) (by rw [hs]) hb hak)
  · obtain ⟨hbroken, hcount, hawaits⟩ := hr.other ht.sound hown
    have htended := h (hbroken.symm.trans hk)
    refine .inl (htended.carry hc (hc.move hm) hr.epoch_eq (hm.bounded hb).2 hcount (fun hin => ?_)
      (fun plan hp => .inl (hawaits plan hp)) (fun p hp _ _ => hf ▸ hp))
    unfold Table.contains at hin ⊢
    rw [hr.find?_starting, if_neg hown]
    exact hin

/-- What the timers do for a failed instance: a retry that has fired is passed over or goes on as an
attempt, and one that is due goes on as one that has fired. -/
lemma Tended.move_timer {timer : Nat} (hm : s.Move (.run (.timer timer)) s' effects)
    (hc : s.Coherent) (he : s.roster.Exclusive) (ht : s.Timed) (hb : s.roster.retries.Bounded)
    (ha : s.isAlive = true) (hk : s'.roster.HasFailed k) (h : s.roster.HasFailed k → s.Tended k) :
    s'.Tended k ∨ (⟨s, .run (.timer timer), effects, s'⟩ : Happening).Lapses k := by
  have hc' := hc.move hm
  have hdelays := (hm.bounded hb).2
  cases hm with
  | @drop _ plan hf hd =>
    by_cases hplan : plan.epoch = s.roster.epoch ∧ (plan.key == k) = true
    · obtain ⟨hpe, hpk⟩ := hplan
      obtain hne | hdis | hlive | hstart := hd ha
      · exact absurd hpe.symm hne
      · rw [InstanceKey.serverId_eq_of_beq hpk] at hdis
        exact .inr (.passedOver ⟨rfl, hf⟩ hpk hpe hdis)
      · -- an instance that has failed is not live
        have hbroken := (he _ hlive).not_broken
        rw [Table.contains_congr _ hpk, Table.contains_eq_false] at hbroken
        cases hbroken.symm.trans hk
      · rw [Table.contains_congr _ hpk] at hstart
        exact .inl (tended_of_starting hc' hstart)
    · refine .inl ((h hk).carry hc hc' rfl rfl rfl id (fun _ => .inl) fun p hp hpk hpe => ?_)
      exact ht.mem_filter hf hp fun he => hplan ⟨he ▸ hpe, he ▸ hpk⟩
  | @retry _ plan hf =>
    cases hpk : plan.key == k with
    | true => exact .inl (tended_of_starting hc' (by simp [hpk]))
    | false =>
      refine .inl ((h hk).carry hc hc' rfl rfl rfl (fun hs => by simp [hs]) (fun _ => .inl) ?_)
      intro p hp hpk' _
      refine ht.mem_filter hf hp fun he => ?_
      rw [he, hpk] at hpk'
      cases hpk'
  | unhook hu =>
    have hcounts := (RetryScheduler.unhook?_eq hu).2.2.1
    refine .inl ((h hk).carry hc hc' rfl hdelays ?_ id (fun plan hp => ?_)
      (fun _ hp _ _ => List.mem_append_left _ hp))
    · rw [RetryScheduler.retryCount_eq, RetryScheduler.retryCount_eq, hcounts]
    · obtain hp | ⟨x, hx, rfl⟩ := hp.unhook? ht.sound hu
      · exact .inl hp
      · exact .inr ⟨_, List.mem_append_right _
          (List.mem_map.2 ⟨x, Option.mem_toList.2 hx, rfl⟩)⟩
  | attempt _ hg => cases hg
  | call _ hg => cases hg
  | errand _ _ _ hg => cases hg
  | client _ hg => cases hg

lemma Tended.move (hm : s.Move l s' effects) (hc : s.Coherent) (he : s.roster.Exclusive)
    (ht : s.Timed) (hb : s.roster.retries.Bounded) (ha : s.isAlive = true)
    (hk : s'.roster.HasFailed k) (h : s.roster.HasFailed k → s.Tended k) :
    s'.Tended k ∨ (⟨s, l, effects, s'⟩ : Happening).Lapses k := by
  have hc' := hc.move hm
  have hdelays := (hm.bounded hb).2
  cases hm with
  | settle hfind hst hr =>
    exact Move.tended_settle (.settle hfind hst hr) hc ht hb rfl hfind hst hr rfl rfl hk h
  | reserve =>
    refine .inl ((h hk).carry hc hc' rfl rfl rfl (fun hs => ?_) (fun _ => .inl)
      (fun _ hp _ _ => hp))
    simp [hs]
  | @forgetBroken _ _ server =>
    unfold Roster.HasFailed at hk
    rw [Roster.find?_broken_forgetBroken] at hk
    split at hk
    · cases hk
    · exact .inl ((h hk).carry hc hc' rfl rfl rfl id (fun _ => .inl) (fun _ hp _ _ => hp))
  | @forgetRetries call c server cleared hcall hst =>
    cases hserver : k.serverId == server with
    | true =>
      obtain rfl := beq_iff_eq.1 hserver
      exact .inr (.forgotten rfl hcall hst)
    | false =>
      have congr : ∀ a b : InstanceKey, (a == b) = true →
          (a.serverId == server) = (b.serverId == server) :=
        fun _ _ hab => by rw [InstanceKey.serverId_eq_of_beq hab]
      exact .inl ((h hk).carry hc hc' rfl rfl (RetryScheduler.retryCount_forget congr hserver) id
        (fun plan hp => .inl (hp.forget congr ht.sound hserver)) (fun _ hp _ _ => hp))
  | shutDown => cases hk
  | fault =>
    simp only [Roster.HasFailed, Table.find?_insert] at hk
    split at hk
    · cases hk
    · exact .inl ((h hk).carry hc hc' rfl rfl rfl id (fun _ => .inl) (fun _ hp _ _ => hp))
  | drop hf hd => exact Tended.move_timer (.drop hf hd) hc he ht hb ha hk h
  | retry hf hep hd hl hs hal =>
    exact Tended.move_timer (.retry hf hep hd hl hs hal) hc he ht hb ha hk h
  | unhook hu => exact Tended.move_timer (.unhook hu) hc he ht hb ha hk h
  | wake hw =>
    have hrecords := (RetryScheduler.wake?_eq hw).2.1
    refine .inl ((h hk).carry hc hc' rfl hdelays ?_ id (fun _ hp => .inl (hp.wake? hw))
      (fun _ hp _ _ => hp))
    rw [RetryScheduler.retryCount_eq, RetryScheduler.retryCount_eq, hrecords]
  | _ => exact .inl ((h hk).carry hc hc' rfl rfl rfl id (fun _ => .inl) (fun _ hp _ _ => hp))

end Steps

end State

/-- In every state of a manager that is still there, an instance that is broken because an attempt
to start it failed has a retry set up, fired or at work, or its budget is spent, or a retry of it
has come to nothing and it has been broken without a retry ever since. -/
theorem failed_instance_tended {settings : Settings} {surroundings : Surroundings}
    {delays : List Nat} {disabled : List String} {run : List Happening} {s : State}
    (h : Run (.create settings surroundings delays disabled) run s) (ha : s.isAlive = true)
    {k : InstanceKey} (hk : s.roster.HasFailed k) :
    s.Tended k ∨ ∃ earlier x later, run = earlier ++ x :: later ∧ x.Lapses k ∧
      ∀ y ∈ x :: later, y.after.roster.HasFailed k ∧ ¬ y.after.Tended k := by
  have hcreate := State.coherent_create settings surroundings delays disabled
  induction h with
  | start => cases hk
  | @next run t u l effects h hn ih =>
    by_cases hu : u.Tended k
    · exact .inl hu
    have hat := hn.move.isAlive_of ha
    have step (ht : t.roster.HasFailed k → t.Tended k) :
        (⟨t, l, effects, u⟩ : Happening).Lapses k := by
      have hex := h.exclusive hcreate (State.exclusive_create _ _ _ _)
      have htimed := h.timed (State.timed_create settings surroundings delays disabled)
      have hb := (h.bounded (RetryScheduler.bounded_create delays)).1
      exact (State.Tended.move hn.move (h.coherent hcreate) hex htimed hb hat hk ht).resolve_left hu
    have last (ht : t.roster.HasFailed k → t.Tended k) :
        ∃ earlier x later, run ++ [⟨t, l, effects, u⟩] = earlier ++ x :: later ∧ x.Lapses k ∧
          ∀ y ∈ x :: later, y.after.roster.HasFailed k ∧ ¬ y.after.Tended k := by
      refine ⟨run, _, [], rfl, step ht, fun y hy => ?_⟩
      obtain rfl := List.mem_singleton.1 hy
      exact ⟨hk, hu⟩
    by_cases hf : t.roster.HasFailed k
    · obtain ht | ⟨earlier, x, later, rfl, hx, hl⟩ := ih hat hf
      · exact .inr (last fun _ => ht)
      · refine .inr ⟨earlier, x, later ++ [⟨t, l, effects, u⟩], by simp, hx, fun y hy => ?_⟩
        rw [← List.cons_append, List.mem_append, List.mem_singleton] at hy
        obtain hy | rfl := hy
        · exact hl y hy
        · exact ⟨hk, hu⟩
    · exact .inr (last fun hf' => absurd hf' hf)

/-- An attempt fails while its server is disabled, and the server is enabled again. -/
def sampleLapse : List Label :=
  sampleRequest 0 ++ [.run (.attempt 0), .start (.setServerEnabled "a" false), .run (.call 1),
    .run (.call 1), .run (.call 1), .reply (.attempt 0) .failed, .run (.attempt 0), .run (.call 0),
    .run (.call 0), .start (.setServerEnabled "a" true), .run (.call 2), .run (.call 2),
    .run (.call 2)]

def sampleStranded : State := (sampleOf ["a"]).follow sampleLapse

lemma not_tended_sampleStranded : ¬ sampleStranded.Tended (sampleKey "a") := by
  have hrun : Run (sampleOf ["a"]) _ sampleStranded := Run.of_trace _ _
  rintro (⟨ha, -, -⟩ | ⟨hf, -, -⟩ | ⟨hi⟩ | ⟨hl⟩)
  · have hpending : sampleStranded.roster.retries.isPending (sampleKey "a") = false := by decide
    exact Bool.false_ne_true (hpending.symm.trans ha.isPending)
  · have hfired : sampleStranded.fired.isEmpty = true := by decide
    rw [List.isEmpty_iff.1 hfired] at hf
    cases hf
  · have hstarting : sampleStranded.roster.starting.contains (sampleKey "a") = false := by decide
    have hid := (hrun.coherent (State.coherent_create _ _ _ _)).starting.2 hi
    rw [Table.contains_eq_false, hid] at hstarting
    cases hstarting
  · revert hl
    decide

/-- The instance is broken for good: a retry of it has come to nothing. -/
theorem failed_instance_tended_sample : sampleStranded.isAlive = true ∧
    sampleStranded.roster.HasFailed (sampleKey "a") ∧
    ∃ x ∈ (sampleOf ["a"]).trace sampleLapse, x.Lapses (sampleKey "a") := by
  have ha : sampleStranded.isAlive = true := by decide
  have hk : sampleStranded.roster.HasFailed (sampleKey "a") := by decide
  obtain ht | ⟨earlier, x, later, hrun, hx, -⟩ :=
    failed_instance_tended (Run.of_trace _ sampleLapse) ha hk
  · exact absurd ht not_tended_sampleStranded
  · exact ⟨ha, hk, x, hrun ▸ List.mem_append_right _ List.mem_cons_self, hx⟩

/-- An instance of an enabled server can be broken after a failed attempt, with no retry of it
under way and its budget untouched. -/
theorem failed_instance_stranded_sample :
    ¬ ∀ (settings : Settings) (surroundings : Surroundings) (delays : List Nat)
      (disabled : List String) (run : List Happening) (s : State) (k : InstanceKey),
      Run (.create settings surroundings delays disabled) run s → s.isAlive = true →
      s.roster.isDisabled k.serverId = false → s.roster.HasFailed k → s.Tended k := by
  intro hall
  exact not_tended_sampleStranded (hall _ _ _ _ _ _ _ (Run.of_trace _ sampleLapse) (by decide)
    (by decide) (by decide))

end ServerFleet.Manager
