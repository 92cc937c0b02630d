import ServerFleet.Proofs.Manager.Deduplication
import ServerFleet.Proofs.Retry.Timers

/-!
The timers of a manager. A timer sleeps or has fired or is gone, and its number is never used
again, so a retry that has fired is the only one of its number.
-/

namespace ServerFleet.Manager

namespace State

variable {s s' : State} {l : Label} {effects : List Effect}

/-- Timers have numbers of their own, whether they sleep or have fired. -/
structure Timed (s : State) : Prop where
  sound : s.roster.retries.Sound
  nodup : (s.fired.map (·.1)).Nodup
  fired_lt : ∀ {p}, p ∈ s.fired → p.1 < s.roster.retries.nextTimer
  awake : ∀ {p x}, p ∈ s.fired → x ∈ s.roster.retries.sleepers → x.id ≠ p.1

lemma timed_create (settings : Settings) (surroundings : Surroundings) (delays : List Nat)
    (disabled : List String) : (create settings surroundings delays disabled).Timed where
  sound := RetryScheduler.sound_create delays
  nodup := List.nodup_nil
  fired_lt h := nomatch h
  awake h := nomatch h

/-- Two retries of one number that have fired are the same retry. -/
theorem Timed.plan_eq (h : s.Timed) {timer : Nat} {plan plan' : RetryPlan}
    (hp : (timer, plan) ∈ s.fired) (hp' : (timer, plan') ∈ s.fired) : plan = plan' :=
  congrArg Prod.snd (List.inj_on_of_nodup_map h.nodup hp hp' rfl)

/-- A retry that goes on leaves the others. -/
theorem Timed.mem_filter (h : s.Timed) {timer : Nat} {plan : RetryPlan}
    (hf : (timer, plan) ∈ s.fired) {p : Nat × RetryPlan} (hp : p ∈ s.fired) (hne : p.2 ≠ plan) :
    p ∈ s.fired.filter (·.1 ≠ timer) := by
  refine List.mem_filter.2 ⟨hp, decide_eq_true fun ht => hne ?_⟩
  subst ht
  exact h.plan_eq hp hf

lemma Move.sound (hm : s.Move l s' effects) (h : s.roster.retries.Sound) :
    s'.roster.retries.Sound := by
  cases hm with
  | settle _ _ hr =>
    cases hr with
    | started | unavailable => exact h.forget fun _ _ hk => BEq.congr_left hk
    | failed => exact h.schedule
    | _ => exact h
  | forgetRetries =>
    exact h.forget fun _ _ hk => by rw [InstanceKey.serverId_eq_of_beq hk]
  | shutDown => exact h.cancelAll
  | unhook hu => exact h.unhook? hu
  | wake hw => exact h.wake? hw
  | _ => exact h

lemma Move.now_eq (hm : s.Move l s' effects) :
    s'.now = s.now ∨ ∃ time, l = .advance time ∧ s'.now = time := by
  cases hm with
  | advance => exact .inr ⟨_, rfl, rfl⟩
  | _ => exact .inl rfl

lemma Move.nextTimer_le (hm : s.Move l s' effects) :
    s.roster.retries.nextTimer ≤ s'.roster.retries.nextTimer := by
  cases hm with
  | @settle _ a _ _ _ _ _ hr =>
    cases hr with
    | failed =>
      obtain ⟨-, he⟩ | ⟨delay, -, he⟩ :=
        s.roster.retries.schedule_cases s.now a.key ⟨a.key, s.roster.epoch⟩
      · exact Nat.le_of_eq (by rw [he])
      · exact Nat.le_of_lt (Nat.lt_of_lt_of_eq (Nat.lt_succ_self _) (by rw [he]))
    | _ => exact Nat.le_refl _
  | unhook hu => exact Nat.le_of_eq (RetryScheduler.unhook?_eq hu).2.1.symm
  | wake hw => exact Nat.le_of_eq (RetryScheduler.wake?_eq hw).2.2.1.symm
  | _ => exact Nat.le_refl _

/-- Only a timer that ends adds to the retries that have fired. -/
theorem Move.fired_cases (hm : s.Move l s' effects) :
    s'.fired.Sublist s.fired ∨ ∃ timer retries sleeper,
      s.roster.retries.unhook? timer = some (retries, sleeper) ∧
      s' = { s with
        roster := { s.roster with retries }
        fired := s.fired ++ sleeper.toList.map fun x => (timer, x.action) } := by
  cases hm with
  | drop | retry => exact .inl List.filter_sublist
  | unhook hu => exact .inr ⟨_, _, _, hu, rfl⟩
  | _ => exact .inl (.refl _)

lemma Timed.move (h : s.Timed) (hm : s.Move l s' effects) : s'.Timed := by
  obtain hf | ⟨timer, retries, sleeper, hu, rfl⟩ := hm.fired_cases
  · refine ⟨hm.sound h.sound, h.nodup.sublist (hf.map _), fun hp => ?_, fun hp hx => ?_⟩
    · exact Nat.lt_of_lt_of_le (h.fired_lt (hf.subset hp)) hm.nextTimer_le
    · obtain ⟨y, hy, hid, -⟩ | ⟨-, hnext, -⟩ := hm.mem_sleepers hx
      · rw [← hid]
        exact h.awake (hf.subset hp) hy
      · have hlt := h.fired_lt (hf.subset hp)
        dsimp only at hnext
        omega
  obtain ⟨hnext, hsleep, -⟩ := RetryScheduler.unhook?_cases h.sound hu
  -- a timer that fires now has slept until now
  have new : ∀ {p}, p ∈ sleeper.toList.map (fun x => (timer, x.action)) →
      p.1 = timer ∧ ∃ x ∈ s.roster.retries.sleepers, x.id = timer := by
    intro p hp
    obtain ⟨x, hx, rfl⟩ := List.mem_map.1 hp
    have hmem := (RetryScheduler.unhook?_eq hu).2.2.2.2 x (Option.mem_toList.1 hx)
    exact ⟨rfl, x, hmem.1, hmem.2⟩
  refine ⟨h.sound.unhook? hu, ?_, fun hp => ?_, fun hp hx => ?_⟩
  · rw [List.map_append]
    refine h.nodup.append ?_ ?_
    · cases sleeper <;> simp
    · intro id hid hnew
      obtain ⟨p, hp, rfl⟩ := List.mem_map.1 hid
      obtain ⟨q, hq, hpq⟩ := List.mem_map.1 hnew
      obtain ⟨hqt, x, hx, hxt⟩ := new hq
      exact h.awake hp hx (hxt.trans (hqt.symm.trans hpq))
  · dsimp only
    rw [hnext]
    obtain hp | hp := List.mem_append.1 hp
    · exact h.fired_lt hp
    · obtain ⟨hpt, x, hx, hxt⟩ := new hp
      rw [hpt, ← hxt]
      exact h.sound.id_lt hx
  · dsimp only at hx
    rw [hsleep, List.mem_filter] at hx
    obtain hp | hp := List.mem_append.1 hp
    · exact h.awake hp hx.1
    · rw [(new hp).1]
      simpa using hx.2

end State

lemma Run.timed {s t : State} {run : List Happening} (h : Run s run t) (hs : s.Timed) :
    t.Timed :=
  h.invariant hs State.Timed.move

end ServerFleet.Manager
