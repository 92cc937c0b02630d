import ServerFleet.Proofs.Table
import ServerFleet.Retry.Scheduler

/-!
What each operation of the retries does to the records and to the timers. The budget is never
overdrawn, and a timer that is found after an operation was there before or was set up by it.
-/

namespace ServerFleet

namespace InstanceKey

lemma serverId_eq_of_beq {a b : InstanceKey} (h : (a == b) = true) : a.serverId = b.serverId :=
  (beq_iff.1 h).1

/-- Equal keys belong to a server or not, both of them. -/
theorem not_serverId_congr (server : String) (a b : InstanceKey) (h : (a == b) = true) :
    (!(a.serverId == server)) = !(b.serverId == server) := by
  rw [serverId_eq_of_beq h]

end InstanceKey

namespace RetryScheduler

variable {α : Type u} (s : RetryScheduler α)

lemma retryCount_eq (k : InstanceKey) :
    s.retryCount k = ((s.records.find? k).map (·.attempts)).getD 0 := rfl

lemma retryCount_of_not_contains {k : InstanceKey} (h : s.records.contains k = false) :
    s.retryCount k = 0 := by
  simp [retryCount, Table.contains_eq_false.1 h]

lemma isPending_of_not_contains {k : InstanceKey} (h : s.records.contains k = false) :
    s.isPending k = false := by
  simp [isPending, Table.contains_eq_false.1 h]

/-- No instance has had more retries than there are delays. -/
def Bounded : Prop := ∀ k, s.retryCount k ≤ s.delays.length

lemma bounded_create (delays : List Nat) : (create delays : RetryScheduler α).Bounded := by
  intro k
  simp [create, retryCount]

section Schedule

variable (now : Nat) (k : InstanceKey) (action : α)

/-- The record that the next retry of an instance goes by. -/
def recordOf : RetryRecord := (s.records.find? k).getD ⟨0, none⟩

lemma attempts_recordOf : (s.recordOf k).attempts = s.retryCount k := by
  unfold recordOf
  cases h : s.records.find? k <;> simp [retryCount, h]

/-- Either the budget is spent and the record stays as it is, or a timer is set up in the place
of the one that was pending. -/
theorem schedule_cases :
    (s.delays.length ≤ s.retryCount k ∧ s.schedule now k action =
      ({ s with records := s.records.insert k (s.recordOf k) }, none)) ∨
    ∃ delay, s.delays[s.retryCount k]? = some delay ∧ s.schedule now k action =
      ({ delays := s.delays
         records := s.records.insert k ⟨s.retryCount k + 1, some s.nextTimer⟩
         sleepers := (s.abort (s.recordOf k).timer.toList).sleepers ++
           [⟨s.nextTimer, k, now + delay, action, false⟩]
         nextTimer := s.nextTimer + 1 },
        some (s.retryCount k + 1)) := by
  have hr := s.attempts_recordOf k
  unfold recordOf at hr ⊢
  cases hd : s.delays[s.retryCount k]? with
  | none =>
    refine .inl ⟨List.getElem?_eq_none_iff.1 hd, ?_⟩
    simp only [schedule, hr, hd]
  | some delay =>
    refine .inr ⟨delay, rfl, ?_⟩
    simp only [schedule, hr, hd]
    rfl

@[simp] lemma delays_schedule : (s.schedule now k action).1.delays = s.delays := by
  obtain ⟨-, h⟩ | ⟨delay, -, h⟩ := s.schedule_cases now k action <;> rw [h]

lemma contains_records_schedule (k' : InstanceKey) :
    (s.schedule now k action).1.records.contains k' = (k == k' || s.records.contains k') := by
  obtain ⟨-, h⟩ | ⟨delay, -, h⟩ := s.schedule_cases now k action
  · rw [h]
    simp
  · rw [h]
    simp

/-- The timers after a retry was scheduled: some from before, and its own. -/
theorem mem_sleepers_schedule {x : Sleeper α} (hx : x ∈ (s.schedule now k action).1.sleepers) :
    x ∈ s.sleepers ∨ x.id = s.nextTimer ∧ x.action = action ∧
      (s.schedule now k action).1.nextTimer = s.nextTimer + 1 := by
  obtain ⟨-, h⟩ | ⟨delay, -, h⟩ := s.schedule_cases now k action
  · rw [h] at hx
    exact .inl hx
  · rw [h] at hx ⊢
    rcases List.mem_append.1 hx with hx | hx
    · exact .inl ((List.mem_filter.1 hx).1)
    · obtain rfl := List.mem_singleton.1 hx
      exact .inr ⟨rfl, rfl, rfl⟩

variable {s} in
lemma Bounded.schedule (hb : s.Bounded) : (s.schedule now k action).1.Bounded := by
  intro k'
  have hk' := hb k'
  rw [delays_schedule]
  obtain ⟨-, h⟩ | ⟨delay, hd, h⟩ := s.schedule_cases now k action
  · rw [h, retryCount_eq, Table.find?_insert]
    split
    · simpa [attempts_recordOf] using hb k
    · exact hk'
  · have hlt := (List.getElem?_eq_some_iff.1 hd).1
    rw [h, retryCount_eq, Table.find?_insert]
    split
    · exact hlt
    · exact hk'

end Schedule

section Clear

variable (k : InstanceKey) (server : String)

@[simp] lemma find?_records_clear (k' : InstanceKey) :
    (s.clear k).records.find? k' = if k == k' then none else s.records.find? k' :=
  Table.find?_erase s.records k k'

@[simp] lemma find?_records_clearServer (k' : InstanceKey) :
    (s.clearServer server).1.records.find? k' =
      if k'.serverId == server then none else s.records.find? k' := by
  refine (Table.find?_filter_key s.records (InstanceKey.not_serverId_congr server) k').trans ?_
  cases k'.serverId == server <;> rfl

@[simp] lemma contains_records_clear (k' : InstanceKey) :
    (s.clear k).records.contains k' = (!(k == k') && s.records.contains k') :=
  Table.contains_erase s.records k k'

@[simp] lemma contains_records_clearServer (k' : InstanceKey) :
    (s.clearServer server).1.records.contains k' =
      (!(k'.serverId == server) && s.records.contains k') :=
  Table.contains_filter_key s.records (InstanceKey.not_serverId_congr server) k'

variable {s}

lemma mem_sleepers_clear {x : Sleeper α} (h : x ∈ (s.clear k).sleepers) : x ∈ s.sleepers :=
  (List.mem_filter.1 h).1

lemma mem_sleepers_clearServer {x : Sleeper α} (h : x ∈ (s.clearServer server).1.sleepers) :
    x ∈ s.sleepers :=
  (List.mem_filter.1 h).1

lemma mem_sleepers_cancelAll {x : Sleeper α} (h : x ∈ s.cancelAll.sleepers) : x ∈ s.sleepers :=
  (List.mem_filter.1 h).1

/-- Fewer records keep within the budget. -/
theorem Bounded.of_records {t : RetryScheduler α} (h : s.Bounded) (hd : t.delays = s.delays)
    (hr : ∀ k, t.records.find? k = none ∨ t.records.find? k = s.records.find? k) :
    t.Bounded := by
  intro k
  have hk := h k
  rw [hd]
  rcases hr k with hn | he
  · simp [retryCount, hn]
  · simpa [retryCount, he] using hk

lemma Bounded.clear (h : s.Bounded) : (s.clear k).Bounded := by
  refine h.of_records rfl fun k' => ?_
  rw [find?_records_clear]
  split <;> simp

lemma Bounded.clearServer (h : s.Bounded) : (s.clearServer server).1.Bounded := by
  refine h.of_records rfl fun k' => ?_
  rw [find?_records_clearServer]
  split <;> simp

lemma Bounded.cancelAll (h : s.Bounded) : s.cancelAll.Bounded :=
  h.of_records rfl fun _ => .inl rfl

end Clear

section Timers

variable {s}

/-- Waking a timer changes nothing but whether it is awake. -/
theorem wake?_eq {now id : Nat} {t : RetryScheduler α} (h : s.wake? now id = some t) :
    t.delays = s.delays ∧ t.records = s.records ∧ t.nextTimer = s.nextTimer ∧
      ∀ x ∈ t.sleepers, ∃ y ∈ s.sleepers, y.id = x.id ∧ y.action = x.action := by
  unfold wake? at h
  split at h
  · cases h
    refine ⟨rfl, rfl, rfl, fun x hx => ?_⟩
    obtain ⟨y, hy, rfl⟩ := List.mem_map.1 hx
    refine ⟨y, hy, ?_⟩
    split <;> exact ⟨rfl, rfl⟩
  · cases h

/-- Ending a timer takes it off its record, if the record names it; its action is one of those
that were set up. -/
theorem unhook?_eq {id : Nat} {t : RetryScheduler α} {o : Option (Sleeper α)}
    (h : s.unhook? id = some (t, o)) :
    t.delays = s.delays ∧ t.nextTimer = s.nextTimer ∧
      (∀ k, (t.records.find? k).map (·.attempts) = (s.records.find? k).map (·.attempts)) ∧
      (∀ x ∈ t.sleepers, x ∈ s.sleepers) ∧ ∀ x ∈ o, x ∈ s.sleepers ∧ x.id = id := by
  unfold unhook? at h
  split at h
  · cases h
  next x hx =>
    dsimp only at h
    have hm : x ∈ s.sleepers ∧ x.id = id := by
      have hp := List.find?_some hx
      simp only [Bool.and_eq_true, beq_iff_eq] at hp
      exact ⟨List.mem_of_find?_eq_some hx, hp.1⟩
    have hs : ∀ y ∈ s.sleepers.filter (fun y => !(y.id == id)), y ∈ s.sleepers :=
      fun y hy => (List.mem_filter.1 hy).1
    split at h
    · next record hr =>
      split at h
      · cases h
        refine ⟨rfl, rfl, fun k => ?_, hs, fun y hy => ?_⟩
        · rw [Table.find?_insert]
          split
          · next hk => simp [← Table.find?_congr s.records hk, hr]
          · rfl
        · cases hy
          exact hm
      · cases h
        exact ⟨rfl, rfl, fun _ => rfl, hs, by simp⟩
    · cases h
      exact ⟨rfl, rfl, fun _ => rfl, hs, by simp⟩

lemma Bounded.of_counts {t : RetryScheduler α} (h : s.Bounded) (hd : t.delays = s.delays)
    (hr : ∀ k, (t.records.find? k).map (·.attempts) = (s.records.find? k).map (·.attempts)) :
    t.Bounded := by
  intro k
  rw [hd, retryCount_eq, hr k]
  exact h k

lemma contains_of_counts {t : RetryScheduler α}
    (hr : ∀ k, (t.records.find? k).map (·.attempts) = (s.records.find? k).map (·.attempts))
    (k : InstanceKey) : t.records.contains k = s.records.contains k := by
  have h := congrArg Option.isSome (hr k)
  simpa [Table.contains] using h

end Timers

end RetryScheduler

end ServerFleet
