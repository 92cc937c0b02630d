import Mathlib.Data.List.Nodup
import ServerFleet.Proofs.Retry.Records

/-!
The timers of the retries. Numbers of timers are used once, so a timer that a record names is the
only one of its number, and it sleeps until it is unhooked, replaced or cleared. What is done for
one instance leaves the timers of the others asleep.
-/

namespace ServerFleet.RetryScheduler

variable {α : Type u} {s t : RetryScheduler α}

def timer? (s : RetryScheduler α) (k : InstanceKey) : Option Nat :=
  (s.records.find? k).bind (·.timer)

lemma isPending_eq (k : InstanceKey) : s.isPending k = (s.timer? k).isSome := rfl

lemma timer?_congr {k k' : InstanceKey} (h : (k == k') = true) : s.timer? k = s.timer? k' := by
  unfold timer?
  rw [Table.find?_congr _ h]

/-- Timers have numbers of their own, and a timer that a record names sleeps under its key. -/
structure Sound (s : RetryScheduler α) : Prop where
  nodup : (s.sleepers.map (·.id)).Nodup
  id_lt : ∀ {x}, x ∈ s.sleepers → x.id < s.nextTimer
  sleeps : ∀ {k id}, s.timer? k = some id → ∃ x ∈ s.sleepers, x.id = id ∧ (x.key == k) = true

/-- A timer sleeps for an instance and is to do something when it is due. -/
def Awaits (s : RetryScheduler α) (k : InstanceKey) (action : α) : Prop :=
  ∃ x ∈ s.sleepers, s.timer? k = some x.id ∧ x.action = action

lemma Awaits.isPending {k : InstanceKey} {action : α} (h : s.Awaits k action) :
    s.isPending k = true := by
  obtain ⟨x, -, hx, -⟩ := h
  rw [isPending_eq, hx]
  rfl

lemma sound_create (delays : List Nat) : (create delays : RetryScheduler α).Sound where
  nodup := List.nodup_nil
  id_lt h := nomatch h
  sleeps h := nomatch h

namespace Sound

lemma eq_of_id (h : s.Sound) {x y : Sleeper α} (hx : x ∈ s.sleepers) (hy : y ∈ s.sleepers)
    (hid : x.id = y.id) : x = y :=
  List.inj_on_of_nodup_map h.nodup hx hy hid

/-- Two records that name one timer are the same record. -/
theorem key_beq (h : s.Sound) {k k' : InstanceKey} {id : Nat} (hk : s.timer? k = some id)
    (hk' : s.timer? k' = some id) : (k == k') = true := by
  obtain ⟨x, hx, hid, hxk⟩ := h.sleeps hk
  obtain ⟨y, hy, hid', hyk⟩ := h.sleeps hk'
  cases h.eq_of_id hx hy (hid.trans hid'.symm)
  exact BEq.trans (BEq.symm hxk) hyk

end Sound

section Forget

/-- Forgets the instances of a kind and takes their pending timers away. -/
def forget (s : RetryScheduler α) (p : InstanceKey → Bool) : RetryScheduler α :=
  { s.abort (timersOf (s.records.filter fun k _ => p k)) with
    records := s.records.filter fun k _ => !p k }

lemma clear_eq (s : RetryScheduler α) (k : InstanceKey) : s.clear k = s.forget (· == k) := rfl

variable {p : InstanceKey → Bool} (hp : ∀ a b, (a == b) = true → p a = p b)
include hp

lemma find?_records_forget (k : InstanceKey) :
    (s.forget p).records.find? k = if p k then none else s.records.find? k := by
  refine (Table.find?_filter_key s.records (p := fun k => !p k)
    (fun a b h => by rw [hp a b h]) k).trans ?_
  cases p k <;> rfl

lemma timer?_forget (k : InstanceKey) :
    (s.forget p).timer? k = if p k then none else s.timer? k := by
  unfold timer?
  rw [find?_records_forget hp]
  cases p k <;> rfl

lemma retryCount_forget {k : InstanceKey} (hk : p k = false) :
    (s.forget p).retryCount k = s.retryCount k := by
  simp [retryCount_eq, find?_records_forget hp, hk]

/-- Only timers of the forgotten records are taken away. -/
theorem mem_sleepers_forget (h : s.Sound) {x : Sleeper α} (hx : x ∈ s.sleepers) {k : InstanceKey}
    (hk : s.timer? k = some x.id) (hn : p k = false) : x ∈ (s.forget p).sleepers := by
  refine List.mem_filter.2 ⟨hx, ?_⟩
  rw [Bool.or_eq_true]
  right
  simp only [timersOf, Table.values, List.filterMap_map, Bool.not_eq_true', List.contains_iff_mem,
    Bool.eq_false_iff, ne_eq, List.mem_filterMap, not_exists, not_and]
  rintro ⟨k', r⟩ hmem htimer
  obtain ⟨hmem, hpk⟩ := List.mem_filter.1 hmem
  have hname : s.timer? k' = some x.id := by
    unfold timer?
    rw [Table.find?_of_mem hmem]
    exact htimer
  have hpk' := hp _ _ (h.key_beq hk hname)
  dsimp only at hpk
  rw [hn, hpk] at hpk'
  cases hpk'

lemma Sound.forget (h : s.Sound) : (s.forget p).Sound where
  nodup := h.nodup.sublist (List.filter_sublist.map _)
  id_lt hx := h.id_lt (List.mem_filter.1 hx).1
  sleeps := by
    intro k id hk
    rw [timer?_forget hp] at hk
    split at hk
    · cases hk
    · next hn =>
      obtain ⟨x, hx, rfl, hxk⟩ := h.sleeps hk
      exact ⟨x, mem_sleepers_forget hp h hx hk (by simpa using hn), rfl, hxk⟩

lemma Awaits.forget (h : s.Sound) {k : InstanceKey} {action : α} (ha : s.Awaits k action)
    (hk : p k = false) : (s.forget p).Awaits k action := by
  obtain ⟨x, hx, hname, hact⟩ := ha
  refine ⟨x, mem_sleepers_forget hp h hx hname hk, ?_, hact⟩
  rw [timer?_forget hp, hk]
  exact hname

end Forget

lemma Sound.cancelAll (h : s.Sound) : s.cancelAll.Sound where
  nodup := h.nodup.sublist (List.filter_sublist.map _)
  id_lt hx := h.id_lt (List.mem_filter.1 hx).1
  sleeps hk := nomatch hk

section Schedule

variable {now : Nat} {k : InstanceKey} {action : α}

/-- A retry that is scheduled sleeps under the next number, unless the budget is spent. -/
theorem schedule_awaits (s : RetryScheduler α) (now : Nat) (k : InstanceKey) (action : α) :
    (s.delays.length ≤ s.retryCount k ∧
      (s.schedule now k action).1.retryCount k = s.retryCount k) ∨
      (s.schedule now k action).1.Awaits k action := by
  obtain ⟨hle, h⟩ | ⟨delay, -, h⟩ := s.schedule_cases now k action
  · refine .inl ⟨hle, ?_⟩
    rw [h, retryCount_eq, Table.find?_insert]
    simpa using s.attempts_recordOf k
  · refine .inr ?_
    rw [h]
    exact ⟨_, List.mem_append_right _ (List.mem_singleton.2 rfl), by simp [timer?], rfl⟩

/-- Either the timers stay as they are, or the instance has a new one. -/
theorem schedule_timers (s : RetryScheduler α) (now : Nat) (k : InstanceKey) (action : α) :
    ((∀ k', (s.schedule now k action).1.timer? k' = s.timer? k') ∧
      (s.schedule now k action).1.sleepers = s.sleepers) ∨
    ((∀ k', (s.schedule now k action).1.timer? k' =
        if k == k' then some s.nextTimer else s.timer? k') ∧
      ∃ x ∈ (s.schedule now k action).1.sleepers, x.id = s.nextTimer ∧ x.key = k) := by
  obtain ⟨-, h⟩ | ⟨delay, -, h⟩ := s.schedule_cases now k action
  · rw [h]
    refine .inl ⟨fun k' => ?_, rfl⟩
    unfold timer? recordOf
    rw [Table.find?_insert]
    split
    · next hk =>
      rw [← Table.find?_congr _ hk]
      cases s.records.find? k <;> rfl
    · rfl
  · rw [h]
    refine .inr ⟨fun k' => ?_, _, List.mem_append_right _ (List.mem_singleton.2 rfl), rfl, rfl⟩
    unfold timer?
    rw [Table.find?_insert]
    split <;> rfl

/-- Scheduling a retry takes away no timer of another instance. -/
theorem mem_sleepers_schedule_of_ne (h : s.Sound) {x : Sleeper α} (hx : x ∈ s.sleepers)
    {k' : InstanceKey} (hname : s.timer? k' = some x.id) (hk : (k == k') = false) :
    x ∈ (s.schedule now k action).1.sleepers := by
  obtain ⟨-, he⟩ | ⟨delay, -, he⟩ := s.schedule_cases now k action
  · rw [he]
    exact hx
  · rw [he]
    refine List.mem_append_left _ (List.mem_filter.2 ⟨hx, ?_⟩)
    have hne : (s.recordOf k).timer ≠ some x.id := by
      intro hr
      have hk' : s.timer? k = some x.id := by
        unfold recordOf at hr
        unfold timer?
        cases hf : s.records.find? k with
        | none => rw [hf] at hr; cases hr
        | some r => rw [hf] at hr; exact hr
      rw [h.key_beq hk' hname] at hk
      cases hk
    rw [Bool.or_eq_true]
    right
    simpa using hne

lemma retryCount_schedule_of_ne {k' : InstanceKey} (hk : (k == k') = false) :
    (s.schedule now k action).1.retryCount k' = s.retryCount k' := by
  obtain ⟨-, he⟩ | ⟨delay, -, he⟩ := s.schedule_cases now k action <;>
    simp [he, retryCount_eq, hk]

lemma Awaits.schedule (h : s.Sound) {k' : InstanceKey} {action' : α} (ha : s.Awaits k' action')
    (hk : (k == k') = false) : (s.schedule now k action).1.Awaits k' action' := by
  obtain ⟨x, hx, hname, hact⟩ := ha
  refine ⟨x, mem_sleepers_schedule_of_ne h hx hname hk, ?_, hact⟩
  obtain ⟨ht, -⟩ | ⟨ht, -⟩ := s.schedule_timers now k action
  · exact (ht k').trans hname
  · rw [ht, hk]
    exact hname

lemma Sound.schedule (h : s.Sound) : (s.schedule now k action).1.Sound where
  nodup := by
    obtain ⟨-, he⟩ | ⟨delay, -, he⟩ := s.schedule_cases now k action
    · rw [he]
      exact h.nodup
    · rw [he]
      simp only [List.map_append, List.map_cons, List.map_nil]
      refine List.Nodup.append (h.nodup.sublist (List.filter_sublist.map _))
        (List.nodup_singleton _) ?_
      intro id hid hnew
      obtain ⟨x, hx, rfl⟩ := List.mem_map.1 hid
      have hlt := h.id_lt (List.mem_filter.1 hx).1
      rw [List.mem_singleton.1 hnew] at hlt
      exact Nat.lt_irrefl _ hlt
  id_lt := by
    intro x hx
    obtain hx' | ⟨hid, -, hnext⟩ := s.mem_sleepers_schedule now k action hx
    · have hlt := h.id_lt hx'
      obtain ⟨-, he⟩ | ⟨delay, -, he⟩ := s.schedule_cases now k action
      · rw [he]
        exact hlt
      · rw [he]
        exact Nat.lt_succ_of_lt hlt
    · omega
  sleeps := by
    intro k' id hk'
    obtain ⟨ht, hs⟩ | ⟨ht, x, hx, hid, hxk⟩ := s.schedule_timers now k action
    · rw [ht] at hk'
      rw [hs]
      exact h.sleeps hk'
    rw [ht] at hk'
    split at hk'
    · next hk =>
      cases hk'
      exact ⟨x, hx, hid, by rw [hxk]; exact hk⟩
    · next hk =>
      obtain ⟨y, hy, rfl, hyk⟩ := h.sleeps hk'
      exact ⟨y, mem_sleepers_schedule_of_ne h hy hk' (by simpa using hk), rfl, hyk⟩

end Schedule

section Wake

variable {now id : Nat}

lemma Sound.wake? (h : s.Sound) (hw : s.wake? now id = some t) : t.Sound := by
  unfold RetryScheduler.wake? at hw
  split at hw
  · cases hw
    have hids : (s.sleepers.map fun x => if x.id == id then { x with awake := true } else x).map
        (·.id) = s.sleepers.map (·.id) := by
      rw [List.map_map]
      refine List.map_congr_left fun x _ => ?_
      dsimp only [Function.comp_apply]
      split <;> rfl
    refine ⟨?_, fun hx => ?_, fun hk => ?_⟩
    · dsimp only
      rw [hids]
      exact h.nodup
    · obtain ⟨y, hy, rfl⟩ := List.mem_map.1 hx
      have hlt := h.id_lt hy
      split <;> exact hlt
    · obtain ⟨x, hx, hid, hxk⟩ := h.sleeps hk
      refine ⟨_, List.mem_map.2 ⟨x, hx, rfl⟩, ?_⟩
      split <;> exact ⟨hid, hxk⟩
  · cases hw

lemma Awaits.wake? (hw : s.wake? now id = some t) {k : InstanceKey} {action : α}
    (ha : s.Awaits k action) : t.Awaits k action := by
  obtain ⟨x, hx, hname, hact⟩ := ha
  unfold RetryScheduler.wake? at hw
  split at hw
  · cases hw
    refine ⟨_, List.mem_map.2 ⟨x, hx, rfl⟩, ?_⟩
    split <;> exact ⟨hname, hact⟩
  · cases hw

end Wake

section Unhook

variable {id : Nat} {o : Option (Sleeper α)}

/-- A timer that ends is awake and is gone after that. If its record names it, the record lets go
of it and what it was set up for is to be done; otherwise no record names it. -/
theorem unhook?_cases (h : s.Sound) (hu : s.unhook? id = some (t, o)) :
    t.nextTimer = s.nextTimer ∧ t.sleepers = s.sleepers.filter (fun y => !(y.id == id)) ∧
      ((o = none ∧ t.timer? = s.timer? ∧ ∀ k, s.timer? k ≠ some id) ∨
        ∃ x, o = some x ∧ x ∈ s.sleepers ∧ x.id = id ∧ s.timer? x.key = some id ∧
          ∀ k, t.timer? k = if x.key == k then none else s.timer? k) := by
  unfold RetryScheduler.unhook? at hu
  split at hu
  · cases hu
  next x hx =>
    dsimp only at hu
    have hp := List.find?_some hx
    simp only [Bool.and_eq_true, beq_iff_eq] at hp
    have hmem := List.mem_of_find?_eq_some hx
    -- a record that names the timer is the one of its key
    have unnamed : s.timer? x.key ≠ some id → ∀ k, s.timer? k ≠ some id := by
      intro hn k hk
      obtain ⟨y, hy, hid, hyk⟩ := h.sleeps hk
      cases h.eq_of_id hmem hy (hp.1.trans hid.symm)
      exact hn ((timer?_congr hyk).trans hk)
    split at hu
    · next record hr =>
      have hname : s.timer? x.key = record.timer := by
        unfold timer?
        rw [hr]
        rfl
      split at hu
      · next ht =>
        cases hu
        refine ⟨rfl, rfl, .inr ⟨x, rfl, hmem, hp.1, hname.trans ht, fun k => ?_⟩⟩
        unfold timer?
        rw [Table.find?_insert]
        split <;> rfl
      · next ht =>
        cases hu
        exact ⟨rfl, rfl, .inl ⟨rfl, rfl, unnamed (by rw [hname]; exact ht)⟩⟩
    · next hr =>
      cases hu
      refine ⟨rfl, rfl, .inl ⟨rfl, rfl, unnamed ?_⟩⟩
      unfold timer?
      rw [hr]
      exact nofun

/-- A timer that ends has slept until then. -/
theorem exists_of_unhook? (hu : s.unhook? id = some (t, o)) : ∃ x ∈ s.sleepers, x.id = id := by
  unfold RetryScheduler.unhook? at hu
  split at hu
  · cases hu
  next x hx =>
    have hp := List.find?_some hx
    rw [Bool.and_eq_true] at hp
    exact ⟨x, List.mem_of_find?_eq_some hx, eq_of_beq hp.1⟩

lemma Sound.unhook? (h : s.Sound) (hu : s.unhook? id = some (t, o)) : t.Sound := by
  obtain ⟨hn, hs, ho⟩ := unhook?_cases h hu
  refine ⟨?_, fun hx => ?_, fun {k id'} hk => ?_⟩
  · rw [hs]
    exact h.nodup.sublist (List.filter_sublist.map _)
  · rw [hs] at hx
    rw [hn]
    exact h.id_lt (List.mem_filter.1 hx).1
  · have hold : s.timer? k = some id' ∧ id' ≠ id := by
      obtain ⟨-, ht, hunnamed⟩ | ⟨x, -, -, -, hname, ht⟩ := ho
      · rw [ht] at hk
        exact ⟨hk, fun he => hunnamed k (he ▸ hk)⟩
      · rw [ht] at hk
        split at hk
        · cases hk
        · next hne => exact ⟨hk, fun he => hne (h.key_beq hname (he ▸ hk))⟩
    obtain ⟨y, hy, rfl, hyk⟩ := h.sleeps hold.1
    refine ⟨y, ?_, rfl, hyk⟩
    rw [hs]
    exact List.mem_filter.2 ⟨hy, by simpa using hold.2⟩

/-- A timer that is waited for goes on sleeping, or what it was set up for is to be done. -/
theorem Awaits.unhook? (h : s.Sound) (hu : s.unhook? id = some (t, o)) {k : InstanceKey}
    {action : α} (ha : s.Awaits k action) : t.Awaits k action ∨ ∃ x ∈ o, x.action = action := by
  obtain ⟨y, hy, hname, hact⟩ := ha
  obtain ⟨-, hs, ho⟩ := unhook?_cases h hu
  have kept (hne : y.id ≠ id) (ht : t.timer? k = s.timer? k) : t.Awaits k action := by
    refine ⟨y, ?_, ht.trans hname, hact⟩
    rw [hs]
    exact List.mem_filter.2 ⟨hy, by simpa using hne⟩
  obtain ⟨-, ht, hunnamed⟩ | ⟨x, rfl, hx, rfl, hxk, ht⟩ := ho
  · exact .inl (kept (fun he => hunnamed k (he ▸ hname)) (by rw [ht]))
  · by_cases hid : y.id = x.id
    · cases h.eq_of_id hy hx hid
      exact .inr ⟨y, rfl, hact⟩
    · refine .inl (kept hid ?_)
      rw [ht]
      split
      · next hk =>
        rw [timer?_congr hk, hname] at hxk
        exact absurd (Option.some.inj hxk) hid
      · rfl

end Unhook

end ServerFleet.RetryScheduler
