import ServerFleet.Proofs.Retry.Timers

/-!
The retries of an instance as they are seen from outside: how many were scheduled, when the pending
one is due and what it is to do. A call acts on the record of each instance by itself. The numbers
of timers and the timers that wake up too late stay out of sight.
-/

namespace ServerFleet

/-- What can be asked of the retries. -/
inductive RetryCall (α : Type u) where
  | schedule (k : InstanceKey) (action : α)
  | clear (k : InstanceKey)
  | clearServer (server : String)
  | cancelAll

inductive RetryAnswer where
  /-- The number of the retry that was scheduled. -/
  | attempt (n : Option Nat)
  /-- The number of the instances that were forgotten. -/
  | cleared (count : Nat)
  | done
deriving DecidableEq

/-- The record of an instance: the retries scheduled so far, and the pending one with its time. -/
structure RetryEntry (α : Type u) where
  count : Nat
  pending : Option (Nat × α)

namespace RetryEntry

variable {α : Type u}

/-- The next retry takes the place of the pending one, unless all delays are used up. -/
def schedule (delays : List Nat) (now : Nat) (action : α) (e : RetryEntry α) : RetryEntry α :=
  match delays[e.count]? with
  | some delay => ⟨e.count + 1, some (now + delay, action)⟩
  | none => e

/-- What a call makes of the record of an instance. -/
def call (delays : List Nat) (now : Nat) (k : InstanceKey) (e : Option (RetryEntry α)) :
    RetryCall α → Option (RetryEntry α)
  | .schedule k' action =>
    if k' == k then some ((e.getD ⟨0, none⟩).schedule delays now action) else e
  | .clear k' => if k' == k then none else e
  | .clearServer server => if k.serverId == server then none else e
  | .cancelAll => none

end RetryEntry

namespace RetryScheduler

variable {α : Type u} {s t : RetryScheduler α} {now : Nat} {k : InstanceKey} {c : RetryCall α}

def perform (s : RetryScheduler α) (now : Nat) : RetryCall α → RetryScheduler α × RetryAnswer
  | .schedule k action => ((s.schedule now k action).1, .attempt (s.schedule now k action).2)
  | .clear k => (s.clear k, .done)
  | .clearServer server => ((s.clearServer server).1, .cleared (s.clearServer server).2)
  | .cancelAll => (s.cancelAll, .done)

/-- The timers that a call takes away, by the numbers that records hold of them. -/
def handles (s : RetryScheduler α) : RetryCall α → List Nat
  | .schedule k _ => if s.retryCount k < s.delays.length then (s.recordOf k).timer.toList else []
  | .clear k => timersOf (s.records.filter fun k' _ => k' == k)
  | .clearServer server => timersOf (s.recordsOf server)
  | .cancelAll => timersOf s.records

/-- Whether a call replaces or removes the pending retry of an instance. -/
def displaces (s : RetryScheduler α) (k : InstanceKey) : RetryCall α → Bool
  | .schedule k' _ => k' == k && decide (s.retryCount k < s.delays.length)
  | .clear k' => k' == k
  | .clearServer server => k.serverId == server
  | .cancelAll => true

/-- When the pending retry of an instance is due, and what it is to do. -/
def due? (s : RetryScheduler α) (k : InstanceKey) : Option (Nat × α) :=
  (s.timer? k).bind fun id => (s.sleepers.find? (·.id == id)).map fun x => (x.due, x.action)

def entryOf (s : RetryScheduler α) (k : InstanceKey) : Option (RetryEntry α) :=
  (s.records.find? k).map fun r => ⟨r.attempts, s.due? k⟩

/-- The answer to a call, told from the records. -/
def Answers (s : RetryScheduler α) : RetryCall α → RetryAnswer → Prop
  | .schedule k _, a =>
    let count := (s.entryOf k).elim 0 (·.count)
    a = .attempt (if count < s.delays.length then some (count + 1) else none)
  | .clearServer server, a => ∃ keys : List InstanceKey, a = .cleared keys.length ∧
      keys.Pairwise (fun k k' => (k == k') = false) ∧
      ∀ k, keys.any (· == k) = (k.serverId == server && (s.entryOf k).isSome)
  | _, a => a = .done

lemma isSome_entryOf (k : InstanceKey) : (s.entryOf k).isSome = s.records.contains k := by
  simp [entryOf, Table.contains]

lemma retryCount_eq_entryOf (k : InstanceKey) :
    s.retryCount k = (s.entryOf k).elim 0 (·.count) := by
  unfold retryCount entryOf
  cases s.records.find? k <;> rfl

lemma timer?_recordOf (k : InstanceKey) : (s.recordOf k).timer = s.timer? k := by
  unfold recordOf timer?
  cases s.records.find? k <;> rfl

lemma retryCount_congr {k k' : InstanceKey} (h : (k == k') = true) :
    s.retryCount k = s.retryCount k' := by
  rw [retryCount_eq, retryCount_eq, Table.find?_congr _ h]

section Due

lemma Sound.find?_sleeper (h : s.Sound) {x : Sleeper α} (hx : x ∈ s.sleepers) :
    s.sleepers.find? (·.id == x.id) = some x := by
  have hsome : (s.sleepers.find? (·.id == x.id)).isSome = true := by
    rw [List.find?_isSome]
    exact ⟨x, hx, by simp⟩
  obtain ⟨y, hy⟩ := Option.isSome_iff_exists.1 hsome
  have hid : y.id = x.id := by simpa using List.find?_some hy
  rw [hy, h.eq_of_id (List.mem_of_find?_eq_some hy) hx hid]

lemma Sound.due?_eq (h : s.Sound) {x : Sleeper α} (hx : x ∈ s.sleepers)
    (hk : s.timer? k = some x.id) : s.due? k = some (x.due, x.action) := by
  simp [due?, hk, h.find?_sleeper hx]

lemma Sound.due?_eq_some (h : s.Sound) {due : Nat} {action : α}
    (hd : s.due? k = some (due, action)) :
    ∃ x ∈ s.sleepers, s.timer? k = some x.id ∧ (x.key == k) = true ∧ x.due = due ∧
      x.action = action := by
  obtain ⟨id, hk, -⟩ := Option.bind_eq_some_iff.1 hd
  obtain ⟨x, hx, rfl, hxk⟩ := h.sleeps hk
  rw [h.due?_eq hx hk] at hd
  cases hd
  exact ⟨x, hx, hk, hxk, rfl, rfl⟩

/-- A timer that goes on sleeping for its instance is due when it was. -/
theorem Sound.due?_keep (h : s.Sound) (ht : t.Sound) (hk : t.timer? k = s.timer? k)
    (hs : ∀ x ∈ s.sleepers, s.timer? k = some x.id →
      ∃ y ∈ t.sleepers, y.id = x.id ∧ y.due = x.due ∧ y.action = x.action) :
    t.due? k = s.due? k := by
  cases hid : s.timer? k with
  | none =>
    rw [hid] at hk
    simp [due?, hk, hid]
  | some id =>
    obtain ⟨x, hx, rfl, -⟩ := h.sleeps hid
    obtain ⟨y, hy, hyx, hdue, hact⟩ := hs x hx hid
    have hky : t.timer? k = some y.id := by rw [hk, hid, hyx]
    rw [h.due?_eq hx hid, ht.due?_eq hy hky, hdue, hact]

lemma due?_of_timer? (hk : s.timer? k = none) : s.due? k = none := by
  simp [due?, hk]

end Due

section Calls

/-- A timer that a call takes away is one that some record names. -/
theorem exists_of_mem_timersOf {records : Table InstanceKey RetryRecord} {id : Nat}
    (h : id ∈ timersOf records) : ∃ k r, records.find? k = some r ∧ r.timer = some id := by
  obtain ⟨r, hr, hid⟩ := List.mem_filterMap.1 h
  obtain ⟨k, hk⟩ := Table.mem_values_iff.1 hr
  exact ⟨k, r, hk, hid⟩

lemma exists_of_mem_handles {id : Nat} (h : id ∈ s.handles c) :
    ∃ k, s.timer? k = some id ∧ s.displaces k c = true := by
  -- the records that are forgotten name their timers in the table, too
  have forgotten {p : InstanceKey → Bool} (hp : ∀ a b, (a == b) = true → p a = p b)
      (h : id ∈ timersOf (s.records.filter fun k _ => p k)) :
      ∃ k, s.timer? k = some id ∧ p k = true := by
    obtain ⟨k, r, hf, hid⟩ := exists_of_mem_timersOf h
    rw [Table.find?_filter_key _ hp] at hf
    split at hf
    · next hk => exact ⟨k, by simp [timer?, hf, hid], hk⟩
    · cases hf
  cases c with
  | schedule k action =>
    rw [handles, timer?_recordOf] at h
    by_cases hlt : s.retryCount k < s.delays.length
    · rw [if_pos hlt, Option.mem_toList] at h
      exact ⟨k, h, by simp [displaces, hlt]⟩
    · simp [hlt] at h
  | clear k =>
    obtain ⟨k', hk', hp⟩ := forgotten (p := (· == k)) (fun _ _ hk => BEq.congr_left hk) h
    exact ⟨k', hk', BEq.comm.trans hp⟩
  | clearServer server =>
    exact forgotten (p := (·.serverId == server))
      (fun _ _ hk => by rw [InstanceKey.serverId_eq_of_beq hk]) h
  | cancelAll =>
    obtain ⟨k, r, hf, hid⟩ := exists_of_mem_timersOf h
    exact ⟨k, by simp [timer?, hf, hid], rfl⟩

lemma displaces_congr {k k' : InstanceKey} (h : (k == k') = true) :
    s.displaces k c = s.displaces k' c := by
  cases c with
  | schedule key action => simp [displaces, BEq.congr_right h, retryCount_congr h]
  | clear key => exact BEq.congr_right h
  | clearServer server => simp [displaces, InstanceKey.serverId_eq_of_beq h]
  | cancelAll => rfl

/-- A call leaves the timers of the instances alone whose retries it does not displace. -/
theorem Sound.not_mem_handles (h : s.Sound) {id : Nat} (hk : s.timer? k = some id)
    (hd : s.displaces k c = false) : id ∉ s.handles c := by
  intro hid
  obtain ⟨k', hk', hd'⟩ := exists_of_mem_handles hid
  rw [displaces_congr (h.key_beq hk' hk), hd] at hd'
  cases hd'

/-- Of the timers there are, a call takes those away that it has handles of and that sleep. -/
theorem mem_sleepers_perform {x : Sleeper α} (hx : x ∈ s.sleepers) (hid : x.id ∉ s.handles c) :
    x ∈ (s.perform now c).1.sleepers := by
  have kept : ∀ {ids : List Nat}, x.id ∉ ids → x ∈ (s.abort ids).sleepers := by
    intro ids hn
    refine List.mem_filter.2 ⟨hx, ?_⟩
    simp [hn]
  cases c with
  | schedule k action =>
    obtain ⟨-, he⟩ | ⟨delay, hdelay, he⟩ := s.schedule_cases now k action
    · simp only [perform, he]
      exact hx
    · simp only [perform, he]
      have hlt := (List.getElem?_eq_some_iff.1 hdelay).1
      simp only [handles, hlt, if_true] at hid
      exact List.mem_append_left _ (kept hid)
  | clear k => exact kept hid
  | clearServer server => exact kept hid
  | cancelAll => exact kept hid

lemma timer?_perform (hd : s.displaces k c = false) :
    (s.perform now c).1.timer? k = s.timer? k := by
  cases c with
  | schedule k' action =>
    obtain ⟨-, he⟩ | ⟨delay, hdelay, he⟩ := s.schedule_cases now k' action
    · unfold timer? perform
      simp only [he, Table.find?_insert]
      split
      · next hk =>
        rw [← Table.find?_congr _ hk]
        unfold recordOf
        cases s.records.find? k' <;> rfl
      · rfl
    · have hlt := (List.getElem?_eq_some_iff.1 hdelay).1
      have hk : (k' == k) = false := by
        cases hk : k' == k with
        | false => rfl
        | true =>
          rw [retryCount_congr hk] at hlt
          simp [displaces, hk, hlt] at hd
      simp [timer?, perform, he, hk]
  | clear k' =>
    have hk : (k == k') = false := BEq.comm.trans hd
    refine (timer?_forget (p := (· == k')) (fun _ _ h => BEq.congr_left h) k).trans ?_
    rw [hk]
    rfl
  | clearServer server =>
    refine (timer?_forget (p := (·.serverId == server))
      (fun _ _ h => by rw [InstanceKey.serverId_eq_of_beq h]) k).trans ?_
    rw [show (k.serverId == server) = false from hd]
    rfl
  | cancelAll => cases hd

lemma Sound.perform (h : s.Sound) : (s.perform now c).1.Sound := by
  cases c with
  | schedule => exact h.schedule
  | clear => exact h.forget fun _ _ hk => BEq.congr_left hk
  | clearServer => exact h.forget fun _ _ hk => by rw [InstanceKey.serverId_eq_of_beq hk]
  | cancelAll => exact h.cancelAll

lemma Sound.due?_perform (h : s.Sound) (hd : s.displaces k c = false) :
    (s.perform now c).1.due? k = s.due? k := by
  refine h.due?_keep h.perform (timer?_perform hd) fun x hx hk => ?_
  exact ⟨x, mem_sleepers_perform hx (h.not_mem_handles hk hd), rfl, rfl, rfl⟩

lemma entryOf_getD (k : InstanceKey) :
    (s.entryOf k).getD ⟨0, none⟩ = ⟨s.retryCount k, s.due? k⟩ := by
  unfold entryOf retryCount
  cases hr : s.records.find? k with
  | none =>
    have hn : s.due? k = none := due?_of_timer? (by simp [timer?, hr])
    simp [hn]
  | some r => rfl

/-- What is pending can be told from the record. -/
theorem due?_eq_entryOf (k : InstanceKey) : s.due? k = (s.entryOf k).bind (·.pending) := by
  unfold entryOf
  cases hr : s.records.find? k with
  | none => exact due?_of_timer? (by simp [timer?, hr])
  | some r => rfl

lemma Sound.entryOf_schedule (h : s.Sound) (k' : InstanceKey) (action : α) (k : InstanceKey) :
    (s.schedule now k' action).1.entryOf k =
      RetryEntry.call s.delays now k (s.entryOf k) (.schedule k' action) := by
  have hsound : (s.schedule now k' action).1.Sound := h.schedule
  have hcall : RetryEntry.call s.delays now k (s.entryOf k) (.schedule k' action) =
      if k' == k then some (RetryEntry.schedule s.delays now action ⟨s.retryCount k, s.due? k⟩)
      else s.entryOf k := by
    rw [← entryOf_getD]
    rfl
  rw [hcall]
  cases hk : k' == k with
  | false =>
    have hd : s.displaces k (.schedule k' action) = false := by simp [displaces, hk]
    have hf : (s.schedule now k' action).1.records.find? k = s.records.find? k := by
      obtain ⟨-, he⟩ | ⟨delay, -, he⟩ := s.schedule_cases now k' action <;> simp [he, hk]
    have hdue : (s.schedule now k' action).1.due? k = s.due? k := h.due?_perform hd
    simp only [entryOf, hf, hdue]
    rfl
  | true =>
    have hcount := retryCount_congr (s := s) hk
    simp only [if_true]
    obtain ⟨hle, he⟩ | ⟨delay, hdelay, he⟩ := s.schedule_cases now k' action
    · -- the budget is spent: the record is as good as before
      have hd : s.displaces k (.schedule k' action) = false := by
        simp only [displaces, hk, Bool.true_and, decide_eq_false_iff_not]
        omega
      have hdue : (s.schedule now k' action).1.due? k = s.due? k := h.due?_perform hd
      have hnone : s.delays[s.retryCount k]? = none := by
        rw [List.getElem?_eq_none_iff, ← hcount]
        exact hle
      have hf : (s.schedule now k' action).1.records.find? k = some (s.recordOf k') := by
        simp [he, hk]
      simp only [entryOf, hf, hdue, RetryEntry.schedule, hnone, Option.map_some, attempts_recordOf,
        hcount]
    · have hf : (s.schedule now k' action).1.records.find? k =
          some ⟨s.retryCount k' + 1, some s.nextTimer⟩ := by
        simp [he, hk]
      have hx : ⟨s.nextTimer, k', now + delay, action, false⟩ ∈
          (s.schedule now k' action).1.sleepers := by
        rw [he]
        exact List.mem_append_right _ (List.mem_singleton.2 rfl)
      have hdue := hsound.due?_eq (k := k) hx (by rw [timer?, hf]; rfl)
      rw [hcount] at hdelay
      simp only [entryOf, hf, hdue, RetryEntry.schedule, hdelay, Option.map_some, hcount]

lemma Sound.entryOf_forget {p : InstanceKey → Bool} (hp : ∀ a b, (a == b) = true → p a = p b)
    (h : s.Sound) (k : InstanceKey) :
    (s.forget p).entryOf k = if p k then none else s.entryOf k := by
  unfold entryOf
  rw [find?_records_forget hp]
  cases hk : p k with
  | true => rfl
  | false =>
    have hdue : (s.forget p).due? k = s.due? k := by
      refine h.due?_keep (h.forget hp) ?_ fun x hx hname => ?_
      · rw [timer?_forget hp, hk]
        rfl
      · exact ⟨x, mem_sleepers_forget hp h hx hname hk, rfl, rfl, rfl⟩
    rw [hdue]
    rfl

/-- A call acts on the record of each instance as on a record that stands alone. -/
theorem Sound.entryOf_perform (h : s.Sound) (now : Nat) (c : RetryCall α) (k : InstanceKey) :
    (s.perform now c).1.entryOf k = RetryEntry.call s.delays now k (s.entryOf k) c := by
  cases c with
  | schedule k' action => exact h.entryOf_schedule k' action k
  | clear k' =>
    refine (h.entryOf_forget (p := (· == k')) (fun _ _ hk => BEq.congr_left hk) k).trans ?_
    rw [RetryEntry.call, BEq.comm]
  | clearServer server =>
    exact h.entryOf_forget (p := (·.serverId == server))
      (fun _ _ hk => by rw [InstanceKey.serverId_eq_of_beq hk]) k
  | cancelAll => rfl

/-- The answer to a call tells what it did to the records. -/
theorem answers_perform (s : RetryScheduler α) (now : Nat) (c : RetryCall α) :
    s.Answers c (s.perform now c).2 := by
  cases c with
  | schedule k action =>
    simp only [Answers, ← retryCount_eq_entryOf]
    obtain ⟨hle, he⟩ | ⟨delay, hdelay, he⟩ := s.schedule_cases now k action
    · rw [if_neg (by omega)]
      simp only [perform, he]
    · have hlt := (List.getElem?_eq_some_iff.1 hdelay).1
      rw [if_pos hlt]
      simp only [perform, he]
  | clear => rfl
  | clearServer server =>
    refine ⟨(s.recordsOf server).keys, ?_, ?_, fun k => ?_⟩
    · simp [perform, clearServer, Table.size, Table.keys]
    · exact List.pairwise_map.2 (s.recordsOf server).distinct
    · rw [isSome_entryOf, ← Table.contains_eq_any]
      exact Table.contains_filter_key s.records (p := (·.serverId == server))
        (fun _ _ hk => by rw [InstanceKey.serverId_eq_of_beq hk]) k
  | cancelAll => rfl

end Calls

section Timers

variable {id : Nat}

lemma Sound.entryOf_wake? (h : s.Sound) (hw : s.wake? now id = some t) (k : InstanceKey) :
    t.entryOf k = s.entryOf k := by
  have hr := (wake?_eq hw).2.1
  have hdue : t.due? k = s.due? k := by
    refine h.due?_keep (h.wake? hw) (by simp [timer?, hr]) fun x hx _ => ?_
    unfold RetryScheduler.wake? at hw
    split at hw
    · cases hw
      refine ⟨_, List.mem_map.2 ⟨x, hx, rfl⟩, ?_⟩
      split <;> exact ⟨rfl, rfl, rfl⟩
    · cases hw
  simp only [entryOf, hr, hdue]

lemma entryOf_eq_counts (k : InstanceKey) :
    s.entryOf k = ((s.records.find? k).map (·.attempts)).map (⟨·, s.due? k⟩) := by
  unfold entryOf
  rw [Option.map_map]
  rfl

/-- A timer that starts its action was the pending one of its instance, which has none now. -/
theorem Sound.entryOf_started {x : Sleeper α} (h : s.Sound)
    (hu : s.unhook? id = some (t, some x)) (k : InstanceKey) :
    t.entryOf k =
      if x.key == k then (s.entryOf k).map ({ · with pending := none }) else s.entryOf k := by
  obtain ⟨-, hs, ⟨ho, -⟩ | ⟨y, hy, hmem, rfl, hname, ht⟩⟩ := unhook?_cases h hu
  · cases ho
  cases hy
  rw [entryOf_eq_counts, (unhook?_eq hu).2.2.1 k, entryOf_eq_counts]
  cases hk : x.key == k with
  | true =>
    have hnone : t.due? k = none := due?_of_timer? (by rw [ht, hk]; rfl)
    rw [hnone, if_pos rfl]
    cases s.records.find? k <;> rfl
  | false =>
    have hdue : t.due? k = s.due? k := by
      refine h.due?_keep (h.unhook? hu) (by rw [ht, hk]; rfl) fun z hz hzk => ?_
      refine ⟨z, ?_, rfl, rfl, rfl⟩
      have hne : z.id ≠ x.id := by
        intro he
        rw [he] at hzk
        rw [h.key_beq hname hzk] at hk
        cases hk
      rw [hs]
      exact List.mem_filter.2 ⟨hz, by simpa using hne⟩
    rw [hdue]
    rfl

/-- A timer that finds itself unhooked was not the pending one of any instance. -/
theorem Sound.entryOf_lapsed (h : s.Sound) (hu : s.unhook? id = some (t, none))
    (k : InstanceKey) : t.entryOf k = s.entryOf k := by
  obtain ⟨-, hs, ⟨-, ht, hunnamed⟩ | ⟨y, hy, -⟩⟩ := unhook?_cases h hu
  · have hdue : t.due? k = s.due? k := by
      refine h.due?_keep (h.unhook? hu) (by rw [ht]) fun z hz hzk => ⟨z, ?_, rfl, rfl, rfl⟩
      have hne : z.id ≠ id := fun he => hunnamed k (he ▸ hzk)
      rw [hs]
      exact List.mem_filter.2 ⟨hz, by simpa using hne⟩
    rw [entryOf_eq_counts, (unhook?_eq hu).2.2.1 k, hdue, entryOf_eq_counts]
  · cases hy

end Timers

end RetryScheduler

end ServerFleet
