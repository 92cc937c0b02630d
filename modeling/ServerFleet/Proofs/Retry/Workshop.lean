import Mathlib.Data.List.Induction
import ServerFleet.Proofs.Retry.Entry

/-!
Retries at work: a clock, the timers, and the tasks whose actions have started. A task keeps the
number of its timer, so a handle of the timer that was left behind would end the task. Calls come
from outside and from tasks, in any order and at any time.
-/

namespace ServerFleet

namespace RetryScheduler

variable {α : Type u} {s t : RetryScheduler α} {now id : Nat} {k : InstanceKey} {c : RetryCall α}

lemma delays_perform (s : RetryScheduler α) (now : Nat) (c : RetryCall α) :
    (s.perform now c).1.delays = s.delays := by
  cases c with
  | schedule k action => exact s.delays_schedule now k action
  | clear | clearServer | cancelAll => rfl

/-- A record that names a timer after a call named it before, or the timer is new. -/
theorem timer?_of_perform (h : (s.perform now c).1.timer? k = some id) :
    s.timer? k = some id ∨ id = s.nextTimer := by
  have kept {p : InstanceKey → Bool} (hp : ∀ a b, (a == b) = true → p a = p b)
      (h : (s.forget p).timer? k = some id) : s.timer? k = some id := by
    rw [timer?_forget hp] at h
    split at h
    · cases h
    · exact h
  cases c with
  | schedule k' action =>
    obtain ⟨ht, -⟩ | ⟨ht, -⟩ := s.schedule_timers now k' action
    · exact .inl ((ht k).symm.trans h)
    · have hk := (ht k).symm.trans h
      split at hk
      · exact .inr (Option.some.inj hk).symm
      · exact .inl hk
  | clear k' => exact .inl (kept (p := (· == k')) (fun _ _ hk => BEq.congr_left hk) h)
  | clearServer server =>
    exact .inl (kept (p := (·.serverId == server))
      (fun _ _ hk => by rw [InstanceKey.serverId_eq_of_beq hk]) h)
  | cancelAll => cases h

lemma nextTimer_le_perform (s : RetryScheduler α) (now : Nat) (c : RetryCall α) :
    s.nextTimer ≤ (s.perform now c).1.nextTimer := by
  cases c with
  | schedule k action =>
    obtain ⟨-, he⟩ | ⟨delay, -, he⟩ := s.schedule_cases now k action <;> simp [perform, he]
  | clear | clearServer | cancelAll => exact Nat.le_refl _

/-- A call that displaces the retry of an instance takes its timer off the record. -/
theorem timer?_of_displaces (hd : s.displaces k c = true) :
    (s.perform now c).1.timer? k = none ∨ (s.perform now c).1.timer? k = some s.nextTimer := by
  cases c with
  | schedule k' action =>
    obtain ⟨hk, hlt⟩ : (k' == k) = true ∧ s.retryCount k < s.delays.length := by
      simpa [displaces] using hd
    obtain ⟨hle, -⟩ | ⟨delay, -, he⟩ := s.schedule_cases now k' action
    · rw [retryCount_congr hk] at hle
      exact absurd hlt (Nat.not_lt.2 hle)
    · right
      simp [perform, he, timer?, hk]
  | clear k' =>
    left
    have ht := timer?_forget (s := s) (p := (· == k')) (fun _ _ h => BEq.congr_left h) k
    rw [show (k == k') = true from BEq.symm hd] at ht
    exact ht
  | clearServer server =>
    left
    have ht := timer?_forget (s := s) (p := (·.serverId == server))
      (fun _ _ h => by rw [InstanceKey.serverId_eq_of_beq h]) k
    rw [show (k.serverId == server) = true from hd] at ht
    exact ht
  | cancelAll => exact .inl rfl

/-- What is awake after a call was awake before. -/
theorem mem_sleepers_of_perform {x : Sleeper α} (hx : x ∈ (s.perform now c).1.sleepers)
    (ha : x.awake = true) : x ∈ s.sleepers := by
  cases c with
  | schedule k action =>
    obtain ⟨-, he⟩ | ⟨delay, -, he⟩ := s.schedule_cases now k action
    · simp only [perform, he] at hx
      exact hx
    · simp only [perform, he] at hx
      rcases List.mem_append.1 hx with hx | hx
      · exact (List.mem_filter.1 hx).1
      · obtain rfl := List.mem_singleton.1 hx
        cases ha
  | clear | clearServer | cancelAll => exact (List.mem_filter.1 hx).1

lemma due_of_wake? (h : s.Sound) (hw : s.wake? now id = some t) {x : Sleeper α}
    (hx : x ∈ t.sleepers) (ha : x.awake = true)
    (hs : ∀ {y}, y ∈ s.sleepers → y.awake = true → y.due ≤ now) : x.due ≤ now := by
  unfold wake? at hw
  split at hw
  · next hany =>
    cases hw
    obtain ⟨y, hy, hp⟩ := List.any_eq_true.1 hany
    simp only [Bool.and_eq_true, beq_iff_eq, decide_eq_true_eq] at hp
    obtain ⟨z, hz, rfl⟩ := List.mem_map.1 hx
    by_cases hid : z.id = id
    · obtain rfl := h.eq_of_id hy hz (hp.1.1.trans hid.symm)
      simpa [hid] using hp.2
    · simp only [beq_eq_false_iff_ne.2 hid, Bool.false_eq_true, if_false] at ha ⊢
      exact hs hz ha
  · cases hw

/-- A timer that starts its action is awake and named by the record of its instance. -/
theorem of_started {x : Sleeper α} (h : s.Sound) (hu : s.unhook? id = some (t, some x)) :
    x ∈ s.sleepers ∧ x.awake = true ∧ s.timer? x.key = some x.id := by
  obtain ⟨-, -, ⟨ho, -⟩ | ⟨y, hy, hmem, rfl, hname, -⟩⟩ := unhook?_cases h hu
  · cases ho
  cases hy
  refine ⟨hmem, ?_, hname⟩
  unfold unhook? at hu
  split at hu
  · cases hu
  next z hz =>
    have hp := List.find?_some hz
    simp only [Bool.and_eq_true, beq_iff_eq] at hp
    obtain rfl := h.eq_of_id (List.mem_of_find?_eq_some hz) hmem hp.1
    exact hp.2

lemma Sound.entryOf_eq_some (h : s.Sound) {x : Sleeper α} (hx : x ∈ s.sleepers)
    (hk : s.timer? k = some x.id) :
    s.entryOf k = some ⟨s.retryCount k, some (x.due, x.action)⟩ := by
  have hdue := h.due?_eq hx hk
  unfold entryOf retryCount
  rw [hdue]
  unfold timer? at hk
  cases hr : s.records.find? k with
  | none =>
    rw [hr] at hk
    cases hk
  | some r => rfl

lemma exists_wake? {x : Sleeper α} (hx : x ∈ s.sleepers) (ha : x.awake = false)
    (hle : x.due ≤ now) :
    ∃ t, s.wake? now x.id = some t ∧ { x with awake := true } ∈ t.sleepers := by
  have hany :
      (s.sleepers.any fun y => y.id == x.id && !y.awake && decide (y.due ≤ now)) = true := by
    rw [List.any_eq_true]
    exact ⟨x, hx, by simp [ha, hle]⟩
  refine ⟨_, if_pos hany, List.mem_map.2 ⟨x, hx, ?_⟩⟩
  simp

/-- A timer that is awake and named by its record can be unhooked. -/
theorem Sound.exists_unhook? (h : s.Sound) {x : Sleeper α} (hx : x ∈ s.sleepers)
    (ha : x.awake = true) (hname : s.timer? x.key = some x.id) :
    ∃ t, s.unhook? x.id = some (t, some x) := by
  have hfind : s.sleepers.find? (fun y => y.id == x.id && y.awake) = some x := by
    have hsome : (s.sleepers.find? fun y => y.id == x.id && y.awake).isSome = true := by
      rw [List.find?_isSome]
      exact ⟨x, hx, by simp [ha]⟩
    obtain ⟨y, hy⟩ := Option.isSome_iff_exists.1 hsome
    have hp := List.find?_some hy
    simp only [Bool.and_eq_true, beq_iff_eq] at hp
    rw [hy, h.eq_of_id (List.mem_of_find?_eq_some hy) hx hp.1]
  obtain ⟨record, hr, hid⟩ := Option.bind_eq_some_iff.1 hname
  unfold RetryScheduler.unhook?
  rw [hfind]
  simp only [hr, hid, if_true]
  exact ⟨_, rfl⟩

/-- A timer that was given out and that no record names any more. -/
structure Past (s : RetryScheduler α) (id : Nat) : Prop where
  id_lt : id < s.nextTimer
  unnamed : ∀ k, s.timer? k ≠ some id

namespace Past

lemma perform (h : s.Past id) : (s.perform now c).1.Past id where
  id_lt := Nat.lt_of_lt_of_le h.id_lt (s.nextTimer_le_perform now c)
  unnamed k hk := by
    obtain hk | rfl := timer?_of_perform hk
    · exact h.unnamed k hk
    · exact Nat.lt_irrefl _ h.id_lt

lemma wake? {id' : Nat} (h : s.Past id) (hw : s.wake? now id' = some t) : t.Past id := by
  obtain ⟨-, hr, hn, -⟩ := wake?_eq hw
  refine ⟨hn ▸ h.id_lt, fun k hk => h.unnamed k ?_⟩
  rw [timer?, hr] at hk
  exact hk

lemma unhook? {id' : Nat} {o : Option (Sleeper α)} (h : s.Past id) (hs : s.Sound)
    (hu : s.unhook? id' = some (t, o)) : t.Past id := by
  obtain ⟨hn, -, ⟨-, ht, -⟩ | ⟨x, -, -, -, -, ht⟩⟩ := unhook?_cases hs hu
  · refine ⟨hn ▸ h.id_lt, fun k hk => h.unnamed k ?_⟩
    rw [← ht]
    exact hk
  · refine ⟨hn ▸ h.id_lt, fun k hk => h.unnamed k ?_⟩
    rw [ht] at hk
    split at hk
    · cases hk
    · exact hk

/-- No call has a handle of such a timer. -/
theorem not_mem_handles (h : s.Past id) : id ∉ s.handles c := by
  intro hid
  obtain ⟨k, hk, -⟩ := exists_of_mem_handles hid
  exact h.unnamed k hk

/-- The timer of an action that starts is one of those. -/
theorem of_started {x : Sleeper α} (h : s.Sound) (hu : s.unhook? id = some (t, some x)) :
    t.Past x.id := by
  obtain ⟨hn, -, ⟨ho, -⟩ | ⟨y, hy, hmem, rfl, hname, ht⟩⟩ := unhook?_cases h hu
  · cases ho
  cases hy
  refine ⟨hn ▸ h.id_lt hmem, fun k hk => ?_⟩
  rw [ht] at hk
  split at hk
  · cases hk
  · next hne => exact hne (h.key_beq hname hk)

/-- And so is one whose retry was displaced. -/
theorem of_displaces (h : s.Sound) (hk : s.timer? k = some id) (hd : s.displaces k c = true) :
    (s.perform now c).1.Past id := by
  obtain ⟨x, hx, rfl, -⟩ := h.sleeps hk
  have hlt := h.id_lt hx
  refine ⟨Nat.lt_of_lt_of_le hlt (s.nextTimer_le_perform now c), fun k' hk' => ?_⟩
  obtain hold | hnew := timer?_of_perform hk'
  · rw [← timer?_congr (h.key_beq hk hold)] at hk'
    rcases @timer?_of_displaces _ _ now _ _ hd with hn | hn
    · rw [hn] at hk'
      cases hk'
    · rw [hn] at hk'
      exact Nat.ne_of_gt hlt (Option.some.inj hk')
  · exact Nat.ne_of_lt hlt hnew

end Past

end RetryScheduler

structure Workshop (α : Type u) where
  now : Nat
  scheduler : RetryScheduler α
  /-- The timers whose actions have started and not yet come to their end. -/
  running : List (Sleeper α)

/-- What happens to retries at work. -/
inductive Deed (α : Type u) where
  /-- A call, from outside or from a running task. -/
  | call (caller : Option Nat) (c : RetryCall α) (answer : RetryAnswer)
  | wake (id : Nat)
  /-- A timer is unhooked and its action starts. -/
  | start (x : Sleeper α)
  /-- A timer finds itself replaced or cleared, and ends. -/
  | lapse (id : Nat)
  /-- A task comes to the end of its action. -/
  | finish (id : Nat)
  | pass (ms : Nat)

namespace Deed

variable {α : Type u}

/-- What a happening makes of the record of an instance, told from that record alone. An action
starts only if it is the pending one and due. -/
def Acts (delays : List Nat) (now : Nat) (k : InstanceKey) (e e' : Option (RetryEntry α)) :
    Deed α → Prop
  | .call _ c _ => e' = RetryEntry.call delays now k e c
  | .start x =>
    if x.key == k then
      ∃ count, e = some ⟨count, some (x.due, x.action)⟩ ∧ x.due ≤ now ∧ e' = some ⟨count, none⟩
    else e' = e
  | _ => e' = e

/-- What is pending after a happening was pending before, or is due later. -/
theorem Acts.pending_cases {d : Deed α} {delays : List Nat} {now due : Nat} {k : InstanceKey}
    {action : α} {e e' : Option (RetryEntry α)} (h : d.Acts delays now k e e')
    (hp : e'.bind (·.pending) = some (due, action)) :
    e.bind (·.pending) = some (due, action) ∨ now ≤ due := by
  cases d with
  | call caller c answer =>
    obtain rfl : e' = RetryEntry.call delays now k e c := h
    cases c with
    | schedule k' action' =>
      simp only [RetryEntry.call] at hp
      split at hp
      · simp only [RetryEntry.schedule, Option.bind_some] at hp
        split at hp
        · obtain ⟨rfl, -⟩ : _ = due ∧ _ = action := by simpa using hp
          exact .inr (Nat.le_add_right _ _)
        · left
          cases e with
          | none => exact hp
          | some r => exact hp
      · exact .inl hp
    | clear | clearServer =>
      simp only [RetryEntry.call] at hp
      split at hp
      · cases hp
      · exact .inl hp
    | cancelAll => cases hp
  | start x =>
    simp only [Acts] at h
    split at h
    · obtain ⟨count, -, -, rfl⟩ := h
      cases hp
    · exact .inl (h ▸ hp)
  | wake | lapse | finish | pass => exact .inl ((show e' = e from h) ▸ hp)

/-- What a happening makes of the tasks at work: no call ends one. -/
def tasks (running : List (Sleeper α)) : Deed α → List (Sleeper α)
  | .start x => running ++ [x]
  | .finish id => running.filter fun x => !(x.id == id)
  | _ => running

/-- Whether an action starts from the timer with a number. -/
def starts (id : Nat) : Deed α → Bool
  | .start x => x.id == id
  | _ => false

end Deed

namespace Workshop

variable {α : Type u} {w u : Workshop α} {d : Deed α} {delays : List Nat}

def create (delays : List Nat) : Workshop α := ⟨0, .create delays, []⟩

/-- One happening. A call ends the tasks that it has handles of. -/
inductive Step (w : Workshop α) : Deed α → Workshop α → Prop
  | call {caller : Option Nat} (c : RetryCall α) (h : ∀ id ∈ caller, ∃ x ∈ w.running, x.id = id) :
    Step w (.call caller c (w.scheduler.perform w.now c).2)
      { w with
        scheduler := (w.scheduler.perform w.now c).1
        running := w.running.filter fun x => !(w.scheduler.handles c).contains x.id }
  | wake {id : Nat} {s : RetryScheduler α} (h : w.scheduler.wake? w.now id = some s) :
    Step w (.wake id) { w with scheduler := s }
  | start {x : Sleeper α} {s : RetryScheduler α}
      (h : w.scheduler.unhook? x.id = some (s, some x)) :
    Step w (.start x) { w with scheduler := s, running := w.running ++ [x] }
  | lapse {id : Nat} {s : RetryScheduler α} (h : w.scheduler.unhook? id = some (s, none)) :
    Step w (.lapse id) { w with scheduler := s }
  | finish (id : Nat) :
    Step w (.finish id) { w with running := w.running.filter fun x => !(x.id == id) }
  | pass (ms : Nat) : Step w (.pass ms) { w with now := w.now + ms }

structure Turn (α : Type u) where
  before : Workshop α
  deed : Deed α
  after : Workshop α

/-- The runs that begin with a workshop. -/
inductive Run (w : Workshop α) : List (Turn α) → Workshop α → Prop
  | begin : Run w [] w
  | next {run : List (Turn α)} {t u : Workshop α} {d : Deed α} (h : Run w run t)
      (hd : t.Step d u) : Run w (run ++ [⟨t, d, u⟩]) u

/-- What is always so: what is awake is due, and what has started is named by no record. -/
structure Sound (w : Workshop α) : Prop where
  timers : w.scheduler.Sound
  due : ∀ {x}, x ∈ w.scheduler.sleepers → x.awake = true → x.due ≤ w.now
  past : ∀ {x}, x ∈ w.running → w.scheduler.Past x.id

lemma Step.delays_eq (h : w.Step d u) : u.scheduler.delays = w.scheduler.delays := by
  cases h with
  | call c => exact w.scheduler.delays_perform w.now c
  | wake hw => exact (RetryScheduler.wake?_eq hw).1
  | start hu => exact (RetryScheduler.unhook?_eq hu).1
  | lapse hu => exact (RetryScheduler.unhook?_eq hu).1
  | finish | pass => rfl

lemma Step.answers {caller : Option Nat} {c : RetryCall α} {answer : RetryAnswer}
    (h : w.Step (.call caller c answer) u) : w.scheduler.Answers c answer := by
  cases h with
  | call => exact w.scheduler.answers_perform w.now c

lemma sound_create (delays : List Nat) : (create delays : Workshop α).Sound where
  timers := RetryScheduler.sound_create delays
  due h := nomatch h
  past h := nomatch h

lemma Sound.step (h : w.Sound) (hd : w.Step d u) : u.Sound := by
  cases hd with
  | call c hcaller =>
    refine ⟨h.timers.perform, fun hx ha => ?_, fun hx => (h.past (List.mem_filter.1 hx).1).perform⟩
    exact h.due (RetryScheduler.mem_sleepers_of_perform hx ha) ha
  | wake hw =>
    refine ⟨h.timers.wake? hw, fun hx ha => ?_, fun hx => (h.past hx).wake? hw⟩
    exact RetryScheduler.due_of_wake? h.timers hw hx ha h.due
  | start hu =>
    have hs := (RetryScheduler.unhook?_cases h.timers hu).2.1
    refine ⟨h.timers.unhook? hu, fun {x} hx ha => ?_, fun {x} hx => ?_⟩
    · rw [hs] at hx
      exact h.due (List.mem_filter.1 hx).1 ha
    · rcases List.mem_append.1 hx with hx | hx
      · exact (h.past hx).unhook? h.timers hu
      · obtain rfl := List.mem_singleton.1 hx
        exact .of_started h.timers hu
  | lapse hu =>
    have hs := (RetryScheduler.unhook?_cases h.timers hu).2.1
    refine ⟨h.timers.unhook? hu, fun {x} hx ha => ?_, fun hx => (h.past hx).unhook? h.timers hu⟩
    rw [hs] at hx
    exact h.due (List.mem_filter.1 hx).1 ha
  | finish id => exact ⟨h.timers, h.due, fun hx => h.past (List.mem_filter.1 hx).1⟩
  | pass ms => exact ⟨h.timers, fun hx ha => Nat.le_add_right_of_le (h.due hx ha), h.past⟩

/-- The records of the instances change each by itself. -/
theorem Sound.acts (h : w.Sound) (hd : w.Step d u) (k : InstanceKey) :
    d.Acts w.scheduler.delays w.now k (w.scheduler.entryOf k) (u.scheduler.entryOf k) := by
  cases hd with
  | call c hcaller => exact h.timers.entryOf_perform _ c k
  | wake hw => exact h.timers.entryOf_wake? hw k
  | @start x s hu =>
    have he := h.timers.entryOf_started hu k
    obtain ⟨hmem, hawake, hname⟩ := RetryScheduler.of_started h.timers hu
    cases hk : x.key == k with
    | true =>
      rw [RetryScheduler.timer?_congr hk] at hname
      have hpending := h.timers.entryOf_eq_some hmem hname
      rw [hpending, hk] at he
      simp only [Deed.Acts, hk, if_true]
      exact ⟨_, hpending, h.due hmem hawake, he⟩
    | false =>
      rw [hk] at he
      simp only [Deed.Acts, hk]
      exact he
  | lapse hu => exact h.timers.entryOf_lapsed hu k
  | finish | pass => exact rfl

/-- No call ends a task, not even the task that makes it. -/
theorem Sound.running_eq (h : w.Sound) (hd : w.Step d u) : u.running = d.tasks w.running := by
  cases hd with
  | call c hcaller =>
    refine List.filter_eq_self.2 fun x hx => ?_
    have hn := (h.past hx).not_mem_handles (c := c)
    simpa using hn
  | start hu => rfl
  | finish id => rfl
  | wake | lapse | pass => rfl

/-- What starts is named by a record. -/
theorem Sound.not_starts (h : w.Sound) (hd : w.Step d u) {id : Nat}
    (hp : w.scheduler.Past id) : d.starts id = false := by
  cases hd with
  | @start x s hu =>
    have hname := (RetryScheduler.of_started h.timers hu).2.2
    simp only [Deed.starts, beq_eq_false_iff_ne]
    rintro rfl
    exact hp.unnamed _ hname
  | call | wake | lapse | finish | pass => rfl

lemma Sound.past_step (h : w.Sound) (hd : w.Step d u) {id : Nat} (hp : w.scheduler.Past id) :
    u.scheduler.Past id := by
  cases hd with
  | call => exact hp.perform
  | wake hw => exact hp.wake? hw
  | start hu => exact hp.unhook? h.timers hu
  | lapse hu => exact hp.unhook? h.timers hu
  | finish | pass => exact hp

/-- The timer that is pending for an instance, with its time and what it is to do. -/
structure Waits (w : Workshop α) (k : InstanceKey) (id due : Nat) (action : α) : Prop where
  named : w.scheduler.timer? k = some id
  due_eq : w.scheduler.due? k = some (due, action)

/-- What can become of a pending timer: it goes on pending, its action starts, or a call displaces
it. -/
theorem Waits.step {k : InstanceKey} {id due : Nat} {action : α} (h : w.Sound)
    (hw : w.Waits k id due action) (hd : w.Step d u) :
    (d.starts id = false ∧ u.Waits k id due action) ∨
      u.scheduler.Past id ∧
        ((∃ x, d = .start x ∧ (x.key == k) = true ∧ x.id = id ∧ x.due = due ∧ x.action = action ∧
            due ≤ w.now) ∨
          ∃ caller c answer, d = .call caller c answer ∧ w.scheduler.displaces k c = true) := by
  obtain ⟨hname, hdue⟩ := hw
  cases hd with
  | call c hcaller =>
    cases hc : w.scheduler.displaces k c with
    | false =>
      refine .inl ⟨rfl, ?_, ?_⟩
      · exact (RetryScheduler.timer?_perform hc).trans hname
      · exact (h.timers.due?_perform hc).trans hdue
    | true => exact .inr ⟨.of_displaces h.timers hname hc, .inr ⟨_, c, _, rfl, hc⟩⟩
  | wake hw =>
    refine .inl ⟨rfl, ?_, ?_⟩
    · rw [RetryScheduler.timer?, (RetryScheduler.wake?_eq hw).2.1]
      exact hname
    · rw [RetryScheduler.due?_eq_entryOf, h.timers.entryOf_wake? hw,
        ← RetryScheduler.due?_eq_entryOf]
      exact hdue
  | @start x s hu =>
    obtain ⟨hmem, -, hx⟩ := RetryScheduler.of_started h.timers hu
    cases hk : x.key == k with
    | true =>
      rw [RetryScheduler.timer?_congr hk] at hx
      obtain rfl : x.id = id := Option.some.inj (hx.symm.trans hname)
      have hpending := hdue.symm.trans (h.timers.due?_eq hmem hx)
      obtain ⟨rfl, rfl⟩ : due = x.due ∧ action = x.action := by simpa using hpending
      have hle := h.due hmem (RetryScheduler.of_started h.timers hu).2.1
      exact .inr ⟨.of_started h.timers hu, .inl ⟨x, rfl, hk, rfl, rfl, rfl, hle⟩⟩
    | false =>
      have hne : x.id ≠ id := by
        rintro rfl
        rw [h.timers.key_beq hx hname] at hk
        cases hk
      have he := h.timers.entryOf_started hu k
      rw [hk] at he
      refine .inl ⟨by simpa [Deed.starts] using hne, ?_, ?_⟩
      · obtain ⟨-, -, ⟨ho, -⟩ | ⟨y, hy, -, -, -, ht⟩⟩ := RetryScheduler.unhook?_cases h.timers hu
        · cases ho
        · cases hy
          rw [ht, hk]
          exact hname
      · rw [RetryScheduler.due?_eq_entryOf, he, if_neg (by simp), ← RetryScheduler.due?_eq_entryOf]
        exact hdue
  | @lapse id' s hu =>
    refine .inl ⟨rfl, ?_, ?_⟩
    · obtain ⟨-, -, ⟨-, ht, -⟩ | ⟨y, hy, -⟩⟩ := RetryScheduler.unhook?_cases h.timers hu
      · rw [ht]
        exact hname
      · cases hy
    · rw [RetryScheduler.due?_eq_entryOf, h.timers.entryOf_lapsed hu,
        ← RetryScheduler.due?_eq_entryOf]
      exact hdue
  | finish id' => exact .inl ⟨rfl, hname, hdue⟩
  | pass ms => exact .inl ⟨rfl, hname, hdue⟩

namespace Run

lemma eq_of_nil (h : Run w [] u) : u = w := by
  generalize hr : ([] : List (Turn α)) = run at h
  cases h with
  | begin => rfl
  | next => simp at hr

variable {run earlier later : List (Turn α)} {y : Turn α}

lemma sound (h : Run w run u) (hw : w.Sound) : u.Sound := by
  induction h with
  | begin => exact hw
  | next _ hd ih => exact ih.step hd

lemma delays_eq (h : Run w run u) : u.scheduler.delays = w.scheduler.delays := by
  induction h with
  | begin => rfl
  | next _ hd ih => exact hd.delays_eq.trans ih

/-- A turn in the middle of a run, with the runs around it. -/
theorem split (h : Run w (earlier ++ y :: later) u) :
    Run w earlier y.before ∧ y.before.Step y.deed y.after ∧ Run y.after later u := by
  induction later using List.reverseRecOn generalizing u with
  | nil =>
    generalize hr : earlier ++ [y] = run at h
    cases h with
    | begin => simp at hr
    | next h hd =>
      obtain ⟨rfl, hy⟩ := List.append_inj' hr rfl
      cases hy
      exact ⟨h, hd, .begin⟩
  | append_singleton later z ih =>
    generalize hr : earlier ++ y :: (later ++ [z]) = run at h
    cases h with
    | begin => simp at hr
    | next h hd =>
      rw [← List.cons_append, ← List.append_assoc] at hr
      obtain ⟨rfl, hz⟩ := List.append_inj' hr rfl
      cases hz
      obtain ⟨hbefore, hstep, hafter⟩ := ih h
      exact ⟨hbefore, hstep, .next hafter hd⟩

/-- An action that has started or was displaced never starts again. -/
theorem not_starts_of_past (h : Run w run u) (hw : w.Sound) {id : Nat}
    (hp : w.scheduler.Past id) : u.scheduler.Past id ∧ ∀ y ∈ run, y.deed.starts id = false := by
  induction h with
  | begin => exact ⟨hp, nofun⟩
  | @next run t u d h hd ih =>
    obtain ⟨hpast, hs⟩ := ih
    have ht := h.sound hw
    refine ⟨ht.past_step hd hpast, fun y hy => ?_⟩
    rcases List.mem_append.1 hy with hy | hy
    · exact hs y hy
    · obtain rfl := List.mem_singleton.1 hy
      exact ht.not_starts hd hpast

end Run

/-- How a retry that was scheduled for an instance fares: it is still pending, its action has
started once it was due, or it was displaced. Its action starts once or not at all. -/
inductive Fate (k : InstanceKey) (id due : Nat) (action : α) (run : List (Turn α))
    (w : Workshop α) : Prop
  | pending (hs : ∀ y ∈ run, y.deed.starts id = false)
    (hp : w.scheduler.due? k = some (due, action))
  | started {mid rest : List (Turn α)} {y : Turn α} {x : Sleeper α}
    (hr : run = mid ++ y :: rest) (hy : y.deed = .start x) (hk : (x.key == k) = true)
    (hid : x.id = id) (hx : x.due = due ∧ x.action = action) (hd : due ≤ y.before.now)
    (hs : ∀ z ∈ mid ++ rest, z.deed.starts id = false)
  | displaced {mid rest : List (Turn α)} {y : Turn α} {caller : Option Nat} {c : RetryCall α}
    {answer : RetryAnswer} (hr : run = mid ++ y :: rest) (hy : y.deed = .call caller c answer)
    (hd : y.before.scheduler.displaces k c = true) (hs : ∀ z ∈ run, z.deed.starts id = false)

lemma Fate.cons {k : InstanceKey} {id due : Nat} {action : α} {run : List (Turn α)}
    (h : Fate k id due action run w) {y : Turn α} (hy : y.deed.starts id = false) :
    Fate k id due action (y :: run) w := by
  cases h with
  | pending hs hp => exact .pending (List.forall_mem_cons.2 ⟨hy, hs⟩) hp
  | @started mid rest z x hr hz hk hid hx hd hs =>
    have hrun : y :: run = (y :: mid) ++ z :: rest := congrArg (y :: ·) hr
    exact .started hrun hz hk hid hx hd (List.forall_mem_cons.2 ⟨hy, hs⟩)
  | @displaced mid rest z caller c answer hr hz hd hs =>
    have hrun : y :: run = (y :: mid) ++ z :: rest := congrArg (y :: ·) hr
    exact .displaced hrun hz hd (List.forall_mem_cons.2 ⟨hy, hs⟩)

lemma Run.fate {run : List (Turn α)} (h : Run w run u) (hw : w.Sound) {k : InstanceKey}
    {id due : Nat} {action : α} (hp : w.Waits k id due action) : Fate k id due action run u := by
  induction run generalizing w with
  | nil =>
    obtain rfl := h.eq_of_nil
    exact .pending nofun hp.due_eq
  | cons y rest ih =>
    obtain ⟨hb, hd, hrest⟩ := @Run.split _ _ _ [] _ _ h
    obtain rfl := hb.eq_of_nil
    have hafter := hw.step hd
    obtain ⟨hs, hwaits⟩ | ⟨hpast, hdecided⟩ := hp.step hw hd
    · exact (ih hrest hafter hwaits).cons hs
    have hlater := (hrest.not_starts_of_past hafter hpast).2
    have hrun : y :: rest = [] ++ y :: rest := rfl
    obtain ⟨x, hx, hk, hid, hdue, hact, hle⟩ | ⟨caller, c, answer, hc, hdisplaces⟩ := hdecided
    · exact .started hrun hx hk hid ⟨hdue, hact⟩ hle hlater
    · refine .displaced hrun hc hdisplaces (List.forall_mem_cons.2 ⟨?_, hlater⟩)
      rw [hc]
      rfl

/-- A retry that was scheduled is pending right after that. -/
theorem Sound.waits_schedule (h : w.Sound) {caller : Option Nat} {k : InstanceKey} {action : α}
    {n : Nat} (hd : w.Step (.call caller (.schedule k action) (.attempt (some n))) u) :
    ∃ delay, w.scheduler.delayFor n = some delay ∧
      u.Waits k w.scheduler.nextTimer (w.now + delay) action := by
  generalize hl : Deed.call caller (.schedule k action) (.attempt (some n)) = d at hd
  cases hd with
  | call c hcaller =>
    injection hl with hl₁ hl₂ hl₃
    subst hl₁ hl₂
    have hsound : (w.scheduler.perform w.now (.schedule k action)).1.Sound := h.timers.perform
    obtain ⟨-, he⟩ | ⟨delay, hdelay, he⟩ := w.scheduler.schedule_cases w.now k action
    · simp [RetryScheduler.perform, he] at hl₃
    · simp only [RetryScheduler.perform, he] at hl₃ hsound ⊢
      obtain rfl : n = w.scheduler.retryCount k + 1 := by simpa using hl₃
      refine ⟨delay, by simpa [RetryScheduler.delayFor] using hdelay, ?_, ?_⟩
      · simp [RetryScheduler.timer?]
      · refine hsound.due?_eq (List.mem_append_right _ (List.mem_singleton.2 rfl)) ?_
        simp [RetryScheduler.timer?]
  | _ => cases hl

/-- What is pending and due can start, at once or when it has woken up. -/
theorem Sound.startable (h : w.Sound) {k : InstanceKey} {due : Nat} {action : α}
    (hp : w.scheduler.due? k = some (due, action)) (hle : due ≤ w.now) :
    ∃ v u x, (v = w ∨ ∃ id, w.Step (.wake id) v) ∧ v.Step (.start x) u ∧
      (x.key == k) = true ∧ x.due = due ∧ x.action = action := by
  obtain ⟨x, hx, hname, hk, rfl, rfl⟩ := h.timers.due?_eq_some hp
  cases ha : x.awake with
  | true =>
    obtain ⟨s, hs⟩ := h.timers.exists_unhook? hx ha ((RetryScheduler.timer?_congr hk).trans hname)
    exact ⟨w, _, x, .inl rfl, .start hs, hk, rfl, rfl⟩
  | false =>
    obtain ⟨s, hs, hmem⟩ := RetryScheduler.exists_wake? hx ha hle
    have hv := h.timers.wake? hs
    have hname' : s.timer? x.key = some x.id := by
      rw [RetryScheduler.timer?, (RetryScheduler.wake?_eq hs).2.1]
      exact (RetryScheduler.timer?_congr hk).trans hname
    obtain ⟨t, ht⟩ := hv.exists_unhook? hmem rfl hname'
    exact ⟨_, _, _, .inr ⟨x.id, .wake hs⟩, .start ht, hk, rfl, rfl⟩

/-- The clock stops whenever something pending is due. -/
def Punctual (run : List (Turn α)) : Prop :=
  ∀ y ∈ run, ∀ ms, y.deed = .pass ms → ∀ k due action,
    y.before.scheduler.due? k = some (due, action) → y.before.now + ms ≤ due

lemma Step.now_eq (h : w.Step d u) : u.now = w.now ∨ ∃ ms, d = .pass ms ∧ u.now = w.now + ms := by
  cases h with
  | pass ms => exact .inr ⟨ms, rfl, rfl⟩
  | call | wake | start | lapse | finish => exact .inl rfl

lemma Run.not_late {run : List (Turn α)} (h : Run (create delays) run w) (hp : Punctual run)
    {k : InstanceKey} {due : Nat} {action : α}
    (hk : w.scheduler.due? k = some (due, action)) : w.now ≤ due := by
  induction h generalizing k due action with
  | begin => cases hk
  | @next run t u d h hd ih =>
    have hprev : ∀ {k due action}, t.scheduler.due? k = some (due, action) → t.now ≤ due :=
      ih fun y hy => hp y (List.mem_append_left _ hy)
    have hlast := hp _ (List.mem_append_right _ (List.mem_singleton.2 rfl))
    have ht := h.sound (sound_create delays)
    rw [RetryScheduler.due?_eq_entryOf] at hk
    have hcases := (ht.acts hd k).pending_cases hk
    rw [← RetryScheduler.due?_eq_entryOf] at hcases
    obtain hnow | ⟨ms, rfl, hnow⟩ := hd.now_eq
    · rw [hnow]
      exact hcases.elim hprev id
    · rw [hnow]
      cases hd with
      | pass => exact hlast ms rfl k due action (by rw [RetryScheduler.due?_eq_entryOf]; exact hk)

/-- The retries of an instance are a record of its own. Along every run each record changes as if
it stood alone, answers are told from the records, and no call ends a task. A retry that was
scheduled stays pending until its action starts or it is displaced, and an action starts at most
once; what is pending and due can start. When the clock is punctual it starts just then. -/
theorem Run.refines {run : List (Turn α)} (h : Run (create delays) run w) :
    (∀ k, (create delays : Workshop α).scheduler.entryOf k = none) ∧
      (∀ c, w.scheduler.delayFor (c + 1) = delays[c]?) ∧
      (∀ y ∈ run,
        (∀ k, y.deed.Acts delays y.before.now k (y.before.scheduler.entryOf k)
          (y.after.scheduler.entryOf k)) ∧
        (∀ caller c answer, y.deed = .call caller c answer → y.before.scheduler.Answers c answer) ∧
        y.after.running = y.deed.tasks y.before.running) ∧
      (∀ earlier y later caller k action n, run = earlier ++ y :: later →
        y.deed = .call caller (.schedule k action) (.attempt (some n)) →
        ∃ delay, w.scheduler.delayFor n = some delay ∧
          Fate k y.before.scheduler.nextTimer (y.before.now + delay) action later w) ∧
      (∀ k due action, w.scheduler.due? k = some (due, action) → due ≤ w.now →
        ∃ v u x, (v = w ∨ ∃ id, w.Step (.wake id) v) ∧ v.Step (.start x) u ∧
          (x.key == k) = true ∧ x.due = due ∧ x.action = action) ∧
      (Punctual run →
        (∀ k due action, w.scheduler.due? k = some (due, action) → w.now ≤ due) ∧
        ∀ y ∈ run, ∀ x, y.deed = .start x → y.before.now = x.due) := by
  have hcreate := sound_create (α := α) delays
  refine ⟨fun _ => rfl, fun c => ?_, fun y hy => ?_, ?_, fun k due action => ?_, fun hp => ?_⟩
  · have hdelays := h.delays_eq
    simp only [RetryScheduler.delayFor, hdelays, Nat.add_one_ne_zero, if_false]
    rfl
  · obtain ⟨earlier, later, rfl⟩ := List.append_of_mem hy
    obtain ⟨hearlier, hd, -⟩ := h.split
    have hbefore := hearlier.sound hcreate
    refine ⟨fun k => ?_, fun caller c answer hc => ?_, hbefore.running_eq hd⟩
    · have hacts := hbefore.acts hd k
      rw [hearlier.delays_eq] at hacts
      exact hacts
    · rw [hc] at hd
      exact hd.answers
  · rintro earlier y later caller k action n rfl hc
    obtain ⟨hearlier, hd, hlater⟩ := h.split
    have hbefore := hearlier.sound hcreate
    have hafter := hbefore.step hd
    rw [hc] at hd
    obtain ⟨delay, hdelay, hwaits⟩ := hbefore.waits_schedule hd
    refine ⟨delay, ?_, hlater.fate hafter hwaits⟩
    have hdelays := h.delays_eq.trans hearlier.delays_eq.symm
    rw [RetryScheduler.delayFor, hdelays]
    exact hdelay
  · exact (h.sound hcreate).startable
  · refine ⟨fun k due action => h.not_late hp, fun y hy x hx => ?_⟩
    obtain ⟨earlier, later, rfl⟩ := List.append_of_mem hy
    obtain ⟨hearlier, hd, -⟩ := h.split
    have hacts := (hearlier.sound hcreate).acts hd x.key
    rw [hx] at hacts
    simp only [Deed.Acts, BEq.rfl, if_true] at hacts
    obtain ⟨count, he, hle, -⟩ := hacts
    have hdue : y.before.scheduler.due? x.key = some (x.due, x.action) := by
      rw [RetryScheduler.due?_eq_entryOf, he]
      rfl
    have hnow := hearlier.not_late (fun z hz => hp z (List.mem_append_left _ hz)) hdue
    exact Nat.le_antisymm hnow hle

/-- A task that has started clears its own instance and schedules another retry: it goes on. -/
theorem refines_own_call : ∃ (run : List (Turn Nat)) (w : Workshop Nat),
    Run (create [10]) run w ∧ run.map (·.after.running.map (·.id)) = [[], [], [], [0], [0], [0]] ∧
      w.scheduler.due? ⟨"a", ⟨[47]⟩⟩ = some (20, 8) ∧
      ∀ y ∈ run, y.after.running = y.deed.tasks y.before.running := by
  let k : InstanceKey := ⟨"a", ⟨[47]⟩⟩
  let x : Sleeper Nat := ⟨0, k, 10, 7, true⟩
  have started : ∀ id ∈ some 0, ∃ y ∈ [x], y.id = id :=
    fun id hid => ⟨x, by simp, Option.some.inj hid⟩
  have h := ((((((Run.begin (w := create (α := Nat) [10])).next
    (@Step.call _ _ none (.schedule k 7) nofun)).next (.pass 10)).next
    (@Step.wake _ _ 0 _ rfl)).next (.start (x := x) rfl)).next
    (@Step.call _ _ (some 0) (.clear k) started)).next
    (@Step.call _ _ (some 0) (.schedule k 8) started)
  exact ⟨_, _, h, rfl, rfl, fun y hy => ((Run.refines h).2.2.1 y hy).2.2⟩

end Workshop

end ServerFleet
