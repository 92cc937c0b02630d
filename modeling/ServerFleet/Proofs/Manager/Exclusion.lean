import ServerFleet.Proofs.Manager.Reservation

/-!
A live instance is nothing else: it is not broken, not being started, its server is not disabled
and no retries are kept for it. The invariant needs that an attempt whose outcome counts is still
in the table of those under way, for only then is its instance known not to be live.
-/

namespace ServerFleet.Manager

namespace Roster

/-- An instance about which the roster keeps nothing that routing or a retry would look at. -/
structure Clear (r : Roster) (k : InstanceKey) : Prop where
  not_broken : r.broken.contains k = false
  not_starting : r.starting.contains k = false
  enabled : r.isDisabled k.serverId = false
  no_record : r.retries.records.contains k = false

/-- A live instance is nothing else. -/
def Exclusive (r : Roster) : Prop := ∀ k, r.live.contains k = true → r.Clear k

variable {r r' : Roster} {k : InstanceKey}

/-- A roster with less in it is as good. -/
theorem Exclusive.anti (h : r.Exclusive)
    (hl : ∀ k, r'.live.contains k = true → r.live.contains k = true)
    (hb : ∀ k, r'.broken.contains k = true → r.broken.contains k = true)
    (hs : ∀ k, r'.starting.contains k = true → r.starting.contains k = true)
    (hd : ∀ k, r'.live.contains k = true → r'.isDisabled k.serverId = true →
      r.isDisabled k.serverId = true)
    (hr : ∀ k, r'.retries.records.contains k = true → r.retries.records.contains k = true) :
    r'.Exclusive := by
  intro k hk
  have hc := h k (hl k hk)
  refine ⟨?_, ?_, ?_, ?_⟩
  · exact Bool.eq_false_iff.2 fun hn => Bool.eq_false_iff.1 hc.not_broken (hb k hn)
  · exact Bool.eq_false_iff.2 fun hn => Bool.eq_false_iff.1 hc.not_starting (hs k hn)
  · exact Bool.eq_false_iff.2 fun hn => Bool.eq_false_iff.1 hc.enabled (hd k hk hn)
  · exact Bool.eq_false_iff.2 fun hn => Bool.eq_false_iff.1 hc.no_record (hr k hn)

/-- Entering an outcome keeps live instances apart, for the key of an attempt that counts is in
the table of those under way. -/
theorem Exclusive.settles {now : Nat} {epoch : Nat} {o : Outcome} {x : Settlement}
    (h : r.Exclusive) (hk : r.epoch = epoch → r.starting.contains k = true)
    (hs : r.Settles now k epoch o r' x) : r'.Exclusive := by
  cases hs with
  | stale => exact h
  | discarded =>
    refine h.anti (fun _ => id) (fun _ => id) ?_ (fun _ _ => id) (fun _ => id)
    simp
  | started _ hd =>
    intro k' hk'
    by_cases he : (k == k') = true
    · refine ⟨by simp [he], by simp [he], ?_, by simp [he]⟩
      rw [← InstanceKey.serverId_eq_of_beq he]
      exact hd
    · have hc := h k' (by simpa [he] using hk')
      exact ⟨by simp [hc.not_broken], by simp [hc.not_starting], hc.enabled, by simp [hc.no_record]⟩
  | unavailable =>
    refine h.anti (fun _ => id) ?_ ?_ (fun _ _ => id) ?_ <;> simp
  | dropped he =>
    intro k' hk'
    have hc := h k' hk'
    have hne := Table.not_beq_of_contains (hk he) hc.not_starting
    exact ⟨by simp [hne, hc.not_broken], by simp [hc.not_starting], hc.enabled, hc.no_record⟩
  | failed he =>
    intro k' hk'
    have hc := h k' hk'
    have hne := Table.not_beq_of_contains (hk he) hc.not_starting
    refine ⟨by simp [hne, hc.not_broken], by simp [hc.not_starting], hc.enabled, ?_⟩
    rw [RetryScheduler.contains_records_schedule, hne, hc.no_record]
    rfl

/-- A key that is not live can be entered as being started. -/
theorem Exclusive.start (h : r.Exclusive) (hk : r.live.contains k = false) (id : AttemptId) :
    ({ r with starting := r.starting.insert k id } : Roster).Exclusive := by
  intro k' hk'
  have hc := h k' hk'
  have hne : (k == k') = false := BEq.comm.trans (Table.not_beq_of_contains hk' hk)
  exact ⟨hc.not_broken, by simp [hne, hc.not_starting], hc.enabled, hc.no_record⟩

/-- A disabled server has no live instances. -/
theorem Exclusive.disable (h : r.Exclusive) (server : String) : (r.disable server).1.Exclusive := by
  refine h.anti ?_ (fun _ => id) (fun _ => id) ?_ (fun _ => id)
  · intro k hk
    rw [contains_live_disable, Bool.and_eq_true] at hk
    exact hk.2
  · intro k hk hd
    rw [contains_live_disable, Bool.and_eq_true, Bool.not_eq_true'] at hk
    rw [isDisabled_disable, hk.1, Bool.or_false] at hd
    exact hd

lemma Exclusive.enable (h : r.Exclusive) (server : String) : (r.enable server).1.Exclusive := by
  refine h.anti (fun _ => id) (fun _ => id) (fun _ => id) ?_ (fun _ => id)
  intro k _ hd
  rw [isDisabled_enable, Bool.and_eq_true] at hd
  exact hd.1

lemma Exclusive.forgetBroken (h : r.Exclusive) (server : String) :
    (r.forgetBroken server).1.Exclusive := by
  refine h.anti (fun _ => id) ?_ (fun _ => id) (fun _ _ => id) (fun _ => id)
  intro k hk
  rw [contains_broken_forgetBroken, Bool.and_eq_true] at hk
  exact hk.2

lemma Exclusive.forgetRetries (h : r.Exclusive) (server : String) :
    (r.forgetRetries server).Exclusive := by
  refine h.anti (fun _ => id) (fun _ => id) (fun _ => id) (fun _ _ => id) ?_
  simp [Roster.forgetRetries]

/-- A client that is gone, whether its instance is broken after that or not, is not live. -/
theorem Exclusive.remove (h : r.Exclusive) (k : InstanceKey) :
    ({ r with live := r.live.erase k } : Roster).Exclusive ∧
      ∀ cause, ({ r with
        live := r.live.erase k
        broken := r.broken.insert k cause } : Roster).Exclusive := by
  constructor
  · refine h.anti ?_ (fun _ => id) (fun _ => id) (fun _ _ => id) (fun _ => id)
    simp
  · intro cause k' hk'
    simp only [Table.contains_erase, Bool.and_eq_true, Bool.not_eq_true'] at hk'
    have hc := h k' hk'.2
    exact ⟨by simp [hk'.1, hc.not_broken], hc.not_starting, hc.enabled, hc.no_record⟩

/-- Retries with the same records are as good. -/
theorem Exclusive.retries (h : r.Exclusive) {retries : RetryScheduler RetryPlan}
    (hr : ∀ k, retries.records.contains k = r.retries.records.contains k) :
    ({ r with retries } : Roster).Exclusive := by
  refine h.anti (fun _ => id) (fun _ => id) (fun _ => id) (fun _ _ => id) ?_
  intro k hk
  rw [← hr]
  exact hk

end Roster

namespace State

variable {s s' : State} {l : Label} {effects : List Effect}

lemma Move.exclusive (hm : s.Move l s' effects) (hc : s.Coherent) (h : s.roster.Exclusive) :
    s'.roster.Exclusive := by
  cases hm with
  | @settle id a outcome _ _ ha hst hr =>
    refine h.settles (fun he => ?_) hr
    -- the outcome counts, so the attempt is still the one its key is being started with
    exact Table.contains_iff.2 ⟨id, hc.starting_of_attempt ha (by rw [hst]; rfl) he.symm⟩
  | reserve _ _ _ hl => exact h.start (Table.contains_eq_false.2 hl) _
  | retry _ _ _ hl => exact h.start hl _
  | enable => exact h.enable _
  | disable => exact h.disable _
  | forgetBroken => exact h.forgetBroken _
  | forgetRetries => exact h.forgetRetries _
  | shutDown =>
    intro k hk
    cases hk
  | close => exact (h.remove _).1
  | fault => exact (h.remove _).2 _
  | unhook hu =>
    obtain ⟨-, -, hr, -⟩ := RetryScheduler.unhook?_eq hu
    exact h.retries (RetryScheduler.contains_of_counts hr)
  | wake hw =>
    refine h.retries fun k => ?_
    rw [(RetryScheduler.wake?_eq hw).2.1]
  | _ => exact h

/-- The budget of the retries is never overdrawn, and it never changes. -/
theorem Move.bounded (hm : s.Move l s' effects) (h : s.roster.retries.Bounded) :
    s'.roster.retries.Bounded ∧ s'.roster.retries.delays = s.roster.retries.delays := by
  cases hm with
  | settle _ _ hr =>
    cases hr with
    | started => exact ⟨h.clear _, rfl⟩
    | unavailable => exact ⟨h.clear _, rfl⟩
    | failed => exact ⟨h.schedule _ _ _, RetryScheduler.delays_schedule _ _ _ _⟩
    | _ => exact ⟨h, rfl⟩
  | forgetRetries => exact ⟨h.clearServer _, rfl⟩
  | shutDown => exact ⟨h.cancelAll, rfl⟩
  | unhook hu =>
    obtain ⟨hd, -, hr, -⟩ := RetryScheduler.unhook?_eq hu
    exact ⟨h.of_counts hd hr, hd⟩
  | wake hw =>
    obtain ⟨hd, hr, -⟩ := RetryScheduler.wake?_eq hw
    exact ⟨h.of_counts hd fun k => by rw [hr], hd⟩
  | _ => exact ⟨h, rfl⟩

lemma exclusive_create (settings : Settings) (surroundings : Surroundings) (delays : List Nat)
    (disabled : List String) :
    (create settings surroundings delays disabled).roster.Exclusive := by
  intro k hk
  cases hk

end State

lemma Run.exclusive {s t : State} {run : List Happening} (h : Run s run t) (hs : s.Coherent)
    (he : s.roster.Exclusive) : t.roster.Exclusive := by
  induction h with
  | start => exact he
  | next h hn ih => exact hn.move.exclusive (h.coherent hs) ih

lemma Run.bounded {s t : State} {run : List Happening} (h : Run s run t)
    (hb : s.roster.retries.Bounded) :
    t.roster.retries.Bounded ∧ t.roster.retries.delays = s.roster.retries.delays := by
  induction h with
  | start => exact ⟨hb, rfl⟩
  | next _ hn ih =>
    obtain ⟨hb, hd⟩ := hn.move.bounded ih.1
    exact ⟨hb, hd.trans ih.2⟩

/-- In every state of a manager a live instance is neither broken nor being started, its server is
enabled and no retries are kept for it; and no instance has more retries than there are delays. -/
theorem live_excludes {settings : Settings} {surroundings : Surroundings} {delays : List Nat}
    {disabled : List String} {run : List Happening} {s : State}
    (h : Run (.create settings surroundings delays disabled) run s) :
    (∀ k, s.roster.live.contains k = true →
      s.roster.broken.contains k = false ∧ s.roster.starting.contains k = false ∧
        s.roster.isDisabled k.serverId = false ∧ s.roster.retries.retryCount k = 0 ∧
        s.roster.retries.isPending k = false) ∧
      ∀ k, s.roster.retries.retryCount k ≤ delays.length := by
  have hc := State.coherent_create settings surroundings delays disabled
  have he := h.exclusive hc fun k hk => nomatch hk
  obtain ⟨hb, hd⟩ := h.bounded (RetryScheduler.bounded_create delays)
  constructor
  · intro k hk
    have hk := he k hk
    exact ⟨hk.not_broken, hk.not_starting, hk.enabled,
      RetryScheduler.retryCount_of_not_contains _ hk.no_record,
      RetryScheduler.isPending_of_not_contains _ hk.no_record⟩
  · intro k
    have hk := hb k
    rwa [hd] at hk

/-- An instance that was started is live, so it is neither broken nor being started. -/
theorem live_excludes_sample :
    sampleStarted.roster.live.contains (sampleKey "a") = true ∧
      sampleStarted.roster.broken.contains (sampleKey "a") = false ∧
      sampleStarted.roster.starting.contains (sampleKey "a") = false := by
  have hl : sampleStarted.roster.live.contains (sampleKey "a") = true := by decide
  obtain ⟨hb, hs, -⟩ := (live_excludes (Run.of_trace sample _)).1 _ hl
  exact ⟨hl, hb, hs⟩

end ServerFleet.Manager
