import ServerFleet.Proofs.Manager.Custody
import ServerFleet.Proofs.Manager.Deduplication

/-!
Where instances come from. Whatever a manager knows of an instance goes back to an attempt of the
same epoch that routing began: retries only repeat such attempts. A shutdown begins a new epoch,
so what is known after it goes back to attempts that routing began after it.
-/

namespace ServerFleet.Manager

namespace State

variable {s s' : State} {l : Label} {effects : List Effect}

/-- A move stays in its epoch, or it is a shutdown. -/
theorem Move.epoch_cases (hm : s.Move l s' effects) :
    s'.roster.epoch = s.roster.epoch ∨ s'.roster = s.roster.shutDown.1 := by
  cases hm with
  | settle _ _ hr => exact .inl hr.epoch_eq
  | shutDown => exact .inr rfl
  | _ => exact .inl rfl

lemma Move.epoch_le (hm : s.Move l s' effects) : s.roster.epoch ≤ s'.roster.epoch := by
  obtain he | he := hm.epoch_cases
  · exact Nat.le_of_eq he.symm
  · rw [he]
    exact Nat.le_succ _

/-- An attempt of the current epoch whose key is a given one. -/
def Attempted (s : State) (k : InstanceKey) : Prop :=
  ∃ id a, s.attempts.find? id = some a ∧ a.epoch = s.roster.epoch ∧ (a.key == k) = true

/-- An instance was broken before, or its attempt has failed now, or its client has. -/
theorem Move.broken_of (hm : s.Move l s' effects) {k : InstanceKey}
    (h : s'.roster.broken.contains k = true) :
    s.roster.broken.contains k = true ∨ s.Attempted k ∨ s.roster.live.contains k = true := by
  cases hm with
  | @settle id a _ _ _ ha _ hr =>
    cases hr with
    | started | unavailable =>
      rw [Table.contains_erase, Bool.and_eq_true] at h
      exact .inl h.2
    | dropped he | failed he =>
      rw [Table.contains_insert, Bool.or_eq_true] at h
      obtain hk | h := h
      · exact .inr (.inl ⟨id, a, ha, he.symm, hk⟩)
      · exact .inl h
    | _ => exact .inl h
  | @forgetBroken _ _ server =>
    rw [Roster.contains_broken_forgetBroken, Bool.and_eq_true] at h
    exact .inl h.2
  | shutDown => cases h
  | fault _ _ _ hreg =>
    rw [Table.contains_insert, Bool.or_eq_true] at h
    obtain hk | h := h
    · refine .inr (.inr ?_)
      rw [← Table.contains_congr _ hk]
      exact Table.contains_iff.2 ⟨_, by simpa [Roster.isRegistered] using hreg⟩
    · exact .inl h
  | _ => exact .inl h

/-- Retries were kept for an instance before, or its attempt has failed now. -/
theorem Move.record_of (hm : s.Move l s' effects) {k : InstanceKey}
    (h : s'.roster.retries.records.contains k = true) :
    s.roster.retries.records.contains k = true ∨ s.Attempted k := by
  cases hm with
  | @settle id a _ _ _ ha _ hr =>
    cases hr with
    | started | unavailable =>
      rw [RetryScheduler.contains_records_clear, Bool.and_eq_true] at h
      exact .inl h.2
    | failed he =>
      rw [RetryScheduler.contains_records_schedule, Bool.or_eq_true] at h
      obtain hk | h := h
      · exact .inr ⟨id, a, ha, he.symm, hk⟩
      · exact .inl h
    | _ => exact .inl h
  | @forgetRetries _ _ server =>
    have hr := RetryScheduler.contains_records_clearServer s.roster.retries server k
    rw [show (s.roster.forgetRetries server).retries.records.contains k = _ from hr,
      Bool.and_eq_true] at h
    exact .inl h.2
  | shutDown => cases h
  | unhook hu =>
    have hr := RetryScheduler.contains_of_counts (RetryScheduler.unhook?_eq hu).2.2.1 k
    exact .inl (hr.symm.trans h)
  | wake hw =>
    have hr := (RetryScheduler.wake?_eq hw).2.1
    exact .inl (by rw [← hr]; exact h)
  | _ => exact .inl h

/-- Routing began an attempt for a key in an epoch. -/
def Routed (s : State) (k : InstanceKey) (epoch : Nat) : Prop :=
  ∃ id a, s.attempts.find? id = some a ∧ (a.key == k) = true ∧ a.epoch = epoch ∧
    a.byRetry = false

/-- Whatever is known of an instance goes back to an attempt that routing began. -/
structure Rooted (s : State) : Prop where
  attempt : ∀ {id a}, s.attempts.find? id = some a → s.Routed a.key a.epoch
  live : ∀ {k}, s.roster.live.contains k = true → s.Routed k s.roster.epoch
  broken : ∀ {k}, s.roster.broken.contains k = true → s.Routed k s.roster.epoch
  record : ∀ {k}, s.roster.retries.records.contains k = true → s.Routed k s.roster.epoch
  sleeper : ∀ {x}, x ∈ s.roster.retries.sleepers → s.Routed x.action.key x.action.epoch
  fired : ∀ {p}, p ∈ s.fired → s.Routed p.2.key p.2.epoch

lemma Routed.congr {k k' : InstanceKey} {epoch : Nat} (h : s.Routed k epoch)
    (hk : (k == k') = true) : s.Routed k' epoch := by
  obtain ⟨id, a, ha, hk', he, hb⟩ := h
  exact ⟨id, a, ha, BEq.trans hk' hk, he, hb⟩

lemma Move.routed (hm : s.Move l s' effects) (hc : s.Coherent) {k : InstanceKey} {epoch : Nat}
    (h : s.Routed k epoch) : s'.Routed k epoch := by
  obtain ⟨id, a, ha, hk, he, hb⟩ := h
  obtain ⟨a', ha', hc⟩ := hm.attempts.continues hc ha
  exact ⟨id, a', ha', by rw [hc.key]; exact hk, hc.epoch.trans he, hc.byRetry.trans hb⟩

lemma Rooted.attempted (h : s.Rooted) {k : InstanceKey} (ha : s.Attempted k) :
    s.Routed k s.roster.epoch := by
  obtain ⟨id, a, ha, he, hk⟩ := ha
  rw [← he]
  exact (h.attempt ha).congr hk

lemma rooted_create (settings : Settings) (surroundings : Surroundings) (delays : List Nat)
    (disabled : List String) : (create settings surroundings delays disabled).Rooted where
  attempt h := nomatch h
  live h := nomatch h
  broken h := nomatch h
  record h := nomatch h
  sleeper h := nomatch h
  fired h := nomatch h

/-- Attempts stay rooted: a new one is begun by routing, or by a retry that is rooted itself. -/
theorem Rooted.attempt_move (h : s.Rooted) (hc : s.Coherent) (hm : s.Move l s' effects)
    {id : AttemptId} {a : Attempt} (ha : s'.attempts.find? id = some a) :
    s'.Routed a.key a.epoch := by
  have old : ∀ {b : Attempt}, s.attempts.find? id = some b → s'.Routed b.key b.epoch :=
    fun hb => hm.routed hc (h.attempt hb)
  cases hm.attempts with
  | keep hs | shutDown hs =>
    rw [hs] at ha
    exact old ha
  | forward hf _ hs | settle hf _ hs =>
    rw [hs] at ha
    obtain ⟨rfl, rfl⟩ | ⟨-, ha⟩ := Table.find?_insert_cases ha
    · have ho := old hf
      exact ho
    · exact old ha
  | reserve _ _ _ _ hs =>
    have ha' := ha
    rw [hs] at ha
    obtain ⟨rfl, rfl⟩ | ⟨-, ha⟩ := Table.find?_insert_cases ha
    · exact ⟨_, _, ha', BEq.rfl, rfl, rfl⟩
    · exact old ha
  | retry _ hp he _ _ _ hs =>
    rw [hs] at ha
    obtain ⟨rfl, rfl⟩ | ⟨-, ha⟩ := Table.find?_insert_cases ha
    · have hr := hm.routed hc (h.fired hp)
      rw [he] at hr
      exact hr
    · exact old ha

lemma Rooted.move (h : s.Rooted) (hc : s.Coherent) (hm : s.Move l s' effects) : s'.Rooted := by
  have kept : ∀ {k epoch}, s.Routed k epoch → s'.Routed k epoch := hm.routed hc
  -- what is known of an instance in the new epoch of a shutdown is nothing
  have known : ∀ {k}, s.Routed k s.roster.epoch →
      (s'.roster.live.contains k = true ∨ s'.roster.broken.contains k = true ∨
        s'.roster.retries.records.contains k = true) → s'.Routed k s'.roster.epoch := by
    intro k hr hk
    obtain he | he := hm.epoch_cases
    · rw [he]
      exact kept hr
    · rw [he] at hk
      obtain hk | hk | hk := hk <;> cases hk
  constructor
  · exact h.attempt_move hc hm
  · intro k hk
    refine known ?_ (.inl hk)
    obtain ⟨client, hf⟩ := Table.contains_iff.1 hk
    obtain hf | ⟨id, a, -, ha, -, he, -, hka⟩ := hm.live_of hf
    · exact h.live (Table.contains_iff.2 ⟨client, hf⟩)
    · exact h.attempted ⟨id, a, ha, he, hka⟩
  · intro k hk
    refine known ?_ (.inr (.inl hk))
    obtain hk | hk | hk := hm.broken_of hk
    · exact h.broken hk
    · exact h.attempted hk
    · exact h.live hk
  · intro k hk
    refine known ?_ (.inr (.inr hk))
    obtain hk | hk := hm.record_of hk
    · exact h.record hk
    · exact h.attempted hk
  · intro x hx
    obtain ⟨y, hy, -, hact⟩ | ⟨⟨id, a, -, ha, -, -, hp⟩, -⟩ := hm.mem_sleepers hx
    · rw [← hact]
      exact kept (h.sleeper hy)
    · rw [hp]
      exact kept (h.attempt ha)
  · intro p hp
    obtain hp | ⟨y, hy, -, hact⟩ := hm.mem_fired hp
    · exact kept (h.fired hp)
    · rw [← hact]
      exact kept (h.sleeper hy)

end State

lemma Run.rooted {s t : State} {run : List Happening} (h : Run s run t) (hc : s.Coherent)
    (hs : s.Rooted) : t.Rooted := by
  induction h with
  | start => exact hs
  | next h hn ih => exact ih.move (h.coherent hc) hn.move

lemma Run.epoch_le {s t : State} {run : List Happening} (h : Run s run t) :
    s.roster.epoch ≤ t.roster.epoch := by
  induction h with
  | start => exact Nat.le_refl _
  | next _ hn ih => exact Nat.le_trans ih hn.move.epoch_le

/-- An attempt that was not there when a run began has begun in the run. -/
theorem Run.begins {s t : State} {run : List Happening} (h : Run s run t) (hc : s.Coherent)
    {id : AttemptId} {a : Attempt} (hs : s.attempts.find? id = none)
    (ht : t.attempts.find? id = some a) :
    ∃ x ∈ run, ∃ b, x.Begins id b ∧ b.Continues a := by
  induction h generalizing a with
  | start => cases hs.symm.trans ht
  | @next run t u l effects h hn ih =>
    cases hf : t.attempts.find? id with
    | none => exact ⟨_, List.mem_append_right _ (List.mem_singleton.2 rfl), a, ⟨hf, ht⟩, .refl a⟩
    | some b =>
      obtain ⟨a', ha', hba⟩ := hn.move.attempts.continues (h.coherent hc) hf
      cases ht.symm.trans ha'
      obtain ⟨x, hx, c, hbeg, hcb⟩ := ih hf
      exact ⟨x, List.mem_append_left _ hx, c, hbeg, hcb.trans hba⟩

/-- No attempt begins in a run that ends with as many attempts as it had. -/
theorem Run.not_begins {s t : State} {run : List Happening} (h : Run s run t) (hc : s.Coherent)
    (hsize : t.attempts.size = s.attempts.size) {x : Happening} (hx : x ∈ run) {id : AttemptId}
    {a : Attempt} : ¬ x.Begins id a := by
  rintro ⟨hn, ha⟩
  obtain ⟨earlier, later, rfl, he, hm, hl⟩ := h.split_of_mem hx
  have hbefore := he.coherent hc
  have hafter := hbefore.move hm.move
  obtain ⟨b, hb, -⟩ := hl.continues hafter ha
  have hlt := (hl.coherent hafter).attempts.lt_size hb
  rw [hsize] at hlt
  obtain ⟨c, hid⟩ := Table.contains_iff.1 ((hc.attempts id).2 hlt)
  obtain ⟨d, hd, -⟩ := he.continues hc hid
  cases hn.symm.trans hd

/-- What is known when the attempts of before are all of earlier epochs goes back to an attempt that
has begun since. -/
theorem Run.routed_since {s t : State} {run : List Happening} (h : Run s run t) (hc : s.Coherent)
    (he : ∀ {id a}, s.attempts.find? id = some a → a.epoch < t.roster.epoch) {k : InstanceKey}
    (hk : t.Routed k t.roster.epoch) :
    ∃ x ∈ run, ∃ id a, x.Begins id a ∧ a.byRetry = false ∧ (a.key == k) = true := by
  obtain ⟨id, a, ha, hka, hea, hb⟩ := hk
  have hs : s.attempts.find? id = none := by
    cases hf : s.attempts.find? id with
    | none => rfl
    | some b =>
      obtain ⟨a', ha', hba⟩ := h.continues hc hf
      cases ha.symm.trans ha'
      have hlt := he hf
      have heq := hba.epoch
      omega
  obtain ⟨x, hx, b, hbeg, hba⟩ := h.begins hc hs ha
  exact ⟨x, hx, id, b, hbeg, hba.byRetry.symm.trans hb, by rw [← hba.key]; exact hka⟩

end ServerFleet.Manager
