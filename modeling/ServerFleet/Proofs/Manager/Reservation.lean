import ServerFleet.Proofs.Manager.Run

/-!
Attempts and the table of those under way. Between two steps the table names, for every key,
exactly the attempt of the current epoch whose outcome is not entered yet. A shutdown begins a new
epoch and so takes all attempts out of the table at once.
-/

namespace ServerFleet.Manager

def AttemptStage.isSettled : AttemptStage → Bool
  | announcing _ => true
  | discarding _ => true
  | finished => true
  | _ => false

@[simp] lemma Settlement.isSettled_stage (x : Settlement) : x.stage.isSettled = true := by
  unfold Settlement.stage
  split <;> rfl

lemma Attempt.Goes.isSettled_eq {id : AttemptId} {a : Attempt} {l : Label} {stage : AttemptStage}
    {effects : List Effect} (h : a.Goes id l stage effects) :
    a.stage.isSettled = stage.isSettled := by
  cases h <;> simp [*, AttemptStage.isSettled]

section Settles

variable {r r' : Roster} {now : Nat} {k : InstanceKey} {epoch : Nat} {o : Outcome} {x : Settlement}

lemma Roster.Settles.epoch_eq (h : r.Settles now k epoch o r' x) : r'.epoch = r.epoch := by
  cases h <;> rfl

lemma Roster.Settles.find?_starting (h : r.Settles now k epoch o r' x) (k' : InstanceKey) :
    r'.starting.find? k' =
      if r.epoch = epoch ∧ (k == k') = true then none else r.starting.find? k' := by
  cases h <;> simp [*, Table.find?_erase]

end Settles

namespace State

variable {s s' : State} {l : Label} {effects : List Effect}

/-- An attempt of the current epoch whose outcome is not entered yet. -/
def InFlight (s : State) (k : InstanceKey) (id : AttemptId) : Prop :=
  ∃ a, s.attempts.find? id = some a ∧ (a.key == k) = true ∧ a.epoch = s.roster.epoch ∧
    a.published = none

/-- How the attempts and the table of those under way go on. -/
inductive AttemptMove (s : State) (l : Label) (s' : State) : Prop
  | keep (ha : s'.attempts = s.attempts) (he : s'.roster.epoch = s.roster.epoch)
      (hs : s'.roster.starting = s.roster.starting)
  | forward {id : AttemptId} {a : Attempt} {stage : AttemptStage}
      (hf : s.attempts.find? id = some a) (hst : a.stage.isSettled = stage.isSettled)
      (ha : s'.attempts = s.attempts.insert id { a with stage })
      (he : s'.roster.epoch = s.roster.epoch) (hs : s'.roster.starting = s.roster.starting)
  | settle {id : AttemptId} {a : Attempt} {x : Settlement} (hf : s.attempts.find? id = some a)
      (hst : a.stage.isSettled = false)
      (ha : s'.attempts = s.attempts.insert id
        { a with stage := x.stage, published := some x.published })
      (he : s'.roster.epoch = s.roster.epoch)
      (hs : ∀ k, s'.roster.starting.find? k =
        if s.roster.epoch = a.epoch ∧ (a.key == k) = true then none
        else s.roster.starting.find? k)
  | reserve {k : InstanceKey} (hd : s.roster.isDisabled k.serverId = false)
      (hb : s.roster.broken.contains k = false) (hl : s.roster.live.contains k = false)
      (hk : s.roster.starting.find? k = none)
      (ha : s'.attempts = s.attempts.insert s.attempts.size
        ⟨k, s.roster.epoch, false, .reserved, none⟩)
      (he : s'.roster.epoch = s.roster.epoch)
      (hs : s'.roster.starting = s.roster.starting.insert k s.attempts.size)
  | retry {timer : Nat} {plan : RetryPlan} (hr : l = .run (.timer timer))
      (hp : (timer, plan) ∈ s.fired) (hpe : plan.epoch = s.roster.epoch)
      (hd : s.roster.isDisabled plan.key.serverId = false)
      (hl : s.roster.live.contains plan.key = false)
      (hk : s.roster.starting.find? plan.key = none)
      (ha : s'.attempts = s.attempts.insert s.attempts.size
        ⟨plan.key, s.roster.epoch, true, .reserved, none⟩)
      (he : s'.roster.epoch = s.roster.epoch)
      (hs : s'.roster.starting = s.roster.starting.insert plan.key s.attempts.size)
  | shutDown (ha : s'.attempts = s.attempts) (he : s'.roster.epoch = s.roster.epoch + 1)
      (hs : s'.roster.starting = .empty)

lemma Move.attempts (h : s.Move l s' effects) : s.AttemptMove l s' := by
  cases h with
  | attempt ha hg => exact .forward ha hg.isSettled_eq rfl rfl rfl
  | connected ha hst => exact .forward ha (by rw [hst]; rfl) rfl rfl rfl
  | settle ha hst hr => exact .settle ha (by rw [hst]; rfl) rfl hr.epoch_eq hr.find?_starting
  | reserve hc hst hk hl hs =>
    rw [Bool.or_eq_false_iff] at hk
    exact .reserve hk.1 hk.2 (Table.contains_eq_false.2 hl) hs rfl rfl rfl
  | retry hf he hd hl hs =>
    exact .retry rfl hf he.symm hd hl (Table.contains_eq_false.1 hs) rfl rfl rfl
  | shutDown => exact .shutDown rfl rfl rfl
  | _ => exact .keep rfl rfl rfl

lemma Move.numbered_calls (h : s.Move l s' effects) (hn : s.calls.Numbered) :
    s'.calls.Numbered := by
  cases h with
  | start => exact hn.insert_next _
  | cancel hc | call hc | errand hc | reserve hc | enable hc | disable hc | forgetBroken hc
  | forgetRetries hc | shutDown hc => exact hn.insert_old hc _
  | _ => exact hn

lemma Move.numbered_clients (h : s.Move l s' effects) (hn : s.clients.Numbered) :
    s'.clients.Numbered := by
  cases h with
  | connected => exact hn.insert_next _
  | client hc | deafen hc | ignore hc | close hc | fault hc => exact hn.insert_old hc _
  | _ => exact hn

lemma AttemptMove.numbered (h : s.AttemptMove l s') (hn : s.attempts.Numbered) :
    s'.attempts.Numbered := by
  cases h with
  | keep ha | shutDown ha => rwa [ha]
  | forward hf hst ha | settle hf hst ha =>
    rw [ha]
    exact hn.insert_old hf _
  | reserve _ _ _ _ ha | retry _ _ _ _ _ _ ha =>
    rw [ha]
    exact hn.insert_next _

/-- What holds between two steps about numbers, epochs and the table of attempts under way. -/
structure Coherent (s : State) : Prop where
  attempts : s.attempts.Numbered
  calls : s.calls.Numbered
  clients : s.clients.Numbered
  epoch_le : ∀ {id a}, s.attempts.find? id = some a → a.epoch ≤ s.roster.epoch
  isSettled : ∀ {id a}, s.attempts.find? id = some a → a.published.isSome = a.stage.isSettled
  starting : ∀ {k id}, s.roster.starting.find? k = some id ↔ s.InFlight k id

lemma coherent_create (settings : Settings) (surroundings : Surroundings) (delays : List Nat)
    (disabled : List String) : (create settings surroundings delays disabled).Coherent where
  attempts := Table.numbered_empty
  calls := Table.numbered_empty
  clients := Table.numbered_empty
  epoch_le h := nomatch h
  isSettled h := nomatch h
  starting := by
    intro k id
    constructor
    · intro h
      cases h
    · rintro ⟨a, h, -⟩
      cases h

/-- An attempt whose outcome is not entered is not published. -/
theorem Coherent.published_eq_none (h : s.Coherent) {id : AttemptId} {a : Attempt}
    (ha : s.attempts.find? id = some a) (hst : a.stage.isSettled = false) : a.published = none := by
  have hsome := h.isSettled ha
  rw [hst] at hsome
  simpa using hsome

/-- An attempt of the current epoch whose outcome is not entered is the one its key is being
started with. -/
theorem Coherent.starting_of_attempt (h : s.Coherent) {id : AttemptId} {a : Attempt}
    (ha : s.attempts.find? id = some a) (hst : a.stage.isSettled = false)
    (he : a.epoch = s.roster.epoch) : s.roster.starting.find? a.key = some id :=
  h.starting.2 ⟨a, ha, BEq.rfl, he, h.published_eq_none ha hst⟩

section Preservation

lemma AttemptMove.epoch_le (h : s.Coherent) (hm : s.AttemptMove l s') {id : AttemptId}
    {a : Attempt} (ha' : s'.attempts.find? id = some a) : a.epoch ≤ s'.roster.epoch := by
  cases hm with
  | keep ha he =>
    rw [ha] at ha'
    rw [he]
    exact h.epoch_le ha'
  | forward hf hst ha he | settle hf hst ha he =>
    rw [ha] at ha'
    rw [he]
    obtain ⟨-, rfl⟩ | ⟨-, ha'⟩ := Table.find?_insert_cases ha'
    · have hle := h.epoch_le hf
      exact hle
    · exact h.epoch_le ha'
  | reserve _ _ _ _ ha he | retry _ _ _ _ _ _ ha he =>
    rw [ha] at ha'
    rw [he]
    obtain ⟨-, rfl⟩ | ⟨-, ha'⟩ := Table.find?_insert_cases ha'
    · exact Nat.le_refl _
    · exact h.epoch_le ha'
  | shutDown ha he =>
    rw [ha] at ha'
    rw [he]
    exact Nat.le_succ_of_le (h.epoch_le ha')

lemma AttemptMove.isSettled_eq (h : s.Coherent) (hm : s.AttemptMove l s') {id : AttemptId}
    {a : Attempt} (ha' : s'.attempts.find? id = some a) :
    a.published.isSome = a.stage.isSettled := by
  cases hm with
  | keep ha | shutDown ha =>
    rw [ha] at ha'
    exact h.isSettled ha'
  | forward hf hst ha =>
    rw [ha] at ha'
    obtain ⟨-, rfl⟩ | ⟨-, ha'⟩ := Table.find?_insert_cases ha'
    · exact (h.isSettled hf).trans hst
    · exact h.isSettled ha'
  | settle hf hst ha =>
    rw [ha] at ha'
    obtain ⟨-, rfl⟩ | ⟨-, ha'⟩ := Table.find?_insert_cases ha'
    · simp
    · exact h.isSettled ha'
  | reserve _ _ _ _ ha | retry _ _ _ _ _ _ ha =>
    rw [ha] at ha'
    obtain ⟨-, rfl⟩ | ⟨-, ha'⟩ := Table.find?_insert_cases ha'
    · rfl
    · exact h.isSettled ha'

/-- A step of an attempt that enters no outcome leaves it in flight or not, as it was. -/
theorem inFlight_forward {id : AttemptId} {a : Attempt} {stage : AttemptStage}
    (hf : s.attempts.find? id = some a) (ha : s'.attempts = s.attempts.insert id { a with stage })
    (he : s'.roster.epoch = s.roster.epoch) (k : InstanceKey) (id' : AttemptId) :
    s'.InFlight k id' ↔ s.InFlight k id' := by
  unfold InFlight
  rw [ha, he]
  by_cases hid : id' = id
  · subst hid
    simp [hf]
  · rw [Table.find?_insert_of_ne _ hid]

/-- An attempt whose outcome is entered is no longer in flight, and nothing else changes. -/
theorem inFlight_settle {id : AttemptId} {a' : Attempt} {o : Option ClientId}
    (ha : s'.attempts = s.attempts.insert id a') (hp : a'.published = some o)
    (he : s'.roster.epoch = s.roster.epoch) (k : InstanceKey) (id' : AttemptId) :
    s'.InFlight k id' ↔ id' ≠ id ∧ s.InFlight k id' := by
  unfold InFlight
  rw [ha, he]
  by_cases hid : id' = id
  · subst hid
    simp [hp]
  · rw [Table.find?_insert_of_ne _ hid]
    simp [hid]

/-- A new attempt is in flight beside those that were before. -/
theorem inFlight_begin (h : s.Coherent) {k : InstanceKey} {byRetry : Bool}
    (ha : s'.attempts = s.attempts.insert s.attempts.size
      ⟨k, s.roster.epoch, byRetry, .reserved, none⟩)
    (he : s'.roster.epoch = s.roster.epoch) (k' : InstanceKey) (id : AttemptId) :
    s'.InFlight k' id ↔ id = s.attempts.size ∧ (k == k') = true ∨ s.InFlight k' id := by
  unfold InFlight
  rw [ha, he]
  by_cases hid : id = s.attempts.size
  · subst hid
    simp [h.attempts.find?_size]
  · rw [Table.find?_insert_of_ne _ hid]
    simp [hid]

/-- The table with a new attempt names what is in flight. -/
theorem starting_begin (h : s.Coherent) {k : InstanceKey} {byRetry : Bool}
    (hk : s.roster.starting.find? k = none)
    (ha : s'.attempts = s.attempts.insert s.attempts.size
      ⟨k, s.roster.epoch, byRetry, .reserved, none⟩)
    (he : s'.roster.epoch = s.roster.epoch)
    (hs : s'.roster.starting = s.roster.starting.insert k s.attempts.size) {k' : InstanceKey}
    {id : AttemptId} : s'.roster.starting.find? k' = some id ↔ s'.InFlight k' id := by
  rw [inFlight_begin h ha he, hs, Table.find?_insert]
  by_cases hk' : (k == k') = true
  · have hn : ¬ s.InFlight k' id := by
      rw [← h.starting, ← Table.find?_congr _ hk', hk]
      exact nofun
    simp [hk', hn, eq_comm]
  · simp [hk', h.starting]

lemma AttemptMove.starting_iff (h : s.Coherent) (hm : s.AttemptMove l s') {k : InstanceKey}
    {id : AttemptId} : s'.roster.starting.find? k = some id ↔ s'.InFlight k id := by
  cases hm with
  | keep ha he hs =>
    unfold InFlight
    rw [ha, he, hs]
    exact h.starting
  | forward hf hst ha he hs =>
    rw [inFlight_forward hf ha he, hs]
    exact h.starting
  | @settle id' a x hf hst ha he hs =>
    rw [inFlight_settle ha rfl he, hs, ← h.starting]
    have hp := h.published_eq_none hf hst
    by_cases hk : s.roster.epoch = a.epoch ∧ (a.key == k) = true
    · -- the entry of this key is the attempt that is settled
      have hid : s.roster.starting.find? k = some id' :=
        h.starting.2 ⟨a, hf, hk.2, hk.1.symm, hp⟩
      simp [hk, hid, eq_comm]
    · rw [if_neg hk]
      refine ⟨fun hid => ⟨?_, hid⟩, fun hid => hid.2⟩
      rintro rfl
      obtain ⟨b, hb, hkey, hepoch, -⟩ := h.starting.1 hid
      cases hf.symm.trans hb
      exact hk ⟨hepoch.symm, hkey⟩
  | reserve _ _ _ hk ha he hs => exact starting_begin h hk ha he hs
  | retry _ _ _ _ _ hk ha he hs => exact starting_begin h hk ha he hs
  | shutDown ha he hs =>
    rw [hs]
    refine ⟨nofun, ?_⟩
    rintro ⟨a, hf, -, hepoch, -⟩
    rw [ha] at hf
    have hle := h.epoch_le hf
    omega

end Preservation

lemma Coherent.move (h : s.Coherent) (hm : s.Move l s' effects) : s'.Coherent where
  attempts := hm.attempts.numbered h.attempts
  calls := hm.numbered_calls h.calls
  clients := hm.numbered_clients h.clients
  epoch_le := hm.attempts.epoch_le h
  isSettled := hm.attempts.isSettled_eq h
  starting := hm.attempts.starting_iff h

end State

def Happening.Begins (x : Happening) (id : AttemptId) (a : Attempt) : Prop :=
  x.before.attempts.find? id = none ∧ x.after.attempts.find? id = some a

/-- A later view of an attempt: what it is for never changes, and neither does its result. -/
structure Attempt.Continues (a a' : Attempt) : Prop where
  key : a'.key = a.key
  epoch : a'.epoch = a.epoch
  byRetry : a'.byRetry = a.byRetry
  published : ∀ {o}, a.published = some o → a'.published = some o

lemma Attempt.Continues.refl (a : Attempt) : a.Continues a := ⟨rfl, rfl, rfl, id⟩

lemma Attempt.Continues.trans {a b c : Attempt} (h : a.Continues b) (h' : b.Continues c) :
    a.Continues c where
  key := h'.key.trans h.key
  epoch := h'.epoch.trans h.epoch
  byRetry := h'.byRetry.trans h.byRetry
  published ho := h'.published (h.published ho)

lemma State.AttemptMove.continues {s s' : State} {l : Label} (h : s.Coherent)
    (hm : s.AttemptMove l s') {id : AttemptId} {a : Attempt}
    (hf : s.attempts.find? id = some a) :
    ∃ a', s'.attempts.find? id = some a' ∧ a.Continues a' := by
  cases hm with
  | keep ha | shutDown ha =>
    rw [ha]
    exact ⟨a, hf, .refl a⟩
  | @forward id' b _ hb _ ha =>
    rw [ha]
    by_cases hid : id = id'
    · subst hid
      cases hf.symm.trans hb
      exact ⟨_, Table.find?_insert_self _ _ _, rfl, rfl, rfl, fun ho => ho⟩
    · exact ⟨a, (Table.find?_insert_of_ne _ hid _).trans hf, .refl a⟩
  | @settle id' b _ hb hst ha =>
    rw [ha]
    by_cases hid : id = id'
    · subst hid
      cases hf.symm.trans hb
      refine ⟨_, Table.find?_insert_self _ _ _, rfl, rfl, rfl, fun ho => ?_⟩
      exact absurd (ho.symm.trans (h.published_eq_none hf hst)) nofun
    · exact ⟨a, (Table.find?_insert_of_ne _ hid _).trans hf, .refl a⟩
  | reserve _ _ _ _ ha | retry _ _ _ _ _ _ ha =>
    have hne := Nat.ne_of_lt (h.attempts.lt_size hf)
    rw [ha]
    exact ⟨a, (Table.find?_insert_of_ne _ hne _).trans hf, .refl a⟩

lemma Run.coherent {s t : State} {run : List Happening} (h : Run s run t) (hs : s.Coherent) :
    t.Coherent :=
  h.invariant hs State.Coherent.move

/-- Attempts stay what they are for as long as the manager lives. -/
theorem Run.continues {s t : State} {run : List Happening} (h : Run s run t) (hs : s.Coherent)
    {id : AttemptId} {a : Attempt} (ha : s.attempts.find? id = some a) :
    ∃ a', t.attempts.find? id = some a' ∧ a.Continues a' := by
  induction h with
  | start => exact ⟨a, ha, .refl a⟩
  | next h hn ih =>
    obtain ⟨b, hb, hab⟩ := ih
    obtain ⟨c, hc, hbc⟩ := hn.move.attempts.continues (h.coherent hs) hb
    exact ⟨c, hc, hab.trans hbc⟩

end ServerFleet.Manager
