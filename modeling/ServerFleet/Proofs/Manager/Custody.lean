import ServerFleet.Proofs.Manager.Reservation

/-!
Who holds a client. From its connection until its outcome is entered a client is in the hands of
its attempt, and afterwards it may be live, always under the key it was connected for. A client
becomes live only when its attempt is entered as ready.
-/

namespace ServerFleet.Manager

namespace AttemptStage

/-- The client that an attempt has in hand and has to do something about. -/
def client? : AttemptStage → Option ClientId
  | handshaking client _ => some client
  | abandoning client => some client
  | concluded (.ready client) => some client
  | discarding client => some client
  | _ => none

end AttemptStage

/-- A client stays what it was connected for. -/
structure ClientRecord.Continues (r r' : ClientRecord) : Prop where
  key : r'.key = r.key
  attempt : r'.attempt = r.attempt

lemma ClientRecord.Continues.refl (r : ClientRecord) : r.Continues r := ⟨rfl, rfl⟩

lemma ClientRecord.Goes.continues {id : ClientId} {r r' : ClientRecord} {l : Label}
    {effects : List Effect} (h : r.Goes id l r' effects) : r.Continues r' := by
  cases h <;> exact ⟨rfl, rfl⟩

/-- Only a connection gives an attempt a client. -/
theorem Attempt.Goes.client?_eq {id : AttemptId} {a : Attempt} {l : Label} {stage : AttemptStage}
    {effects : List Effect} (h : a.Goes id l stage effects) {client : ClientId}
    (hc : stage.client? = some client) : a.stage.client? = some client := by
  cases h <;> simp_all [AttemptStage.client?]

/-- The client that an attempt goes on with is the one whose handshake was done. -/
theorem Roster.Settles.client?_eq {r r' : Roster} {now : Nat} {k : InstanceKey} {epoch : Nat}
    {o : Outcome} {x : Settlement} (h : r.Settles now k epoch o r' x) {client : ClientId}
    (hc : x.stage.client? = some client) : o = .ready client := by
  cases h with
  | @stale o =>
    cases o <;> simp_all [Roster.Outcome.stale, Settlement.stage, AttemptStage.client?]
  | _ => simp_all [Settlement.stage, AttemptStage.client?]

/-- A client goes live under a key: its attempt is entered as ready, in its epoch and for an
enabled server. -/
def Happening.Registers (x : Happening) (k : InstanceKey) (client : ClientId) : Prop :=
  ∃ id a, x.label = .run (.attempt id) ∧ x.before.attempts.find? id = some a ∧
    a.stage = .concluded (.ready client) ∧ a.epoch = x.before.roster.epoch ∧
    x.before.roster.isDisabled a.key.serverId = false ∧ (a.key == k) = true

namespace State

variable {s s' : State} {l : Label} {effects : List Effect}

lemma Move.client_continues (hm : s.Move l s' effects) (h : s.Coherent) {client : ClientId}
    {r : ClientRecord} (hr : s.clients.find? client = some r) :
    ∃ r', s'.clients.find? client = some r' ∧ r.Continues r' := by
  have changed : ∀ {id : ClientId} {c c' : ClientRecord}, s.clients.find? id = some c →
      c.Continues c' → ∃ r', (s.clients.insert id c').find? client = some r' ∧ r.Continues r' := by
    intro id c c' hc hcc
    by_cases hid : client = id
    · subst hid
      cases hr.symm.trans hc
      exact ⟨c', Table.find?_insert_self _ _ _, hcc⟩
    · exact ⟨r, (Table.find?_insert_of_ne _ hid _).trans hr, .refl r⟩
  cases hm with
  | connected =>
    have hne := Nat.ne_of_lt (h.clients.lt_size hr)
    exact ⟨r, (Table.find?_insert_of_ne _ hne _).trans hr, .refl r⟩
  | client hc hg => exact changed hc hg.continues
  | deafen hc | ignore hc | close hc | fault hc => exact changed hc ⟨rfl, rfl⟩
  | _ => exact ⟨r, hr, .refl r⟩

/-- What is live was live before, or goes live now under the key of its attempt. -/
theorem Move.live_of (hm : s.Move l s' effects) {k : InstanceKey} {client : ClientId}
    (h : s'.roster.live.find? k = some client) :
    s.roster.live.find? k = some client ∨
      (⟨s, l, effects, s'⟩ : Happening).Registers k client := by
  cases hm with
  | @settle id a _ _ _ ha hst hr =>
    cases hr with
    | started he hd =>
      rw [Table.find?_insert] at h
      split at h
      · next hk =>
        cases h
        exact .inr ⟨id, a, rfl, ha, hst, he.symm, hd, hk⟩
      · exact .inl h
    | _ => exact .inl h
  | @disable _ _ server =>
    rw [Roster.find?_live_disable] at h
    split at h
    · cases h
    · exact .inl h
  | shutDown => cases h
  | close | fault =>
    rw [Table.find?_erase] at h
    split at h
    · cases h
    · exact .inl h
  | _ => exact .inl h

/-- A client whose attempt is entered as ready in its epoch and for an enabled server is live. -/
theorem Move.registers (hm : s.Move l s' effects) {k : InstanceKey} {client : ClientId}
    (hr : (⟨s, l, effects, s'⟩ : Happening).Registers k client) :
    s'.roster.live.find? k = some client := by
  obtain ⟨id, a, hl, ha, hst, he, hd, hk⟩ := hr
  dsimp only at hl ha he hd
  subst hl
  cases hm with
  | settle ha' hst' hs =>
    cases ha.symm.trans ha'
    cases hst.symm.trans hst'
    cases hs with
    | started => simp [hk]
    | stale hne => exact absurd he.symm hne
    | discarded _ hd' => exact absurd (hd.symm.trans hd') Bool.false_ne_true
  | attempt ha' hg =>
    cases hg with
    | launch h | announce h =>
      cases ha.symm.trans ha'
      cases hst.symm.trans h
  | call _ hg => cases hg
  | errand _ _ _ hg => cases hg
  | client _ hg => cases hg

/-- The clients in the hands of attempts and the live ones were connected for their keys. -/
structure Custody (s : State) : Prop where
  inHand : ∀ {id a client}, s.attempts.find? id = some a → a.stage.client? = some client →
    ∃ r, s.clients.find? client = some r ∧ r.key = a.key ∧ r.attempt = id
  live : ∀ {k client}, s.roster.live.find? k = some client →
    ∃ r, s.clients.find? client = some r ∧ (r.key == k) = true

lemma Custody.move (h : s.Custody) (hc : s.Coherent) (hm : s.Move l s' effects) :
    s'.Custody := by
  -- a client that an attempt had in hand before is found, with the same key, after the move
  have kept : ∀ {id a client}, s.attempts.find? id = some a → a.stage.client? = some client →
      ∃ r, s'.clients.find? client = some r ∧ r.key = a.key ∧ r.attempt = id := by
    intro id a client ha hst
    obtain ⟨r, hr, hk, hid⟩ := h.inHand ha hst
    obtain ⟨r', hr', hrr⟩ := hm.client_continues hc hr
    exact ⟨r', hr', hrr.key.trans hk, hrr.attempt.trans hid⟩
  constructor
  · intro id a client ha hst
    cases hm with
    | attempt ha' hg =>
      obtain ⟨rfl, rfl⟩ | ⟨-, ha⟩ := Table.find?_insert_cases ha
      · have hk := kept ha' (hg.client?_eq hst)
        exact hk
      · exact kept ha hst
    | connected ha' =>
      obtain ⟨rfl, rfl⟩ | ⟨-, ha⟩ := Table.find?_insert_cases ha
      · cases hst
        exact ⟨_, Table.find?_insert_self _ _ _, rfl, rfl⟩
      · exact kept ha hst
    | settle ha' hst' hr =>
      obtain ⟨rfl, rfl⟩ | ⟨-, ha⟩ := Table.find?_insert_cases ha
      · have ho := hr.client?_eq hst
        have hk := kept ha' (show _ = some client by rw [hst', ho]; rfl)
        exact hk
      · exact kept ha hst
    | reserve | retry =>
      obtain ⟨rfl, rfl⟩ | ⟨-, ha⟩ := Table.find?_insert_cases ha
      · cases hst
      · exact kept ha hst
    | _ => exact kept ha hst
  · intro k client hl
    obtain hl | ⟨id, a, -, ha, hst, -, -, hk⟩ := hm.live_of hl
    · obtain ⟨r, hr, hk⟩ := h.live hl
      obtain ⟨r', hr', hrr⟩ := hm.client_continues hc hr
      exact ⟨r', hr', by rw [hrr.key]; exact hk⟩
    · obtain ⟨r, hr, hk', -⟩ := kept ha (by rw [hst]; rfl)
      exact ⟨r, hr, by rw [hk']; exact hk⟩

lemma custody_create (settings : Settings) (surroundings : Surroundings) (delays : List Nat)
    (disabled : List String) : (create settings surroundings delays disabled).Custody where
  inHand h := nomatch h
  live h := nomatch h

end State

lemma Run.custody {s t : State} {run : List Happening} (h : Run s run t) (hc : s.Coherent)
    (hs : s.Custody) : t.Custody := by
  induction h with
  | start => exact hs
  | next h hn ih => exact ih.move (h.coherent hc) hn.move

/-- Clients stay what they were connected for as long as the manager lives. -/
theorem Run.client_continues {s t : State} {run : List Happening} (h : Run s run t)
    (hs : s.Coherent) {client : ClientId} {r : ClientRecord}
    (hr : s.clients.find? client = some r) :
    ∃ r', t.clients.find? client = some r' ∧ r.Continues r' := by
  induction h with
  | start => exact ⟨r, hr, .refl r⟩
  | next h hn ih =>
    obtain ⟨b, hb, hrb⟩ := ih
    obtain ⟨c, hc, hbc⟩ := hn.move.client_continues (h.coherent hs) hb
    exact ⟨c, hc, hbc.key.trans hrb.key, hbc.attempt.trans hrb.attempt⟩

end ServerFleet.Manager
