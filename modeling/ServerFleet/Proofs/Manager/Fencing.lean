import ServerFleet.Proofs.Manager.Dismissal
import ServerFleet.Proofs.Manager.Timing

/-!
What a shutdown makes of the work before it. An attempt or a retry of an earlier epoch comes to
nothing: it leaves the roster as it is, whatever a newer attempt has put there, nobody is given its
client, nothing is announced of it, and its client is shut down.
-/

namespace ServerFleet.Manager

/-- The outcome of an attempt is entered. -/
def Happening.Enters (x : Happening) (id : AttemptId) (a : Attempt) : Prop :=
  x.label = .run (.attempt id) ∧ x.before.attempts.find? id = some a ∧ ∃ o, a.stage = .concluded o

def Label.attempt? : Label → Option AttemptId
  | .run (.attempt id) => some id
  | .reply (.attempt id) _ => some id
  | .expire (.attempt id) => some id
  | .progress id _ _ => some id
  | _ => none

/-- An attempt that has nothing more to announce. -/
def AttemptStage.isQuiet : AttemptStage → Bool
  | discarding _ => true
  | finished => true
  | _ => false

lemma Roster.Outcome.isQuiet_stale (o : Outcome) : (stale o).stage.isQuiet = true := by
  cases o <;> rfl

lemma Roster.Outcome.not_announced_stale (o : Outcome) (id : AttemptId) (k : InstanceKey)
    (event : Event) (client : Option ClientId) :
    Effect.announced event client ∉ (stale o).effects id k := by
  cases o <;> simp [stale, Settlement.effects, Settlement.stage]

section Attempts

variable {l : Label} {effects : List Effect} {id : AttemptId} {a : Attempt} {stage : AttemptStage}

lemma Attempt.Goes.of_quiet (h : a.Goes id l stage effects)
    (hq : a.stage.isQuiet = true) : stage = .finished ∧ effects = [] := by
  cases h with
  | discarded => exact ⟨rfl, rfl⟩
  | _ h =>
    rw [h] at hq
    cases hq

lemma Attempt.Goes.attempt?_eq (h : a.Goes id l stage effects) : l.attempt? = some id := by
  cases h <;> rfl

end Attempts

namespace State

variable {s s' : State} {l : Label} {effects : List Effect} {id : AttemptId} {a : Attempt}

lemma Move.of_concluded (hm : s.Move (.run (.attempt id)) s' effects)
    (ha : s.attempts.find? id = some a) {o : Outcome} (hst : a.stage = .concluded o) :
    ∃ roster x, s.roster.Settles s.now a.key a.epoch o roster x ∧ effects = x.effects id a.key ∧
      s' = { s with
        roster
        attempts := s.attempts.insert id
          { a with stage := x.stage, published := some x.published } } := by
  cases hm with
  | settle ha' hst' hr =>
    cases ha.symm.trans ha'
    cases hst.symm.trans hst'
    exact ⟨_, _, hr, rfl, rfl⟩
  | attempt ha' hg =>
    cases hg with
    | launch h | announce h =>
      cases ha.symm.trans ha'
      cases hst.symm.trans h
  | call _ hg => cases hg
  | errand _ _ _ hg => cases hg
  | client _ hg => cases hg

/-- An attempt of an earlier epoch is entered without a trace. -/
theorem Move.of_stale (hm : s.Move (.run (.attempt id)) s' effects)
    (ha : s.attempts.find? id = some a) {o : Outcome} (hst : a.stage = .concluded o)
    (he : a.epoch ≠ s.roster.epoch) :
    effects = (Roster.Outcome.stale o).effects id a.key ∧
      s' = { s with
        attempts := s.attempts.insert id
          { a with stage := (Roster.Outcome.stale o).stage, published := some none } } := by
  obtain ⟨roster, x, hr, heffects, hs⟩ := hm.of_concluded ha hst
  cases hr with
  | stale =>
    have hp : (Roster.Outcome.stale o).published = none := by cases o <;> rfl
    rw [hp] at hs
    exact ⟨heffects, hs⟩
  | discarded h | started h | unavailable h | dropped h | failed h => exact absurd h.symm he

section Quiet

/-- An attempt that has nothing more to announce stays so. -/
theorem Move.quiet (hm : s.Move l s' effects) (hc : s.Coherent)
    (ha : s.attempts.find? id = some a) (hq : a.stage.isQuiet = true) :
    ∃ a', s'.attempts.find? id = some a' ∧ a'.stage.isQuiet = true := by
  cases hm with
  | @attempt id' b _ stage _ hb hg =>
    by_cases hid : id = id'
    · subst hid
      cases ha.symm.trans hb
      obtain ⟨rfl, -⟩ := hg.of_quiet hq
      exact ⟨_, Table.find?_insert_self _ _ _, rfl⟩
    · exact ⟨a, (Table.find?_insert_of_ne _ hid _).trans ha, hq⟩
  | @connected id' b _ _ hb hst | @settle id' b _ _ _ hb hst =>
    by_cases hid : id = id'
    · subst hid
      cases ha.symm.trans hb
      rw [hst] at hq
      cases hq
    · exact ⟨a, (Table.find?_insert_of_ne _ hid _).trans ha, hq⟩
  | reserve | retry =>
    have hne := Nat.ne_of_lt (hc.attempts.lt_size ha)
    exact ⟨a, (Table.find?_insert_of_ne _ hne _).trans ha, hq⟩
  | _ => exact ⟨a, ha, hq⟩

lemma Move.not_announced (hm : s.Move l s' effects) (ha : s.attempts.find? id = some a)
    (hq : a.stage.isQuiet = true) (hl : l.attempt? = some id) (event : Event)
    (client : Option ClientId) : Effect.announced event client ∉ effects := by
  cases hm with
  | attempt hb hg =>
    cases hg.attempt?_eq.symm.trans hl
    cases ha.symm.trans hb
    obtain ⟨-, rfl⟩ := hg.of_quiet hq
    exact nofun
  | progress hb hst | connected hb hst | settle hb hst =>
    cases hl
    cases ha.symm.trans hb
    rw [hst] at hq
    cases hq
  | call _ hg => cases hg <;> cases hl
  | errand _ _ _ hg => cases hg <;> cases hl
  | client _ hg => cases hg <;> cases hl
  | _ => cases hl

end Quiet

/-- A client that goes live is what its attempt gives to those who wait for it. -/
theorem Move.published_of_registers (hm : s.Move l s' effects) {k : InstanceKey}
    {client : ClientId} (hx : (⟨s, l, effects, s'⟩ : Happening).Registers k client) :
    ∃ id a a', s.attempts.find? id = some a ∧ a.stage = .concluded (.ready client) ∧
      s'.attempts.find? id = some a' ∧ a'.published = some (some client) := by
  obtain ⟨id, a, hl, ha, hst, he, hd, -⟩ := hx
  dsimp only at hl ha he hd
  subst hl
  obtain ⟨roster, x, hr, -, rfl⟩ := hm.of_concluded ha hst
  refine ⟨id, a, _, ha, hst, Table.find?_insert_self _ _ _, ?_⟩
  cases hr with
  | stale hne => exact absurd he.symm hne
  | discarded _ hd' => exact absurd (hd.symm.trans hd') nofun
  | started => rfl

/-- A retry of an earlier epoch begins nothing. -/
theorem Move.of_stale_retry (hm : s.Move l s' effects) (ht : s.Timed) {timer : Nat}
    {plan : RetryPlan} (hx : (⟨s, l, effects, s'⟩ : Happening).Retries timer plan)
    (he : plan.epoch ≠ s.roster.epoch) : s'.attempts = s.attempts ∧ s'.roster = s.roster := by
  obtain ⟨hl, hf⟩ := hx
  dsimp only at hl hf
  subst hl
  cases hm with
  | drop => exact ⟨rfl, rfl⟩
  | retry hf' he' =>
    cases ht.plan_eq hf hf'
    exact absurd he'.symm he
  | unhook hu =>
    obtain ⟨y, hy, hid⟩ := RetryScheduler.exists_of_unhook? hu
    exact absurd hid (ht.awake hf hy)
  | attempt _ hg => cases hg
  | call _ hg => cases hg
  | errand _ _ _ hg => cases hg
  | client _ hg => cases hg

end State

/-- A client whose attempt gives nobody a client is in nobody's charge. -/
theorem State.Custody.charge_eq_zero {s : State} (h : s.Custody) (hc : s.Coherent) {id : AttemptId}
    {a : Attempt} (ha : s.attempts.find? id = some a) (hp : a.published = some none)
    {client : ClientId} {r : ClientRecord} (hr : s.clients.find? client = some r)
    (hid : r.attempt = id) (hg : s.greeting (.ofClient client) = 0) : s.charge client = 0 := by
  -- an attempt with the client in hand is the one that connected it, and that one is settled
  have other {id' : AttemptId} {b : Attempt} (hb : s.attempts.find? id' = some b) {c : ClientId}
      (hst : b.stage.client? = some c) (hs : b.stage.isSettled = false) : c ≠ client := by
    rintro rfl
    obtain ⟨q, hq, -, hqid⟩ := h.inHand hb hst
    cases hr.symm.trans hq
    cases hqid.symm.trans hid
    cases ha.symm.trans hb
    cases hp.symm.trans (hc.published_eq_none ha hs)
  refine Table.total_eq_zero fun e he => ?_
  have hb := Table.find?_of_mem he
  cases hst : e.2.stage with
  | handshaking c =>
    have hne := other hb (c := c) (by rw [hst]; rfl) (by rw [hst]; rfl)
    simp [AttemptStage.charge, hne]
  | concluded o =>
    cases o with
    | ready c =>
      have hne := other hb (c := c) (by rw [hst]; rfl) (by rw [hst]; rfl)
      simp [AttemptStage.charge, hne]
    | _ => rfl
  | announcing c =>
    have hle := Table.le_total_of_mem (w := fun _ a => a.stage.greets (.ofClient client) a.key) he
    rw [hst] at hle
    exact Nat.le_zero.1 (hle.trans (Nat.le_of_eq hg))
  | _ => rfl

section Runs

variable {settings : Settings} {surroundings : Surroundings} {delays : List Nat}
  {disabled : List String} {earlier later run : List Happening} {x : Happening} {s : State}
  {id : AttemptId} {a : Attempt}

lemma Run.not_registers_of_published_none
    (h : Run (.create settings surroundings delays disabled) run s)
    (ha : s.attempts.find? id = some a) (hp : a.published = some none) {client : ClientId}
    {r : ClientRecord} (hr : s.clients.find? client = some r) (hid : r.attempt = id) {y : Happening}
    (hy : y ∈ run) (k : InstanceKey) : ¬ y.Registers k client := by
  intro hreg
  have hcreate := State.coherent_create settings surroundings delays disabled
  obtain ⟨earlier, later, rfl, he, hn, hl⟩ := h.split_of_mem hy
  have hbefore := he.coherent hcreate
  obtain ⟨id', b, c, hb, hst, hc, hpub⟩ := hn.move.published_of_registers hreg
  -- the attempt that is entered as ready is the one that connected the client
  obtain ⟨q, hq, -, hqid⟩ := (he.custody hcreate (State.custody_create _ _ _ _)).inHand hb
    (show _ = some client by rw [hst]; rfl)
  obtain ⟨r', hr', hqr⟩ := (Run.cons hn hl).client_continues hbefore hq
  cases hr.symm.trans hr'
  cases hid.symm.trans (hqr.attempt.trans hqid)
  obtain ⟨a', ha', hca⟩ := hl.continues (hbefore.move hn.move) hc
  cases ha.symm.trans ha'
  cases hp.symm.trans (hca.published hpub)

/-- A client of an attempt that gives nobody a client never goes live. -/
theorem Run.not_live_of_published_none
    (h : Run (.create settings surroundings delays disabled) run s)
    (ha : s.attempts.find? id = some a) (hp : a.published = some none) {client : ClientId}
    {r : ClientRecord} (hr : s.clients.find? client = some r) (hid : r.attempt = id) {y : Happening}
    (hy : y ∈ run) (k : InstanceKey) : y.after.roster.live.find? k ≠ some client := by
  obtain ⟨earlier, later, hrun, he, hn, -⟩ := h.split_of_mem hy
  refine (he.next hn).live_ne nofun (fun z hz => ?_) k
  refine h.not_registers_of_published_none ha hp hr hid ?_
  rw [hrun]
  obtain hz | hz := List.mem_append.1 hz
  · exact List.mem_append_left _ hz
  · cases List.mem_singleton.1 hz
    simp

/-- Such a client is shut down once, by its attempt. -/
theorem Run.shutdowns_of_published_none
    (h : Run (.create settings surroundings delays disabled) run s)
    (ha : s.attempts.find? id = some a) (hp : a.published = some none) {client : ClientId}
    {r : ClientRecord} (hr : s.clients.find? client = some r) (hid : r.attempt = id) :
    shutdowns run client = 1 := by
  have hcreate := State.coherent_create settings surroundings delays disabled
  have hcus := h.custody hcreate (State.custody_create _ _ _ _)
  have hnone : (Scope.ofClient client).starts run + s.greeting (.ofClient client) = 0 := by
    refine Nat.eq_zero_of_not_pos fun hpos => ?_
    obtain ⟨y, hy, k, hk⟩ := (h.live_iff client).1 hpos
    exact h.not_live_of_published_none ha hp hr hid hy k hk
  have hcharge := hcus.charge_eq_zero (h.coherent hcreate) ha hp hr hid (by omega)
  have hconnected := h.connected client
  rw [Table.contains_iff.2 ⟨r, hr⟩, hcharge, Bool.toNat_true] at hconnected
  -- nobody else shuts it down, since it has no end to be announced
  have hbalance := h.balance (.ofClient client)
  have hheld := s.asked_le_owed (.ofClient client)
  have hlost := lost_asked_le_owed (.ofClient client) run
  obtain ⟨closed, -, hdismissed⟩ := h.dismissed client
  have hshutdowns := shutdowns_eq run client
  omega

/-- An attempt that has nothing more to announce announces nothing more. -/
theorem Run.not_announced {t : State} (h : Run t run s) (hc : t.Coherent)
    (ha : t.attempts.find? id = some a) (hq : a.stage.isQuiet = true) {y : Happening} (hy : y ∈ run)
    (hl : y.label.attempt? = some id) (event : Event) (client : Option ClientId) :
    Effect.announced event client ∉ y.effects := by
  obtain ⟨earlier, later, -, he, hn, -⟩ := h.split_of_mem hy
  obtain ⟨-, b, hb, hbq⟩ : y.before.Coherent ∧
      ∃ b, y.before.attempts.find? id = some b ∧ b.stage.isQuiet = true := by
    refine he.invariant (p := fun s => s.Coherent ∧ ∃ b, s.attempts.find? id = some b ∧
      b.stage.isQuiet = true) ⟨hc, a, ha, hq⟩ ?_
    rintro _ _ _ _ ⟨hcoh, b, hb, hbq⟩ hm
    exact ⟨hcoh.move hm, hm.quiet hcoh hb hbq⟩
  exact hn.move.not_announced hb hbq hl event client

/-- An attempt of an earlier epoch leaves the roster and the retries as they are, whatever its
outcome is. Those who wait for it are given no client, nothing is announced of it, and a client
that it connected is shut down once and never goes live. A retry that was set up in an earlier
epoch begins nothing. -/
theorem stale_attempt_fenced (h : Run (.create settings surroundings delays disabled) run s) :
    (∀ earlier x later id a, run = earlier ++ x :: later → x.Enters id a →
      a.epoch ≠ x.before.roster.epoch →
      x.after.roster = x.before.roster ∧ x.after.fired = x.before.fired ∧
      (∀ y ∈ run, ∀ call, y.Resumes call id → y.Obtains call id none) ∧
      (∀ y ∈ x :: later, y.label.attempt? = some id → ∀ event client,
        Effect.announced event client ∉ y.effects) ∧
      ∀ client r, s.clients.find? client = some r → r.attempt = id →
        shutdowns run client = 1 ∧ ∀ y ∈ run, ∀ k, y.after.roster.live.find? k ≠ some client) ∧
    ∀ earlier x later timer plan, run = earlier ++ x :: later → x.Retries timer plan →
      ∃ y ∈ earlier, y.SetsUp timer plan ∧ (y.before.roster.epoch ≠ x.before.roster.epoch →
        x.after.attempts = x.before.attempts ∧ x.after.roster = x.before.roster) := by
  have hcreate := State.coherent_create settings surroundings delays disabled
  constructor
  · rintro earlier x later id a rfl ⟨hl, ha, o, hst⟩ hepoch
    obtain ⟨he, hn, ht⟩ := h.split
    have hm := hn.move
    rw [hl] at hm
    obtain ⟨heffects, hafter⟩ := hm.of_stale ha hst hepoch
    have hcoh := (he.coherent hcreate).move hn.move
    have hnew : x.after.attempts.find? id =
        some { a with stage := (Roster.Outcome.stale o).stage, published := some none } := by
      rw [hafter]
      exact Table.find?_insert_self _ _ _
    -- the attempt as it is at the end of the run
    obtain ⟨b, hb, hab⟩ := ht.continues hcoh hnew
    have hpub : b.published = some none := hab.published rfl
    refine ⟨by rw [hafter], by rw [hafter], fun y hy call hr => ?_, fun y hy hyl event client => ?_,
      fun client r hr hid => ⟨h.shutdowns_of_published_none hb hpub hr hid,
        fun y hy => h.not_live_of_published_none hb hpub hr hid hy⟩⟩
    · obtain ⟨b', result, hb', hpub', hobtains⟩ := h.obtains hy hr
      cases hb.symm.trans hb'
      cases hpub.symm.trans hpub'
      exact hobtains
    · obtain rfl | hy := List.mem_cons.1 hy
      · rw [heffects]
        exact Roster.Outcome.not_announced_stale o id a.key event client
      · exact ht.not_announced hcoh hnew (Roster.Outcome.isQuiet_stale o) hy hyl event client
  · rintro earlier x later timer plan rfl hx
    obtain ⟨he, hn, -⟩ := h.split
    obtain ⟨y, hy, hup⟩ := he.setsUp.2 _ hx.2
    refine ⟨y, hy, hup, fun hne => ?_⟩
    obtain ⟨⟨-, b, -, -, -, hepoch, hplan⟩, -⟩ := hup
    refine hn.move.of_stale_retry (he.timed (State.timed_create _ _ _ _)) hx ?_
    rw [show plan = _ from hplan, hepoch]
    exact hne

end Runs

/-- A manager of one server when a shutdown has passed and the handshake that was under way then is
done. -/
def sampleLate : State :=
  (sampleOf ["a"]).follow (sampleRequest 0 ++ sampleConnect 0 ++
    [.start .shutdown, .run (.call 1), .reply (.attempt 0) (.client .done)])

/-- The client that comes too late is shut down, and the roster stays as the shutdown has left
it. -/
theorem stale_attempt_fenced_sample : ∃ earlier x later a,
    Run (sampleOf ["a"]) (earlier ++ x :: later)
      ((sampleLate.follow [.run (.attempt 0)]).follow [.run (.call 0)]) ∧
      x.Enters 0 a ∧ a.epoch ≠ x.before.roster.epoch ∧ x.after.roster = x.before.roster ∧
      shutdowns (earlier ++ x :: later) 0 = 1 := by
  obtain ⟨effects, hn⟩ := State.Next.of_isSome
    (show (sampleLate.step? (.run (.attempt 0))).isSome = true by decide)
  have hbefore : Run (sampleOf ["a"]) _ sampleLate := Run.of_trace _ _
  have hafter := Run.of_trace (sampleLate.follow [.run (.attempt 0)]) [.run (.call 0)]
  have hrun := hbefore.append (.cons hn hafter)
  have hx : (⟨sampleLate, .run (.attempt 0), effects,
      sampleLate.follow [.run (.attempt 0)]⟩ : Happening).Enters 0
        ⟨sampleKey "a", 0, false, .concluded (.ready 0), none⟩ :=
    ⟨rfl, rfl, _, rfl⟩
  have hepoch : 0 ≠ sampleLate.roster.epoch := by decide
  obtain ⟨hroster, -, -, -, hclient⟩ :=
    (stale_attempt_fenced hrun).1 _ _ _ _ _ rfl hx hepoch
  exact ⟨_, _, _, _, hrun, hx, hepoch, hroster, (hclient 0 _ rfl rfl).1⟩

end ServerFleet.Manager
