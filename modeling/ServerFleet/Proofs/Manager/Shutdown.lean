import ServerFleet.Proofs.Manager.Account
import ServerFleet.Proofs.Manager.Origin

/-!
What a shutdown leaves behind. Attempts and retries of earlier epochs come to nothing, so once all
work has settled an instance is known only if routing began an attempt for it after the shutdown.
A call that was in progress can do that: while it waits for one server the shutdown passes, and it
goes on to the next.
-/

namespace ServerFleet.Manager

/-- A shutdown takes everything out of the roster. -/
def Happening.ShutsDown (x : Happening) : Prop :=
  ∃ call c, x.label = .run (.call call) ∧ x.before.calls.find? call = some c ∧
    c.stage = .entering ∧ c.request = .shutdown

/-- All attempts and calls have come to their end, and every report is dealt with. -/
structure State.Settled (s : State) : Prop where
  attempts : ∀ {id a}, s.attempts.find? id = some a → a.stage = .finished
  calls : ∀ {id c}, s.calls.find? id = some c → c.stage.isOver = true
  pumps : ∀ {client r}, s.clients.find? client = some r → r.pump.isBusy = false

def Label.isRouting : Label → Bool
  | .start request => request.routed?.isSome
  | _ => false

/-- Nothing is known of an instance, and no retry is pending for it. -/
structure Roster.Gone (r : Roster) (k : InstanceKey) : Prop where
  live : r.live.contains k = false
  starting : r.starting.contains k = false
  broken : r.broken.contains k = false
  pending : r.retries.isPending k = false

lemma Roster.Gone.congr {r : Roster} {k k' : InstanceKey} (h : r.Gone k)
    (hk : (k == k') = true) : r.Gone k' where
  live := (Table.contains_congr _ hk).symm.trans h.live
  starting := (Table.contains_congr _ hk).symm.trans h.starting
  broken := (Table.contains_congr _ hk).symm.trans h.broken
  pending := by
    have hp := h.pending
    unfold RetryScheduler.isPending at hp ⊢
    rw [← Table.find?_congr _ hk]
    exact hp

namespace State

variable {s s' : State} {l : Label} {effects : List Effect}

/-- A shutdown begins a new epoch and leaves the attempts to themselves. -/
theorem Move.shutsDown (hm : s.Move l s' effects)
    (hx : (⟨s, l, effects, s'⟩ : Happening).ShutsDown) :
    s'.attempts = s.attempts ∧ s'.roster.epoch = s.roster.epoch + 1 := by
  obtain ⟨call, c, hl, hc, hst, hr⟩ := hx
  dsimp only at hl hc
  subst hl
  cases hm with
  | shutDown => exact ⟨rfl, rfl⟩
  | call hc' hg =>
    cases hg with
    | answer h =>
      cases hc.symm.trans hc'
      simp [hst, hr] at h
    | route _ hf =>
      cases hc.symm.trans hc'
      rw [hr] at hf
      cases hf
    | _ h =>
      cases hc.symm.trans hc'
      cases hst.symm.trans h
  | enable hc' _ hr' | disable hc' _ hr' | forgetBroken hc' _ hr' =>
    cases hc.symm.trans hc'
    cases hr.symm.trans hr'
  | reserve hc' h | forgetRetries hc' h =>
    cases hc.symm.trans hc'
    cases hst.symm.trans h
  | attempt _ hg => cases hg
  | errand _ _ _ hg => cases hg
  | client _ hg => cases hg

lemma settled_iff : s.Settled ↔ s.attempts.values.all (·.stage = .finished) = true ∧
    s.calls.values.all (·.stage.isOver) = true ∧ s.clients.values.all (!·.pump.isBusy) = true := by
  simp only [List.all_eq_true, Table.mem_values_iff, forall_exists_index, decide_eq_true_eq,
    Bool.not_eq_true']
  constructor
  · intro h
    exact ⟨fun _ _ => h.attempts, fun _ _ => h.calls, fun _ _ => h.pumps⟩
  · rintro ⟨ha, hc, hp⟩
    exact ⟨ha _ _, hc _ _, hp _ _⟩

lemma Settled.of_values (ha : s.attempts.values.all (·.stage = .finished) = true)
    (hc : s.calls.values.all (·.stage.isOver) = true)
    (hp : s.clients.values.all (!·.pump.isBusy) = true) : s.Settled :=
  settled_iff.2 ⟨ha, hc, hp⟩

/-- A call that is over owes nothing. -/
theorem not_owes_of_isOver {c : Call} {client : ClientId} (h : c.stage.isOver = true) :
    ¬ c.Owes client :=
  not_owes (fun _ _ _ hst => by simp [hst, CallStage.isOver] at h)
    fun _ hst => by simp [hst, CallStage.isOver] at h

/-- When all work has settled, a client that has not ended is live. -/
theorem Settled.live (h : s.Settled) {client : ClientId} (hk : s.Keeps client) :
    ∃ k, s.roster.live.find? k = some client := by
  cases hk with
  | live hl => exact ⟨_, hl⟩
  | inHand ha hst =>
    rw [h.attempts ha] at hst
    cases hst
  | owed hc ho => exact absurd ho (not_owes_of_isOver (h.calls hc))
  | failing hr hp =>
    have hb := h.pumps hr
    rw [hp] at hb
    cases hb

/-- When all work has settled, no instance is being started. -/
theorem Settled.starting (h : s.Settled) (hc : s.Coherent) (k : InstanceKey) :
    s.roster.starting.contains k = false := by
  rw [Table.contains_eq_false, Option.eq_none_iff_forall_ne_some]
  intro id hid
  obtain ⟨a, ha, -, -, hp⟩ := hc.starting.1 hid
  have hsome := hc.isSettled ha
  rw [h.attempts ha, hp] at hsome
  cases hsome

/-- When all work has settled, an instance of which something is known is rooted. -/
theorem Settled.gone (h : s.Settled) (hc : s.Coherent) (hr : s.Rooted) (k : InstanceKey) :
    s.roster.Gone k ∨ s.Routed k s.roster.epoch := by
  by_cases hrec : s.roster.retries.records.contains k = true
  · exact .inr (hr.record hrec)
  by_cases hlive : s.roster.live.contains k = true
  · exact .inr (hr.live hlive)
  by_cases hbroken : s.roster.broken.contains k = true
  · exact .inr (hr.broken hbroken)
  simp only [Bool.not_eq_true] at hrec hlive hbroken
  exact .inl ⟨hlive, h.starting hc k, hbroken, RetryScheduler.isPending_of_not_contains _ hrec⟩

end State

/-- Once all work has settled after a shutdown, nothing is known of any instance and every client
has been shut down or has closed, exactly if nothing is left of the instances that routing began
to start after the shutdown, and of the clients of calls that were given up while they had to shut
them down. -/
theorem shutDown_final_iff {settings : Settings} {surroundings : Surroundings} {delays : List Nat}
    {disabled : List String} {earlier later : List Happening} {x : Happening} {s : State}
    (h : Run (.create settings surroundings delays disabled) (earlier ++ x :: later) s)
    (hx : x.ShutsDown) (hs : s.Settled) :
    ((∀ k, s.roster.Gone k) ∧
      ∀ client, s.clients.contains client = true → Ended (earlier ++ x :: later) client) ↔
    (∀ y ∈ later, ∀ id a, y.Begins id a → a.byRetry = false → s.roster.Gone a.key) ∧
      ∀ client, s.clients.contains client = true →
        (∃ y ∈ earlier ++ x :: later, y.GivesUp client) → Ended (earlier ++ x :: later) client := by
  have hcreate := State.coherent_create settings surroundings delays disabled
  have hcoh := h.coherent hcreate
  have hroot := h.rooted hcreate (State.rooted_create settings surroundings delays disabled)
  constructor
  · rintro ⟨hgone, hend⟩
    exact ⟨fun _ _ _ _ _ _ => hgone _, fun client hc _ => hend client hc⟩
  rintro ⟨hlate, hgiven⟩
  obtain ⟨he, hn, hl⟩ := h.split
  have hbefore := he.coherent hcreate
  obtain ⟨hattempts, hepoch⟩ := hn.move.shutsDown hx
  have hgone : ∀ k, s.roster.Gone k := by
    intro k
    obtain hk | hk := hs.gone hcoh hroot k
    · exact hk
    -- every attempt of before the shutdown is of an earlier epoch
    have hold : ∀ {id a}, x.after.attempts.find? id = some a → a.epoch < s.roster.epoch := by
      intro id a ha
      rw [hattempts] at ha
      have hle := hbefore.epoch_le ha
      have hlater := hl.epoch_le
      omega
    obtain ⟨y, hy, id, a, hb, hr, hka⟩ := hl.routed_since (hbefore.move hn.move) hold hk
    exact (hlate y hy id a hb hr).congr hka
  refine ⟨hgone, fun client hc => ?_⟩
  obtain hk | hend | hgive := h.accounts hc
  · obtain ⟨k, hk⟩ := hs.live hk
    have hnone := (hgone k).live
    rw [Table.contains_eq_false, hk] at hnone
    cases hnone
  · exact hend
  · exact hgiven client hc hgive

/-- After the shutdown of a manager whose calls have all been answered nothing is known of any
instance. -/
theorem shutDown_final_sample : ∃ earlier x later,
    Run (sampleOf ["a"]) (earlier ++ x :: later) sampleStopped ∧ x.ShutsDown ∧
      sampleStopped.Settled ∧ ∀ k, sampleStopped.roster.Gone k := by
  obtain ⟨effects, hn⟩ := State.Next.of_isSome
    (show (sampleStopping.step? (.run (.call 1))).isSome = true by decide)
  have hbefore : Run (sampleOf ["a"]) _ sampleStopping := Run.of_trace _ _
  have hafter := Run.of_trace (sampleStopping.follow [.run (.call 1)]) sampleStop
  have hrun := hbefore.append (.cons hn hafter)
  have hx : (⟨sampleStopping, .run (.call 1), effects,
      sampleStopping.follow [.run (.call 1)]⟩ : Happening).ShutsDown :=
    ⟨1, _, rfl, rfl, rfl, rfl⟩
  have hs : sampleStopped.Settled := .of_values (by decide) (by decide) (by decide)
  refine ⟨_, _, _, hrun, hx, hs, ((shutDown_final_iff hrun hx hs).2 ⟨?_, ?_⟩).1⟩
  · intro y hy id a hb
    have hsize : sampleStopped.attempts.size =
        (sampleStopping.follow [.run (.call 1)]).attempts.size := by decide
    have hcoh := (hbefore.next hn).coherent (State.coherent_create _ _ _ _)
    exact absurd hb (hafter.not_begins hcoh hsize hy)
  · rintro client - ⟨y, hy, hg⟩
    obtain hy | hy := List.mem_append.1 hy
    · exact absurd hg (not_givesUp_of_trace (by decide) hy client)
    obtain rfl | hy := List.mem_cons.1 hy
    · exact absurd hg (Happening.not_givesUp rfl client)
    · exact absurd hg (not_givesUp_of_trace (by decide) hy client)

/-- A call that waits for the first server of its file while a shutdown passes goes on to the
second one, which is live when all work has settled. -/
theorem shutDown_passed_sample :
    ¬ ∀ (settings : Settings) (surroundings : Surroundings) (delays : List Nat)
      (disabled : List String) (earlier later : List Happening) (x : Happening) (s : State),
      Run (.create settings surroundings delays disabled) (earlier ++ x :: later) s →
      x.label = .start .shutdown → (∃ y ∈ later, y.ShutsDown) →
      (∀ y ∈ later, y.label.isRouting = false) → s.Settled → s.fired = [] →
      (∀ k, s.roster.Gone k) ∧
        ∀ client, s.clients.contains client = true → Ended (earlier ++ x :: later) client := by
  intro hall
  have hwaiting : Run sample _ (sample.follow (sampleRequest 0)) := Run.of_trace _ _
  obtain ⟨effects, hn⟩ := State.Next.of_isSome
    (show ((sample.follow (sampleRequest 0)).step? (.start .shutdown)).isSome = true by decide)
  obtain ⟨effects', hn'⟩ := State.Next.of_isSome
    (show (((sample.follow (sampleRequest 0)).follow [.start .shutdown]).step?
      (.run (.call 1))).isSome = true by decide)
  have hrun := hwaiting.append (.cons hn (.cons hn' (Run.of_trace samplePassed sampleGoOn)))
  have hgone := hall _ _ _ _ _ _ _ _ hrun rfl ?_ ?_ ?_ ?_
  · have hlive := (hgone.1 (sampleKey "b")).live
    have : (samplePassed.follow sampleGoOn).roster.live.contains (sampleKey "b") = true := by
      decide
    exact absurd (this.symm.trans hlive) nofun
  · exact ⟨_, List.mem_cons_self, 1, _, rfl, rfl, rfl, rfl⟩
  · intro y hy
    obtain rfl | hy := List.mem_cons.1 hy
    · rfl
    · have hl : sampleGoOn.all (!·.isRouting) = true := by decide
      simpa using List.all_eq_true.1 hl _ (State.label_mem_of_trace hy)
  · exact .of_values (by decide) (by decide) (by decide)
  · decide

end ServerFleet.Manager
