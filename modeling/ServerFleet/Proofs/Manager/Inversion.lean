import ServerFleet.Proofs.Manager.Roster

/-!
The moves are all that a manager can do: `State.Move.of_step?` inverts `step?`, function by
function.
-/

namespace ServerFleet.Manager

lemma Roster.Settles.of_settle (r : Roster) (now : Nat) (k : InstanceKey) (epoch : Nat)
    (o : Outcome) :
    r.Settles now k epoch o (r.settle now k epoch o).1 (r.settle now k epoch o).2 := by
  by_cases he : r.epoch = epoch
  · rw [settle, if_pos he]
    cases o with
    | ready client =>
      cases hd : r.disabled.contains k.serverId with
      | true =>
        simp only [settleCurrent, isDisabled, hd, if_true]
        exact .discarded he hd
      | false =>
        simp only [settleCurrent, isDisabled, hd, Bool.false_eq_true, if_false]
        exact .started he hd
    | unavailable => exact .unavailable he
    | failed =>
      cases hd : r.disabled.contains k.serverId with
      | true =>
        simp only [settleCurrent, fail, isDisabled, hd, if_true]
        exact .dropped he hd
      | false =>
        simp only [settleCurrent, fail, isDisabled, hd, Bool.false_eq_true, if_false]
        exact .failed he hd
  · rw [settle, if_neg he]
    exact .stale he

namespace State

section Steps

variable {s s' : State} {effects : List Effect}

lemma updateAttempt_eq {id : AttemptId} {a : Attempt} (h : s.attempts.find? id = some a)
    (f : Attempt → Attempt) :
    s.updateAttempt id f = { s with attempts := s.attempts.insert id (f a) } := by
  simp [updateAttempt, h]

lemma updateCall_eq {id : CallId} {c : Call} (h : s.calls.find? id = some c) (f : Call → Call) :
    s.updateCall id f = { s with calls := s.calls.insert id (f c) } := by
  simp [updateCall, h]

lemma updateClient_eq {id : ClientId} {c : ClientRecord} (h : s.clients.find? id = some c)
    (f : ClientRecord → ClientRecord) :
    s.updateClient id f = { s with clients := s.clients.insert id (f c) } := by
  simp [updateClient, h]

/-- Entering an outcome takes the attempt out of the hands of its handshake in one step. -/
theorem settleAttempt_eq {id : AttemptId} {a : Attempt} {o : Outcome} {roster : Roster}
    {x : Settlement} (ha : s.attempts.find? id = some a)
    (hr : s.roster.settle s.now a.key a.epoch o = (roster, x)) :
    s.settleAttempt id a o =
      ({ s with
          roster
          attempts := s.attempts.insert id
            { a with stage := x.stage, published := some x.published } },
        x.effects id a.key) := by
  obtain ⟨published, started, discarded, retrying⟩ := x
  cases started <;> cases published <;> cases discarded <;>
    simp [settleAttempt, hr, Settlement.stage, Settlement.effects, updateAttempt, ha, shutDownFor]

lemma Move.of_runAttempt {id : AttemptId} (h : s.runAttempt id = some (s', effects)) :
    Move s (.run (.attempt id)) s' effects := by
  obtain ⟨a, ha, h⟩ := Option.bind_eq_some_iff.1 h
  split at h
  · next hst =>
    rw [updateAttempt_eq ha] at h
    cases h
    exact .attempt ha (.launch hst)
  · next o hst =>
    rw [settleAttempt_eq ha rfl] at h
    cases h
    exact .settle ha hst (.of_settle _ _ _ _ _)
  · next client hst =>
    rw [updateAttempt_eq ha] at h
    cases h
    exact .attempt ha (.announce hst)
  · cases h

lemma Move.of_replyToAttempt {id : AttemptId} {reply : Reply}
    (h : s.replyToAttempt id reply = some (s', effects)) :
    Move s (.reply (.attempt id) reply) s' effects := by
  obtain ⟨a, ha, h⟩ := Option.bind_eq_some_iff.1 h
  dsimp only at h
  split at h <;> (try rw [updateAttempt_eq ha] at h) <;> cases h
  · next hst => exact .attempt ha (.connect hst)
  · next hst => exact .attempt ha (.missing hst)
  · next hst => exact .attempt ha (.launchFailed hst)
  · next hst => exact .attempt ha (.connectFailed hst)
  · next hst =>
    simp only [updateAttempt, ha]
    exact .connected ha hst
  · next hst => exact .attempt ha (.ready hst)
  · next hr hst =>
    rw [updateAttempt_eq ha]
    exact .attempt ha (.refuse hst hr)
  · next hst => exact .attempt ha (.abandoned hst)
  · next hst => exact .attempt ha (.discarded hst)

/-- An errand that is found belongs to a call that is not over. -/
theorem errand?_eq_some {id : CallId} {place : Nat} {e : Errand}
    (h : s.errand? id place = some e) :
    ∃ c, s.calls.find? id = some c ∧ c.stage.isOver = false ∧ c.errands[place]? = some e := by
  obtain ⟨c, hc, h⟩ := Option.bind_eq_some_iff.1 h
  split at h
  · cases h
  · next ho => exact ⟨c, hc, by simpa using ho, h⟩

lemma Move.of_moveErrand {id : CallId} {place : Nat} {e : Errand} {l : Label}
    {stage : ErrandStage} (he : s.errand? id place = some e)
    (hg : e.Goes id place l stage effects) : Move s l (s.moveErrand id place stage) effects := by
  obtain ⟨c, hc, ho, hp⟩ := errand?_eq_some he
  unfold moveErrand
  rw [updateCall_eq hc]
  exact .errand hc ho hp hg

lemma Move.of_runErrand {id : CallId} {place : Nat}
    (h : s.runErrand id place = some (s', effects)) :
    Move s (.run (.errand id place)) s' effects := by
  obtain ⟨e, he, h⟩ := Option.bind_eq_some_iff.1 h
  split at h <;> cases h
  next hst => exact .of_moveErrand he (.begin hst)

lemma Move.of_replyToErrand {id : CallId} {place : Nat} {reply : Reply}
    (h : s.replyToErrand id place reply = some (s', effects)) :
    Move s (.reply (.errand id place) reply) s' effects := by
  obtain ⟨e, he, h⟩ := Option.bind_eq_some_iff.1 h
  split at h <;> cases h
  next hst => exact .of_moveErrand he (.reply hst)

lemma Move.of_expireTask {task : TaskId} (h : s.expireTask task = some (s', effects)) :
    Move s (.expire task) s' effects := by
  obtain ⟨limit, hl, h⟩ := Option.bind_eq_some_iff.1 h
  by_cases hn : s.now < limit
  · cases task <;> simp [hn] at h
  cases task with
  | attempt id =>
    simp only [hn, if_false] at h
    obtain ⟨a, ha, h⟩ := Option.bind_eq_some_iff.1 h
    split at h
    · next hst =>
      cases h
      rw [updateAttempt_eq ha]
      exact .attempt ha (.expire hst)
    · cases h
  | errand id place =>
    simp only [hn, if_false] at h
    cases h
    obtain ⟨e, he, hl⟩ := Option.bind_eq_some_iff.1 hl
    split at hl
    · next hst =>
      subst hl
      exact .of_moveErrand he (.expire hst)
    · cases hl
  | call id => cases hl
  | pump id => cases hl
  | timer id => cases hl

lemma Move.of_replyToPump {id : ClientId} {reply : Reply}
    (h : s.replyToPump id reply = some (s', effects)) :
    Move s (.reply (.pump id) reply) s' effects := by
  obtain ⟨c, hc, h⟩ := Option.bind_eq_some_iff.1 h
  split at h <;> cases h
  next hp =>
    rw [updateClient_eq hc]
    exact .client hc (.failed hp)

lemma Move.of_runPump {id : ClientId} (h : s.runPump id = some (s', effects)) :
    Move s (.run (.pump id)) s' effects := by
  obtain ⟨c, hc, h⟩ := Option.bind_eq_some_iff.1 h
  dsimp only at h
  split at h
  · next event rest hp hi =>
    split at h
    · next ha =>
      cases h
      rw [updateClient_eq hc]
      exact .deafen hc hp (by simpa using ha)
    next ha =>
    rw [updateClient_eq hc] at h
    cases event with
    | diagnostics file found =>
      cases h
      exact .client hc (.forward hp hi)
    | closed =>
      cases hr : s.roster.isRegistered c.key id with
      | true =>
        simp only [Roster.closeClient, hr, if_true, updateClient, Table.find?_insert, BEq.rfl,
          Table.insert_insert] at h
        cases h
        exact .close hc hp hi hr (by simpa using ha)
      | false =>
        simp only [Roster.closeClient, hr, Bool.false_eq_true, if_false] at h
        cases h
        exact .ignore hc hp hi hr
    | error =>
      cases hr : s.roster.isRegistered c.key id with
      | true =>
        simp only [Roster.breakClient, hr, if_true, updateClient, Table.find?_insert, BEq.rfl,
          Table.insert_insert] at h
        cases h
        exact .fault hc hp hi hr (by simpa using ha)
      | false =>
        simp only [Roster.breakClient, hr, Bool.false_eq_true, if_false] at h
        cases h
        exact .ignore hc hp hi hr
  · next hp =>
    cases h
    rw [updateClient_eq hc]
    exact .client hc (.announce hp)
  · cases h

/-- A retry that begins no attempt is out of date or no longer needed. -/
theorem not_begun_retry {r : Roster} {plan : RetryPlan} {fresh : AttemptId}
    (h : (r.retry plan fresh).2 = false) :
    r.epoch ≠ plan.epoch ∨ r.isDisabled plan.key.serverId = true ∨
      r.live.contains plan.key = true ∨ r.starting.contains plan.key = true := by
  unfold Roster.retry at h
  split at h
  · next hn => simpa [or_assoc] using hn
  · cases h

/-- A retry begins an attempt only in its own epoch, for an instance of an enabled server that
is neither live nor being started. -/
theorem begun_retry {r : Roster} {plan : RetryPlan} {fresh : AttemptId}
    (h : (r.retry plan fresh).2 = true) :
    r.epoch = plan.epoch ∧ r.isDisabled plan.key.serverId = false ∧
      r.live.contains plan.key = false ∧ r.starting.contains plan.key = false ∧
      (r.retry plan fresh).1 = { r with starting := r.starting.insert plan.key fresh } := by
  unfold Roster.retry at h ⊢
  split at h
  · cases h
  · next hn =>
    rw [if_neg hn]
    simpa [and_assoc] using hn

lemma Move.of_runTimer {id : Nat} (h : s.runTimer id = some (s', effects)) :
    Move s (.run (.timer id)) s' effects := by
  unfold runTimer at h
  split at h
  · next n plan hf =>
    have hid := List.find?_some hf
    simp only [decide_eq_true_eq] at hid
    subst hid
    dsimp only at h
    have hmem := List.mem_of_find?_eq_some hf
    split at h
    · next ha =>
      cases h
      have hdead : (!s.isAlive) = true := ha
      exact .drop hmem fun ha' => by simp [ha'] at hdead
    next ha =>
    have halive : ¬ (!s.isAlive) = true := ha
    split at h
    · next hb =>
      obtain ⟨he, hd, hl, hs, hr⟩ := begun_retry hb
      rw [hr] at h
      cases h
      exact .retry hmem he hd hl hs (by simpa using halive)
    · next hb =>
      cases h
      exact .drop hmem fun _ => not_begun_retry (by simpa using hb)
  · obtain ⟨⟨retries, sleeper⟩, hu, h⟩ := Option.bind_eq_some_iff.1 h
    cases sleeper with
    | none =>
      cases h
      simpa using Move.unhook hu
    | some x =>
      cases h
      exact .unhook hu

section Calls

variable {id : CallId} {c : Call}

lemma goTo_eq (hc : s.calls.find? id = some c) (stage : CallStage) :
    s.goTo id stage = ({ s with calls := s.calls.insert id { c with stage } }, []) := by
  simp [goTo, updateCall, hc]

lemma finish_eq (hc : s.calls.find? id = some c) (answer : Answer) :
    s.finish id answer =
      ({ s with calls := s.calls.insert id (c.finish answer) }, [.answered id answer]) := by
  simp [finish, updateCall, hc, Call.finish]

lemma joinErrands_eq (hc : s.calls.find? id = some c) (errands : List Errand)
    (answer : Answer) :
    s.joinErrands id errands answer =
      ({ s with calls := s.calls.insert id (c.await errands answer) }, []) := by
  simp [joinErrands, updateCall, hc, Call.await]

lemma dismiss_eq (hc : s.calls.find? id = some c) {server : String} {enabled changed : Bool}
    {removed : List (InstanceKey × ClientId)} :
    (if changed then s.goTo id (.announcing server enabled removed)
      else s.joinErrands id (shutdownErrands removed) (.flag true)) =
      ({ s with calls := s.calls.insert id (c.dismiss server enabled changed removed) }, []) := by
  cases changed with
  | true => exact goTo_eq hc _
  | false => exact joinErrands_eq hc _ _

lemma Move.of_enter (hc : s.calls.find? id = some c) (hst : c.stage = .entering)
    (h : s.enter id c.request = (s', effects)) : Move s (.run (.call id)) s' effects := by
  have answered : ∀ answer, c.request ≠ .shutdown → s.finish id answer = (s', effects) →
      Move s (.run (.call id)) s' effects := by
    intro answer hr h
    rw [finish_eq hc] at h
    cases h
    exact .call hc (.answer (.inl ⟨hst, hr⟩))
  have routed : ∀ file, c.request.routed? = some file →
      (s.updateCall id fun c => { c with
        file := s.absolute file
        stage := .routing (s.settings.registry.forFile (s.absolute file)) [] }, []) =
          (s', effects) →
      Move s (.run (.call id)) s' effects := by
    intro file hf h
    rw [updateCall_eq hc] at h
    cases h
    exact .call hc (.route hst hf)
  cases hr : c.request with
  | setServerEnabled server enabled =>
    rw [hr] at h
    simp only [enter] at h
    split at h
    · exact answered _ (by rw [hr]; exact nofun) h
    cases enabled with
    | true =>
      cases (dismiss_eq (s := { s with roster := (s.roster.enable server).1 }) hc).symm.trans h
      exact .enable hc hst hr
    | false =>
      cases (dismiss_eq (s := { s with roster := (s.roster.disable server).1 }) hc).symm.trans h
      exact .disable hc hst hr
  | resetServer server =>
    rw [hr] at h
    simp only [enter, goTo, updateCall, hc] at h
    cases h
    exact .forgetBroken hc hst hr
  | shutdown =>
    rw [hr] at h
    simp only [enter, joinErrands, updateCall, hc] at h
    cases h
    exact .shutDown hc hst hr
  | allDiagnostics => exact answered _ (by rw [hr]; exact nofun) (by rw [hr] at h; exact h)
  | diagnosticsForFile file => exact answered _ (by rw [hr]; exact nofun) (by rw [hr] at h; exact h)
  | status => exact answered _ (by rw [hr]; exact nofun) (by rw [hr] at h; exact h)
  | registry => exact answered _ (by rw [hr]; exact nofun) (by rw [hr] at h; exact h)
  | isServerEnabled server => exact answered _ (by rw [hr]; exact nofun) (by rw [hr] at h; exact h)
  | _ =>
    rw [hr] at h
    exact routed _ (by rw [hr]; rfl) h

lemma Move.of_enlist {k : InstanceKey} {left : List ServerDefinition} {found : List ClientId}
    (hc : s.calls.find? id = some c) (hst : c.stage = .admitting k left found)
    (h : s.enlist id k left found = (s', effects)) : Move s (.run (.call id)) s' effects := by
  unfold enlist Roster.enlist at h
  cases hk : s.roster.isDisabled k.serverId || s.roster.broken.contains k with
  | true =>
    simp only [hk, if_true, goTo_eq hc] at h
    cases h
    exact .call hc (.refuse hst hk)
  | false =>
    cases hl : s.roster.live.find? k with
    | some client =>
      simp only [hk, hl, Bool.false_eq_true, if_false, goTo_eq hc] at h
      cases h
      exact .call hc (.find hst hl)
    | none =>
      cases hs : s.roster.starting.find? k with
      | some attempt =>
        simp only [hk, hl, hs, Bool.false_eq_true, if_false, goTo_eq hc] at h
        cases h
        exact .call hc (.join hst hs)
      | none =>
        simp only [hk, hl, hs, Bool.false_eq_true, if_false, goTo, updateCall, addAttempt, hc] at h
        cases h
        exact .reserve hc hst hk hl hs

lemma Move.of_joinNext {answer : Answer} (hc : s.calls.find? id = some c)
    (hst : c.stage = .joining answer) (h : s.joinNext id c answer = some (s', effects)) :
    Move s (.run (.call id)) s' effects := by
  unfold joinNext at h
  split at h
  · next e errands he =>
    rw [updateCall_eq hc] at h
    cases h
    exact .call hc (.collect hst he)
  split at h
  · next hall =>
    rw [finish_eq hc] at h
    cases h
    exact .call hc (.finish hst (by simpa using hall))
  · cases h

lemma Move.of_runCall (h : s.runCall id = some (s', effects)) :
    Move s (.run (.call id)) s' effects := by
  obtain ⟨c, hc, h⟩ := Option.bind_eq_some_iff.1 h
  split at h
  · next hst => exact .of_enter hc hst (Option.some.inj h)
  · next found hst =>
    split at h
    · rw [finish_eq hc] at h
      cases h
      exact .call hc (.answer (.inr (.inl ⟨found, hst⟩)))
    · rw [goTo_eq hc] at h
      cases h
      exact .call hc (.visit hst)
  · next d left found hst =>
    cases hd : s.roster.isDisabled d.id with
    | true =>
      simp only [hd, if_true, goTo_eq hc] at h
      cases h
      exact .call hc (.skip hst)
    | false =>
      simp only [hd, Bool.false_eq_true, if_false] at h
      split at h
      · rw [goTo_eq hc] at h
        cases h
        exact .call hc (.skip hst)
      · rw [goTo_eq hc] at h
        cases h
        exact .call hc (.detect hst hd)
  · next hst => exact .of_enlist hc hst (Option.some.inj h)
  · next hst =>
    obtain ⟨result, hres, h⟩ := Option.bind_eq_some_iff.1 h
    obtain ⟨a, ha, hp⟩ := Option.bind_eq_some_iff.1 hres
    rw [goTo_eq hc] at h
    cases h
    exact .call hc (.obtain hst ha hp)
  · next replies hst =>
    split at h
    · rw [finish_eq hc] at h
      cases h
      exact .call hc (.answer (.inr (.inr ⟨replies, hst⟩)))
    · rw [joinErrands_eq hc] at h
      cases h
      exact .call hc (.await hst)
  · next hst =>
    obtain ⟨call, hcall, h⟩ := Option.bind_eq_some_iff.1 h
    rw [updateCall_eq hc] at h
    cases h
    exact .call hc (.ask hst hcall)
  · next hst =>
    rw [joinErrands_eq hc] at h
    cases h
    exact .call hc (.announce hst)
  · next server cleared hst =>
    simp only [finish, updateCall, hc] at h
    cases h
    exact .forgetRetries hc hst
  · next hst => exact .of_joinNext hc hst h
  · cases h

lemma Move.of_replyToCall {reply : Reply} (h : s.replyToCall id reply = some (s', effects)) :
    Move s (.reply (.call id) reply) s' effects := by
  obtain ⟨c, hc, h⟩ := Option.bind_eq_some_iff.1 h
  split at h
  · next hst _ =>
    dsimp only at h
    rw [goTo_eq hc] at h
    cases h
    exact .call hc (.reply ‹_›)
  · cases h

end Calls

section Surroundings

lemma Move.of_progress {id : AttemptId} {stage : InstallStage} {package : String}
    (h : s.step? (.progress id stage package) = some (s', effects)) :
    Move s (.progress id stage package) s' effects := by
  obtain ⟨a, ha, h⟩ := Option.bind_eq_some_iff.1 h
  by_cases hst : a.stage = .launching
  · simp [hst] at h
    obtain ⟨rfl, rfl⟩ := h
    exact .progress ha hst
  · simp [hst] at h

lemma Move.of_wake {timer : Nat} (h : s.step? (.wake timer) = some (s', effects)) :
    Move s (.wake timer) s' effects := by
  by_cases hs : s.isAlive
  · simp only [step?, hs, Bool.not_true, Bool.false_eq_true, if_false] at h
    obtain ⟨retries, hw, h⟩ := Option.bind_eq_some_iff.1 h
    cases h
    exact .wake hw
  · simp [step?, hs] at h

lemma Move.of_report {id : ClientId} {event : ClientEvent}
    (h : s.step? (.report id event) = some (s', effects)) :
    Move s (.report id event) s' effects := by
  obtain ⟨c, hc, h⟩ := Option.bind_eq_some_iff.1 h
  by_cases hp : c.pump = .deaf
  · simp [hp] at h
  · simp [hp, updateClient, hc] at h
    obtain ⟨rfl, rfl⟩ := h
    exact .client hc (.report hp)

lemma Move.of_publish {id : ClientId} {file : Path} {found : List Diagnostic}
    (h : s.step? (.publish id file found) = some (s', effects)) :
    Move s (.publish id file found) s' effects := by
  cases h
  cases hc : s.clients.find? id with
  | some c =>
    rw [updateClient_eq hc]
    exact .client hc .publish
  | none =>
    simp only [updateClient, hc]
    exact .unheard hc

lemma Move.of_cancel {id : CallId} (h : s.step? (.cancel id) = some (s', effects)) :
    Move s (.cancel id) s' effects := by
  obtain ⟨c, hc, h⟩ := Option.bind_eq_some_iff.1 h
  cases ho : c.stage.isOver with
  | true => simp [ho] at h
  | false =>
    simp [ho, updateCall, hc] at h
    obtain ⟨rfl, rfl⟩ := h
    exact .cancel hc ho

end Surroundings

/-- Every step is a move. -/
theorem Move.of_step? {l : Label} (h : s.step? l = some (s', effects)) : Move s l s' effects := by
  cases l with
  | start request =>
    simp only [step?] at h
    split at h
    · cases h
    · next hr =>
      cases h
      exact .start (by simpa using hr)
  | run task =>
    cases task with
    | attempt id => exact .of_runAttempt h
    | call id => exact .of_runCall h
    | errand call place => exact .of_runErrand h
    | pump client => exact .of_runPump h
    | timer id => exact .of_runTimer h
  | reply task reply =>
    cases task with
    | attempt id => exact .of_replyToAttempt h
    | call id => exact .of_replyToCall h
    | errand call place => exact .of_replyToErrand h
    | pump client => exact .of_replyToPump h
    | timer id => cases h
  | progress id stage package => exact .of_progress h
  | expire task => exact .of_expireTask h
  | wake timer => exact .of_wake h
  | report id event => exact .of_report h
  | publish id file found => exact .of_publish h
  | advance time =>
    simp only [step?] at h
    split at h
    · next hn =>
      cases h
      exact .advance (by simp at hn; exact hn.1.1)
    · cases h
  | cancel id => exact .of_cancel h
  | release =>
    simp only [step?] at h
    split at h
    · cases h
    · cases h
      exact .release
  | surround surroundings =>
    cases h
    exact .surround

end Steps

end State

end ServerFleet.Manager
