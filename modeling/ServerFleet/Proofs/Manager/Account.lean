import ServerFleet.Proofs.Manager.Custody
import ServerFleet.Proofs.Manager.Exclusion

/-!
What becomes of every client. A client that was connected is live, or in the hands of its attempt,
or a call has still to shut it down, or it is being shut down after an error, until it has been
shut down or has reported that it closed. The one way to lose sight of a client is to give up a
call that still has to shut it down.
-/

namespace ServerFleet.Manager

def ErrandStage.isOpen : ErrandStage → Bool
  | fresh => true
  | underway _ => true
  | _ => false

/-- A call has still to shut a client down. -/
def Call.Owes (c : Call) (client : ClientId) : Prop :=
  (∃ server enabled removed k, c.stage = .announcing server enabled removed ∧
    (k, client) ∈ removed) ∨
  ∃ answer e, c.stage = .joining answer ∧ e ∈ c.errands ∧ e.client = client ∧
    e.call = .shutdown ∧ e.stage.isOpen = true

/-- A task waits for a client to shut down. -/
inductive State.ShuttingDown (s : State) (client : ClientId) : TaskId → Prop
  | abandoning {id : AttemptId} {a : Attempt} (ha : s.attempts.find? id = some a)
      (h : a.stage = .abandoning client) : ShuttingDown s client (.attempt id)
  | discarding {id : AttemptId} {a : Attempt} (ha : s.attempts.find? id = some a)
      (h : a.stage = .discarding client) : ShuttingDown s client (.attempt id)
  | errand {id : CallId} {place : Nat} {c : Call} {e : Errand} {limit : Option Nat}
      (hc : s.calls.find? id = some c) (he : c.errands[place]? = some e)
      (hcl : e.client = client) (h : e.call = .shutdown) (hst : e.stage = .underway limit) :
      ShuttingDown s client (.errand id place)
  | pump {r : ClientRecord} (hr : s.clients.find? client = some r) (h : r.pump = .failing) :
      ShuttingDown s client (.pump client)

namespace Happening

/-- A client has shut down. -/
def EndsShutdown (x : Happening) (client : ClientId) : Prop :=
  ∃ task reply, x.label = .reply task (.client reply) ∧ x.before.ShuttingDown client task

/-- A call is given up that has still to shut a client down. -/
def GivesUp (x : Happening) (client : ClientId) : Prop :=
  ∃ id c, x.label = .cancel id ∧ x.before.calls.find? id = some c ∧ c.Owes client

end Happening

def Label.isCancel : Label → Bool
  | .cancel _ => true
  | _ => false

/-- Only who gives a call up gives its clients up. -/
theorem Happening.not_givesUp {x : Happening} (h : x.label.isCancel = false) (client : ClientId) :
    ¬ x.GivesUp client := by
  rintro ⟨id, c, hl, -⟩
  rw [hl] at h
  cases h

lemma not_givesUp_of_trace {s : State} {labels : List Label}
    (h : labels.all (!·.isCancel) = true) {x : Happening} (hx : x ∈ s.trace labels)
    (client : ClientId) : ¬ x.GivesUp client := by
  have hl := List.all_eq_true.1 h _ (State.label_mem_of_trace hx)
  exact x.not_givesUp (by simpa using hl) client

/-- A client has been shut down or has reported that it closed. -/
def Ended (run : List Happening) (client : ClientId) : Prop :=
  ∃ x ∈ run, x.EndsShutdown client ∨ x.label = .report client .closed

/-- Where a client is that has not come to its end. -/
inductive State.Keeps (s : State) (client : ClientId) : Prop
  | live {k : InstanceKey} (h : s.roster.live.find? k = some client)
  | inHand {id : AttemptId} {a : Attempt} (ha : s.attempts.find? id = some a)
      (h : a.stage.client? = some client)
  | owed {id : CallId} {c : Call} (hc : s.calls.find? id = some c) (h : c.Owes client)
  | failing {r : ClientRecord} (hr : s.clients.find? client = some r) (h : r.pump = .failing)

section Errands

def Errand.Unlimited (e : Errand) : Prop :=
  e.call = .shutdown → ∀ limit, e.stage ≠ .underway (some limit)

lemma unlimited_shutdownErrands {clients : List (InstanceKey × ClientId)} {e : Errand}
    (he : e ∈ State.shutdownErrands clients) : e.Unlimited := by
  obtain ⟨x, -, rfl⟩ := List.mem_map.1 he
  exact fun _ _ => nofun

/-- Notice is taken of one errand that has ended. -/
theorem collect_eq_some {errands rest : List Errand} {e : Errand}
    (h : Errand.collect errands = some (e, rest)) :
    ∃ place, errands[place]? = some e ∧ e.stage = .finished ∧
      rest = errands.modify place fun e => { e with stage := .collected } := by
  induction errands generalizing rest with
  | nil => cases h
  | cons e' errands ih =>
    unfold Errand.collect at h
    split at h
    · next hst =>
      cases h
      exact ⟨0, rfl, hst, rfl⟩
    · obtain ⟨⟨found, rest'⟩, hr, heq⟩ := Option.map_eq_some_iff.1 h
      cases heq
      obtain ⟨place, hp, hst, rfl⟩ := ih hr
      exact ⟨place + 1, hp, hst, rfl⟩

/-- An errand after a step of one: it is the one with its new stage, or it was there before. -/
theorem getElem?_modify_stage {errands : List Errand} {place i : Nat} {e e' : Errand}
    {stage : ErrandStage} (he : errands[place]? = some e)
    (h : (errands.modify place fun e => { e with stage })[i]? = some e') :
    i = place ∧ e' = { e with stage } ∨ i ≠ place ∧ errands[i]? = some e' := by
  rw [List.getElem?_modify] at h
  by_cases hi : place = i
  · subst hi
    rw [he] at h
    exact .inl ⟨rfl, by simpa using h.symm⟩
  · exact .inr ⟨Ne.symm hi, by simpa [hi] using h⟩

/-- A step of one errand changes a sum over all of them by what it changes of the one. -/
theorem sum_modify {f : Errand → Nat} {errands : List Errand} {place : Nat} {e : Errand}
    (he : errands[place]? = some e) (stage : ErrandStage) :
    ((errands.modify place fun e => { e with stage }).map f).sum + f e =
      (errands.map f).sum + f { e with stage } := by
  induction errands generalizing place with
  | nil => cases he
  | cons e' errands ih =>
    cases place with
    | zero =>
      cases he
      simp only [List.modify_zero_cons, List.map_cons, List.sum_cons]
      omega
    | succ place =>
      have hrest := ih he
      simp only [List.modify_succ_cons, List.map_cons, List.sum_cons]
      omega

/-- An errand after notice was taken of one: it was there before, or it is the one. -/
theorem mem_of_collect {errands rest : List Errand} {found e : Errand}
    (h : Errand.collect errands = some (found, rest)) (he : e ∈ rest) :
    e ∈ errands ∨ e.stage = .collected := by
  obtain ⟨place, hplace, -, rfl⟩ := collect_eq_some h
  obtain ⟨i, hi⟩ := List.mem_iff_getElem?.1 he
  obtain ⟨-, rfl⟩ | ⟨-, hi⟩ := getElem?_modify_stage hplace hi
  · exact .inr rfl
  · exact .inl (List.mem_of_getElem? hi)

/-- Taking notice of an errand that has ended leaves the open ones as they are. -/
theorem mem_collect {errands rest : List Errand} {found e : Errand}
    (h : Errand.collect errands = some (found, rest)) (he : e ∈ errands)
    (ho : e.stage.isOpen = true) : e ∈ rest := by
  obtain ⟨place, hplace, hst, rfl⟩ := collect_eq_some h
  obtain ⟨i, hi⟩ := List.mem_iff_getElem?.1 he
  have hne : place ≠ i := by
    rintro rfl
    cases hplace.symm.trans hi
    rw [hst] at ho
    cases ho
  exact List.mem_of_getElem? ((List.getElem?_modify_ne _ _ hne).trans hi)

lemma Errand.Goes.unlimited {call : CallId} {place : Nat} {e : Errand} {l : Label}
    {stage : ErrandStage} {effects : List Effect} (h : e.Goes call place l stage effects) :
    ({ e with stage } : Errand).Unlimited := by
  intro hc limit
  change e.call = .shutdown at hc
  cases h with
  | begin => simp [hc, State.errandTimeout]
  | reply | expire => exact nofun

end Errands

namespace State

variable {s s' : State} {l : Label} {effects : List Effect}

/-- No call has a shutdown with a time limit under way. -/
def Unlimited (s : State) : Prop :=
  ∀ id c, s.calls.find? id = some c → ∀ e ∈ c.errands, e.Unlimited

lemma CallGoes.unlimited {id : CallId} {c c' : Call} (h : s.CallGoes id c l c' effects)
    (hc : ∀ e ∈ c.errands, e.Unlimited) : ∀ e ∈ c'.errands, e.Unlimited := by
  cases h with
  | answer | finish => exact nofun
  | await =>
    intro e he
    obtain ⟨x, -, rfl⟩ := List.mem_map.1 he
    exact nofun
  | announce => exact fun e he => unlimited_shutdownErrands he
  | collect _ hcol =>
    intro e he
    obtain he | he := mem_of_collect hcol he
    · exact hc e he
    · intro _ limit
      rw [he]
      exact nofun
  | _ => exact hc

lemma unlimited_dismiss {c : Call} {server : String} {enabled changed : Bool}
    {removed : List (InstanceKey × ClientId)} (hc : ∀ e ∈ c.errands, e.Unlimited) :
    ∀ e ∈ (c.dismiss server enabled changed removed).errands, e.Unlimited := by
  cases changed with
  | true => exact hc
  | false => exact fun e he => unlimited_shutdownErrands he

lemma Unlimited.move (h : s.Unlimited) (hm : s.Move l s' effects) : s'.Unlimited := by
  -- a move that changes one call has to say something about its errands only
  have changed : ∀ {id : CallId} {c : Call}, (∀ e ∈ c.errands, e.Unlimited) →
      ∀ id' c', (s.calls.insert id c).find? id' = some c' → ∀ e ∈ c'.errands, e.Unlimited := by
    intro id c hc id' c' hf
    obtain ⟨-, rfl⟩ | ⟨-, hf⟩ := Table.find?_insert_cases hf
    · exact hc
    · exact h id' c' hf
  cases hm with
  | start | cancel => exact changed nofun
  | call hc hg => exact changed (hg.unlimited (h _ _ hc))
  | @errand id place c e _ stage _ hc _ he hg =>
    refine changed fun e' he' => ?_
    obtain ⟨i, hi⟩ := List.mem_iff_getElem?.1 he'
    by_cases hp : place = i
    · subst hp
      rw [List.getElem?_modify_eq, he] at hi
      cases hi
      exact hg.unlimited
    · rw [List.getElem?_modify_ne _ _ hp] at hi
      exact h _ _ hc _ (List.mem_of_getElem? hi)
  | reserve hc | forgetBroken hc =>
    have hu := h _ _ hc
    exact changed hu
  | enable hc | disable hc => exact changed (unlimited_dismiss (h _ _ hc))
  | forgetRetries => exact changed nofun
  | shutDown => exact changed fun e he => unlimited_shutdownErrands he
  | _ => exact h

section Owes

variable {c : Call} {k : InstanceKey} {client : ClientId} {removed : List (InstanceKey × ClientId)}

lemma owes_await {answer : Answer} (h : (k, client) ∈ removed) :
    (c.await (shutdownErrands removed) answer).Owes client :=
  .inr ⟨answer, ⟨k, client, .shutdown, .fresh⟩, rfl,
    List.mem_map.2 ⟨(k, client), h, rfl⟩, rfl, rfl, rfl⟩

lemma owes_dismiss {server : String} {enabled changed : Bool} (h : (k, client) ∈ removed) :
    (c.dismiss server enabled changed removed).Owes client := by
  cases changed with
  | true => exact .inl ⟨server, enabled, removed, k, rfl, h⟩
  | false => exact owes_await h

end Owes

/-- A client that is registered under a key is the one that is live there. -/
theorem eq_of_isRegistered {r : Roster} {k k' : InstanceKey} {client client' : ClientId}
    (hr : r.isRegistered k client = true) (hk : (k == k') = true)
    (h : r.live.find? k' = some client') : client' = client := by
  rw [← Table.find?_congr _ hk] at h
  simp only [Roster.isRegistered, h, beq_iff_eq, Option.some.injEq] at hr
  exact hr

/-- Where a client goes from where it is: it is still somewhere, or it ends now, or it is given up
now, or that it has closed is dealt with now. -/
def Goes (s : State) (l : Label) (s' : State) (effects : List Effect) (client : ClientId) : Prop :=
  s'.Keeps client ∨ (⟨s, l, effects, s'⟩ : Happening).EndsShutdown client ∨
    (⟨s, l, effects, s'⟩ : Happening).GivesUp client ∨
    ∃ r, s.clients.find? client = some r ∧ .closed ∈ r.inbox

lemma Move.goes_live (hm : s.Move l s' effects) (hc : s.Coherent) (he : s.roster.Exclusive)
    {k : InstanceKey} {client : ClientId} (h : s.roster.live.find? k = some client) :
    Goes s l s' effects client := by
  cases hm with
  | @settle id a _ _ _ ha hst hr =>
    refine .inl (.live (k := k) ?_)
    cases hr with
    | started hep =>
      -- an instance that is still being started is not live
      have hin := hc.starting_of_attempt ha (by rw [hst]; rfl) hep.symm
      have hlive := he k (Table.contains_iff.2 ⟨client, h⟩)
      have hne := Table.not_beq_of_contains (Table.contains_iff.2 ⟨id, hin⟩) hlive.not_starting
      simpa [hne] using h
    | _ => exact h
  | @disable id c server =>
    cases hk : k.serverId == server with
    | true =>
      obtain ⟨k', hk', hmem⟩ := Table.mem_entries_of_find? h
      refine .inl (.owed (Table.find?_insert_self _ _ _) (owes_dismiss (k := k') ?_))
      refine List.mem_filter.2 ⟨hmem, ?_⟩
      rw [InstanceKey.serverId_eq_of_beq hk']
      exact hk
    | false =>
      refine .inl (.live (k := k) ?_)
      simpa [hk] using h
  | shutDown =>
    obtain ⟨k', hk', hmem⟩ := Table.mem_entries_of_find? h
    exact .inl (.owed (Table.find?_insert_self _ _ _) (owes_await hmem))
  | @close id c rest hc' _ hi hreg =>
    cases hk : c.key == k with
    | true =>
      cases eq_of_isRegistered hreg hk h
      exact .inr (.inr (.inr ⟨c, hc', by rw [hi]; exact List.mem_cons_self⟩))
    | false => exact .inl (.live (k := k) (by simpa [hk] using h))
  | @fault id c rest hc' _ _ hreg =>
    cases hk : c.key == k with
    | true =>
      cases eq_of_isRegistered hreg hk h
      exact .inl (.failing (Table.find?_insert_self _ _ _) rfl)
    | false => exact .inl (.live (k := k) (by simpa [hk] using h))
  | _ => exact .inl (.live h)

lemma Move.goes_inHand (hm : s.Move l s' effects) (hc : s.Coherent) {id : AttemptId}
    {a : Attempt} {client : ClientId} (ha : s.attempts.find? id = some a)
    (h : a.stage.client? = some client) : Goes s l s' effects client := by
  have other : ∀ {id' : AttemptId} {b : Attempt}, id ≠ id' →
      (s.attempts.insert id' b).find? id = some a :=
    fun hne => (Table.find?_insert_of_ne _ hne _).trans ha
  cases hm with
  | @attempt id' b _ stage _ hb hg =>
    by_cases hid : id = id'
    · subst hid
      have new (hst : stage.client? = some client) : Goes s l
          { s with attempts := s.attempts.insert id { b with stage } } effects client :=
        .inl (.inHand (Table.find?_insert_self s.attempts id { b with stage }) hst)
      have hst := (Option.some.inj (ha.symm.trans hb)) ▸ h
      cases hg with
      | ready hs | refuse hs | expire hs =>
        rw [hs] at hst
        exact new hst
      | abandoned hs =>
        rw [hs] at hst
        cases hst
        exact .inr (.inl ⟨_, _, rfl, .abandoning hb hs⟩)
      | discarded hs =>
        rw [hs] at hst
        cases hst
        exact .inr (.inl ⟨_, _, rfl, .discarding hb hs⟩)
      | launch hs | connect hs | missing hs | launchFailed hs | connectFailed hs | announce hs =>
        rw [hs] at hst
        cases hst
    · exact .inl (.inHand (other hid) h)
  | @connected id' _ _ _ hb hst =>
    by_cases hid : id = id'
    · subst hid
      cases ha.symm.trans hb
      rw [hst] at h
      cases h
    · exact .inl (.inHand (other hid) h)
  | @settle id' b o _ x hb hst hr =>
    by_cases hid : id = id'
    · subst hid
      cases ha.symm.trans hb
      rw [hst] at h
      cases hr with
      | stale =>
        cases o with
        | ready => exact .inl (.inHand (Table.find?_insert_self _ _ _) h)
        | unavailable | failed => cases h
      | discarded => exact .inl (.inHand (Table.find?_insert_self _ _ _) h)
      | started =>
        cases h
        exact .inl (.live (k := a.key) (by simp))
      | unavailable | dropped | failed => cases h
    · exact .inl (.inHand (other hid) h)
  | reserve | retry => exact .inl (.inHand (other (Nat.ne_of_lt (hc.attempts.lt_size ha))) h)
  | _ => exact .inl (.inHand ha h)

/-- A call that owes a shutdown goes on owing it, unless it takes notice of errands only. -/
theorem CallGoes.owes {id : CallId} {c c' : Call} {client : ClientId}
    (hg : s.CallGoes id c l c' effects) (h : c.Owes client) : c'.Owes client := by
  obtain ⟨server, enabled, removed, k, hst, hmem⟩ | ⟨answer, e, hst, he, hcl, hcall, ho⟩ := h
  · cases hg with
    | announce hst' =>
      cases hst.symm.trans hst'
      exact owes_await hmem
    | answer hst' => simp [hst] at hst'
    | _ hst' => cases hst.symm.trans hst'
  · cases hg with
    | collect hst' hcol => exact .inr ⟨answer, e, hst, mem_collect hcol he ho, hcl, hcall, ho⟩
    | finish _ hall =>
      rw [hall e he] at ho
      cases ho
    | answer hst' => simp [hst] at hst'
    | _ hst' => cases hst.symm.trans hst'

/-- A call that has only just begun, or looks after other things, owes no shutdown. -/
theorem not_owes {c : Call} {client : ClientId} (ha : ∀ server enabled removed,
    c.stage ≠ .announcing server enabled removed) (hj : ∀ answer, c.stage ≠ .joining answer) :
    ¬ c.Owes client := by
  rintro (⟨server, enabled, removed, k, hst, -⟩ | ⟨answer, e, hst, -⟩)
  · exact ha _ _ _ hst
  · exact hj _ hst

/-- A step of one errand of a call leaves the others, and ends its own shutdown or goes on with
it. -/
theorem owes_errand {id : CallId} {c : Call} {place : Nat} {e : Errand} {stage : ErrandStage}
    {client : ClientId} (hc : s.calls.find? id = some c) (hu : ∀ e ∈ c.errands, e.Unlimited)
    (he : c.errands[place]? = some e) (hg : e.Goes id place l stage effects)
    (h : c.Owes client) :
    ({ c with errands := c.errands.modify place fun e => { e with stage } } : Call).Owes client ∨
      (⟨s, l, effects, s'⟩ : Happening).EndsShutdown client := by
  obtain hst | ⟨answer, e', hst, he', hcl, hcall, ho⟩ := h
  · exact .inl (.inl hst)
  obtain ⟨i, hi⟩ := List.mem_iff_getElem?.1 he'
  by_cases hp : place = i
  · subst hp
    cases he.symm.trans hi
    have hnew : (c.errands.modify place fun e => { e with stage })[place]? =
        some { e with stage } := by
      rw [List.getElem?_modify_eq, he]
      rfl
    cases hg with
    | begin =>
      exact .inl (.inr ⟨answer, _, hst, List.mem_of_getElem? hnew, hcl, hcall, rfl⟩)
    | reply hst' => exact .inr ⟨_, _, rfl, .errand hc he hcl hcall hst'⟩
    | expire hst' => exact absurd hst' (hu e he' hcall _)
  · have hkept : (c.errands.modify place fun e => { e with stage })[i]? = some e' := by
      rw [List.getElem?_modify_ne _ _ hp]
      exact hi
    exact .inl (.inr ⟨answer, e', hst, List.mem_of_getElem? hkept, hcl, hcall, ho⟩)

lemma Move.goes_owed (hm : s.Move l s' effects) (hc : s.Coherent) (hu : s.Unlimited)
    {id : CallId} {c : Call} {client : ClientId} (hid : s.calls.find? id = some c)
    (h : c.Owes client) : Goes s l s' effects client := by
  have other : ∀ {id' : CallId} {b : Call}, id ≠ id' →
      (s.calls.insert id' b).find? id = some c :=
    fun hne => (Table.find?_insert_of_ne _ hne _).trans hid
  cases hm with
  | start => exact .inl (.owed (other (Nat.ne_of_lt (hc.calls.lt_size hid))) h)
  | @cancel id' b hb =>
    by_cases he : id = id'
    · subst he
      cases hid.symm.trans hb
      exact .inr (.inr (.inl ⟨id, c, rfl, hid, h⟩))
    · exact .inl (.owed (other he) h)
  | @call id' b b' _ _ hb hg =>
    by_cases he : id = id'
    · subst he
      have hb' := (Option.some.inj (hid.symm.trans hb)) ▸ h
      exact .inl (.owed (Table.find?_insert_self _ _ _) (hg.owes hb'))
    · exact .inl (.owed (other he) h)
  | @errand id' place b e _ stage _ hb _ hp hg =>
    by_cases he : id = id'
    · subst he
      cases hid.symm.trans hb
      obtain ho | he := owes_errand hid (hu _ _ hid) hp hg h
      · exact .inl (.owed (Table.find?_insert_self _ _ _) ho)
      · exact .inr (.inl he)
    · exact .inl (.owed (other he) h)
  | @reserve id' b _ _ _ hb hst | @enable id' b _ hb hst | @disable id' b _ hb hst
  | @forgetBroken id' b _ hb hst | @forgetRetries id' b _ _ hb hst | @shutDown id' b hb hst =>
    by_cases he : id = id'
    · subst he
      cases hid.symm.trans hb
      exact absurd h (not_owes (by simp [hst]) (by simp [hst]))
    · exact .inl (.owed (other he) h)
  | _ => exact .inl (.owed hid h)

lemma Move.goes_failing (hm : s.Move l s' effects) (hc : s.Coherent) {client : ClientId}
    {r : ClientRecord} (hr : s.clients.find? client = some r) (h : r.pump = .failing) :
    Goes s l s' effects client := by
  have other : ∀ {id : ClientId} {b : ClientRecord}, client ≠ id →
      (s.clients.insert id b).find? client = some r :=
    fun hne => (Table.find?_insert_of_ne _ hne _).trans hr
  cases hm with
  | connected => exact .inl (.failing (other (Nat.ne_of_lt (hc.clients.lt_size hr))) h)
  | @client id b b' _ _ hb hg =>
    by_cases he : client = id
    · subst he
      have hp := (Option.some.inj (hr.symm.trans hb)) ▸ h
      cases hg with
      | report | publish => exact .inl (.failing (Table.find?_insert_self _ _ _) hp)
      | failed => exact .inr (.inl ⟨_, _, rfl, .pump hr h⟩)
      | forward hp' | announce hp' => cases hp.symm.trans hp'
    · exact .inl (.failing (other he) h)
  | @deafen id b hb hp | @ignore id b _ _ hb hp | @close id b _ hb hp | @fault id b _ hb hp =>
    by_cases he : client = id
    · subst he
      cases hr.symm.trans hb
      cases h.symm.trans hp
    · exact .inl (.failing (other he) h)
  | _ => exact .inl (.failing hr h)

/-- Every client that is somewhere stays somewhere until it ends or is given up. -/
theorem Move.goes (hm : s.Move l s' effects) (hc : s.Coherent) (he : s.roster.Exclusive)
    (hu : s.Unlimited) {client : ClientId} (h : s.Keeps client) : Goes s l s' effects client := by
  cases h with
  | live h => exact hm.goes_live hc he h
  | inHand ha h => exact hm.goes_inHand hc ha h
  | owed hid h => exact hm.goes_owed hc hu hid h
  | failing hr h => exact hm.goes_failing hc hr h

/-- A client that was not there is in the hands of its attempt. -/
theorem Move.keeps_new (hm : s.Move l s' effects) {client : ClientId}
    (hn : s.clients.contains client = false) (h : s'.clients.contains client = true) :
    s'.Keeps client := by
  have changed : ∀ {id : ClientId} {c b : ClientRecord}, s.clients.find? id = some c →
      (s.clients.insert id b).contains client = true → s'.Keeps client := by
    intro id c b hc h
    rw [Table.contains_insert, hn, Bool.or_false, beq_iff_eq] at h
    subst h
    rw [Table.contains_eq_false, hc] at hn
    cases hn
  cases hm with
  | connected =>
    rw [Table.contains_insert, hn, Bool.or_false, beq_iff_eq] at h
    subst h
    exact .inHand (Table.find?_insert_self _ _ _) rfl
  | client hc | deafen hc | ignore hc | close hc | fault hc => exact changed hc h
  | _ => exact absurd (hn.symm.trans h) Bool.false_ne_true

/-- What a client has in its inbox was there before, or it reports it now. -/
theorem Move.closed_of (hm : s.Move l s' effects) {client : ClientId} {r : ClientRecord}
    (hr : s'.clients.find? client = some r) (h : .closed ∈ r.inbox) :
    (∃ r', s.clients.find? client = some r' ∧ .closed ∈ r'.inbox) ∨
      l = .report client .closed := by
  cases hm with
  | connected =>
    obtain ⟨-, rfl⟩ | ⟨-, hr⟩ := Table.find?_insert_cases hr
    · cases h
    · exact .inl ⟨r, hr, h⟩
  | client hc hg =>
    obtain ⟨rfl, rfl⟩ | ⟨-, hr⟩ := Table.find?_insert_cases hr
    · cases hg with
      | report =>
        obtain h | h := List.mem_append.1 h
        · exact .inl ⟨_, hc, h⟩
        · cases List.mem_singleton.1 h
          exact .inr rfl
      | forward _ hi => exact .inl ⟨_, hc, by rw [hi]; exact List.mem_cons_of_mem _ h⟩
      | publish | failed | announce => exact .inl ⟨_, hc, h⟩
    · exact .inl ⟨r, hr, h⟩
  | deafen hc =>
    obtain ⟨-, rfl⟩ | ⟨-, hr⟩ := Table.find?_insert_cases hr
    · cases h
    · exact .inl ⟨r, hr, h⟩
  | ignore hc _ hi | close hc _ hi | fault hc _ hi =>
    obtain ⟨rfl, rfl⟩ | ⟨-, hr⟩ := Table.find?_insert_cases hr
    · exact .inl ⟨_, hc, by rw [hi]; exact List.mem_cons_of_mem _ h⟩
    · exact .inl ⟨r, hr, h⟩
  | _ => exact .inl ⟨r, hr, h⟩

end State

section Runs

variable {settings : Settings} {surroundings : Surroundings} {delays : List Nat}
  {disabled : List String} {run : List Happening} {s : State}

lemma Ended.append_left {client : ClientId} (h : Ended run client) (later : List Happening) :
    Ended (run ++ later) client := by
  obtain ⟨x, hx, hend⟩ := h
  exact ⟨x, List.mem_append_left _ hx, hend⟩

lemma Run.unlimited (h : Run (.create settings surroundings delays disabled) run s) :
    s.Unlimited :=
  h.invariant (fun _ _ hf => nomatch hf) State.Unlimited.move

/-- What is in an inbox was reported in the run. -/
theorem Run.closed (h : Run (.create settings surroundings delays disabled) run s)
    {client : ClientId} {r : ClientRecord} (hr : s.clients.find? client = some r)
    (hi : .closed ∈ r.inbox) : ∃ x ∈ run, x.label = .report client .closed := by
  induction h generalizing r with
  | start => cases hr
  | next _ hn ih =>
    obtain ⟨r', hr', hi'⟩ | hl := hn.move.closed_of hr hi
    · obtain ⟨x, hx, hl⟩ := ih hr' hi'
      exact ⟨x, List.mem_append_left _ hx, hl⟩
    · exact ⟨_, List.mem_append_right _ (List.mem_singleton.2 rfl), hl⟩

/-- Every client that was connected is somewhere, or it has ended, or it was given up. -/
theorem Run.accounts (h : Run (.create settings surroundings delays disabled) run s)
    {client : ClientId} (hc : s.clients.contains client = true) :
    s.Keeps client ∨ Ended run client ∨ ∃ x ∈ run, x.GivesUp client := by
  have hcreate := State.coherent_create settings surroundings delays disabled
  induction h with
  | start => cases hc
  | @next run t u l effects h hn ih =>
    cases hold : t.clients.contains client with
    | false => exact .inl (hn.move.keeps_new hold hc)
    | true =>
      obtain hk | he | ⟨x, hx, hg⟩ := ih hold
      · have hex := h.exclusive hcreate (State.exclusive_create _ _ _ _)
        have now : (⟨t, l, effects, u⟩ : Happening) ∈ run ++ [⟨t, l, effects, u⟩] := by simp
        obtain hk | he | hg | ⟨r, hr, hi⟩ := hn.move.goes (h.coherent hcreate) hex h.unlimited hk
        · exact .inl hk
        · exact .inr (.inl ⟨_, now, .inl he⟩)
        · exact .inr (.inr ⟨_, now, hg⟩)
        · obtain ⟨x, hx, hl⟩ := h.closed hr hi
          exact .inr (.inl ⟨x, List.mem_append_left _ hx, .inr hl⟩)
      · exact .inr (.inl (he.append_left _))
      · exact .inr (.inr ⟨x, List.mem_append_left _ hx, hg⟩)

end Runs

end ServerFleet.Manager
