import ServerFleet.Proofs.Manager.Status
import ServerFleet.Proofs.Manager.Succession
import ServerFleet.Proofs.Manager.Timing
import ServerFleet.Proofs.Retry.Entry

/-!
What the steps of a manager do to single instances. A step that is done under the lock of the roster
does one deed, and a deed concerns one instance or the instances of one server. It acts on each of
these as on an instance that stands alone, and leaves the others as they are.
-/

namespace ServerFleet

namespace RetryScheduler

variable {α : Type u} {s t : RetryScheduler α} {k : InstanceKey}

def awake? (s : RetryScheduler α) (id : Nat) : Option (Sleeper α) :=
  s.sleepers.find? fun x => x.id == id && x.awake

/-- A timer that is awake can end. -/
theorem isSome_unhook? {id : Nat} (h : (s.awake? id).isSome = true) :
    (s.unhook? id).isSome = true := by
  obtain ⟨x, hx⟩ := Option.isSome_iff_exists.1 h
  unfold awake? at hx
  unfold unhook?
  rw [hx]
  dsimp only
  split
  · split <;> rfl
  · rfl

/-- A timer that ends does what it was set up for if its record names it. -/
theorem unhook?_awake {id : Nat} {x : Sleeper α} {o : Option (Sleeper α)}
    (hx : s.awake? id = some x) (hu : s.unhook? id = some (t, o)) :
    o = if s.timer? x.key = some id then some x else none := by
  unfold awake? at hx
  unfold unhook? at hu
  rw [hx] at hu
  dsimp only at hu
  unfold timer?
  split at hu
  · next record hr =>
    rw [hr, Option.bind_some]
    split at hu <;> cases hu <;> simp [*]
  · next hr =>
    cases hu
    simp [hr]

/-- A timer that ends takes nothing from the instances but what is pending for its own. -/
theorem Sound.unhook?_eq (h : s.Sound) {id : Nat} {x : Sleeper α} {o : Option (Sleeper α)}
    (hx : s.awake? id = some x) (hu : s.unhook? id = some (t, o)) (k : InstanceKey) :
    (t.timer? k = if x.key == k && s.timer? x.key == some id then none else s.timer? k) ∧
      t.entryOf k = if x.key == k && s.timer? x.key == some id then
        (s.entryOf k).map ({ · with pending := none }) else s.entryOf k := by
  have ho := unhook?_awake hx hu
  by_cases hname : s.timer? x.key = some id
  · rw [if_pos hname] at ho
    subst ho
    rw [h.entryOf_started hu k]
    obtain ⟨-, -, ⟨hn, -⟩ | ⟨y, hy, -, -, -, ht⟩⟩ := unhook?_cases h hu
    · cases hn
    · cases hy
      simp [ht, hname]
  · rw [if_neg hname] at ho
    subst ho
    rw [h.entryOf_lapsed hu k]
    obtain ⟨-, -, ⟨-, ht, -⟩ | ⟨y, hy, -⟩⟩ := unhook?_cases h hu
    · simp [ht, hname]
    · cases hy

lemma entryOf_congr {k k' : InstanceKey} (h : (k == k') = true) : s.entryOf k = s.entryOf k' := by
  unfold entryOf due?
  rw [Table.find?_congr _ h, timer?_congr h]

end RetryScheduler

namespace Manager

/-- An instance as a manager knows it. An attempt stands for itself here, whatever its number. -/
@[ext]
structure InstanceView where
  live : Option ClientId
  starting : Option Attempt
  broken : Option BrokenCause
  /-- Whether its server is left out by routing. -/
  disabled : Bool
  retries : Option (RetryEntry RetryPlan)

/-- What a step does under the lock of the roster. -/
inductive Deed where
  /-- A call looks an instance up and reserves an attempt if there is nothing to join. -/
  | seek (k : InstanceKey)
  /-- The outcome of an attempt that was reserved in an epoch is entered. -/
  | settle (k : InstanceKey) (epoch : Nat) (o : Outcome)
  /-- The end of a client is handled. -/
  | close (k : InstanceKey) (client : ClientId)
  /-- The error of a client is handled. -/
  | fault (k : InstanceKey) (client : ClientId)
  /-- A timer ends, which the record of its instance may still name. -/
  | unhook (k : InstanceKey) (named : Bool)
  /-- A retry whose timer has ended begins its attempt if that is still wanted. -/
  | retry (plan : RetryPlan)
  /-- A server is enabled or disabled, if the registry knows it. -/
  | switch (server : String) (enabled known : Bool)
  /-- The first half of a reset. -/
  | forgetBroken (server : String)
  /-- The second half of a reset. -/
  | forgetRetries (server : String)

namespace Deed

/-- Whether a deed is about an instance or about its server. -/
def concerns : Deed → InstanceKey → Bool
  | seek k, k' => k == k'
  | settle k _ _, k' => k == k'
  | close k _, k' => k == k'
  | fault k _, k' => k == k'
  | unhook k _, k' => k == k'
  | retry plan, k' => plan.key == k'
  | switch server _ _, k' => k'.serverId == server
  | forgetBroken server, k' => k'.serverId == server
  | forgetRetries server, k' => k'.serverId == server

/-- What a deed makes of an instance that it concerns. -/
def act (epoch now : Nat) (delays : List Nat) : Deed → InstanceView → InstanceView
  | seek k, v =>
    if v.disabled || v.broken.isSome || v.live.isSome || v.starting.isSome then v
    else { v with starting := some ⟨k, epoch, false, .reserved, none⟩ }
  | settle k reserved o, v =>
    if epoch ≠ reserved then v
    else
      match o with
      | .ready client =>
        if v.disabled then { v with starting := none }
        else { v with live := some client, starting := none, broken := none, retries := none }
      | .unavailable => { v with starting := none, broken := none, retries := none }
      | .failed =>
        let v := { v with starting := none, broken := some .failedAttempt }
        if v.disabled then v
        else { v with retries := some ((v.retries.getD ⟨0, none⟩).schedule delays now ⟨k, epoch⟩) }
  | close _ client, v => if v.live = some client then { v with live := none } else v
  | fault _ client, v =>
    if v.live = some client then { v with live := none, broken := some .clientError } else v
  | unhook _ named, v =>
    if named then { v with retries := v.retries.map ({ · with pending := none }) } else v
  | retry plan, v =>
    if epoch ≠ plan.epoch || v.disabled || v.live.isSome || v.starting.isSome then v
    else { v with starting := some ⟨plan.key, epoch, true, .reserved, none⟩ }
  | switch _ enabled known, v =>
    if !known then v
    else if enabled then { v with disabled := false }
    else { v with live := none, disabled := true }
  | forgetBroken _, v => { v with broken := none }
  | forgetRetries _, v => { v with retries := none }

end Deed

namespace State

def view (s : State) (k : InstanceKey) : InstanceView where
  live := s.roster.live.find? k
  starting := (s.roster.starting.find? k).bind s.attempts.find?
  broken := s.roster.broken.find? k
  disabled := s.roster.isDisabled k.serverId
  retries := s.roster.retries.entryOf k

lemma view_congr (s : State) {k k' : InstanceKey} (h : (k == k') = true) :
    s.view k = s.view k' := by
  unfold view
  rw [Table.find?_congr _ h, Table.find?_congr _ h, Table.find?_congr _ h,
    InstanceKey.serverId_eq_of_beq h, RetryScheduler.entryOf_congr h]

/-- The steps that do a deed. -/
inductive Does (s : State) : Label → Deed → Prop
  | seek {id : CallId} {c : Call} {k : InstanceKey} {left : List ServerDefinition}
      {found : List ClientId} (hc : s.calls.find? id = some c)
      (h : c.stage = .admitting k left found) : Does s (.run (.call id)) (.seek k)
  | settle {id : AttemptId} {a : Attempt} {o : Outcome} (ha : s.attempts.find? id = some a)
      (h : a.stage = .concluded o) : Does s (.run (.attempt id)) (.settle a.key a.epoch o)
  | close {id : ClientId} {r : ClientRecord} {rest : List ClientEvent}
      (hr : s.clients.find? id = some r) (hp : r.pump = .idle) (hi : r.inbox = .closed :: rest) :
      Does s (.run (.pump id)) (.close r.key id)
  | fault {id : ClientId} {r : ClientRecord} {rest : List ClientEvent}
      (hr : s.clients.find? id = some r) (hp : r.pump = .idle) (hi : r.inbox = .error :: rest) :
      Does s (.run (.pump id)) (.fault r.key id)
  | unhook {timer : Nat} {x : Sleeper RetryPlan} (hf : s.fired.find? (·.1 = timer) = none)
      (hx : s.roster.retries.awake? timer = some x) :
      Does s (.run (.timer timer)) (.unhook x.key (s.roster.retries.timer? x.key == some timer))
  | retry {timer n : Nat} {plan : RetryPlan} (hf : s.fired.find? (·.1 = timer) = some (n, plan)) :
      Does s (.run (.timer timer)) (.retry plan)
  | switch {id : CallId} {c : Call} {server : String} {enabled : Bool}
      (hc : s.calls.find? id = some c) (h : c.stage = .entering)
      (hr : c.request = .setServerEnabled server enabled) :
      Does s (.run (.call id)) (.switch server enabled (s.settings.registry.contains server))
  | forgetBroken {id : CallId} {c : Call} {server : String} (hc : s.calls.find? id = some c)
      (h : c.stage = .entering) (hr : c.request = .resetServer server) :
      Does s (.run (.call id)) (.forgetBroken server)
  | forgetRetries {id : CallId} {c : Call} {server : String} {cleared : Nat}
      (hc : s.calls.find? id = some c) (h : c.stage = .forgetting server cleared) :
      Does s (.run (.call id)) (.forgetRetries server)

variable {s t : State} {l : Label} {d d' : Deed} {effects : List Effect} {k : InstanceKey}

/-- A step does one deed. -/
theorem Does.unique (h : s.Does l d) (h' : s.Does l d') : d = d' := by
  cases h <;> cases h' <;> simp_all

/-- What a deed makes of an instance in a state. -/
def act (s : State) (d : Deed) (v : InstanceView) : InstanceView :=
  d.act s.roster.epoch s.now s.roster.retries.delays v

/-- How the roster and the attempts go on with a deed. -/
inductive Enters (s t : State) : Deed → Prop
  | keep {d : Deed} (hr : t.roster = s.roster) (ha : t.attempts = s.attempts)
      (h : s.isAlive = true → ∀ k, d.concerns k = true → s.act d (s.view k) = s.view k) :
      Enters s t d
  | reserve {k : InstanceKey} (hb : (s.roster.isDisabled k.serverId ||
        s.roster.broken.contains k) = false) (hl : s.roster.live.find? k = none)
      (hs : s.roster.starting.find? k = none)
      (hr : t.roster = { s.roster with
        starting := s.roster.starting.insert k s.attempts.size })
      (ha : t.attempts = s.attempts.insert s.attempts.size
        ⟨k, s.roster.epoch, false, .reserved, none⟩) : Enters s t (.seek k)
  | retry {plan : RetryPlan} (he : s.roster.epoch = plan.epoch)
      (hd : s.roster.isDisabled plan.key.serverId = false)
      (hl : s.roster.live.find? plan.key = none) (hs : s.roster.starting.find? plan.key = none)
      (hr : t.roster = { s.roster with
        starting := s.roster.starting.insert plan.key s.attempts.size })
      (ha : t.attempts = s.attempts.insert s.attempts.size
        ⟨plan.key, s.roster.epoch, true, .reserved, none⟩) : Enters s t (.retry plan)
  | settle {id : AttemptId} {a : Attempt} {o : Outcome} {x : Settlement}
      (hf : s.attempts.find? id = some a) (hst : a.stage = .concluded o)
      (hr : s.roster.Settles s.now a.key a.epoch o t.roster x)
      (ha : t.attempts = s.attempts.insert id
        { a with stage := x.stage, published := some x.published }) :
      Enters s t (.settle a.key a.epoch o)
  | close {k : InstanceKey} {client : ClientId} (h : s.roster.live.find? k = some client)
      (hr : t.roster = { s.roster with live := s.roster.live.erase k })
      (ha : t.attempts = s.attempts) : Enters s t (.close k client)
  | fault {k : InstanceKey} {client : ClientId} (h : s.roster.live.find? k = some client)
      (hr : t.roster = { s.roster with
        live := s.roster.live.erase k
        broken := s.roster.broken.insert k .clientError })
      (ha : t.attempts = s.attempts) : Enters s t (.fault k client)
  | unhook {timer : Nat} {x : Sleeper RetryPlan} {retries : RetryScheduler RetryPlan}
      {sleeper : Option (Sleeper RetryPlan)} (hx : s.roster.retries.awake? timer = some x)
      (hu : s.roster.retries.unhook? timer = some (retries, sleeper))
      (hr : t.roster = { s.roster with retries }) (ha : t.attempts = s.attempts) :
      Enters s t (.unhook x.key (s.roster.retries.timer? x.key == some timer))
  | switch {server : String} {enabled : Bool}
      (hr : t.roster = if enabled then (s.roster.enable server).1 else (s.roster.disable server).1)
      (ha : t.attempts = s.attempts) : Enters s t (.switch server enabled true)
  | forgetBroken {server : String} (hr : t.roster = (s.roster.forgetBroken server).1)
      (ha : t.attempts = s.attempts) : Enters s t (.forgetBroken server)
  | forgetRetries {server : String} (hr : t.roster = s.roster.forgetRetries server)
      (ha : t.attempts = s.attempts) : Enters s t (.forgetRetries server)

/-- A deed that finds an instance in the state that it is to bring about changes nothing. -/
theorem Enters.of_keep {key : InstanceKey} (hd : ∀ k, d.concerns k = true → (key == k) = true)
    (hr : t.roster = s.roster) (ha : t.attempts = s.attempts)
    (h : s.isAlive = true → s.act d (s.view key) = s.view key) : s.Enters t d := by
  refine .keep hr ha fun halive k hk => ?_
  rw [← s.view_congr (hd k hk)]
  exact h halive

section Calls

variable {id : CallId} {c : Call} (hc : s.calls.find? id = some c)
include hc

lemma enters_seek (hn : s.Coherent) {left : List ServerDefinition} {found : List ClientId}
    (hst : c.stage = .admitting k left found) :
    ∃ t effects, s.step? (.run (.call id)) = some (t, effects) ∧ s.Enters t (.seek k) := by
  have hrun : s.step? (.run (.call id)) = some (s.enlist id k left found) := by
    show s.runCall id = _
    simp [runCall, hc, hst]
  have keep (stage : CallStage) (hv : ((s.view k).disabled || (s.view k).broken.isSome ||
      (s.view k).live.isSome || (s.view k).starting.isSome) = true) :
      s.Enters (s.goTo id stage).1 (.seek k) := by
    rw [goTo_eq hc]
    exact .of_keep (fun _ hk => hk) rfl rfl fun _ => if_pos hv
  rw [hrun]
  unfold enlist Roster.enlist
  cases hb : s.roster.isDisabled k.serverId || s.roster.broken.contains k with
  | true =>
    have hb' : ((s.view k).disabled || (s.view k).broken.isSome) = true := hb
    exact ⟨_, _, rfl, keep _ (by rw [hb']; rfl)⟩
  | false =>
    cases hl : s.roster.live.find? k with
    | some client => exact ⟨_, _, rfl, keep _ (by simp [view, hl])⟩
    | none =>
      cases hs : s.roster.starting.find? k with
      | some attempt =>
        obtain ⟨a, ha, -⟩ := hn.starting.1 hs
        exact ⟨_, _, rfl, keep _ (by simp [view, hs, ha])⟩
      | none =>
        refine ⟨_, _, rfl, .reserve hb hl hs ?_ ?_⟩
        · simp [updateCall, addAttempt, hc]
        · simp [updateCall, addAttempt, hc]

lemma enters_switch {server : String} {enabled : Bool} (hst : c.stage = .entering)
    (hr : c.request = .setServerEnabled server enabled) :
    ∃ t effects, s.step? (.run (.call id)) = some (t, effects) ∧
      s.Enters t (.switch server enabled (s.settings.registry.contains server)) := by
  have hrun : s.step? (.run (.call id)) = some (s.enter id (.setServerEnabled server enabled)) := by
    show s.runCall id = _
    simp [runCall, hc, hst, hr]
  rw [hrun]
  refine ⟨_, _, rfl, ?_⟩
  dsimp only
  cases hk : s.settings.registry.contains server with
  | false =>
    rw [finish_eq hc]
    exact .keep rfl rfl fun _ _ _ => rfl
  | true =>
    cases enabled with
    | true =>
      have hd := @dismiss_eq { s with roster := (s.roster.enable server).1 } id c hc server true
        (s.roster.enable server).2 []
      simp only [if_true]
      rw [hd]
      exact .switch rfl rfl
    | false =>
      have hd := @dismiss_eq { s with roster := (s.roster.disable server).1 } id c hc server false
        (s.roster.disable server).2.1 (s.roster.disable server).2.2
      simp only [Bool.false_eq_true, if_false]
      rw [hd]
      exact .switch rfl rfl

lemma enters_forgetBroken {server : String} (hst : c.stage = .entering)
    (hr : c.request = .resetServer server) :
    ∃ t effects, s.step? (.run (.call id)) = some (t, effects) ∧
      s.Enters t (.forgetBroken server) := by
  have hrun : s.step? (.run (.call id)) = some (s.enter id (.resetServer server)) := by
    show s.runCall id = _
    simp [runCall, hc, hst, hr]
  rw [hrun]
  refine ⟨_, _, rfl, ?_⟩
  simp only [updateCall, hc]
  exact .forgetBroken rfl rfl

lemma enters_forgetRetries {server : String} {cleared : Nat}
    (hst : c.stage = .forgetting server cleared) :
    ∃ t effects, s.step? (.run (.call id)) = some (t, effects) ∧
      s.Enters t (.forgetRetries server) := by
  have hrun : s.step? (.run (.call id)) =
      some (State.finish { s with roster := s.roster.forgetRetries server } id
        (.count cleared)) := by
    show s.runCall id = _
    simp [runCall, hc, hst]
  rw [hrun]
  refine ⟨_, _, rfl, ?_⟩
  simp only [updateCall, hc]
  exact .forgetRetries rfl rfl

end Calls

section Clients

variable {client : ClientId} {r : ClientRecord} {rest : List ClientEvent}
  (hc : s.clients.find? client = some r) (hp : r.pump = .idle)
include hc hp

lemma enters_close (hi : r.inbox = .closed :: rest) :
    ∃ t effects, s.step? (.run (.pump client)) = some (t, effects) ∧
      s.Enters t (.close r.key client) := by
  cases ha : s.isAlive with
  | false =>
    refine ⟨_, _, step?_deafen hc hp hi ha, .keep rfl rfl fun h => ?_⟩
    cases ha.symm.trans h
  | true =>
    by_cases hl : s.roster.live.find? r.key = some client
    · exact ⟨_, _, step?_close hc hp hi ha hl, .close hl rfl rfl⟩
    · exact ⟨_, _, step?_ignore hc hp hi .closed ha hl,
        .of_keep (fun _ hk => hk) rfl rfl fun _ => if_neg hl⟩

lemma enters_fault (hi : r.inbox = .error :: rest) :
    ∃ t effects, s.step? (.run (.pump client)) = some (t, effects) ∧
      s.Enters t (.fault r.key client) := by
  cases ha : s.isAlive with
  | false =>
    refine ⟨_, _, step?_deafen hc hp hi ha, .keep rfl rfl fun h => ?_⟩
    cases ha.symm.trans h
  | true =>
    by_cases hl : s.roster.live.find? r.key = some client
    · exact ⟨_, _, step?_fault hc hp hi ha hl, .fault hl rfl rfl⟩
    · exact ⟨_, _, step?_ignore hc hp hi .error ha hl,
        .of_keep (fun _ hk => hk) rfl rfl fun _ => if_neg hl⟩

end Clients

lemma enters_settle {id : AttemptId} {a : Attempt} {o : Outcome}
    (ha : s.attempts.find? id = some a) (hst : a.stage = .concluded o) :
    ∃ t effects, s.step? (.run (.attempt id)) = some (t, effects) ∧
      s.Enters t (.settle a.key a.epoch o) := by
  have hrun : s.step? (.run (.attempt id)) = some (s.settleAttempt id a o) := by
    show s.runAttempt id = _
    simp [runAttempt, ha, hst]
  rw [hrun, settleAttempt_eq ha rfl]
  exact ⟨_, _, rfl, .settle ha hst (.of_settle _ _ _ _ _) rfl⟩

lemma enters_unhook {timer : Nat} {x : Sleeper RetryPlan}
    (hf : s.fired.find? (·.1 = timer) = none) (hx : s.roster.retries.awake? timer = some x) :
    ∃ t effects, s.step? (.run (.timer timer)) = some (t, effects) ∧
      s.Enters t (.unhook x.key (s.roster.retries.timer? x.key == some timer)) := by
  obtain ⟨⟨retries, sleeper⟩, hu⟩ := Option.isSome_iff_exists.1
    (RetryScheduler.isSome_unhook? (s := s.roster.retries) (Option.isSome_iff_exists.2 ⟨x, hx⟩))
  have hrun : s.step? (.run (.timer timer)) = some ({ s with
      roster := { s.roster with retries }
      fired := s.fired ++ sleeper.toList.map fun y => (timer, y.action) }, []) := by
    show s.runTimer timer = _
    cases sleeper <;> simp [runTimer, hf, hu]
  exact ⟨_, _, hrun, .unhook hx hu rfl rfl⟩

lemma runTimer_fired {timer n : Nat} {plan : RetryPlan}
    (hf : s.fired.find? (·.1 = timer) = some (n, plan)) :
    s.runTimer timer =
      let left := { s with fired := s.fired.filter (·.1 ≠ timer) }
      if s.isAlive = false then some (left, [])
      else if (s.roster.retry plan s.attempts.size).2 then
        some ({ left.addAttempt plan.key true with
          roster := (s.roster.retry plan s.attempts.size).1 }, [])
      else some (left, []) := by
  unfold runTimer
  rw [hf]
  show (if (!s.isAlive) = true then _ else _) = _
  cases s.isAlive <;> rfl

lemma enters_retry {timer n : Nat} {plan : RetryPlan} (hn : s.Coherent)
    (hf : s.fired.find? (·.1 = timer) = some (n, plan)) :
    ∃ t effects, s.step? (.run (.timer timer)) = some (t, effects) ∧ s.Enters t (.retry plan) := by
  have hrun : s.step? (.run (.timer timer)) = s.runTimer timer := rfl
  rw [hrun, runTimer_fired hf]
  dsimp only
  split
  · next ha =>
    refine ⟨_, _, rfl, .keep rfl rfl fun h => ?_⟩
    cases ha.symm.trans h
  split
  · next hb =>
    obtain ⟨he, hd, hl, hs, hroster⟩ := begun_retry hb
    exact ⟨_, _, rfl, .retry he hd (Table.contains_eq_false.1 hl) (Table.contains_eq_false.1 hs)
      hroster rfl⟩
  · next hb =>
    refine ⟨_, _, rfl, .of_keep (fun _ hk => hk) rfl rfl fun _ => if_pos ?_⟩
    obtain he | hd | hl | hs := not_begun_retry (by simpa using hb)
    · simp [he]
    · simp [view, hd]
    · obtain ⟨client, hl⟩ := Table.contains_iff.1 hl
      simp [view, hl]
    · obtain ⟨id, hs⟩ := Table.contains_iff.1 hs
      obtain ⟨a, ha, -⟩ := hn.starting.1 hs
      simp [view, hs, ha]

/-- The step of a deed can always happen. -/
theorem Does.enters (hd : s.Does l d) (h : s.Coherent) :
    ∃ t effects, s.step? l = some (t, effects) ∧ s.Enters t d := by
  cases hd with
  | seek hc hst => exact enters_seek hc h hst
  | settle ha hst => exact enters_settle ha hst
  | close hr hp hi => exact enters_close hr hp hi
  | fault hr hp hi => exact enters_fault hr hp hi
  | unhook hf hx => exact enters_unhook hf hx
  | retry hf => exact enters_retry h hf
  | switch hc hst hr => exact enters_switch hc hst hr
  | forgetBroken hc hst hr => exact enters_forgetBroken hc hst hr
  | forgetRetries hc hst => exact enters_forgetRetries hc hst

/-- An instance is as it was, down to the numbers of its attempt and its timer. -/
structure Leaves (s t : State) (k : InstanceKey) : Prop where
  live : t.roster.live.find? k = s.roster.live.find? k
  starting : t.roster.starting.find? k = s.roster.starting.find? k
  broken : t.roster.broken.find? k = s.roster.broken.find? k
  disabled : t.roster.isDisabled k.serverId = s.roster.isDisabled k.serverId
  timer : t.roster.retries.timer? k = s.roster.retries.timer? k
  retries : t.roster.retries.entryOf k = s.roster.retries.entryOf k

lemma Leaves.of_roster (h : t.roster = s.roster) : s.Leaves t k := by
  constructor <;> rw [h]

/-- A call on the retries leaves the instances that it does not displace. -/
theorem Leaves.of_perform {c : RetryCall RetryPlan} (h : s.roster.retries.Sound)
    (hr : t.roster.retries = (s.roster.retries.perform s.now c).1)
    (hd : s.roster.retries.displaces k c = false)
    (he : ∀ e, RetryEntry.call s.roster.retries.delays s.now k e c = e)
    (hl : t.roster.live.find? k = s.roster.live.find? k)
    (hs : t.roster.starting.find? k = s.roster.starting.find? k)
    (hb : t.roster.broken.find? k = s.roster.broken.find? k)
    (hdis : t.roster.isDisabled k.serverId = s.roster.isDisabled k.serverId) : s.Leaves t k where
  live := hl
  starting := hs
  broken := hb
  disabled := hdis
  timer := by
    rw [hr]
    exact RetryScheduler.timer?_perform hd
  retries := by
    rw [hr]
    exact (h.entryOf_perform s.now c k).trans (he _)

/-- Entering the outcome of an attempt leaves the other instances. -/
theorem leaves_settle (h : s.Timed) {epoch : Nat} {key : InstanceKey} {o : Outcome}
    {x : Settlement} (hr : s.roster.Settles s.now key epoch o t.roster x)
    (hk : (key == k) = false) :
    s.Leaves t k := by
  generalize hroster : t.roster = roster at hr
  cases hr with
  | stale => exact .of_roster hroster
  | discarded | dropped => constructor <;> simp [hroster, hk, Roster.isDisabled]
  | started | unavailable =>
    refine .of_perform (c := .clear key) h.sound (by rw [hroster]; rfl) hk ?_ ?_ ?_ ?_ ?_ <;>
      simp [hroster, hk, RetryEntry.call, Roster.isDisabled]
  | failed =>
    refine .of_perform (c := .schedule key ⟨key, s.roster.epoch⟩) h.sound (by rw [hroster]; rfl)
      ?_ ?_ ?_ ?_ ?_ ?_ <;>
      simp [hroster, hk, RetryEntry.call, RetryScheduler.displaces, Roster.isDisabled]

/-- A deed leaves the instances that it does not concern. -/
theorem Enters.leaves (h : s.Enters t d) (ht : s.Timed) (hk : d.concerns k = false) :
    s.Leaves t k := by
  cases h with
  | keep hr => exact .of_roster hr
  | reserve _ _ _ hr | retry _ _ _ _ hr =>
    have hne : (_ == k) = false := hk
    constructor <;> simp [hr, hne, Roster.isDisabled]
  | settle _ _ hr => exact leaves_settle ht hr hk
  | close _ hr | fault _ hr =>
    have hne : (_ == k) = false := hk
    constructor <;> simp [hr, hne, Roster.isDisabled]
  | @unhook _ x _ _ hx hu hr =>
    have hne : (x.key == k) = false := hk
    obtain ⟨htimer, hentry⟩ := ht.sound.unhook?_eq hx hu k
    rw [hne] at htimer hentry
    constructor <;> simp [hr, htimer, hentry, Roster.isDisabled]
  | @switch server enabled hr =>
    have hne : (k.serverId == server) = false := hk
    cases enabled with
    | true =>
      have hr' : t.roster = (s.roster.enable server).1 := hr
      refine ⟨?_, ?_, ?_, ?_, ?_, ?_⟩ <;> rw [hr']
      case refine_4 => simp [bne, hne]
      all_goals rfl
    | false =>
      have hr' : t.roster = (s.roster.disable server).1 := hr
      refine ⟨?_, ?_, ?_, ?_, ?_, ?_⟩ <;> rw [hr']
      case refine_1 => simp [hne]
      case refine_4 => simp [hne]
      all_goals rfl
  | @forgetBroken server hr =>
    have hne : (k.serverId == server) = false := hk
    refine ⟨?_, ?_, ?_, ?_, ?_, ?_⟩ <;> rw [hr]
    case refine_3 => simp [hne]
    all_goals rfl
  | @forgetRetries server hr =>
    have hne : (k.serverId == server) = false := hk
    refine .of_perform (c := .clearServer server) ht.sound (by rw [hr]; rfl) hne ?_ ?_ ?_ ?_ ?_ <;>
      simp [hr, hne, RetryEntry.call, Roster.forgetRetries, Roster.isDisabled]

/-- The attempt of an instance that a deed does not concern goes on as it was. -/
theorem Enters.attempt_eq (h : s.Enters t d) (hc : s.Coherent) {id : AttemptId}
    (hk : d.concerns k = false) (hs : s.roster.starting.find? k = some id) :
    t.attempts.find? id = s.attempts.find? id := by
  obtain ⟨b, hb, hbk, -⟩ := hc.starting.1 hs
  cases h with
  | reserve _ _ _ _ ha | retry _ _ _ _ _ ha =>
    rw [ha]
    exact Table.find?_insert_of_ne _ (Nat.ne_of_lt (hc.attempts.lt_size hb)) _
  | settle hf _ _ ha =>
    rw [ha]
    refine Table.find?_insert_of_ne _ ?_ _
    rintro rfl
    cases hb.symm.trans hf
    exact Bool.false_ne_true (hk.symm.trans hbk)
  | keep _ ha | close _ _ ha | fault _ _ ha | unhook _ _ _ ha | switch _ ha | forgetBroken _ ha
  | forgetRetries _ ha => rw [ha]

/-- A deed leaves the views of the instances that it does not concern. -/
theorem Enters.view_eq (h : s.Enters t d) (hc : s.Coherent) (ht : s.Timed)
    (hk : d.concerns k = false) : t.view k = s.view k := by
  have hl := h.leaves ht hk
  have hs : (t.roster.starting.find? k).bind t.attempts.find? =
      (s.roster.starting.find? k).bind s.attempts.find? := by
    rw [hl.starting]
    cases hid : s.roster.starting.find? k with
    | none => rfl
    | some id => exact h.attempt_eq hc hk hid
  exact InstanceView.ext hl.live hs hl.broken hl.disabled hl.retries

lemma view_settle (hc : s.Coherent) (ht : s.Timed) {id : AttemptId} {a : Attempt} {o : Outcome}
    {x : Settlement} (hf : s.attempts.find? id = some a)
    (hr : s.roster.Settles s.now a.key a.epoch o t.roster x)
    (ha : t.attempts = s.attempts.insert id
      { a with stage := x.stage, published := some x.published }) :
    t.view a.key = s.act (.settle a.key a.epoch o) (s.view a.key) := by
  have on {server : String} (hd : s.roster.isDisabled server = false) :
      server ∉ s.roster.disabled := by simpa [Roster.isDisabled] using hd
  have off {server : String} (hd : s.roster.isDisabled server = true) :
      server ∈ s.roster.disabled := by simpa [Roster.isDisabled] using hd
  generalize hroster : t.roster = roster at hr
  cases hr with
  | stale he =>
    -- the attempt of the current epoch is another one
    have hs : (s.roster.starting.find? a.key).bind t.attempts.find? =
        (s.roster.starting.find? a.key).bind s.attempts.find? := by
      cases hid : s.roster.starting.find? a.key with
      | none => rfl
      | some id' =>
        obtain ⟨b, hb, -, heb, -⟩ := hc.starting.1 hid
        rw [ha]
        refine Table.find?_insert_of_ne _ ?_ _
        rintro rfl
        cases hb.symm.trans hf
        exact he heb.symm
    simp [view, act, Deed.act, hroster, hs, he]
  | discarded he hd =>
    simp [view, act, Deed.act, hroster, he, off hd, Roster.isDisabled]
  | started he hd =>
    have hentry : t.roster.retries.entryOf a.key = none := by
      rw [hroster]
      exact (ht.sound.entryOf_perform s.now (.clear a.key) a.key).trans (if_pos BEq.rfl)
    refine InstanceView.ext ?_ ?_ ?_ ?_ (hentry.trans ?_) <;>
      simp [view, act, Deed.act, hroster, he, on hd, Roster.isDisabled]
  | unavailable he =>
    have hentry : t.roster.retries.entryOf a.key = none := by
      rw [hroster]
      exact (ht.sound.entryOf_perform s.now (.clear a.key) a.key).trans (if_pos BEq.rfl)
    refine InstanceView.ext ?_ ?_ ?_ ?_ (hentry.trans ?_) <;>
      simp [view, act, Deed.act, hroster, he, Roster.isDisabled]
  | dropped he hd =>
    simp [view, act, Deed.act, hroster, he, off hd, Roster.isDisabled]
  | failed he hd =>
    have hentry : t.roster.retries.entryOf a.key = some (((s.view a.key).retries.getD
        ⟨0, none⟩).schedule s.roster.retries.delays s.now ⟨a.key, s.roster.epoch⟩) := by
      rw [hroster]
      exact (ht.sound.entryOf_schedule a.key _ a.key).trans (if_pos BEq.rfl)
    refine InstanceView.ext ?_ ?_ ?_ ?_ (hentry.trans ?_) <;>
      simp [view, act, Deed.act, hroster, he, on hd, Roster.isDisabled]

/-- A deed acts on the views of the instances that it concerns. -/
theorem Enters.view_act (h : s.Enters t d) (hc : s.Coherent) (ht : s.Timed)
    (halive : s.isAlive = true) (hk : d.concerns k = true) : t.view k = s.act d (s.view k) := by
  cases h with
  | keep hr ha hact =>
    rw [hact halive k hk]
    simp only [view, hr, ha]
  | @reserve key hb hl hs hr ha =>
    rw [← t.view_congr hk, ← s.view_congr hk]
    rw [Bool.or_eq_false_iff] at hb
    have hbroken := Table.contains_eq_false.1 hb.2
    have hd : key.serverId ∉ s.roster.disabled := by simpa [Roster.isDisabled] using hb.1
    simp [view, act, Deed.act, hr, ha, hd, hbroken, hl, hs, Roster.isDisabled]
  | @retry plan he hd hl hs hr ha =>
    rw [← t.view_congr hk, ← s.view_congr hk]
    have hd' : plan.key.serverId ∉ s.roster.disabled := by simpa [Roster.isDisabled] using hd
    simp [view, act, Deed.act, hr, ha, he, hd', hl, hs, Roster.isDisabled]
  | @settle id a o x hf hst hr ha =>
    rw [← t.view_congr hk, ← s.view_congr hk]
    exact view_settle hc ht hf hr ha
  | @close key client hl hr ha =>
    rw [← t.view_congr hk, ← s.view_congr hk]
    simp [view, act, Deed.act, hr, ha, hl, Roster.isDisabled]
  | @fault key client hl hr ha =>
    rw [← t.view_congr hk, ← s.view_congr hk]
    simp [view, act, Deed.act, hr, ha, hl, Roster.isDisabled]
  | @unhook timer x _ _ hx hu hr ha =>
    rw [← t.view_congr hk, ← s.view_congr hk]
    have hentry := (ht.sound.unhook?_eq hx hu x.key).2
    cases hname : s.roster.retries.timer? x.key == some timer <;>
      simp [view, act, Deed.act, hr, ha, hentry, hname, Roster.isDisabled]
  | @switch server enabled hr ha =>
    have hid : (k.serverId == server) = true := hk
    cases enabled with
    | true =>
      have hr' : t.roster = (s.roster.enable server).1 := hr
      have hd : t.roster.isDisabled k.serverId = false := by
        simp [hr', bne, hid]
      refine InstanceView.ext ?_ ?_ ?_ hd ?_ <;> simp [view, act, Deed.act, hr', ha, Roster.enable]
    | false =>
      have hr' : t.roster = (s.roster.disable server).1 := hr
      have hl : t.roster.live.find? k = none := by
        simp [hr', hid]
      have hd : t.roster.isDisabled k.serverId = true := by
        simp [hr', hid]
      refine InstanceView.ext hl ?_ ?_ hd ?_ <;>
        simp [view, act, Deed.act, hr', ha, Roster.disable]
  | @forgetBroken server hr ha =>
    have hid : (k.serverId == server) = true := hk
    have hb : t.roster.broken.find? k = none := by
      simp [hr, hid]
    refine InstanceView.ext ?_ ?_ hb ?_ ?_ <;>
      simp [view, act, Deed.act, hr, ha, Roster.forgetBroken, Roster.isDisabled]
  | @forgetRetries server hr ha =>
    have hid : (k.serverId == server) = true := hk
    have hentry : t.roster.retries.entryOf k = none := by
      rw [hr]
      refine (ht.sound.entryOf_perform s.now (.clearServer server) k).trans ?_
      rw [RetryEntry.call, hid]
      rfl
    refine InstanceView.ext ?_ ?_ ?_ ?_ hentry <;>
      simp [view, act, Deed.act, hr, ha, Roster.forgetRetries, Roster.isDisabled]

end State

end Manager

end ServerFleet
