import ServerFleet.Proofs.Manager.Enrolment
import ServerFleet.Proofs.Manager.Locality
import ServerFleet.Proofs.Manager.Tending

/-!
Steps that are about different instances. A step leaves to the other tasks what they have at hand,
so of two deeds that are apart either can follow the other, and the two orders lead to the same
instances.
-/

namespace ServerFleet

namespace RetryScheduler

variable {α : Type u} {s t : RetryScheduler α}

lemma awake?_abort (ids : List Nat) (id : Nat) : (s.abort ids).awake? id = s.awake? id := by
  unfold awake? abort
  dsimp only
  rw [List.find?_filter]
  congr 1
  funext x
  cases x.awake <;> simp [beq_eq_decide]

/-- A call takes no timer away that is awake, and wakes none. -/
theorem awake?_perform (now : Nat) (c : RetryCall α) (id : Nat) :
    (s.perform now c).1.awake? id = s.awake? id := by
  cases c with
  | schedule k action =>
    obtain ⟨-, he⟩ | ⟨delay, -, he⟩ := s.schedule_cases now k action
    · simp only [perform, he]
      rfl
    · have hrest := awake?_abort (s := s) (s.recordOf k).timer.toList id
      unfold awake? at hrest ⊢
      simp [perform, he, List.find?_append, hrest]
  | clear | clearServer | cancelAll => exact awake?_abort _ _

lemma awake?_unhook {id timer : Nat} {o : Option (Sleeper α)} (h : s.Sound)
    (hu : s.unhook? timer = some (t, o)) (hne : timer ≠ id) : t.awake? id = s.awake? id := by
  unfold awake?
  rw [(unhook?_cases h hu).2.1, List.find?_filter]
  congr 1
  funext x
  by_cases hx : x.id = id
  · simp [hx, Ne.symm hne]
  · simp [hx]

end RetryScheduler

namespace Manager

section Tasks

variable {s t : State} {task : TaskId} {effects : List Effect}

lemma Attempt.Goes.task_eq {id : AttemptId} {a : Attempt} {stage : AttemptStage}
    (h : a.Goes id (.run task) stage effects) : task = .attempt id := by
  cases h <;> rfl

lemma ClientRecord.Goes.task_eq {id : ClientId} {c c' : ClientRecord}
    (h : c.Goes id (.run task) c' effects) : task = .pump id := by
  cases h <;> rfl

lemma Errand.Goes.task_eq {id : CallId} {place : Nat} {e : Errand} {stage : ErrandStage}
    (h : e.Goes id place (.run task) stage effects) : task = .errand id place := by
  cases h
  rfl

namespace State

lemma CallGoes.task_eq {id : CallId} {c c' : Call}
    (h : s.CallGoes id c (.run task) c' effects) : task = .call id := by
  cases h <;> rfl

namespace Move

variable (hm : s.Move (.run task) t effects)
include hm

lemma call_eq {id : CallId} (hc : task ≠ .call id) (he : ∀ place, task ≠ .errand id place) :
    t.calls.find? id = s.calls.find? id := by
  have other {id' : CallId} {c : Call} (h : task = .call id') :
      (s.calls.insert id' c).find? id = s.calls.find? id := by
    refine Table.find?_insert_of_ne _ ?_ c
    rintro rfl
    exact hc h
  cases hm with
  | call _ hg => exact other hg.task_eq
  | errand _ _ _ hg =>
    refine Table.find?_insert_of_ne _ ?_ _
    rintro rfl
    exact he _ hg.task_eq
  | reserve | enable | disable | forgetBroken | forgetRetries | shutDown => exact other rfl
  | _ => rfl

lemma attempt_eq (hs : s.Coherent) {id : AttemptId} {a : Attempt} (hn : task ≠ .attempt id)
    (ha : s.attempts.find? id = some a) : t.attempts.find? id = some a := by
  rw [← ha]
  cases hm with
  | attempt _ hg =>
    refine Table.find?_insert_of_ne _ ?_ _
    rintro rfl
    exact hn hg.task_eq
  | settle =>
    refine Table.find?_insert_of_ne _ ?_ _
    rintro rfl
    exact hn rfl
  | reserve | retry =>
    exact Table.find?_insert_of_ne _ (Nat.ne_of_lt (hs.attempts.lt_size ha)) _
  | _ => rfl

lemma client_eq {id : ClientId} (hn : task ≠ .pump id) :
    t.clients.find? id = s.clients.find? id := by
  have other {id' : ClientId} {c : ClientRecord} (h : task = .pump id') :
      (s.clients.insert id' c).find? id = s.clients.find? id := by
    refine Table.find?_insert_of_ne _ ?_ c
    rintro rfl
    exact hn h
  cases hm with
  | client _ hg => exact other hg.task_eq
  | deafen | ignore | close | fault => exact other rfl
  | _ => rfl

lemma fired_eq {timer : Nat} (hn : task ≠ .timer timer) :
    t.fired.find? (·.1 = timer) = s.fired.find? (·.1 = timer) := by
  have other {timer' : Nat} (h : timer' ≠ timer) :
      (s.fired.filter (·.1 ≠ timer')).find? (·.1 = timer) = s.fired.find? (·.1 = timer) := by
    rw [List.find?_filter]
    congr 1
    funext x
    by_cases hx : x.1 = timer
    · simp [hx, Ne.symm h]
    · simp [hx]
  cases hm with
  | drop | retry =>
    refine other ?_
    rintro rfl
    exact hn rfl
  | @unhook timer' _ sleeper =>
    have hne : timer' ≠ timer := by
      rintro rfl
      exact hn rfl
    cases sleeper <;> simp [List.find?_append, hne]
  | _ => rfl

lemma awake?_eq (hs : s.roster.retries.Sound) {timer : Nat} (hn : task ≠ .timer timer) :
    t.roster.retries.awake? timer = s.roster.retries.awake? timer := by
  cases hm with
  | settle _ _ hr =>
    cases hr with
    | started | unavailable => exact RetryScheduler.awake?_perform s.now (.clear _) timer
    | failed => exact RetryScheduler.awake?_perform s.now (.schedule _ _) timer
    | _ => rfl
  | forgetRetries => exact RetryScheduler.awake?_perform s.now (.clearServer _) timer
  | shutDown => exact RetryScheduler.awake?_perform s.now .cancelAll timer
  | unhook hu =>
    refine RetryScheduler.awake?_unhook hs hu ?_
    rintro rfl
    exact hn rfl
  | _ => rfl

end Move

end State

end Tasks

namespace Deed

/-- Deeds that have no instance in common. -/
def Apart (d d' : Deed) : Prop := ∀ k, d.concerns k = true → d'.concerns k = false

variable {d d' : Deed}

lemma Apart.symm (h : d.Apart d') : d'.Apart d := by
  intro k hk
  refine Bool.eq_false_iff.2 fun hk' => ?_
  exact Bool.false_ne_true ((h k hk').symm.trans hk)

/-- A deed always has some instance to be about. -/
theorem exists_concerns (d : Deed) : ∃ k, d.concerns k = true := by
  cases d with
  | seek k | settle k | close k | fault k | unhook k => exact ⟨k, BEq.rfl⟩
  | retry plan => exact ⟨plan.key, BEq.rfl⟩
  | switch server | forgetBroken server | forgetRetries server =>
    exact ⟨⟨server, default⟩, BEq.rfl⟩

lemma not_apart_self (d : Deed) : ¬ d.Apart d := by
  intro h
  obtain ⟨k, hk⟩ := d.exists_concerns
  exact Bool.false_ne_true ((h k hk).symm.trans hk)

end Deed

namespace State

variable {s t u : State} {l l' : Label} {d d' : Deed} {effects : List Effect} {k : InstanceKey}

/-- A deed is done by the step of a task that is no errand. -/
theorem Does.label_eq (h : s.Does l d) :
    ∃ task, l = .run task ∧ ∀ id place, task ≠ .errand id place := by
  cases h <;> exact ⟨_, rfl, fun _ _ => nofun⟩

lemma Does.enters_of_step? (h : s.Does l d) (hs : s.Coherent)
    (hstep : s.step? l = some (t, effects)) : s.Enters t d := by
  obtain ⟨t', effects', hstep', he⟩ := h.enters hs
  cases hstep.symm.trans hstep'
  exact he

/-- A deed is still to be done after one that is apart from it. -/
theorem Does.persists (h : s.Does l d) (h' : s.Does l' d') (ha : d.Apart d') (hs : s.Coherent)
    (ht : s.Timed) (hstep : s.step? l' = some (t, effects)) : t.Does l d := by
  have hleaves {k : InstanceKey} (hk : d.concerns k = true) : s.Leaves t k :=
    (h'.enters_of_step? hs hstep).leaves ht (ha k hk)
  have hne : l ≠ l' := by
    rintro rfl
    exact d.not_apart_self (h.unique h' ▸ ha)
  obtain ⟨task, rfl, he⟩ := h'.label_eq
  have hm := Move.of_step? hstep
  have other {task' : TaskId} (hl : Label.run task' ≠ .run task) : task ≠ task' := by
    rintro rfl
    exact hl rfl
  cases h with
  | seek hc hst => exact .seek ((hm.call_eq (other hne) (he _)).trans hc) hst
  | settle hf hst => exact .settle (hm.attempt_eq hs (other hne) hf) hst
  | close hr hp hi => exact .close ((hm.client_eq (other hne)).trans hr) hp hi
  | fault hr hp hi => exact .fault ((hm.client_eq (other hne)).trans hr) hp hi
  | @unhook timer x hf hx =>
    -- whether the record names the timer is a matter of the instance
    have hname := (hleaves (k := x.key) BEq.rfl).timer
    rw [← hname]
    exact .unhook ((hm.fired_eq (other hne)).trans hf)
      ((hm.awake?_eq ht.sound (other hne)).trans hx)
  | retry hf => exact .retry ((hm.fired_eq (other hne)).trans hf)
  | switch hc hst hr =>
    have hset := hm.settings_eq
    rw [← hset]
    exact .switch ((hm.call_eq (other hne) (he _)).trans hc) hst hr
  | forgetBroken hc hst hr =>
    exact .forgetBroken ((hm.call_eq (other hne) (he _)).trans hc) hst hr
  | forgetRetries hc hst =>
    exact .forgetRetries ((hm.call_eq (other hne) (he _)).trans hc) hst

lemma Enters.epoch_eq (h : s.Enters t d) : t.roster.epoch = s.roster.epoch := by
  cases h with
  | settle _ _ hr => exact hr.epoch_eq
  | @switch _ enabled hr => cases enabled <;> rw [hr] <;> rfl
  | keep hr | reserve _ _ _ hr | retry _ _ _ _ hr | close _ hr | fault _ hr | unhook _ _ hr
  | forgetBroken hr | forgetRetries hr => simp only [hr, Roster.forgetBroken, Roster.forgetRetries]

lemma Enters.delays_eq (h : s.Enters t d) :
    t.roster.retries.delays = s.roster.retries.delays := by
  cases h with
  | settle _ _ hr =>
    generalize t.roster = roster at hr
    cases hr with
    | failed => exact RetryScheduler.delays_schedule ..
    | _ => rfl
  | unhook _ hu hr =>
    rw [hr]
    exact (RetryScheduler.unhook?_eq hu).1
  | @switch _ enabled hr => cases enabled <;> rw [hr] <;> rfl
  | keep hr | reserve _ _ _ hr | retry _ _ _ _ hr | close _ hr | fault _ hr | forgetBroken hr
  | forgetRetries hr =>
    simp only [hr, Roster.forgetBroken, Roster.forgetRetries, RetryScheduler.clearServer,
      RetryScheduler.abort]

lemma Enters.act_eq (h : s.Enters t d) (hn : t.now = s.now) : t.act d' = s.act d' := by
  funext v
  unfold act
  rw [h.epoch_eq, h.delays_eq, hn]

/-- After two deeds that are apart, an instance is as the one that concerns it alone makes it. -/
theorem Enters.view_after (h : s.Enters t d) (h' : t.Enters u d') (ha : d.Apart d')
    (hs : s.Coherent) (ht : s.Timed) (hs' : t.Coherent) (ht' : t.Timed) (hn : t.now = s.now)
    (halive : s.isAlive = true) (halive' : t.isAlive = true) (k : InstanceKey) :
    u.view k = if d.concerns k then s.act d (s.view k)
      else if d'.concerns k then s.act d' (s.view k) else s.view k := by
  cases hk : d.concerns k with
  | true =>
    rw [h'.view_eq hs' ht' (ha k hk), h.view_act hs ht halive hk]
    rfl
  | false =>
    cases hk' : d'.concerns k with
    | true =>
      rw [h'.view_act hs' ht' halive' hk', h.act_eq hn, h.view_eq hs ht hk]
      rfl
    | false =>
      rw [h'.view_eq hs' ht' hk', h.view_eq hs ht hk]
      rfl

/-- Of two deeds that are apart, either can follow the other. -/
theorem Does.then (h : s.Does l d) (h' : s.Does l' d') (ha : d.Apart d') (hs : s.Coherent)
    (ht : s.Timed) (hstep : s.step? l = some (t, effects)) :
    ∃ u effects', t.step? l' = some (u, effects') ∧ u.roster.epoch = s.roster.epoch ∧
      (t.isAlive = true → ∀ k, u.view k =
        if d.concerns k then s.act d (s.view k)
        else if d'.concerns k then s.act d' (s.view k) else s.view k) := by
  have hm := Move.of_step? hstep
  have he := h.enters_of_step? hs hstep
  obtain ⟨u, effects', hstep', he'⟩ :=
    (h'.persists h ha.symm hs ht hstep).enters (hs.move hm)
  have hn : t.now = s.now := by
    obtain ⟨task, rfl, -⟩ := h.label_eq
    obtain hn | ⟨_, hl, -⟩ := hm.now_eq
    · exact hn
    · cases hl
  refine ⟨u, effects', hstep', he'.epoch_eq.trans he.epoch_eq, fun halive => ?_⟩
  exact he.view_after he' ha hs ht (hs.move hm) (ht.move hm) hn (hm.isAlive_of halive) halive

end State

/-- Two steps of a manager that are about different instances are independent. Either can follow
the other. If the manager is still there when the second one is made, as it is while somebody holds
it, both orders lead to the same views of all instances. And neither changes anything of the
instances that it is not about. -/
theorem steps_independent {settings : Settings} {surroundings : Surroundings} {delays : List Nat}
    {disabled : List String} {run : List Happening} {s s₁ s₂ : State} {l₁ l₂ : Label}
    {d₁ d₂ : Deed} {effects₁ effects₂ : List Effect}
    (h : Run (.create settings surroundings delays disabled) run s)
    (hd₁ : s.Does l₁ d₁) (hd₂ : s.Does l₂ d₂) (ha : d₁.Apart d₂)
    (h₁ : s.step? l₁ = some (s₁, effects₁)) (h₂ : s.step? l₂ = some (s₂, effects₂)) :
    (∃ t₁ t₂ effects₁' effects₂', s₁.step? l₂ = some (t₁, effects₁') ∧
      s₂.step? l₁ = some (t₂, effects₂') ∧ t₁.roster.epoch = t₂.roster.epoch ∧
      (s₁.isAlive = true → s₂.isAlive = true → ∀ k, t₁.view k = t₂.view k)) ∧
    (∀ k, d₁.concerns k = false → s.Leaves s₁ k ∧ s₁.view k = s.view k) ∧
    ∀ k, d₂.concerns k = false → s.Leaves s₂ k ∧ s₂.view k = s.view k := by
  have hs := h.coherent (State.coherent_create ..)
  have ht := h.timed (State.timed_create ..)
  obtain ⟨t₁, effects₁', hstep₁, hepoch₁, hview₁⟩ := hd₁.then hd₂ ha hs ht h₁
  obtain ⟨t₂, effects₂', hstep₂, hepoch₂, hview₂⟩ := hd₂.then hd₁ ha.symm hs ht h₂
  refine ⟨⟨t₁, t₂, effects₁', effects₂', hstep₁, hstep₂, hepoch₁.trans hepoch₂.symm,
    fun halive₁ halive₂ k => ?_⟩, fun k hk => ?_, fun k hk => ?_⟩
  · rw [hview₁ halive₁ k, hview₂ halive₂ k]
    cases hk : d₁.concerns k with
    | true =>
      rw [ha k hk]
      rfl
    | false => rfl
  · have he := hd₁.enters_of_step? hs h₁
    exact ⟨he.leaves ht hk, he.view_eq hs ht hk⟩
  · have he := hd₂.enters_of_step? hs h₂
    exact ⟨he.leaves ht hk, he.view_eq hs ht hk⟩

lemma State.follow_cons {s t : State} {l : Label} {effects : List Effect}
    (h : s.step? l = some (t, effects)) (labels : List Label) :
    s.follow (l :: labels) = t.follow labels := by
  rw [State.follow, h]

/-- The first instance fails, its call goes on to the second one, which goes live, and the retry of
the first comes due while the second server is about to be disabled. -/
def sampleCross : List Label :=
  List.flatten [sampleRequest 0, [.run (.attempt 0), .reply (.attempt 0) .failed,
    .run (.attempt 0), .run (.call 0), .run (.call 0), .run (.call 0)], sampleConnect 1,
    sampleReady 1, [.run (.attempt 1), .run (.call 0), .run (.call 0), .advance 1000, .wake 0,
      .run (.timer 0), .start (.setServerEnabled "b" false)]]

def sampleCrossed : State := sample.follow sampleCross

/-- The retry begins and the second instance is gone, whichever comes first. -/
theorem steps_independent_sample :
    (sampleCrossed.view (sampleKey "b")).live = some 0 ∧
      (∀ k, (sampleCrossed.follow [.run (.timer 0), .run (.call 1)]).view k =
        (sampleCrossed.follow [.run (.call 1), .run (.timer 0)]).view k) ∧
      (sampleCrossed.follow [.run (.call 1), .run (.timer 0)]).view (sampleKey "a") =
        ⟨none, some ⟨sampleKey "a", 0, true, .reserved, none⟩, some .failedAttempt, false,
          some ⟨1, none⟩⟩ ∧
      (sampleCrossed.follow [.run (.timer 0), .run (.call 1)]).view (sampleKey "b") =
        ⟨none, none, none, true, none⟩ := by
  have hrun := Run.of_trace sample sampleCross
  have hretry : sampleCrossed.Does (.run (.timer 0)) (.retry ⟨sampleKey "a", 0⟩) :=
    .retry (n := 0) rfl
  have hswitch : sampleCrossed.Does (.run (.call 1)) (.switch "b" false true) :=
    .switch rfl rfl rfl
  have hapart : (Deed.retry ⟨sampleKey "a", 0⟩).Apart (.switch "b" false true) := by
    intro k hk
    show (k.serverId == "b") = false
    rw [← InstanceKey.serverId_eq_of_beq hk]
    rfl
  have h₁ : sampleCrossed.step? (.run (.timer 0)) =
      some (sampleCrossed.follow [.run (.timer 0)], []) := rfl
  have h₂ : sampleCrossed.step? (.run (.call 1)) =
      some (sampleCrossed.follow [.run (.call 1)], []) := rfl
  obtain ⟨⟨t₁, t₂, _, _, hstep₁, hstep₂, -, hview⟩, -⟩ :=
    steps_independent hrun hretry hswitch hapart h₁ h₂
  have ht₁ : sampleCrossed.follow [.run (.timer 0), .run (.call 1)] = t₁ := by
    rw [State.follow_cons h₁, State.follow_cons hstep₁]
    rfl
  have ht₂ : sampleCrossed.follow [.run (.call 1), .run (.timer 0)] = t₂ := by
    rw [State.follow_cons h₂, State.follow_cons hstep₂]
    rfl
  have hsame := hview (by decide) (by decide)
  rw [← ht₁, ← ht₂] at hsame
  exact ⟨rfl, hsame, rfl, rfl⟩

end Manager

end ServerFleet
