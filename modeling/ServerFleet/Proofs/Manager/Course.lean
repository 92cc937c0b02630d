import ServerFleet.Proofs.Manager.Fencing
import ServerFleet.Proofs.Manager.Tending
import ServerFleet.Proofs.Retry.Workshop

/-!
The course of one instance: whether it is broken or being started, and what has become of its
retries. A step leaves the course of an instance as it is, or gives it one of a few turns.
-/

namespace ServerFleet.Manager

/-- What the manager keeps about an instance beside a live client. -/
@[ext] structure Course where
  broken : Bool
  starting : Bool
  retries : Option (RetryEntry RetryPlan)
  /-- The timers of the current epoch that have fired for it and whose retries have not run yet. -/
  fired : List Nat

namespace Course

def count (c : Course) : Nat := c.retries.elim 0 (·.count)

def pending (c : Course) : Option (Nat × RetryPlan) := c.retries.bind (·.pending)

/-- The number of the retries that are pending or have fired. -/
def waiting (c : Course) : Nat := c.pending.isSome.toNat + c.fired.length

def blank : Course := ⟨false, false, none, []⟩

end Course

def State.course (s : State) (k : InstanceKey) : Course where
  broken := s.roster.broken.contains k
  starting := s.roster.starting.contains k
  retries := s.roster.retries.entryOf k
  fired := (s.fired.filter fun p => p.2.key == k && p.2.epoch == s.roster.epoch).map (·.1)

/-- The number of a retry of an instance that is announced. -/
def Effect.retrying? (k : InstanceKey) : Effect → Option Nat
  | .announced (.serverRetrying server root n) _ =>
    if (⟨server, root⟩ : InstanceKey) == k then some n else none
  | _ => none

def Call.resets? (c : Call) : Option String :=
  match c.stage, c.request with
  | .entering, .resetServer server => some server
  | _, _ => none

def CallStage.forgets? : CallStage → Option String
  | forgetting server _ => some server
  | _ => none

namespace Happening

def begun? (x : Happening) (k : InstanceKey) : Option Attempt :=
  (x.after.attempts.find? x.before.attempts.size).filter (·.key == k)

/-- The numbers of the retries of an instance that are announced. -/
def numbers (x : Happening) (k : InstanceKey) : List Nat := x.effects.filterMap (·.retrying? k)

def call? (x : Happening) : Option Call :=
  match x.label with
  | .run (.call id) => x.before.calls.find? id
  | _ => none

/-- The outcome that is entered of an attempt for an instance, with the epoch of the attempt. -/
def outcome? (x : Happening) (k : InstanceKey) : Option (Nat × Outcome) :=
  match x.label with
  | .run (.attempt id) => do
    let a ← x.before.attempts.find? id
    match a.stage with
    | .concluded o => if a.key == k then some (a.epoch, o) else none
    | _ => none
  | _ => none

/-- A reset forgets that the instances of a server are broken. -/
def ForgetsBroken (x : Happening) (server : String) : Prop :=
  x.call?.bind (·.resets?) = some server

/-- A reset goes on to forget the retries of a server. -/
def ForgetsRetries (x : Happening) (server : String) : Prop :=
  x.call?.bind (·.stage.forgets?) = some server

/-- An attempt for an instance is entered in its own epoch. -/
def Concludes (x : Happening) (k : InstanceKey) (o : Outcome) : Prop :=
  x.outcome? k = some (x.before.roster.epoch, o)

/-- What is seen of a step for an instance: the course it leaves, whether the attempt that begins is
a retry, and the retries announced. -/
structure Shows (x : Happening) (k : InstanceKey) (c : Course) (begun : Option Bool)
    (numbers : List Nat) : Prop where
  course : x.after.course k = c
  begun : (x.begun? k).map (·.byRetry) = begun
  numbers : x.numbers k = numbers

/-- What a step can mean for an instance. -/
inductive Turns (x : Happening) (k : InstanceKey) : Prop
  | rest (h : x.Shows k (x.before.course k) none [])
  /-- Routing begins an attempt. -/
  | route (hb : (x.before.course k).broken = false) (hs : (x.before.course k).starting = false)
    (h : x.Shows k { x.before.course k with starting := true } (some false) [])
  /-- A timer fires. -/
  | fire {timer due : Nat} {plan : RetryPlan} (hp : (x.before.course k).pending = some (due, plan))
    (hd : due ≤ x.before.now)
    (h : x.Shows k { x.before.course k with
      retries := some ⟨(x.before.course k).count, none⟩
      fired := (x.before.course k).fired ++ [timer] } none [])
  /-- A retry that has fired begins an attempt. -/
  | retry {timer : Nat} (ht : timer ∈ (x.before.course k).fired)
    (hs : (x.before.course k).starting = false) (ha : x.before.isAlive = true)
    (h : x.Shows k { x.before.course k with
      starting := true
      fired := (x.before.course k).fired.filter (· ≠ timer) } (some true) [])
  /-- A retry that has fired is passed over. -/
  | pass {timer : Nat} {plan : RetryPlan} (hr : x.Retries timer plan) (hk : (plan.key == k) = true)
    (he : plan.epoch = x.before.roster.epoch)
    (hd : x.before.isAlive = true → x.before.roster.isDisabled k.serverId = true ∨
      (x.before.course k).broken = false ∨ (x.before.course k).starting = true)
    (h : x.Shows k { x.before.course k with
      fired := (x.before.course k).fired.filter (· ≠ timer) } none [])
  /-- An attempt fails and the next retry is scheduled. -/
  | fail {plan : RetryPlan} (hx : x.Concludes k .failed) (hs : (x.before.course k).starting = true)
    (he : plan.epoch = x.before.roster.epoch)
    (h : x.Shows k { x.before.course k with
      broken := true
      starting := false
      retries := some (((x.before.course k).retries.getD ⟨0, none⟩).schedule
        x.before.roster.retries.delays x.before.now plan) } none
      (if (x.before.course k).count < x.before.roster.retries.delays.length then
        [(x.before.course k).count + 1] else []))
  /-- An attempt fails while the server is disabled. -/
  | drop (hx : x.Concludes k .failed) (hs : (x.before.course k).starting = true)
    (h : x.Shows k { x.before.course k with broken := true, starting := false } none [])
  /-- The client of an attempt is ready while the server is disabled. -/
  | discard {client : ClientId} (hx : x.Concludes k (.ready client))
    (hs : (x.before.course k).starting = true)
    (h : x.Shows k { x.before.course k with starting := false } none [])
  /-- An attempt ends well, or the program of the server is missing. -/
  | succeed {o : Outcome} (hx : x.Concludes k o) (ho : o ≠ .failed)
    (hs : (x.before.course k).starting = true)
    (h : x.Shows k { Course.blank with fired := (x.before.course k).fired } none [])
  /-- The live client reports an error. -/
  | fault (h : x.Shows k { x.before.course k with broken := true } none [])
  | forgetBroken (hx : x.ForgetsBroken k.serverId)
    (h : x.Shows k { x.before.course k with broken := false } none [])
  | forgetRetries (hx : x.ForgetsRetries k.serverId)
    (h : x.Shows k { x.before.course k with retries := none } none [])
  | shutDown (hx : x.ShutsDown) (h : x.Shows k .blank none [])

variable {x : Happening} {k : InstanceKey} {server : String}

lemma call?_eq_some {c : Call} :
    x.call? = some c ↔ ∃ id, x.label = .run (.call id) ∧ x.before.calls.find? id = some c := by
  unfold call?
  split
  · next id hl => simp [hl]
  · next h =>
    refine ⟨nofun, ?_⟩
    rintro ⟨id, hl, -⟩
    exact absurd hl (h id)

lemma forgetsBroken_of {call : CallId} {c : Call} (hl : x.label = .run (.call call))
    (hc : x.before.calls.find? call = some c) (hst : c.stage = .entering)
    (hr : c.request = .resetServer server) : x.ForgetsBroken server := by
  unfold ForgetsBroken
  rw [call?_eq_some.2 ⟨call, hl, hc⟩, Option.bind_some, Call.resets?, hst, hr]

lemma forgetsRetries_iff : x.ForgetsRetries server ↔ ∃ call c cleared,
    x.label = .run (.call call) ∧ x.before.calls.find? call = some c ∧
      c.stage = .forgetting server cleared := by
  unfold ForgetsRetries
  rw [Option.bind_eq_some_iff]
  constructor
  · rintro ⟨c, hc, hs⟩
    obtain ⟨call, hl, hc⟩ := call?_eq_some.1 hc
    unfold CallStage.forgets? at hs
    split at hs
    · next hst =>
      cases hs
      exact ⟨call, c, _, hl, hc, hst⟩
    · cases hs
  · rintro ⟨call, c, cleared, hl, hc, hst⟩
    exact ⟨c, call?_eq_some.2 ⟨call, hl, hc⟩, by rw [hst]; rfl⟩

lemma concludes_iff {o : Outcome} : x.Concludes k o ↔ ∃ id a, x.label = .run (.attempt id) ∧
    x.before.attempts.find? id = some a ∧ a.stage = .concluded o ∧ (a.key == k) = true ∧
      a.epoch = x.before.roster.epoch := by
  unfold Concludes outcome?
  split
  · next id hl =>
    constructor
    · intro h
      obtain ⟨a, ha, h⟩ := Option.bind_eq_some_iff.1 h
      split at h
      · next hst =>
        split at h
        · next hk =>
          obtain ⟨he, rfl⟩ := Prod.mk.inj (Option.some.inj h)
          exact ⟨id, a, hl, ha, hst, hk, he⟩
        · cases h
      · cases h
    · rintro ⟨id', a, hl', ha, hst, hk, he⟩
      cases hl.symm.trans hl'
      simp [ha, hst, hk, he]
  · next h =>
    refine ⟨nofun, ?_⟩
    rintro ⟨id, a, hl, -⟩
    exact absurd hl (h id)

end Happening

/-- A retry is announced when it is scheduled. -/
theorem Settlement.numbers (x : Settlement) (k : InstanceKey) (id : AttemptId)
    (key : InstanceKey) : (x.effects id key).filterMap (Effect.retrying? k) =
      if key == k then x.retrying.toList else [] := by
  unfold Settlement.effects
  rw [List.filterMap_append]
  -- the client that is shut down is no matter of the retries
  refine (congrArg₂ (· ++ ·) ?_ (?_ : _ = [])).trans (List.append_nil _)
  · cases hk : key == k <;> cases x.retrying <;> simp [Effect.retrying?, hk]
  · cases x.stage <;> rfl

namespace State

variable {s s' : State} {l : Label} {effects : List Effect} {k : InstanceKey}

/-- Timers are set up under the keys and for the epochs they are to act for, and none is awake
before it is due. -/
structure Aimed (s : State) : Prop where
  key : ∀ {x}, x ∈ s.roster.retries.sleepers → x.action.key = x.key
  epoch : ∀ {k due plan}, s.roster.retries.due? k = some (due, plan) →
    plan.epoch = s.roster.epoch
  awake : ∀ {x}, x ∈ s.roster.retries.sleepers → x.awake = true → x.due ≤ s.now

/-- What holds in every state of a run. -/
structure Regular (s : State) : Prop where
  coherent : s.Coherent
  exclusive : s.roster.Exclusive
  timed : s.Timed
  rooted : s.Rooted
  aimed : s.Aimed

lemma count_course (s : State) (k : InstanceKey) :
    (s.course k).count = s.roster.retries.retryCount k :=
  (RetryScheduler.retryCount_eq_entryOf k).symm

lemma pending_course (s : State) (k : InstanceKey) :
    (s.course k).pending = s.roster.retries.due? k :=
  (RetryScheduler.due?_eq_entryOf k).symm

lemma mem_fired_course {timer : Nat} : timer ∈ (s.course k).fired ↔
    ∃ plan, (timer, plan) ∈ s.fired ∧ (plan.key == k) = true ∧ plan.epoch = s.roster.epoch := by
  simp [course, and_assoc]

lemma Timed.isPending_eq (h : s.Timed) (k : InstanceKey) :
    s.roster.retries.isPending k = (s.course k).pending.isSome := by
  rw [pending_course, RetryScheduler.isPending_eq]
  cases hk : s.roster.retries.timer? k with
  | none =>
    rw [RetryScheduler.due?_of_timer? hk]
    rfl
  | some id =>
    obtain ⟨x, hx, rfl, -⟩ := h.sound.sleeps hk
    rw [h.sound.due?_eq hx hk]
    rfl

section Shows

lemma begun?_eq_none (h : s'.Coherent) (hs : s'.attempts.size = s.attempts.size) :
    (⟨s, l, effects, s'⟩ : Happening).begun? k = none := by
  unfold Happening.begun?
  rw [← hs, h.attempts.find?_size]
  rfl

lemma CallGoes.numbers {id : CallId} {c c' : Call} (h : s.CallGoes id c l c' effects) :
    effects.filterMap (·.retrying? k) = [] := by
  cases h with
  | @collect _ e =>
    unfold Errand.farewell
    cases e.call <;> rfl
  | _ => rfl

/-- Entering the outcome of another attempt leaves the course. -/
theorem course_settle_other (h : s.Timed) {key : InstanceKey} {epoch : Nat} {o : Outcome}
    {roster : Roster} {x : Settlement} (hr : s.roster.Settles s.now key epoch o roster x)
    (hk : ¬ (s.roster.epoch = epoch ∧ (key == k) = true)) (hs : s'.roster = roster)
    (hf : s'.fired = s.fired) : s'.course k = s.course k := by
  subst hs
  have hne (he : s.roster.epoch = epoch) : (key == k) = false := by simpa [he] using hk
  have hbroken := (hr.other h.sound hk).1
  have hstarting := hr.find?_starting k
  rw [if_neg hk] at hstarting
  have hretries : s'.roster.retries.entryOf k = s.roster.retries.entryOf k := by
    generalize s'.roster = r at hr
    cases hr with
    | started he | unavailable he =>
      refine (h.sound.entryOf_perform s.now (.clear key) k).trans ?_
      simp [RetryEntry.call, hne he]
    | failed he =>
      refine (h.sound.entryOf_perform s.now (.schedule key _) k).trans ?_
      simp [RetryEntry.call, hne he]
    | _ => rfl
  unfold course Table.contains
  rw [hbroken, hstarting, hretries, hr.epoch_eq, hf]

/-- Entering an outcome is seen by the course it leaves and the retry it announces. -/
lemma Move.shows_settle (hm : s.Move l s' effects) (h : s.Coherent) {id : AttemptId}
    {key : InstanceKey} {x : Settlement} {c : Course} {numbers : List Nat}
    (hs : s'.attempts.size = s.attempts.size) (he : effects = x.effects id key)
    (hc : s'.course k = c) (hn : (if key == k then x.retrying.toList else []) = numbers) :
    (⟨s, l, effects, s'⟩ : Happening).Shows k c none numbers := by
  refine ⟨hc, by rw [begun?_eq_none (h.move hm) hs]; rfl, ?_⟩
  unfold Happening.numbers
  rw [he]
  exact (x.numbers k id key).trans hn

lemma Move.turns_settle (hm : s.Move l s' effects) (h : s.Regular) {id : AttemptId} {a : Attempt}
    {o : Outcome} {roster : Roster} {x : Settlement} (hl : l = .run (.attempt id))
    (ha : s.attempts.find? id = some a) (hst : a.stage = .concluded o)
    (hr : s.roster.Settles s.now a.key a.epoch o roster x) (hroster : s'.roster = roster)
    (hf : s'.fired = s.fired) (hsize : s'.attempts.size = s.attempts.size)
    (heffects : effects = x.effects id a.key) (k : InstanceKey) :
    (⟨s, l, effects, s'⟩ : Happening).Turns k := by
  have shows {c : Course} {numbers : List Nat} (hc : s'.course k = c)
      (hn : (if a.key == k then x.retrying.toList else []) = numbers) :
      (⟨s, l, effects, s'⟩ : Happening).Shows k c none numbers :=
    hm.shows_settle h.coherent hsize heffects hc hn
  by_cases hown : s.roster.epoch = a.epoch ∧ (a.key == k) = true
  · obtain ⟨he, hk⟩ := hown
    have hx : (⟨s, l, effects, s'⟩ : Happening).Concludes k o :=
      Happening.concludes_iff.2 ⟨id, a, hl, ha, hst, hk, he.symm⟩
    have hid := h.coherent.starting_of_attempt ha (by rw [hst]; rfl) he.symm
    have hstarting : (s.course k).starting = true :=
      (Table.contains_congr _ hk).symm.trans (Table.contains_iff.2 ⟨id, hid⟩)
    have hfired : (s'.course k).fired = (s.course k).fired := by
      simp only [course, hf, hroster, hr.epoch_eq]
    cases hr with
    | stale hne => exact absurd he hne
    | discarded =>
      exact .discard hx hstarting (shows (Course.ext (by rw [course, hroster]; rfl)
        (by simp [course, hroster, hk]) (by rw [course, hroster]; rfl) hfired) (by simp))
    | started | unavailable =>
      have hretries := h.timed.sound.entryOf_perform s.now (.clear a.key) k
      rw [RetryEntry.call, hk, if_pos rfl] at hretries
      exact .succeed hx (by simp) hstarting (shows (Course.ext
        (by simp [course, hroster, hk]; rfl) (by simp [course, hroster, hk]; rfl)
        (by rw [course, hroster]; exact hretries) hfired) (by simp))
    | dropped =>
      exact .drop hx hstarting (shows (Course.ext (by simp [course, hroster, hk])
        (by simp [course, hroster, hk]) (by rw [course, hroster]; rfl) hfired) (by simp))
    | failed =>
      have hretries := h.timed.sound.entryOf_perform s.now
        (.schedule a.key ⟨a.key, s.roster.epoch⟩) k
      rw [RetryEntry.call, hk, if_pos rfl] at hretries
      refine .fail hx hstarting rfl (shows (Course.ext
        (by simp [course, hroster, hk]) (by simp [course, hroster, hk])
        (by rw [course, hroster]; exact hretries) hfired) ?_)
      have hanswer := s.roster.retries.answers_perform s.now
        (.schedule a.key ⟨a.key, s.roster.epoch⟩)
      simp only [RetryScheduler.Answers, RetryScheduler.perform, RetryAnswer.attempt.injEq,
        ← RetryScheduler.retryCount_eq_entryOf, RetryScheduler.retryCount_congr hk] at hanswer
      rw [hk, if_pos rfl, hanswer, count_course]
      split <;> rfl
  · refine .rest (shows (course_settle_other h.timed hr hown hroster hf) ?_)
    split
    · next hk =>
      cases hr with
      | stale => cases o <;> rfl
      | discarded he | started he | unavailable he | dropped he | failed he =>
        exact absurd ⟨he, hk⟩ hown
    · rfl

section Fired

/-- Timers that are gone from the retries that have fired are gone from the course. -/
theorem fired_filter (fired : List (Nat × RetryPlan)) (p : Nat × RetryPlan → Bool) (timer : Nat) :
    ((fired.filter (·.1 ≠ timer)).filter p).map (·.1) =
      ((fired.filter p).map (·.1)).filter (· ≠ timer) := by
  rw [List.filter_map, List.filter_filter, List.filter_filter]
  refine congrArg _ (List.filter_congr fun q _ => ?_)
  rw [Bool.and_comm]
  rfl

/-- The retry of another instance or epoch is none of the course. -/
theorem Timed.not_mem_fired (h : s.Timed) {timer : Nat} {plan : RetryPlan}
    (hf : (timer, plan) ∈ s.fired) (hk : ¬ ((plan.key == k) = true ∧ plan.epoch = s.roster.epoch)) :
    timer ∉ (s.course k).fired := by
  intro ht
  obtain ⟨plan', hf', hk'⟩ := mem_fired_course.1 ht
  obtain rfl := h.plan_eq hf hf'
  exact hk hk'

lemma Timed.filter_fired (h : s.Timed) {timer : Nat} {plan : RetryPlan}
    (hf : (timer, plan) ∈ s.fired) (hk : ¬ ((plan.key == k) = true ∧ plan.epoch = s.roster.epoch)) :
    (s.course k).fired.filter (· ≠ timer) = (s.course k).fired := by
  refine List.filter_eq_self.2 fun id hid => decide_eq_true ?_
  rintro rfl
  exact h.not_mem_fired hf hk hid

end Fired

/-- Nothing is known of an instance in the epoch that a shutdown begins. -/
theorem Regular.course_of_shutDown (h : s.Regular) (hr : s'.roster = s.roster.shutDown.1)
    (hf : ∀ p ∈ s'.fired, p ∈ s.fired) : s'.course k = .blank := by
  unfold course
  rw [hr]
  refine Course.ext rfl rfl rfl (List.map_eq_nil_iff.2 (List.filter_eq_nil_iff.2 fun p hp => ?_))
  -- no retry that has fired is of the new epoch
  obtain ⟨id, a, ha, -, he, -⟩ := h.rooted.fired (hf p hp)
  have hle := h.coherent.epoch_le ha
  simp only [Roster.shutDown, Bool.and_eq_true, beq_iff_eq, not_and]
  omega

/-- A step that begins no attempt and announces no retry is seen by the course it leaves. -/
lemma Move.shows (hm : s.Move l s' effects) (h : s.Coherent) {c : Course}
    (hs : s'.attempts.size = s.attempts.size) (hc : s'.course k = c)
    (hn : effects.filterMap (Effect.retrying? k) = []) :
    (⟨s, l, effects, s'⟩ : Happening).Shows k c none [] :=
  ⟨hc, by rw [begun?_eq_none (h.move hm) hs]; rfl, hn⟩

/-- The steps of calls: routing may begin an attempt, a reset forgets, and a shutdown begins
afresh. -/
lemma Move.turns_call {id : CallId} (hm : s.Move (.run (.call id)) s' effects) (h : s.Regular)
    (k : InstanceKey) : (⟨s, .run (.call id), effects, s'⟩ : Happening).Turns k := by
  have hshows {c : Course} := hm.shows h.coherent (k := k) (c := c)
  cases hm with
  | @reserve _ _ key _ _ _ _ hfree _ hs =>
    rw [Bool.or_eq_false_iff] at hfree
    cases hk : key == k with
    | true =>
      have hb := (Table.contains_congr s.roster.broken hk).symm.trans hfree.2
      have hst := (Table.contains_congr s.roster.starting hk).symm.trans
        (Table.contains_eq_false.2 hs)
      exact .route hb hst ⟨Course.ext rfl (by simp [course, hk]) rfl rfl,
        by simp [Happening.begun?, hk], rfl⟩
    | false =>
      exact .rest ⟨Course.ext rfl (by simp [course, hk]) rfl rfl,
        by simp [Happening.begun?, hk], rfl⟩
  | @forgetBroken _ c server hcall hst hr =>
    have hb := s.roster.contains_broken_forgetBroken server k
    cases hk : k.serverId == server with
    | true =>
      obtain rfl := beq_iff_eq.1 hk
      exact .forgetBroken (Happening.forgetsBroken_of rfl hcall hst hr)
        (hshows rfl (Course.ext (hb.trans (by simp)) rfl rfl rfl) rfl)
    | false =>
      exact .rest (hshows rfl (Course.ext (hb.trans (by simp [hk, course])) rfl rfl rfl) rfl)
  | @forgetRetries _ c server cleared hcall hst =>
    have hretries := h.timed.sound.entryOf_perform s.now (.clearServer server) k
    rw [RetryEntry.call] at hretries
    cases hk : k.serverId == server with
    | true =>
      obtain rfl := beq_iff_eq.1 hk
      rw [if_pos hk] at hretries
      exact .forgetRetries (Happening.forgetsRetries_iff.2 ⟨id, c, cleared, rfl, hcall, hst⟩)
        (hshows rfl (Course.ext rfl rfl hretries rfl) rfl)
    | false =>
      rw [hk] at hretries
      exact .rest (hshows rfl (Course.ext rfl rfl hretries rfl) rfl)
  | @shutDown _ c hcall hst hr =>
    exact .shutDown ⟨id, c, rfl, hcall, hst, hr⟩
      (hshows rfl (h.course_of_shutDown rfl fun _ hp => hp) rfl)
  | call _ hg => exact .rest (hshows rfl rfl hg.numbers)
  | attempt _ hg => cases hg
  | errand _ _ _ hg => cases hg
  | client _ hg => cases hg
  | _ => exact .rest (hshows rfl rfl rfl)

/-- The steps of timers: a retry that has fired begins an attempt or is passed over, and one that
is due fires. -/
lemma Move.turns_timer {timer : Nat} (hm : s.Move (.run (.timer timer)) s' effects)
    (h : s.Regular) (k : InstanceKey) :
    (⟨s, .run (.timer timer), effects, s'⟩ : Happening).Turns k := by
  have hshows {c : Course} := hm.shows h.coherent (k := k) (c := c)
  have hfired := fired_filter s.fired (fun p => p.2.key == k && p.2.epoch == s.roster.epoch) timer
  cases hm with
  | @drop _ plan hf hd =>
    by_cases hk : (plan.key == k) = true ∧ plan.epoch = s.roster.epoch
    · refine .pass ⟨rfl, hf⟩ hk.1 hk.2 (fun ha => ?_)
        (hshows rfl (Course.ext rfl rfl rfl hfired) rfl)
      obtain hne | hdis | hlive | hstart := hd ha
      · exact absurd hk.2.symm hne
      · rw [InstanceKey.serverId_eq_of_beq hk.1] at hdis
        exact .inl hdis
      · have hb := (h.exclusive _ hlive).not_broken
        exact .inr (.inl ((Table.contains_congr _ hk.1).symm.trans hb))
      · exact .inr (.inr ((Table.contains_congr _ hk.1).symm.trans hstart))
    · exact .rest (hshows rfl
        (Course.ext rfl rfl rfl (hfired.trans (h.timed.filter_fired hf hk))) rfl)
  | @retry _ plan hf he hd hl hs ha =>
    cases hk : plan.key == k with
    | true =>
      have hst := (Table.contains_congr s.roster.starting hk).symm.trans hs
      exact .retry (mem_fired_course.2 ⟨plan, hf, hk, he.symm⟩) hst ha
        ⟨Course.ext rfl (by simp [course, hk]) rfl hfired, by simp [Happening.begun?, hk], rfl⟩
    | false =>
      have hother := h.timed.filter_fired (k := k) hf fun hp => by simp [hk] at hp
      exact .rest ⟨Course.ext rfl (by simp [course, hk]) rfl (hfired.trans hother),
        by simp [Happening.begun?, hk], rfl⟩
  | @unhook _ retries sleeper hu =>
    cases sleeper with
    | none =>
      have hretries := h.timed.sound.entryOf_lapsed hu k
      exact .rest (hshows rfl (Course.ext rfl rfl hretries (by simp [course])) rfl)
    | some x =>
      have hretries := h.timed.sound.entryOf_started hu k
      obtain ⟨hx, hawake, hname⟩ := RetryScheduler.of_started h.timed.sound hu
      have hkey := h.aimed.key hx
      cases hk : x.key == k with
      | true =>
        rw [RetryScheduler.timer?_congr hk] at hname
        have hdue := h.timed.sound.due?_eq hx hname
        have hepoch := h.aimed.epoch hdue
        rw [hk, if_pos rfl, h.timed.sound.entryOf_eq_some hx hname] at hretries
        refine @Happening.Turns.fire _ _ timer _ _ ((pending_course s k).trans hdue)
          (h.aimed.awake hx hawake) (hshows rfl (Course.ext rfl rfl ?_ ?_) rfl)
        · rw [count_course]
          exact hretries
        · simp [course, hkey, hk, hepoch]
      | false =>
        rw [hk] at hretries
        exact .rest (hshows rfl (Course.ext rfl rfl hretries (by simp [course, hkey, hk])) rfl)
  | attempt _ hg => cases hg
  | call _ hg => cases hg
  | errand _ _ _ hg => cases hg
  | client _ hg => cases hg

/-- Every step gives the course of an instance one of the turns. -/
theorem Move.turns (hm : s.Move l s' effects) (h : s.Regular) (k : InstanceKey) :
    (⟨s, l, effects, s'⟩ : Happening).Turns k := by
  have hshows {c : Course} := hm.shows h.coherent (k := k) (c := c)
  cases hm with
  | attempt ha hg =>
    exact .rest (hshows (by rw [Table.size_insert, Table.contains_iff.2 ⟨_, ha⟩]; rfl) rfl
      (by cases hg <;> rfl))
  | connected ha =>
    exact .rest (hshows (by rw [Table.size_insert, Table.contains_iff.2 ⟨_, ha⟩]; rfl) rfl rfl)
  | settle ha hst hr =>
    exact Move.turns_settle (.settle ha hst hr) h rfl ha hst hr rfl rfl
      (by rw [Table.size_insert, Table.contains_iff.2 ⟨_, ha⟩]; rfl) rfl k
  | call _ hg => exact .rest (hshows rfl rfl hg.numbers)
  | errand _ _ _ hg => exact .rest (hshows rfl rfl (by cases hg <;> rfl))
  | client _ hg => exact .rest (hshows rfl rfl (by cases hg <;> rfl))
  | reserve hc hst hfree hl hs => exact Move.turns_call (.reserve hc hst hfree hl hs) h k
  | forgetBroken hc hst hr => exact Move.turns_call (.forgetBroken hc hst hr) h k
  | forgetRetries hc hst => exact Move.turns_call (.forgetRetries hc hst) h k
  | shutDown hc hst hr => exact Move.turns_call (.shutDown hc hst hr) h k
  | @fault id c =>
    cases hk : c.key == k with
    | true => exact .fault (hshows rfl (Course.ext (by simp [course, hk]) rfl rfl rfl) rfl)
    | false => exact .rest (hshows rfl (Course.ext (by simp [course, hk]) rfl rfl rfl) rfl)
  | drop hf hd => exact Move.turns_timer (.drop hf hd) h k
  | retry hf he hd hl hs ha => exact Move.turns_timer (.retry hf he hd hl hs ha) h k
  | unhook hu => exact Move.turns_timer (.unhook hu) h k
  | wake hw =>
    exact .rest (hshows rfl (Course.ext rfl rfl (h.timed.sound.entryOf_wake? hw k) rfl) rfl)
  | _ => exact .rest (hshows rfl rfl rfl)

end Shows

section Preservation

lemma Move.now_le (hm : s.Move l s' effects) : s.now ≤ s'.now := by
  cases hm with
  | advance h => exact h
  | _ => exact Nat.le_refl _

/-- A timer is aimed after a step if all were before. -/
theorem Move.aimed_sleeper (hm : s.Move l s' effects) (ht : s.Timed) (h : s.Aimed)
    {x : Sleeper RetryPlan} (hx : x ∈ s'.roster.retries.sleepers) :
    x.action.key = x.key ∧ (x.awake = true → x.due ≤ s.now) := by
  have old (hx : x ∈ s.roster.retries.sleepers) :
      x.action.key = x.key ∧ (x.awake = true → x.due ≤ s.now) :=
    ⟨h.key hx, h.awake hx⟩
  cases hm with
  | @settle _ a _ _ _ _ _ hr =>
    cases hr with
    | started | unavailable => exact old (RetryScheduler.mem_sleepers_clear _ hx)
    | failed =>
      obtain ⟨-, he⟩ | ⟨delay, -, he⟩ :=
        s.roster.retries.schedule_cases s.now a.key ⟨a.key, s.roster.epoch⟩
      · dsimp only at hx
        rw [he] at hx
        exact old hx
      · dsimp only at hx
        rw [he] at hx
        obtain hx | hx := List.mem_append.1 hx
        · exact old (List.mem_filter.1 hx).1
        · obtain rfl := List.mem_singleton.1 hx
          exact ⟨rfl, nofun⟩
    | _ => exact old hx
  | forgetRetries => exact old (RetryScheduler.mem_sleepers_clearServer _ hx)
  | shutDown => exact old (RetryScheduler.mem_sleepers_cancelAll hx)
  | unhook hu => exact old ((RetryScheduler.unhook?_eq hu).2.2.2.1 x hx)
  | wake hw =>
    refine ⟨?_, fun ha => RetryScheduler.due_of_wake? ht.sound hw hx ha h.awake⟩
    unfold RetryScheduler.wake? at hw
    split at hw
    · cases hw
      obtain ⟨y, hy, rfl⟩ := List.mem_map.1 hx
      have hkey := h.key hy
      split <;> exact hkey
    · cases hw
  | _ => exact old hx

lemma Aimed.move (h : s.Aimed) (hr : s.Regular) (hm : s.Move l s' effects) : s'.Aimed := by
  refine ⟨fun hx => (hm.aimed_sleeper hr.timed h hx).1, fun {k due plan} hdue => ?_,
    fun hx ha => ((hm.aimed_sleeper hr.timed h hx).2 ha).trans hm.now_le⟩
  obtain he | he := hm.epoch_cases
  · have hold : (s.course k).pending = some (due, plan) → plan.epoch = s.roster.epoch :=
      fun hp => h.epoch ((pending_course s k).symm.trans hp)
    rw [he]
    rw [← pending_course] at hdue
    -- what is pending was pending before, or has been scheduled in this epoch
    cases hm.turns hr k with
    | rest hx | route _ _ hx | retry _ _ _ hx | pass _ _ _ _ hx | drop _ _ hx | discard _ _ hx
    | fault hx | forgetBroken _ hx =>
      rw [show s'.course k = _ from hx.course] at hdue
      exact hold hdue
    | fire _ _ hx | succeed _ _ _ hx | forgetRetries _ hx | shutDown _ hx =>
      rw [show s'.course k = _ from hx.course] at hdue
      cases hdue
    | fail _ _ hepoch hx =>
      rw [show s'.course k = _ from hx.course] at hdue
      simp only [Course.pending, Option.bind_some, RetryEntry.schedule] at hdue
      split at hdue
      · cases hdue
        exact hepoch
      · refine hold ?_
        unfold Course.pending
        cases hretries : (s.course k).retries with
        | none =>
          rw [hretries] at hdue
          cases hdue
        | some e =>
          rw [hretries] at hdue
          exact hdue
  · rw [he] at hdue
    cases hdue

lemma Regular.move (h : s.Regular) (hm : s.Move l s' effects) : s'.Regular where
  coherent := h.coherent.move hm
  exclusive := hm.exclusive h.coherent h.exclusive
  timed := h.timed.move hm
  rooted := h.rooted.move h.coherent hm
  aimed := h.aimed.move h hm

lemma regular_create (settings : Settings) (surroundings : Surroundings) (delays : List Nat)
    (disabled : List String) : (create settings surroundings delays disabled).Regular where
  coherent := coherent_create _ _ _ _
  exclusive := exclusive_create _ _ _ _
  timed := timed_create _ _ _ _
  rooted := rooted_create _ _ _ _
  aimed := ⟨nofun, nofun, nofun⟩

end Preservation

end State

lemma Run.regular {s t : State} {run : List Happening} (h : Run s run t) (hs : s.Regular) :
    t.Regular :=
  h.invariant hs State.Regular.move

end ServerFleet.Manager
