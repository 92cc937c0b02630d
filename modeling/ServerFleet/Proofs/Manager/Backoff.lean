import ServerFleet.Proofs.Manager.Course

/-!
The budget of the retries and the times at which they begin. As long as every attempt for an
instance fails, an attempt, a pending retry and a retry that has fired exclude each other, so each
failure leads to at most one further attempt, and the count of the retries is used up one by one.
Only a reset that is halfway, or one that passes over a retry that has fired, can spoil this.
-/

namespace ServerFleet.Manager

namespace Course

variable {c : Course}

/-- At most one attempt or retry is under way for an instance. A retry is under way only if the
instance is broken and the retry is counted. An instance that is not broken has had no retries. -/
structure Orderly (c : Course) : Prop where
  alone : c.starting.toNat + c.waiting ≤ 1
  marked : 0 < c.waiting → c.broken = true ∧ 0 < c.count
  fresh : c.broken = false → c.count = 0

/-- Whether routing may begin an attempt. -/
def isOpen (c : Course) : Bool := !c.broken && !c.starting

/-- The number of the attempts that can still begin while all of them fail. -/
def room (budget : Nat) (c : Course) : Nat := c.isOpen.toNat + c.waiting + (budget - c.count)

/-- A retry that is due at a time is pending, or has fired and that time is over. -/
inductive Waits (c : Course) (now due : Nat) : Prop
  | pending {plan : RetryPlan} (h : c.pending = some (due, plan))
  | fired {timer : Nat} (h : timer ∈ c.fired) (hd : due ≤ now)

lemma orderly_blank : blank.Orderly := ⟨Nat.zero_le 1, nofun, fun _ => rfl⟩

lemma Orderly.waiting_eq_zero (h : c.Orderly) (hb : c.broken = false) : c.waiting = 0 := by
  refine Nat.eq_zero_of_not_pos fun hpos => ?_
  exact Bool.false_ne_true (hb.symm.trans (h.marked hpos).1)

lemma Orderly.room_le (h : c.Orderly) (budget : Nat) : c.room budget ≤ budget + 1 := by
  have halone := h.alone
  unfold room isOpen
  cases hb : c.broken with
  | false =>
    have hwaiting := h.waiting_eq_zero hb
    cases c.starting <;> simp <;> omega
  | true =>
    simp only [Bool.not_true, Bool.false_and, Bool.toNat_false]
    by_cases hpos : 0 < c.waiting
    · have hcount := (h.marked hpos).2
      omega
    · omega

lemma retries_getD (c : Course) : c.retries.getD ⟨0, none⟩ = ⟨c.count, c.pending⟩ := by
  unfold count pending
  cases c.retries <;> rfl

/-- The next retry is scheduled, unless the budget is spent. -/
theorem schedule_cases (c : Course) (delays : List Nat) (now : Nat) (plan : RetryPlan) :
    (∃ delay, delays[c.count]? = some delay ∧
      (c.retries.getD ⟨0, none⟩).schedule delays now plan =
        ⟨c.count + 1, some (now + delay, plan)⟩) ∨
    (delays.length ≤ c.count ∧
      (c.retries.getD ⟨0, none⟩).schedule delays now plan = ⟨c.count, c.pending⟩) := by
  rw [retries_getD]
  unfold RetryEntry.schedule
  cases hd : delays[c.count]? with
  | some delay => exact .inl ⟨delay, rfl, by simp only⟩
  | none => exact .inr ⟨List.getElem?_eq_none_iff.1 hd, by simp only⟩

/-- An instance that is being started has no retry under way. -/
theorem Orderly.of_starting (h : c.Orderly) (hs : c.starting = true) :
    c.pending = none ∧ c.fired = [] := by
  have halone := h.alone
  rw [hs, Bool.toNat_true] at halone
  unfold waiting at halone
  have hlength : c.fired.length = 0 := by omega
  refine ⟨?_, List.eq_nil_of_length_eq_zero hlength⟩
  cases hp : c.pending with
  | none => rfl
  | some p =>
    rw [hp] at halone
    simp at halone

/-- A retry that has fired is alone. -/
theorem Orderly.of_fired (h : c.Orderly) {timer : Nat} (ht : timer ∈ c.fired) :
    c.starting = false ∧ c.pending = none ∧ c.fired = [timer] := by
  have halone := h.alone
  have hpos := List.length_pos_of_mem ht
  unfold waiting at halone
  have hlength : c.fired.length = 1 := by omega
  refine ⟨?_, ?_, ?_⟩
  · cases hs : c.starting with
    | false => rfl
    | true =>
      rw [hs, Bool.toNat_true] at halone
      omega
  · cases hp : c.pending with
    | none => rfl
    | some p =>
      simp only [hp, Option.isSome_some, Bool.toNat_true] at halone
      omega
  · obtain ⟨id, hid⟩ := List.length_eq_one_iff.1 hlength
    rw [hid] at ht ⊢
    rw [List.mem_singleton.1 ht]

/-- A retry that is pending is alone. -/
theorem Orderly.of_pending (h : c.Orderly) {p : Nat × RetryPlan} (hp : c.pending = some p) :
    c.starting = false ∧ c.fired = [] := by
  have halone := h.alone
  unfold waiting at halone
  rw [hp, Option.isSome_some, Bool.toNat_true] at halone
  refine ⟨?_, List.eq_nil_of_length_eq_zero (by omega)⟩
  cases hs : c.starting with
  | false => rfl
  | true =>
    rw [hs, Bool.toNat_true] at halone
    omega

/-- What a step makes of the course of an instance while its attempts fail: what can still begin
becomes less by what begins, and the retries are announced by the count. -/
structure Advances (budget : Nat) (c c' : Course) (begun : Option Bool) (announced : List Nat) :
    Prop where
  orderly : c'.Orderly
  room : c'.room budget + begun.isSome.toNat ≤ c.room budget
  isOpen : c'.isOpen.toNat + (begun.any (!·)).toNat ≤ c.isOpen.toNat
  count_le : c.count ≤ c'.count
  announced_eq : announced = List.range' (c.count + 1) (c'.count - c.count)
  counted : ∀ i ∈ announced, i = c'.count
  broken : c.broken = true → c'.broken = true

section Advances

variable {c' : Course} {budget : Nat}

lemma Advances.of_quiet (ho : c'.Orderly) (hr : c'.room budget ≤ c.room budget)
    (hf : c'.isOpen.toNat ≤ c.isOpen.toNat) (hc : c'.count = c.count)
    (hb : c.broken = true → c'.broken = true) : Advances budget c c' none [] where
  orderly := ho
  room := hr
  isOpen := hf
  count_le := Nat.le_of_eq hc.symm
  announced_eq := by simp [hc]
  counted := nofun
  broken := hb

lemma Orderly.advances_route (h : c.Orderly) (hb : c.broken = false) (hs : c.starting = false) :
    Advances budget c { c with starting := true } (some false) [] where
  orderly := ⟨Nat.le_of_eq (congrArg (1 + ·) (h.waiting_eq_zero hb)), h.marked, h.fresh⟩
  room := by
    show (!c.broken && !true).toNat + c.waiting + (budget - c.count) + 1 ≤
      (!c.broken && !c.starting).toNat + c.waiting + (budget - c.count)
    simp only [hb, hs, Bool.not_true, Bool.and_false, Bool.not_false, Bool.and_self,
      Bool.toNat_false, Bool.toNat_true]
    omega
  isOpen := by simp [Course.isOpen, hb, hs]
  count_le := Nat.le_refl _
  announced_eq := by simp [count]
  counted := nofun
  broken := id

lemma Orderly.advances_fire (h : c.Orderly) {p : Nat × RetryPlan} (hp : c.pending = some p)
    (timer : Nat) : Advances budget c
      { c with retries := some ⟨c.count, none⟩, fired := c.fired ++ [timer] } none [] := by
  obtain ⟨hs, hf⟩ := h.of_pending hp
  have hwaiting : c.waiting = 1 := by
    unfold waiting
    rw [hp, hf]
    rfl
  have hwaiting' : waiting
      { c with retries := some ⟨c.count, none⟩, fired := c.fired ++ [timer] } = 1 := by
    rw [hf]
    rfl
  have hmarked := h.marked (hwaiting.symm ▸ Nat.one_pos)
  refine .of_quiet ⟨?_, fun _ => hmarked, h.fresh⟩ ?_ (Nat.le_refl _) rfl id
  · rw [hwaiting', hs]
    exact Nat.le_refl _
  · exact Nat.le_of_eq (by unfold room; rw [hwaiting', hwaiting]; rfl)

/-- A retry that has fired and is gone leaves nothing under way. -/
theorem Orderly.waiting_filter (h : c.Orderly) {timer : Nat} (ht : timer ∈ c.fired)
    (starting : Bool) : c.waiting = 1 ∧
      waiting { c with starting, fired := c.fired.filter (· ≠ timer) } = 0 := by
  obtain ⟨-, hp, hf⟩ := h.of_fired ht
  have hfilter : c.fired.filter (· ≠ timer) = [] := by simp [hf]
  constructor
  · unfold waiting
    rw [hp, hf]
    rfl
  · unfold waiting pending at *
    dsimp only
    rw [hp, hfilter]
    rfl

lemma Orderly.advances_retry (h : c.Orderly) {timer : Nat} (ht : timer ∈ c.fired) :
    Advances budget c { c with starting := true, fired := c.fired.filter (· ≠ timer) }
      (some true) [] := by
  obtain ⟨hwaiting, hwaiting'⟩ := h.waiting_filter ht true
  obtain ⟨hb, -⟩ := h.marked (hwaiting.symm ▸ Nat.one_pos)
  refine ⟨⟨?_, fun hpos => ?_, h.fresh⟩, ?_, ?_, Nat.le_refl _, by simp [count], nofun, id⟩
  · rw [hwaiting']
    exact Nat.le_refl _
  · rw [hwaiting'] at hpos
    exact absurd hpos (Nat.lt_irrefl 0)
  · unfold room Course.isOpen
    rw [hwaiting, hwaiting']
    simp [hb, count, Nat.add_comm]
  · simp [Course.isOpen, hb]

lemma Orderly.advances_pass (h : c.Orderly) {timer : Nat} (ht : timer ∈ c.fired) :
    Advances budget c { c with fired := c.fired.filter (· ≠ timer) } none [] := by
  obtain ⟨hwaiting, hwaiting'⟩ := h.waiting_filter ht c.starting
  refine .of_quiet ⟨?_, fun hpos => ?_, h.fresh⟩ ?_ (Nat.le_refl _) rfl id
  · rw [hwaiting', (h.of_fired ht).1]
    exact Nat.zero_le 1
  · rw [hwaiting'] at hpos
    exact absurd hpos (Nat.lt_irrefl 0)
  · unfold room
    rw [hwaiting']
    exact Nat.add_le_add_right (Nat.add_le_add_left (Nat.zero_le _) _) _

lemma Orderly.waiting_of_starting (h : c.Orderly) (hs : c.starting = true) : c.waiting = 0 := by
  obtain ⟨hp, hf⟩ := h.of_starting hs
  unfold waiting
  rw [hp, hf]
  rfl

lemma Orderly.advances_drop (h : c.Orderly) (hs : c.starting = true) :
    Advances budget c { c with broken := true, starting := false } none [] := by
  have hwaiting := h.waiting_of_starting hs
  refine .of_quiet ⟨?_, fun hpos => ?_, nofun⟩ ?_ ?_ rfl (fun _ => rfl)
  · exact (Nat.le_of_eq (congrArg (0 + ·) hwaiting)).trans (Nat.zero_le 1)
  · exact absurd hpos (Nat.not_lt.2 (Nat.le_of_eq hwaiting))
  · unfold room Course.isOpen
    simp only [hs, Bool.not_true, Bool.and_false, Bool.false_and, Bool.toNat_false]
    exact Nat.le_refl _
  · simp [Course.isOpen]

lemma Orderly.advances_fail (h : c.Orderly) (hs : c.starting = true) (delays : List Nat)
    (now : Nat) (plan : RetryPlan) : Advances delays.length c
      { c with
        broken := true
        starting := false
        retries := some ((c.retries.getD ⟨0, none⟩).schedule delays now plan) } none
      (if c.count < delays.length then [c.count + 1] else []) := by
  obtain ⟨hp, hf⟩ := h.of_starting hs
  have hwaiting := h.waiting_of_starting hs
  obtain ⟨delay, hdelay, hschedule⟩ | ⟨hle, hschedule⟩ := c.schedule_cases delays now plan
  · have hlt := (List.getElem?_eq_some_iff.1 hdelay).1
    rw [hschedule, if_pos hlt]
    have hwaiting' : waiting ⟨true, false, some ⟨c.count + 1, some (now + delay, plan)⟩,
        c.fired⟩ = 1 := by
      rw [hf]
      rfl
    refine ⟨⟨?_, fun _ => ⟨rfl, Nat.succ_pos _⟩, nofun⟩, ?_, ?_, Nat.le_succ _, ?_, ?_,
      fun _ => rfl⟩
    · rw [hwaiting']
      exact Nat.le_refl _
    · unfold room
      rw [hwaiting, hwaiting']
      show 0 + 1 + (delays.length - (c.count + 1)) + 0 ≤ _
      omega
    · simp [Course.isOpen]
    · show _ = List.range' (c.count + 1) (c.count + 1 - c.count)
      simp
    · simp [count]
  · rw [hschedule, if_neg (Nat.not_lt.2 hle), hp]
    have hwaiting' : waiting ⟨true, false, some ⟨c.count, none⟩, c.fired⟩ = 0 := by
      rw [hf]
      rfl
    refine .of_quiet ⟨?_, fun hpos => ?_, nofun⟩ ?_ (by simp [Course.isOpen]) rfl fun _ => rfl
    · rw [hwaiting']
      exact Nat.zero_le 1
    · exact absurd hpos (Nat.not_lt.2 (Nat.le_of_eq hwaiting'))
    · unfold room
      rw [hwaiting']
      show 0 + 0 + (delays.length - c.count) ≤ _
      omega

lemma Orderly.advances_fault (h : c.Orderly) :
    Advances budget c { c with broken := true } none [] := by
  refine .of_quiet ⟨h.alone, fun hpos => ⟨rfl, (h.marked hpos).2⟩, nofun⟩ ?_ ?_ rfl fun _ => rfl
  · unfold room Course.isOpen
    simp only [Bool.not_true, Bool.false_and, Bool.toNat_false]
    exact Nat.add_le_add_right (Nat.add_le_add_right (Nat.zero_le _) _) _
  · simp [Course.isOpen]

end Advances

end Course

namespace Happening

open Course

/-- A step in which no attempt for an instance ends but by failing, and in which neither a shutdown
nor a reset of its server takes part. -/
structure Persistent (x : Happening) (k : InstanceKey) : Prop where
  fails : ∀ {o}, x.Concludes k o → o = .failed
  not_shutDown : ¬ x.ShutsDown
  not_forgetsBroken : ¬ x.ForgetsBroken k.serverId
  not_forgetsRetries : ¬ x.ForgetsRetries k.serverId

variable {x : Happening} {k : InstanceKey}

lemma Shows.advances {budget : Nat} {c' : Course} {begun : Option Bool} {numbers : List Nat}
    (h : x.Shows k c' begun numbers)
    (ha : Advances budget (x.before.course k) c' begun numbers) :
    Advances budget (x.before.course k) (x.after.course k) ((x.begun? k).map (·.byRetry))
      (x.numbers k) := by
  rw [h.course, h.begun, h.numbers]
  exact ha

lemma Turns.advances (h : x.Turns k) (hp : x.Persistent k) (ho : (x.before.course k).Orderly) :
    Advances x.before.roster.retries.delays.length (x.before.course k) (x.after.course k)
      ((x.begun? k).map (·.byRetry)) (x.numbers k) := by
  cases h with
  | rest hx => exact hx.advances (.of_quiet ho (Nat.le_refl _) (Nat.le_refl _) rfl id)
  | route hb hs hx => exact hx.advances (ho.advances_route hb hs)
  | fire hpending _ hx => exact hx.advances (ho.advances_fire hpending _)
  | retry ht _ _ hx => exact hx.advances (ho.advances_retry ht)
  | pass hr hk he _ hx =>
    exact hx.advances (ho.advances_pass (State.mem_fired_course.2 ⟨_, hr.2, hk, he⟩))
  | fail _ hs _ hx => exact hx.advances (ho.advances_fail hs _ _ _)
  | drop _ hs hx => exact hx.advances (ho.advances_drop hs)
  | discard hx => cases hp.fails hx
  | succeed hx hne => exact absurd (hp.fails hx) hne
  | fault hx => exact hx.advances ho.advances_fault
  | forgetBroken hx => exact absurd hx hp.not_forgetsBroken
  | forgetRetries hx => exact absurd hx hp.not_forgetsRetries
  | shutDown hx => exact absurd hx hp.not_shutDown

/-- Whatever a step does, it keeps the course of an instance in order, unless a reset of the server
takes part. -/
theorem Turns.orderly (h : x.Turns k) (ho : (x.before.course k).Orderly)
    (hb : ¬ x.ForgetsBroken k.serverId) (hr : ¬ x.ForgetsRetries k.serverId) :
    (x.after.course k).Orderly := by
  cases h with
  | rest hx => exact hx.course ▸ ho
  | route hbr hs hx => exact hx.course ▸ @Advances.orderly 0 _ _ _ _ (ho.advances_route hbr hs)
  | fire hp _ hx => exact hx.course ▸ @Advances.orderly 0 _ _ _ _ (ho.advances_fire hp _)
  | retry ht _ _ hx => exact hx.course ▸ @Advances.orderly 0 _ _ _ _ (ho.advances_retry ht)
  | pass hr hk he _ hx =>
    rw [hx.course]
    have hfired := State.mem_fired_course.2 ⟨_, hr.2, hk, he⟩
    exact @Advances.orderly 0 _ _ _ _ (ho.advances_pass hfired)
  | fail _ hs _ hx => exact hx.course ▸ (ho.advances_fail hs _ _ _).orderly
  | drop _ hs hx => exact hx.course ▸ @Advances.orderly 0 _ _ _ _ (ho.advances_drop hs)
  | discard _ hs hx =>
    rw [hx.course]
    refine ⟨?_, ho.marked, ho.fresh⟩
    exact (Nat.le_of_eq (congrArg (0 + ·) (ho.waiting_of_starting hs))).trans (Nat.zero_le 1)
  | succeed _ _ hs hx =>
    rw [hx.course, (ho.of_starting hs).2]
    exact orderly_blank
  | fault hx => exact hx.course ▸ @Advances.orderly 0 _ _ _ _ ho.advances_fault
  | forgetBroken hx => exact absurd hx hb
  | forgetRetries hx => exact absurd hx hr
  | shutDown _ hx =>
    rw [hx.course]
    exact orderly_blank

end Happening

section Runs

variable {settings : Settings} {surroundings : Surroundings} {delays : List Nat}
  {disabled : List String} {earlier later run : List Happening} {s t : State} {k : InstanceKey}

/-- A reset that forgets the retries of an instance leaves those that have fired. -/
theorem State.Move.course_forgetsRetries {l : Label} {effects : List Effect}
    (hm : s.Move l t effects) (h : s.Regular)
    (hx : (⟨s, l, effects, t⟩ : Happening).ForgetsRetries k.serverId) :
    t.course k = { s.course k with retries := none } ∧ t.roster.epoch = s.roster.epoch := by
  obtain ⟨call, c, cleared, hl, hc, hst⟩ := Happening.forgetsRetries_iff.1 hx
  dsimp only at hl hc
  subst hl
  cases hm with
  | forgetRetries hc' hst' =>
    cases hc.symm.trans hc'
    cases hst.symm.trans hst'
    have hretries := h.timed.sound.entryOf_perform s.now (.clearServer k.serverId) k
    rw [RetryEntry.call, beq_self_eq_true, if_pos rfl] at hretries
    exact ⟨Course.ext rfl rfl hretries rfl, rfl⟩
  | call hc' hg =>
    cases hg with
    | answer h =>
      cases hc.symm.trans hc'
      simp [hst] at h
    | _ h =>
      cases hc.symm.trans hc'
      cases hst.symm.trans h
  | reserve hc' h | enable hc' h | disable hc' h | forgetBroken hc' h | shutDown hc' h =>
    cases hc.symm.trans hc'
    cases hst.symm.trans h
  | attempt _ hg => cases hg
  | errand _ _ _ hg => cases hg
  | client _ hg => cases hg

/-- The resets of the server of an instance are over: each of this epoch has gone all its way, and
none has passed over a retry of this epoch that had fired. -/
structure ResetsOver (run : List Happening) (s : State) (k : InstanceKey) : Prop where
  whole : ∀ before x after, run = before ++ x :: after → x.ForgetsBroken k.serverId →
    x.before.roster.epoch = s.roster.epoch → ∃ y ∈ after, y.ForgetsRetries k.serverId
  clean : ∀ x ∈ run, x.ForgetsRetries k.serverId → ∀ p ∈ x.before.fired, (p.2.key == k) = true →
    p.2.epoch ≠ s.roster.epoch

lemma Run.orderly (h : Run (.create settings surroundings delays disabled) run s)
    (hk : ResetsOver run s k) : (s.course k).Orderly := by
  have hcreate := State.regular_create settings surroundings delays disabled
  induction h with
  | start => exact Course.orderly_blank
  | @next run t u l effects h hn ih =>
    have ht := h.regular hcreate
    have hm := hn.move
    by_cases hr : (⟨t, l, effects, u⟩ : Happening).ForgetsRetries k.serverId
    · -- after such a step nothing is under way but perhaps an attempt
      obtain ⟨hcourse, hepoch⟩ := hm.course_forgetsRetries ht hr
      have hfired : (t.course k).fired = [] := by
        refine List.eq_nil_iff_forall_not_mem.2 fun timer hmem => ?_
        obtain ⟨plan, hp, hpk, hpe⟩ := State.mem_fired_course.1 hmem
        exact hk.clean _ (List.mem_append_right _ (List.mem_singleton.2 rfl)) hr _ hp hpk
          (hpe.trans hepoch.symm)
      rw [hcourse]
      refine ⟨?_, fun hpos => ?_, fun _ => rfl⟩
      · rw [show Course.waiting { t.course k with retries := none } = 0 by
          unfold Course.waiting; rw [hfired]; rfl]
        exact (t.course k).starting.toNat_le
      · rw [show Course.waiting { t.course k with retries := none } = 0 by
          unfold Course.waiting; rw [hfired]; rfl] at hpos
        exact absurd hpos (Nat.lt_irrefl 0)
    obtain hepoch | hshut := hm.epoch_cases
    · have hb : ¬ (⟨t, l, effects, u⟩ : Happening).ForgetsBroken k.serverId := by
        intro hb
        obtain ⟨y, hy, -⟩ := hk.whole run _ [] rfl hb hepoch.symm
        cases hy
      refine (hm.turns ht k).orderly (ih ⟨?_, ?_⟩) hb hr
      · rintro before x after rfl hx he
        obtain ⟨y, hy, hyr⟩ := hk.whole before x (after ++ [⟨t, l, effects, u⟩]) (by simp) hx
          (he.trans hepoch.symm)
        obtain hy | hy := List.mem_append.1 hy
        · exact ⟨y, hy, hyr⟩
        · obtain rfl := List.mem_singleton.1 hy
          exact absurd hyr hr
      · intro x hx hxr p hp hpk
        rw [← hepoch]
        exact hk.clean x (List.mem_append_left _ hx) hxr p hp hpk
    · rw [ht.course_of_shutDown hshut fun p hp => ?_]
      · exact Course.orderly_blank
      obtain hf | ⟨timer, retries, sleeper, -, rfl⟩ := hm.fired_cases
      · exact hf.subset hp
      · exact absurd (congrArg Roster.epoch hshut) (Nat.ne_of_lt (Nat.lt_succ_self _))

/-- A state in which the retries of an instance go on in order and within the budget. -/
structure State.Paced (s : State) (k : InstanceKey) : Prop where
  regular : s.Regular
  bounded : s.roster.retries.Bounded
  orderly : (s.course k).Orderly

lemma State.Paced.move {s' : State} {l : Label} {effects : List Effect} (h : s.Paced k)
    (hm : s.Move l s' effects) (hp : (⟨s, l, effects, s'⟩ : Happening).Persistent k) :
    s'.Paced k :=
  ⟨h.regular.move hm, (hm.bounded h.bounded).1,
    ((hm.turns h.regular k).advances hp h.orderly).orderly⟩

lemma Run.paced (h : Run t run s) (ht : t.Paced k) (hp : ∀ x ∈ run, x.Persistent k) :
    s.Paced k := by
  induction h with
  | start => exact ht
  | next h hn ih =>
    exact (ih fun x hx => hp x (List.mem_append_left _ hx)).move hn.move
      (hp _ (List.mem_append_right _ (List.mem_singleton.2 rfl)))

/-- What is left of the budget of an instance in a run in which its attempts fail. -/
structure Spends (k : InstanceKey) (t : State) (run : List Happening) (s : State) : Prop where
  orderly : (s.course k).Orderly
  room : (s.course k).room t.roster.retries.delays.length +
    run.countP (fun x => (x.begun? k).isSome) ≤ (t.course k).room t.roster.retries.delays.length
  isOpen : (s.course k).isOpen.toNat + run.countP (fun x => (x.begun? k).any (!·.byRetry)) ≤
    (t.course k).isOpen.toNat
  count_le : (t.course k).count ≤ (s.course k).count
  announced : run.flatMap (·.numbers k) =
    List.range' ((t.course k).count + 1) ((s.course k).count - (t.course k).count)
  broken : (t.course k).broken = true → (s.course k).broken = true

lemma countP_singleton_eq {α : Type} (p : α → Bool) (a : α) : [a].countP p = (p a).toNat := by
  cases hp : p a <;> simp [hp]

lemma Run.spends (h : Run t run s) (ht : t.Paced k) (hp : ∀ x ∈ run, x.Persistent k) :
    Spends k t run s := by
  induction h with
  | start => exact ⟨ht.orderly, Nat.le_refl _, Nat.le_refl _, Nat.le_refl _, by simp, id⟩
  | @next run u s l effects h hn ih =>
    have hrun := ih fun x hx => hp x (List.mem_append_left _ hx)
    have hstep := (hn.move.turns (h.regular ht.regular) k).advances
      (hp _ (List.mem_append_right _ (List.mem_singleton.2 rfl))) hrun.orderly
    rw [show (⟨u, l, effects, s⟩ : Happening).before.roster.retries.delays =
      t.roster.retries.delays from (h.bounded ht.bounded).2] at hstep
    have hroom := hstep.room
    have hopen := hstep.isOpen
    have hcount := hstep.count_le
    dsimp only at hroom hopen hcount
    refine ⟨hstep.orderly, ?_, ?_, hrun.count_le.trans hcount, ?_,
      fun hbr => hstep.broken (hrun.broken hbr)⟩
    · have hle := hrun.room
      rw [Option.isSome_map] at hroom
      rw [List.countP_append, countP_singleton_eq]
      omega
    · have hle := hrun.isOpen
      rw [Option.any_map] at hopen
      rw [List.countP_append, countP_singleton_eq]
      omega
    · have hle := hrun.count_le
      have hannounced := hstep.announced_eq
      dsimp only at hannounced
      rw [List.flatMap_append, hrun.announced, List.flatMap_singleton, hannounced]
      have hsplit : (s.course k).count - (t.course k).count =
          ((u.course k).count - (t.course k).count) +
            ((s.course k).count - (u.course k).count) := by omega
      rw [hsplit, ← List.range'_append]
      congr 2
      omega

end Runs

section Waiting

variable {x : Happening} {run later : List Happening} {s t : State} {k : InstanceKey} {due : Nat}

/-- What can become of a retry that is waited for: it goes on waiting, it begins an attempt when it
is due, or it is passed over then. -/
theorem Course.Waits.turns (h : (x.before.course k).Waits x.before.now due)
    (ho : (x.before.course k).Orderly) (ht : x.Turns k) (hp : x.Persistent k)
    (hn : x.before.now ≤ x.after.now) :
    ((x.after.course k).Waits x.after.now due ∧ x.begun? k = none) ∨
      due ≤ x.before.now ∧
        ((x.before.isAlive = true ∧ ∃ a, x.begun? k = some a ∧ a.byRetry = true) ∨
          x.begun? k = none ∧ ∃ timer plan, x.Retries timer plan ∧ (plan.key == k) = true ∧
            plan.epoch = x.before.roster.epoch ∧
            (x.before.isAlive = true → x.before.roster.isDisabled k.serverId = true)) := by
  have hpos : 0 < (x.before.course k).waiting := by
    unfold Course.waiting
    cases h with
    | pending h => simp [h]
    | fired h => exact Nat.add_pos_right _ (List.length_pos_of_mem h)
  have hbroken := (ho.marked hpos).1
  have hstarting : (x.before.course k).starting = false := by
    cases h with
    | pending h => exact (ho.of_pending h).1
    | fired h => exact (ho.of_fired h).1
  have keep {c : Course} (hr : c.pending = (x.before.course k).pending)
      (hf : c.fired = (x.before.course k).fired) : c.Waits x.after.now due := by
    cases h with
    | pending h => exact .pending (hr.trans h)
    | fired h hd => exact .fired (hf ▸ h) (hd.trans hn)
  have quiet {c : Course} {numbers : List Nat} (hx : x.Shows k c none numbers) :
      x.begun? k = none :=
    Option.map_eq_none_iff.1 hx.begun
  -- a retry that goes on is the one that is waited for, since it is alone
  have isDue {timer : Nat} (hf : timer ∈ (x.before.course k).fired) : due ≤ x.before.now := by
    cases h with
    | pending h => cases h.symm.trans (ho.of_fired hf).2.1
    | fired _ hd => exact hd
  cases ht with
  | rest hx => exact .inl ⟨hx.course ▸ keep rfl rfl, quiet hx⟩
  | route hb => cases hbroken.symm.trans hb
  | @fire timer _ _ hpending hd hx =>
    refine .inl ⟨?_, quiet hx⟩
    rw [hx.course]
    cases h with
    | pending h =>
      cases h.symm.trans hpending
      exact .fired (List.mem_append_right _ (List.mem_singleton.2 rfl)) (hd.trans hn)
    | fired hf => rw [(ho.of_pending hpending).2] at hf; cases hf
  | retry hf _ ha hx =>
    obtain ⟨a, hbegun, hretry⟩ := Option.map_eq_some_iff.1 hx.begun
    exact .inr ⟨isDue hf, .inl ⟨ha, a, hbegun, hretry⟩⟩
  | pass hr hk he hd hx =>
    have hdue := isDue (State.mem_fired_course.2 ⟨_, hr.2, hk, he⟩)
    refine .inr ⟨hdue, .inr ⟨quiet hx, _, _, hr, hk, he, fun ha => ?_⟩⟩
    obtain hdis | hb | hs := hd ha
    · exact hdis
    · cases hbroken.symm.trans hb
    · cases hstarting.symm.trans hs
  | fail _ hs | drop _ hs => cases hstarting.symm.trans hs
  | discard hx => cases hp.fails hx
  | succeed hx hne => exact absurd (hp.fails hx) hne
  | fault hx => exact .inl ⟨hx.course ▸ keep rfl rfl, quiet hx⟩
  | forgetBroken hx => exact absurd hx hp.not_forgetsBroken
  | forgetRetries hx => exact absurd hx hp.not_forgetsRetries
  | shutDown hx => exact absurd hx hp.not_shutDown

section Punctual

/-- A step that the manager makes by itself: the clock moves only when there is nothing to do, and
never past a time at which something is due. -/
def Happening.Punctual (x : Happening) : Prop :=
  x.before.step? x.label = some (x.after, x.effects)

lemma State.not_isIdle {task : TaskId} (hmem : task ∈ s.tasks)
    (h : (s.runTask task).isSome = true) : s.isIdle = false := by
  refine List.all_eq_false.2 ⟨task, hmem, ?_⟩
  obtain ⟨r, hr⟩ := Option.isSome_iff_exists.1 h
  simp [hr]

/-- A retry that has fired can go on at once. -/
theorem State.not_isIdle_of_fired {timer : Nat} {plan : RetryPlan} (h : (timer, plan) ∈ s.fired) :
    s.isIdle = false := by
  refine @not_isIdle _ (.timer timer) ?_ ?_
  · unfold tasks
    simp only [List.mem_append, List.mem_map]
    exact .inl (.inr ⟨_, h, rfl⟩)
  · have hfind : (s.fired.find? (·.1 = timer)).isSome = true := by
      rw [List.find?_isSome]
      exact ⟨_, h, by simp⟩
    obtain ⟨p, hp⟩ := Option.isSome_iff_exists.1 hfind
    simp only [runTask, runTimer, hp]
    split
    · rfl
    · split <;> rfl

/-- A timer that is awake can go on at once. -/
theorem State.not_isIdle_of_awake (ht : s.Timed) {x : Sleeper RetryPlan}
    (hx : x ∈ s.roster.retries.sleepers) (ha : x.awake = true) {k : InstanceKey}
    (hname : s.roster.retries.timer? k = some x.id) : s.isIdle = false := by
  refine @not_isIdle _ (.timer x.id) ?_ ?_
  · unfold tasks
    simp only [List.mem_append, List.mem_map]
    exact .inr ⟨x, hx, rfl⟩
  · have hfind : s.fired.find? (·.1 = x.id) = none := by
      refine List.find?_eq_none.2 fun p hp hid => ?_
      exact ht.awake hp hx (of_decide_eq_true hid).symm
    obtain ⟨y, hy, hid, hyk⟩ := ht.sound.sleeps hname
    cases ht.sound.eq_of_id hy hx hid
    obtain ⟨retries, hu⟩ := ht.sound.exists_unhook? hx ha
      ((RetryScheduler.timer?_congr hyk).trans hname)
    simp only [runTask, runTimer, hfind, hu]
    rfl

/-- When the clock moves by itself, nothing can go forward and nothing is due before. -/
theorem Happening.Punctual.clock {x : Happening} (hx : x.Punctual) :
    x.after.now = x.before.now ∨ x.before.now ≤ x.after.now ∧ x.before.isIdle = true ∧
      ∀ due ∈ x.before.dueTimes, x.after.now ≤ due := by
  obtain hnow | ⟨time, hl, hnow⟩ := (State.Next.step hx).move.now_eq
  · exact .inl hnow
  unfold Happening.Punctual at hx
  rw [hl] at hx
  simp only [State.step?, Option.ite_none_right_eq_some, Bool.and_eq_true, List.all_eq_true,
    decide_eq_true_eq] at hx
  obtain ⟨⟨⟨hle, hidle⟩, hdue⟩, -⟩ := hx
  rw [hnow]
  exact .inr ⟨hle, hidle, hdue⟩

/-- While a retry is waited for, the clock does not move past its time. -/
theorem Course.Waits.not_late (h : (x.before.course k).Waits x.before.now due) (hx : x.Punctual)
    (hr : x.before.Regular) (ha : x.before.isAlive = true) (hle : x.before.now ≤ due) :
    x.after.now ≤ due := by
  obtain hnow | ⟨-, hidle, hdue⟩ := hx.clock
  · rw [hnow]
    exact hle
  cases h with
  | pending h =>
    rw [State.pending_course] at h
    obtain ⟨y, hy, hname, -, rfl, -⟩ := hr.timed.sound.due?_eq_some h
    cases hawake : y.awake with
    | true =>
      have hbusy := State.not_isIdle_of_awake hr.timed hy hawake hname
      exact absurd (hbusy.symm.trans hidle) Bool.false_ne_true
    | false =>
      refine hdue _ (List.mem_append_right _ ?_)
      rw [if_pos ha]
      exact List.mem_map.2 ⟨y, List.mem_filter.2 ⟨hy, by simp [hawake]⟩, rfl⟩
  | fired hf =>
    obtain ⟨plan, hp, -⟩ := State.mem_fired_course.1 hf
    exact absurd ((State.not_isIdle_of_fired hp).symm.trans hidle) Bool.false_ne_true

end Punctual

/-- What becomes of a retry of an instance that is due at a time. It is waited for and no attempt
begins; or it begins the next attempt, or is passed over, not before it is due, and just then if
the manager is prompt. -/
inductive Fares (k : InstanceKey) (due : Nat) (run : List Happening) (s : State) : Prop
  | waits (hb : ∀ y ∈ run, y.begun? k = none) (hw : (s.course k).Waits s.now due)
    (ht : (∀ y ∈ run, y.Punctual) → s.isAlive = true → s.now ≤ due)
  | begins {before after : List Happening} {x : Happening} {a : Attempt}
    (h : run = before ++ x :: after) (hb : ∀ y ∈ before, y.begun? k = none)
    (hx : x.begun? k = some a) (ha : a.byRetry = true) (hle : due ≤ x.before.now)
    (ht : (∀ y ∈ run, y.Punctual) → x.before.now = due)
  | passedOver {before after : List Happening} {x : Happening} {timer : Nat} {plan : RetryPlan}
    (h : run = before ++ x :: after) (hb : ∀ y ∈ before ++ [x], y.begun? k = none)
    (hx : x.Retries timer plan) (hk : (plan.key == k) = true)
    (he : plan.epoch = x.before.roster.epoch)
    (hd : x.before.isAlive = true → x.before.roster.isDisabled k.serverId = true)
    (hle : due ≤ x.before.now)
    (ht : (∀ y ∈ run, y.Punctual) → x.before.isAlive = true → x.before.now = due)

lemma Run.fares (h : Run t run s) (ht : t.Paced k) (hp : ∀ x ∈ run, x.Persistent k)
    (hw : (t.course k).Waits t.now due) (hle : t.now ≤ due) : Fares k due run s := by
  induction h with
  | start => exact .waits (fun _ hy => absurd hy List.not_mem_nil) hw fun _ _ => hle
  | @next run u s l effects h hn ih =>
    have hrun : ∀ x ∈ run, x.Persistent k := fun x hx => hp x (List.mem_append_left _ hx)
    have hlast : (⟨u, l, effects, s⟩ : Happening) ∈ run ++ [⟨u, l, effects, s⟩] :=
      List.mem_append_right _ (List.mem_singleton.2 rfl)
    have prefixed (hall : ∀ y ∈ run ++ [(⟨u, l, effects, s⟩ : Happening)], y.Punctual) :
        ∀ y ∈ run, y.Punctual :=
      fun y hy => hall y (List.mem_append_left _ hy)
    have longer {before after : List Happening} {y z : Happening} (h : run = before ++ y :: after) :
        run ++ [z] = before ++ y :: (after ++ [z]) := by
      simp [h]
    cases ih hrun with
    | begins hsplit hbefore hy hbegun hdue htime =>
      exact .begins (longer hsplit) hbefore hy hbegun hdue fun hall => htime (prefixed hall)
    | passedOver hsplit hbefore hy hk he hd hdue htime =>
      exact .passedOver (longer hsplit) hbefore hy hk he hd hdue fun hall => htime (prefixed hall)
    | waits hbefore hwaits htime =>
      have hu := h.paced ht hrun
      have hturns := hwaits.turns (x := ⟨u, l, effects, s⟩) hu.orderly
        (hn.move.turns hu.regular k) (hp _ hlast) hn.move.now_le
      obtain ⟨hwaits', hnone⟩ | ⟨hdue, ⟨ha, a, hbegun, hretry⟩ | hpassed⟩ := hturns
      · refine .waits (fun y hy => ?_) hwaits' fun hall ha => ?_
        · obtain hy | hy := List.mem_append.1 hy
          · exact hbefore y hy
          · exact List.mem_singleton.1 hy ▸ hnone
        · have hbefore' := hn.move.isAlive_of ha
          exact hwaits.not_late (x := ⟨u, l, effects, s⟩) (hall _ hlast) hu.regular hbefore'
            (htime (prefixed hall) hbefore')
      · exact .begins rfl hbefore hbegun hretry hdue fun hall =>
          Nat.le_antisymm (htime (prefixed hall) ha) hdue
      · obtain ⟨hnone, timer, plan, hx, hk, he, hd⟩ := hpassed
        refine .passedOver rfl (fun y hy => ?_) hx hk he hd hdue fun hall ha =>
          Nat.le_antisymm (htime (prefixed hall) ha) hdue
        obtain hy | hy := List.mem_append.1 hy
        · exact hbefore y hy
        · exact List.mem_singleton.1 hy ▸ hnone

end Waiting

section Spent

variable {x : Happening} {run : List Happening} {s s' t : State} {k : InstanceKey} {n : Nat}

/-- An instance for which nothing can begin any more. -/
theorem Course.of_room_eq_zero {c : Course} (h : c.room n = 0) :
    c.isOpen = false ∧ c.pending = none ∧ n ≤ c.count := by
  unfold room waiting at h
  refine ⟨?_, ?_, by omega⟩
  · cases ho : c.isOpen with
    | false => rfl
    | true =>
      rw [ho, Bool.toNat_true] at h
      omega
  · cases hp : c.pending with
    | none => rfl
    | some p =>
      rw [hp, Option.isSome_some, Bool.toNat_true] at h
      omega

lemma Spends.of_room_eq_zero (h : Spends k t run s)
    (hroom : (t.course k).room t.roster.retries.delays.length = 0) :
    (∀ y ∈ run, y.begun? k = none) ∧
      (s.course k).room t.roster.retries.delays.length = 0 := by
  have hle := h.room
  rw [hroom] at hle
  refine ⟨fun y hy => ?_, by omega⟩
  have hzero : run.countP (fun x => (x.begun? k).isSome) = 0 := by omega
  simpa using List.countP_eq_zero.1 hzero y hy

/-- An attempt that is entered in its own epoch was the one under way for its instance, and none is
under way after that. -/
theorem State.Move.starting_of_concludes {l : Label} {effects : List Effect}
    (hm : s.Move l s' effects) (hc : s.Coherent) {o : Outcome}
    (hx : (⟨s, l, effects, s'⟩ : Happening).Concludes k o) :
    (s.course k).starting = true ∧ (s'.course k).starting = false := by
  obtain ⟨id, a, hl, ha, hst, hk, he⟩ := Happening.concludes_iff.1 hx
  dsimp only at hl ha he
  subst hl
  have hid := hc.starting_of_attempt ha (by rw [hst]; rfl) he
  refine ⟨(Table.contains_congr _ hk).symm.trans (Table.contains_iff.2 ⟨id, hid⟩), ?_⟩
  obtain ⟨roster, settlement, hr, -, rfl⟩ := hm.of_concluded ha hst
  refine Table.contains_eq_false.2 ((hr.find?_starting k).trans ?_)
  rw [if_pos ⟨he.symm, hk⟩]

/-- When the budget is spent an instance stays broken for as long as its attempts fail. -/
theorem Run.stays_broken (h : Run t run s) (ht : t.Paced k) (hp : ∀ x ∈ run, x.Persistent k)
    (hroom : (t.course k).room t.roster.retries.delays.length = 0)
    (hbroken : (t.course k).broken = true) :
    s.roster.broken.contains k = true ∧
      s.roster.retries.retryCount k = t.roster.retries.delays.length ∧
      s.roster.retries.isPending k = false := by
  have hspends := h.spends ht hp
  obtain ⟨-, hpending, hle⟩ := Course.of_room_eq_zero (hspends.of_room_eq_zero hroom).2
  obtain ⟨hbounded, hdelays⟩ := h.bounded ht.bounded
  have hmost := hbounded k
  rw [hdelays] at hmost
  rw [State.count_course] at hle
  refine ⟨hspends.broken hbroken, Nat.le_antisymm hmost hle, ?_⟩
  rw [(h.regular ht.regular).timed.isPending_eq, hpending]
  rfl

/-- When an attempt fails and the budget is spent, nothing can begin any more. -/
theorem State.Move.room_of_concludes {l : Label} {effects : List Effect}
    (hm : s.Move l s' effects) (h : s.Paced k)
    (hp : (⟨s, l, effects, s'⟩ : Happening).Persistent k) {o : Outcome}
    (hx : (⟨s, l, effects, s'⟩ : Happening).Concludes k o)
    (hcount : s.roster.retries.retryCount k = s.roster.retries.delays.length) :
    (s'.course k).room s'.roster.retries.delays.length = 0 ∧ (s'.course k).broken = true := by
  obtain ⟨hstart, hnot⟩ := hm.starting_of_concludes h.regular.coherent hx
  have hbefore : (s.course k).room s.roster.retries.delays.length = 0 := by
    unfold Course.room
    rw [h.orderly.waiting_of_starting hstart, State.count_course, hcount]
    simp [Course.isOpen, hstart]
  have hle := ((hm.turns h.regular k).advances hp h.orderly).room
  dsimp only at hle
  rw [hbefore] at hle
  have hafter : (s'.course k).room s'.roster.retries.delays.length = 0 := by
    rw [(hm.bounded h.bounded).2]
    omega
  refine ⟨hafter, ?_⟩
  have hclosed := (Course.of_room_eq_zero hafter).1
  simpa [Course.isOpen, hnot] using hclosed

/-- Once an attempt has failed when the budget is spent, the instance stays broken and nothing is
begun or set up for it. -/
theorem Run.spent_after {x : Happening} {after : List Happening}
    (hn : x.before.Next x.label x.after x.effects) (h : Run x.after after s)
    (hb : x.before.Paced k) (hp : ∀ y ∈ x :: after, y.Persistent k) {o : Outcome}
    (hx : x.Concludes k o)
    (hcount : x.before.roster.retries.retryCount k = x.before.roster.retries.delays.length) :
    (∀ y ∈ after, y.begun? k = none) ∧ ∀ y ∈ x :: after,
      y.after.roster.broken.contains k = true ∧
        y.after.roster.retries.retryCount k = x.before.roster.retries.delays.length ∧
        y.after.roster.retries.isPending k = false := by
  obtain ⟨hpx, hpa⟩ := List.forall_mem_cons.1 hp
  have ha := hb.move hn.move hpx
  obtain ⟨hroom, hbroken⟩ := hn.move.room_of_concludes hb hpx hx hcount
  have stays {run : List Happening} {u : State} (hrun : Run x.after run u)
      (hpr : ∀ y ∈ run, y.Persistent k) : u.roster.broken.contains k = true ∧
        u.roster.retries.retryCount k = x.before.roster.retries.delays.length ∧
        u.roster.retries.isPending k = false := by
    have hstays := hrun.stays_broken ha hpr hroom hbroken
    rwa [(hn.move.bounded hb.bounded).2] at hstays
  refine ⟨((h.spends ha hpa).of_room_eq_zero hroom).1, fun y hy => ?_⟩
  obtain rfl | hy := List.mem_cons.1 hy
  · exact stays .start fun _ hy => absurd hy List.not_mem_nil
  · obtain ⟨before', after', rfl, hb', hn', -⟩ := h.split_of_mem hy
    refine stays (hb'.next hn') fun z hz => hpa z ?_
    obtain hz | hz := List.mem_append.1 hz
    · exact List.mem_append_left _ hz
    · exact List.mem_append_right _ (List.mem_singleton.1 hz ▸ List.mem_cons_self)

end Spent

section Bound

variable {settings : Settings} {surroundings : Surroundings} {delays : List Nat}
  {disabled : List String} {earlier stretch : List Happening} {s t : State} {k : InstanceKey}

/-- A retry that is announced is the one after those counted so far, and it is waited for from then
on. -/
theorem Happening.Turns.of_announced {x : Happening} (h : x.Turns k) {i : Nat}
    (hi : i ∈ x.numbers k) :
    x.Concludes k .failed ∧ ∃ delay, x.before.roster.retries.delays[i - 1]? = some delay ∧
      ∀ now, (x.after.course k).Waits now (x.before.now + delay) := by
  cases h with
  | @fail plan hx _ _ hshows =>
    rw [hshows.numbers] at hi
    split at hi
    · next hlt =>
      obtain rfl := List.mem_singleton.1 hi
      obtain ⟨delay, hdelay, hschedule⟩ | ⟨hle, -⟩ :=
        (x.before.course k).schedule_cases x.before.roster.retries.delays x.before.now plan
      · refine ⟨hx, delay, by simpa using hdelay, fun now => @Course.Waits.pending _ _ _ plan ?_⟩
        rw [hshows.course, hschedule]
        rfl
      · exact absurd hlt (Nat.not_lt.2 hle)
    · cases hi
  | rest hx | route _ _ hx | fire _ _ hx | retry _ _ _ hx | pass _ _ _ _ hx | drop _ _ hx
  | discard _ _ hx | succeed _ _ _ hx | fault hx | forgetBroken _ hx | forgetRetries _ hx
  | shutDown _ hx =>
    rw [hx.numbers] at hi
    cases hi

/-- The number of a retry that is announced is the count of it, and within the budget. -/
theorem State.Paced.counted_of_announced {x : Happening} (h : x.before.Paced k)
    (hn : x.before.Next x.label x.after x.effects) (hp : x.Persistent k) {i : Nat}
    (hi : i ∈ x.numbers k) :
    i ≤ x.before.roster.retries.delays.length ∧ i = x.after.roster.retries.retryCount k := by
  have hcounted := ((hn.move.turns h.regular k).advances hp h.orderly).counted i hi
  rw [State.count_course] at hcounted
  obtain ⟨hbounded, hdelays⟩ := hn.move.bounded h.bounded
  refine ⟨?_, hcounted⟩
  rw [hcounted, ← hdelays]
  exact hbounded k

/-- A retry that is announced fares as its delay after the failure says. -/
theorem State.Paced.fares_of_announced {x : Happening} {after : List Happening}
    (h : x.before.Paced k) (hn : x.before.Next x.label x.after x.effects)
    (hafter : Run x.after after s) (hp : ∀ y ∈ x :: after, y.Persistent k) {i : Nat}
    (hi : i ∈ x.numbers k) :
    x.Concludes k .failed ∧ ∃ delay, x.before.roster.retries.delays[i - 1]? = some delay ∧
      Fares k (x.before.now + delay) after s := by
  obtain ⟨hpx, hpa⟩ := List.forall_mem_cons.1 hp
  obtain ⟨hx, delay, hdelay, hwaits⟩ := (hn.move.turns h.regular k).of_announced hi
  refine ⟨hx, delay, hdelay, hafter.fares (h.move hn.move hpx) hpa (hwaits _) ?_⟩
  obtain hnow | ⟨time, hl, -⟩ := hn.move.now_eq
  · rw [hnow]
    exact Nat.le_add_right _ _
  · obtain ⟨id, a, hl', -⟩ := Happening.concludes_iff.1 hx
    cases hl'.symm.trans hl

/-- In a run in which every attempt for an instance fails, without a shutdown and without a reset of
its server, at most one more attempt begins than there are delays, and at most one of them by
routing. The retries are announced by the count of them, one by one and within the budget. Each of
them begins when its delay after the failure is over, unless it is passed over because the server
is disabled then or the manager is gone. Once an attempt has failed when the budget is spent, the
instance stays broken and nothing is begun or set up for it. -/
theorem failing_instance_bounded
    (h : Run (.create settings surroundings delays disabled) earlier t) (hs : Run t stretch s)
    (hk : ResetsOver earlier t k) (hp : ∀ x ∈ stretch, x.Persistent k) :
    (stretch.countP (fun x => (x.begun? k).isSome) ≤ delays.length + 1 ∧
      stretch.countP (fun x => (x.begun? k).any (!·.byRetry)) ≤ 1) ∧
    (stretch.flatMap (·.numbers k) = List.range' (t.roster.retries.retryCount k + 1)
        (s.roster.retries.retryCount k - t.roster.retries.retryCount k) ∧
      ∀ x ∈ stretch, ∀ i ∈ x.numbers k, i ≤ delays.length ∧
        i = x.after.roster.retries.retryCount k) ∧
    (∀ before x after i, stretch = before ++ x :: after → i ∈ x.numbers k →
      x.Concludes k .failed ∧ ∃ delay, delays[i - 1]? = some delay ∧
        Fares k (x.before.now + delay) after s) ∧
    ∀ before x after, stretch = before ++ x :: after → x.Concludes k .failed →
      x.before.roster.retries.retryCount k = delays.length →
      (∀ y ∈ after, y.begun? k = none) ∧ ∀ y ∈ x :: after,
        y.after.roster.broken.contains k = true ∧
          y.after.roster.retries.retryCount k = delays.length ∧
          y.after.roster.retries.isPending k = false := by
  obtain ⟨hb, hdelays⟩ := h.bounded (RetryScheduler.bounded_create delays)
  have ht : t.Paced k :=
    ⟨h.regular (State.regular_create settings surroundings delays disabled), hb, h.orderly hk⟩
  change t.roster.retries.delays = delays at hdelays
  have hall := hs.spends ht hp
  -- the state before a step of the stretch
  have paced {before after : List Happening} {x : Happening} (hr : Run t before x.before)
      (hsplit : stretch = before ++ x :: after) :
      x.before.Paced k ∧ x.before.roster.retries.delays = delays ∧
        ∀ y ∈ x :: after, y.Persistent k := by
    subst hsplit
    exact ⟨hr.paced ht fun y hy => hp y (List.mem_append_left _ hy),
      (hr.bounded hb).2.trans hdelays, fun y hy => hp y (List.mem_append_right _ hy)⟩
  refine ⟨⟨?_, ?_⟩, ⟨?_, fun x hx i hi => ?_⟩, ?_, ?_⟩
  · have hle := hall.room
    have hroom := ht.orderly.room_le t.roster.retries.delays.length
    rw [hdelays] at hle hroom
    omega
  · have hle := hall.isOpen
    have hone := (t.course k).isOpen.toNat_le
    omega
  · simpa only [State.count_course] using hall.announced
  · obtain ⟨before, after, hsplit, hbefore, hn, -⟩ := hs.split_of_mem hx
    obtain ⟨hxp, hxd, -⟩ := paced hbefore hsplit
    rw [← hxd]
    exact hxp.counted_of_announced hn (hp x hx) hi
  · rintro before x after i rfl hi
    obtain ⟨hbefore, hn, hafter⟩ := hs.split
    obtain ⟨hxp, hxd, hpa⟩ := paced hbefore rfl
    rw [← hxd]
    exact hxp.fares_of_announced hn hafter hpa hi
  · rintro before x after rfl hx hcount
    obtain ⟨hbefore, hn, hafter⟩ := hs.split
    obtain ⟨hxp, hxd, hpa⟩ := paced hbefore rfl
    rw [← hxd] at hcount ⊢
    exact hafter.spent_after hn hxp hpa hx hcount

end Bound

section Sample

variable {x : Happening} {k : InstanceKey}

def Call.shutsDown (c : Call) : Bool :=
  match c.stage, c.request with
  | .entering, .shutdown => true
  | _, _ => false

lemma Happening.shutsDown_iff : x.ShutsDown ↔ x.call?.any (·.shutsDown) = true := by
  rw [Option.any_eq_true]
  constructor
  · rintro ⟨call, c, hl, hc, hst, hr⟩
    exact ⟨c, Happening.call?_eq_some.2 ⟨call, hl, hc⟩, by rw [Call.shutsDown, hst, hr]⟩
  · rintro ⟨c, hc, hs⟩
    obtain ⟨call, hl, hc⟩ := Happening.call?_eq_some.1 hc
    unfold Call.shutsDown at hs
    split at hs
    · next hst hr => exact ⟨call, c, hl, hc, hst, hr⟩
    · cases hs

instance : Decidable x.ShutsDown := decidable_of_iff _ Happening.shutsDown_iff.symm

lemma Happening.persistent_iff : x.Persistent k ↔
    ((x.outcome? k).all fun p => p.1 ≠ x.before.roster.epoch || p.2 = .failed) = true ∧
      ¬ x.ShutsDown ∧ x.call?.bind (·.resets?) ≠ some k.serverId ∧
      x.call?.bind (·.stage.forgets?) ≠ some k.serverId := by
  have hfails : ((x.outcome? k).all fun p => p.1 ≠ x.before.roster.epoch || p.2 = .failed) = true ↔
      ∀ {o}, x.Concludes k o → o = .failed := by
    unfold Happening.Concludes
    cases x.outcome? k with
    | none => simp
    | some p =>
      obtain ⟨epoch, outcome⟩ := p
      by_cases he : epoch = x.before.roster.epoch <;> simp [he, eq_comm]
  rw [hfails]
  exact ⟨fun h => ⟨h.fails, h.not_shutDown, h.not_forgetsBroken, h.not_forgetsRetries⟩,
    fun ⟨hf, hs, hb, hr⟩ => ⟨hf, hs, hb, hr⟩⟩

instance : Decidable (x.Persistent k) := decidable_of_iff _ Happening.persistent_iff.symm

def sampleFail (id : AttemptId) : List Label :=
  [.run (.attempt id), .reply (.attempt id) .failed, .run (.attempt id)]

def sampleRetry (timer time : Nat) : List Label :=
  [.advance time, .wake timer, .run (.timer timer), .run (.timer timer)]

/-- The attempt for a call fails, and so does its only retry. -/
def sampleFailing : List Label :=
  sampleRequest 0 ++ sampleFail 0 ++ [.run (.call 0), .run (.call 0)] ++ sampleRetry 0 1000 ++
    sampleFail 1

/-- Two attempts begin, and one retry is announced. -/
theorem failing_instance_bounded_sample :
    (∀ x ∈ (sampleOf ["a"]).trace sampleFailing, x.Persistent (sampleKey "a")) ∧
      ((sampleOf ["a"]).trace sampleFailing).countP
        (fun x => (x.begun? (sampleKey "a")).isSome) ≤ 2 ∧
      ((sampleOf ["a"]).trace sampleFailing).flatMap (·.numbers (sampleKey "a")) = [1] := by
  have hp : ∀ x ∈ (sampleOf ["a"]).trace sampleFailing, x.Persistent (sampleKey "a") := by decide
  obtain ⟨⟨hbegun, -⟩, ⟨hnumbers, -⟩, -⟩ := failing_instance_bounded .start
    (Run.of_trace (sampleOf ["a"]) sampleFailing) ⟨by simp, by simp⟩ hp
  have hcount : ((sampleOf ["a"]).follow sampleFailing).roster.retries.retryCount
      (sampleKey "a") = 1 := by decide
  rw [hcount] at hnumbers
  exact ⟨hp, hbegun, hnumbers⟩

/-- Whether a call that comes in is a shutdown or a reset. -/
def Label.interferes : Label → Bool
  | .start .shutdown => true
  | .start (.resetServer _) => true
  | _ => false

/-- An attempt is under way when a shutdown comes. The call that waits for it is given up. -/
def sampleOutdated : List Label :=
  sampleRequest 0 ++ [.run (.attempt 0), .reply (.attempt 0) .failed, .cancel 0, .start .shutdown,
    .run (.call 1), .run (.call 1)]

/-- A new attempt fails after that. -/
def sampleRenewed : List Label :=
  sampleRequest 2 ++ sampleFail 1 ++ [.run (.call 2), .run (.call 2)]

/-- A manager of one server when that has spent the budget. -/
def sampleWorn : State := ((sampleOf ["a"]).follow sampleOutdated).follow sampleRenewed

/-- A retry has fired when the server is reset. -/
def sampleOvertaken : List Label :=
  sampleRequest 0 ++ sampleFail 0 ++ [.run (.call 0), .run (.call 0), .advance 1000, .wake 0,
    .run (.timer 0), .start (.resetServer "a"), .run (.call 1), .run (.call 1)]

/-- Routing begins an attempt that fails, and then the retry from before the reset goes on. -/
def sampleExcess : List Label :=
  sampleRequest 2 ++ sampleFail 1 ++ [.run (.call 2), .run (.call 2), .run (.timer 0)] ++
    sampleFail 2 ++ sampleRetry 1 2000

/-- While no call is in progress but one for a file, an attempt of an earlier epoch can fail when
the budget of the instance is spent, and a retry begins all the same; and after a reset that has
passed over a retry that had fired more attempts can begin than the budget allows. -/
theorem failing_instance_exceeds_sample :
    (∃ earlier before x after t s, Run (sampleOf ["a"]) earlier t ∧
      Run t (before ++ x :: after) s ∧ t.calls.values.all (·.stage.isOver) = true ∧
      (∀ y ∈ before ++ x :: after, y.label.interferes = false ∧
        ((y.outcome? (sampleKey "a")).all (·.2 = .failed)) = true) ∧
      x.before.roster.retries.retryCount (sampleKey "a") =
        x.before.roster.retries.delays.length ∧
      (x.outcome? (sampleKey "a")).isSome = true ∧
      ∃ y ∈ after, (y.begun? (sampleKey "a")).isSome = true) ∧
    ∃ earlier stretch t s, Run (sampleOf ["a"]) earlier t ∧ Run t stretch s ∧
      t.calls.values.all (·.stage.isOver) = true ∧
      (∀ y ∈ stretch, y.label.interferes = false ∧
        ((y.outcome? (sampleKey "a")).all (·.2 = .failed)) = true) ∧
      t.roster.retries.delays.length + 1 <
        stretch.countP fun x => (x.begun? (sampleKey "a")).isSome := by
  constructor
  · have hbefore : Run ((sampleOf ["a"]).follow sampleOutdated) _ sampleWorn := Run.of_trace _ _
    have hn : sampleWorn.Next (.run (.attempt 0)) (sampleWorn.follow [.run (.attempt 0)]) [] :=
      .step rfl
    have hafter := Run.of_trace (sampleWorn.follow [.run (.attempt 0)]) (sampleRetry 0 1000)
    exact ⟨_, _, _, _, _, _, Run.of_trace _ sampleOutdated, hbefore.append (.cons hn hafter),
      by decide, by decide, by decide, by decide, by decide⟩
  · exact ⟨_, _, _, _, Run.of_trace _ sampleOvertaken, Run.of_trace _ sampleExcess, by decide,
      by decide, by decide⟩

end Sample

end ServerFleet.Manager
