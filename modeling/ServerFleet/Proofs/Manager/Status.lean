import ServerFleet.Proofs.Manager.Reservation

/-!
How the status of a server changes and how this is announced. A call changes the status in one step
and announces it in a later one. Between the two other calls can change the status again, and they
may announce theirs first.
-/

namespace ServerFleet.Manager

/-- A call has changed the status of a server and has still to announce it. -/
def State.OwesStatus (s : State) (call : CallId) (server : String) (enabled : Bool) : Prop :=
  ∃ c removed, s.calls.find? call = some c ∧ c.stage = .announcing server enabled removed

namespace Happening

/-- A call changes the status of a server. -/
def Switches (x : Happening) (call : CallId) (server : String) (enabled : Bool) : Prop :=
  x.label = .run (.call call) ∧ x.before.roster.isDisabled server = enabled ∧
    x.after.roster.isDisabled server = !enabled

/-- A call announces the status of a server. -/
def Tells (x : Happening) (call : CallId) (server : String) (enabled : Bool) : Prop :=
  x.label = .run (.call call) ∧ .announced (.serverStatusChanged server enabled) none ∈ x.effects

/-- A call is given up before it has announced the status that it has changed. -/
def Withholds (x : Happening) (call : CallId) (server : String) (enabled : Bool) : Prop :=
  x.label = .cancel call ∧ x.before.OwesStatus call server enabled

end Happening

lemma Roster.Settles.isDisabled_eq {r r' : Roster} {now epoch : Nat} {k : InstanceKey}
    {o : Outcome} {x : Settlement} (h : r.Settles now k epoch o r' x) (server : String) :
    r'.isDisabled server = r.isDisabled server := by
  cases h <;> rfl

/-- Of an attempt that is entered nothing is announced but a retry. -/
theorem Settlement.eq_of_announced {x : Settlement} {id : AttemptId} {k : InstanceKey}
    {event : Event} {client : Option ClientId} (h : .announced event client ∈ x.effects id k) :
    ∃ n, event = .serverRetrying k.serverId k.root n := by
  obtain h | h := List.mem_append.1 h
  · obtain ⟨n, -, hn⟩ := List.mem_map.1 h
    cases hn
    exact ⟨n, rfl⟩
  · split at h
    · cases List.mem_singleton.1 h
    · cases h

namespace State

variable {s s' : State} {l : Label} {effects : List Effect} {call : CallId} {server : String}
  {enabled : Bool}

/-- A call that has changed a status owes its announcement. -/
theorem owesStatus_dismiss {c : Call} {removed : List (InstanceKey × ClientId)} {roster : Roster} :
    State.OwesStatus
      { s with roster, calls := s.calls.insert call (c.dismiss server enabled true removed) }
      call server enabled :=
  ⟨_, removed, Table.find?_insert_self _ _ _, rfl⟩

/-- The status of a server stays, or a call changes it and owes the announcement. -/
theorem Move.status_cases (hm : s.Move l s' effects) (server : String) :
    s'.roster.isDisabled server = s.roster.isDisabled server ∨
      ∃ call, l = .run (.call call) ∧
        s'.OwesStatus call server (s.roster.isDisabled server) := by
  cases hm with
  | settle _ _ hr => exact .inl (hr.isDisabled_eq server)
  | @enable id c server' =>
    by_cases hs : server = server'
    · subst hs
      cases hd : s.roster.isDisabled server with
      | false => exact .inl (by simp [hd])
      | true =>
        refine .inr ⟨id, rfl, ?_⟩
        rw [show (s.roster.enable server).2 = true from hd]
        exact owesStatus_dismiss
    · exact .inl (by simp [hs])
  | @disable id c server' =>
    by_cases hs : server = server'
    · subst hs
      cases hd : s.roster.isDisabled server with
      | true => exact .inl (by simp [hd])
      | false =>
        refine .inr ⟨id, rfl, ?_⟩
        rw [show (s.roster.disable server).2.1 = true by simp [Roster.disable, hd]]
        exact owesStatus_dismiss
    · exact .inl (by simp [hs])
  | _ => exact .inl rfl

lemma CallGoes.stage_ne {id : CallId} {c c' : Call} (h : s.CallGoes id c l c' effects)
    (removed : List (InstanceKey × ClientId)) :
    c'.stage ≠ .announcing server enabled removed := by
  cases h with
  | collect h =>
    rw [show ({ c with errands := _ } : Call).stage = _ from h]
    exact nofun
  | _ => exact nofun

/-- A call that has just changed a status, or found it as wished. -/
theorem eq_of_dismiss {c : Call} {server' : String} {enabled' changed : Bool}
    {removed removed' : List (InstanceKey × ClientId)}
    (h : (c.dismiss server' enabled' changed removed').stage = .announcing server enabled removed) :
    server' = server ∧ enabled' = enabled := by
  cases changed with
  | true =>
    cases h
    exact ⟨rfl, rfl⟩
  | false => cases h

/-- What is owed was owed before, or the status changes now. -/
theorem Move.of_owesStatus (hm : s.Move l s' effects) (ho : s'.OwesStatus call server enabled) :
    s.OwesStatus call server enabled ∨ s'.roster.isDisabled server = !enabled := by
  obtain ⟨c, removed, hc, hst⟩ := ho
  -- a move that changes one call has to say something about its stage only
  have changed {id : CallId} {c' : Call} (hf : (s.calls.insert id c').find? call = some c)
      (hn : c' = c → s'.roster.isDisabled server = !enabled) :
      s.OwesStatus call server enabled ∨ s'.roster.isDisabled server = !enabled := by
    obtain ⟨-, rfl⟩ | ⟨-, hf⟩ := Table.find?_insert_cases hf
    · exact .inr (hn rfl)
    · exact .inl ⟨c, removed, hf, hst⟩
  cases hm with
  | start | cancel | reserve | forgetBroken | forgetRetries | shutDown =>
    exact changed hc (by rintro rfl; cases hst)
  | call _ hg =>
    exact changed hc (by rintro rfl; exact absurd hst (hg.stage_ne removed))
  | @errand id _ c' _ _ _ _ hb =>
    obtain ⟨rfl, rfl⟩ | ⟨-, hf⟩ := Table.find?_insert_cases hc
    · exact .inl ⟨c', removed, hb, hst⟩
    · exact .inl ⟨c, removed, hf, hst⟩
  | enable =>
    refine changed hc ?_
    rintro rfl
    obtain ⟨rfl, rfl⟩ := eq_of_dismiss hst
    simp
  | disable =>
    refine changed hc ?_
    rintro rfl
    obtain ⟨rfl, rfl⟩ := eq_of_dismiss hst
    simp
  | _ => exact .inl ⟨c, removed, hc, hst⟩

/-- What is owed stays so until it is announced or the call is given up. -/
theorem Move.owesStatus (hm : s.Move l s' effects) (hc : s.Coherent)
    (ho : s.OwesStatus call server enabled) :
    s'.OwesStatus call server enabled ∨
      (⟨s, l, effects, s'⟩ : Happening).Tells call server enabled ∨
      (⟨s, l, effects, s'⟩ : Happening).Withholds call server enabled := by
  obtain ⟨c, removed, hf, hst⟩ := ho
  -- a move of another call leaves this one as it is
  have other {id : CallId} {b : Call} {s'' : State} (hs : s''.calls = s.calls.insert id b)
      (hid : call ≠ id) : s''.OwesStatus call server enabled :=
    ⟨c, removed, by rw [hs]; exact (Table.find?_insert_of_ne _ hid _).trans hf, hst⟩
  cases hm with
  | start => exact .inl (other rfl (Nat.ne_of_lt (hc.calls.lt_size hf)))
  | @cancel id =>
    by_cases hid : call = id
    · subst hid
      exact .inr (.inr ⟨rfl, c, removed, hf, hst⟩)
    · exact .inl (other rfl hid)
  | @call id b _ _ _ hb hg =>
    by_cases hid : call = id
    · subst hid
      cases hf.symm.trans hb
      cases hg with
      | announce h =>
        cases hst.symm.trans h
        exact .inr (.inl ⟨rfl, List.mem_singleton.2 rfl⟩)
      | answer h => simp [hst] at h
      | _ h => cases hst.symm.trans h
    · exact .inl (other rfl hid)
  | @errand id _ b _ _ _ _ hb =>
    by_cases hid : call = id
    · subst hid
      cases hf.symm.trans hb
      exact .inl ⟨_, removed, Table.find?_insert_self _ _ _, hst⟩
    · exact .inl (other rfl hid)
  | @reserve id b _ _ _ hb h | @enable id b _ hb h | @disable id b _ hb h
  | @forgetBroken id b _ hb h | @forgetRetries id b _ _ hb h | @shutDown id b hb h =>
    by_cases hid : call = id
    · subst hid
      cases hf.symm.trans hb
      cases hst.symm.trans h
    · exact .inl (other rfl hid)
  | _ => exact .inl ⟨c, removed, hf, hst⟩

/-- Who announces a status has owed it. -/
theorem Move.owesStatus_of_announced (hm : s.Move l s' effects) {client : Option ClientId}
    (he : .announced (.serverStatusChanged server enabled) client ∈ effects) :
    ∃ call, s.OwesStatus call server enabled := by
  cases hm with
  | attempt _ hg => cases hg <;> simp at he
  | @call id c _ _ _ hc hg =>
    cases hg with
    | announce h =>
      simp only [List.mem_singleton, Effect.announced.injEq, Event.serverStatusChanged.injEq] at he
      obtain ⟨⟨rfl, rfl⟩, -⟩ := he
      exact ⟨id, c, _, hc, h⟩
    | @collect _ e =>
      unfold Errand.farewell at he
      split at he <;> simp at he
    | _ => simp at he
  | errand _ _ _ hg => cases hg <;> simp at he
  | client _ hg => cases hg <;> simp at he
  | settle =>
    obtain ⟨n, hn⟩ := Settlement.eq_of_announced he
    cases hn
  | _ => simp at he

end State

section Runs

variable {t : State} {run : List Happening} {s : State} {call : CallId} {server : String}
  {enabled : Bool}

/-- Who owes a status has changed it before. -/
theorem Run.of_owesStatus {settings : Settings} {surroundings : Surroundings} {delays : List Nat}
    {disabled : List String} (h : Run (.create settings surroundings delays disabled) run s)
    (ho : s.OwesStatus call server enabled) :
    ∃ y ∈ run, y.after.roster.isDisabled server = !enabled := by
  induction h with
  | start =>
    obtain ⟨c, removed, hc, -⟩ := ho
    cases hc
  | next h hn ih =>
    obtain ho | hd := hn.move.of_owesStatus ho
    · obtain ⟨y, hy, hd⟩ := ih ho
      exact ⟨y, List.mem_append_left _ hy, hd⟩
    · exact ⟨_, List.mem_append_right _ (List.mem_singleton.2 rfl), hd⟩

/-- What is owed is owed at the end, or was announced, or was withheld. -/
theorem Run.owesStatus (h : Run t run s) (hc : t.Coherent)
    (ho : t.OwesStatus call server enabled) :
    s.OwesStatus call server enabled ∨ (∃ x ∈ run, x.Tells call server enabled) ∨
      ∃ x ∈ run, x.Withholds call server enabled := by
  induction h with
  | start => exact .inl ho
  | next h hn ih =>
    obtain ho | ⟨x, hx, ht⟩ | ⟨x, hx, hw⟩ := ih
    · obtain ho | ht | hw := hn.move.owesStatus (h.coherent hc) ho
      · exact .inl ho
      · exact .inr (.inl ⟨_, List.mem_append_right _ (List.mem_singleton.2 rfl), ht⟩)
      · exact .inr (.inr ⟨_, List.mem_append_right _ (List.mem_singleton.2 rfl), hw⟩)
    · exact .inr (.inl ⟨x, List.mem_append_left _ hx, ht⟩)
    · exact .inr (.inr ⟨x, List.mem_append_left _ hx, hw⟩)

/-- A status that is not what it was has changed, and there is a last time. -/
theorem Run.exists_switch (h : Run t run s) {server : String}
    (hne : s.roster.isDisabled server ≠ t.roster.isDisabled server) :
    ∃ earlier y later, run = earlier ++ y :: later ∧
      y.before.roster.isDisabled server = t.roster.isDisabled server ∧
      y.after.roster.isDisabled server = s.roster.isDisabled server ∧
      ∀ z ∈ later, z.after.roster.isDisabled server = s.roster.isDisabled server := by
  induction h with
  | start => exact absurd rfl hne
  | @next run u v l effects h hn ih =>
    by_cases hd : v.roster.isDisabled server = u.roster.isDisabled server
    · rw [hd] at hne
      obtain ⟨earlier, y, later, rfl, hbefore, hafter, hkeep⟩ := ih hne
      refine ⟨earlier, y, later ++ [⟨u, l, effects, v⟩], by simp, hbefore, hafter.trans hd.symm,
        fun z hz => ?_⟩
      obtain hz | hz := List.mem_append.1 hz
      · exact (hkeep z hz).trans hd.symm
      · cases List.mem_singleton.1 hz
        rfl
    · refine ⟨run, ⟨u, l, effects, v⟩, [], rfl, ?_, rfl,
        fun z hz => absurd hz List.not_mem_nil⟩
      exact (Bool.eq_not.2 (Ne.symm hd)).trans (Bool.eq_not.2 (Ne.symm hne)).symm

end Runs

end ServerFleet.Manager
