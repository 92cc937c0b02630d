import ServerFleet.Proofs.Manager.Reservation

/-!
A call for the clients of a file while it is alone in a manager: what its own steps do, that all
other steps pass it by, and that an attempt comes to a client only by becoming ready with it.
-/

namespace ServerFleet.Manager

def Attempt.ready? (a : Attempt) : Option ClientId :=
  match a.stage with
  | .concluded (.ready client) => some client
  | _ => none

/-- What an attempt has come to so far: what is published of it, or else the client with which it
is ready. -/
def Attempt.yield? (a : Attempt) : Option ClientId := a.published.getD a.ready?

namespace State

variable {s s' base : State} {l : Label} {effects : List Effect} {call : CallId} {c : Call}
  {file : Path}

/-- What is published of an attempt, once its outcome is entered. -/
def result? (s : State) (id : AttemptId) : Option (Option ClientId) :=
  (s.attempts.find? id).bind (·.published)

/-- The instance that routing looks up for a file at a server. -/
def keyFor? (s : State) (file : Path) (d : ServerDefinition) : Option InstanceKey :=
  if s.roster.isDisabled d.id then none
  else (d.detectRoot s.surroundings.tree s.surroundings.cwd (s.absolute file)).map (⟨d.id, ·⟩)

lemma serverId_of_keyFor? {d : ServerDefinition} {k : InstanceKey}
    (h : s.keyFor? file d = some k) :
    k.serverId = d.id ∧ s.roster.isDisabled k.serverId = false := by
  unfold keyFor? at h
  split at h
  · cases h
  · next hd =>
    obtain ⟨root, -, rfl⟩ := Option.map_eq_some_iff.1 h
    exact ⟨rfl, by simpa using hd⟩

section OwnSteps

variable {left : List ServerDefinition} {found : List ClientId}
  (hc : s.calls.find? call = some c) (hr : c.request = .clientsForFile file)
include hc hr

lemma runCall_entering (hst : c.stage = .entering) :
    s.runCall call = some ({ s with
      calls := s.calls.insert call { c with
        file := s.absolute file
        stage := .routing (s.settings.registry.forFile (s.absolute file)) [] } }, []) := by
  simp [runCall, hc, hst, enter, hr, Request.routed?, updateCall_eq hc]

lemma runCall_routing_nil (hst : c.stage = .routing [] found) :
    s.runCall call = some ({ s with calls := s.calls.insert call (c.finish (.clients found)) },
      [.answered call (.clients found)]) := by
  simp [runCall, hc, hst, hr, finish_eq hc]

omit hr in
lemma runCall_routing_cons {d : ServerDefinition} (hst : c.stage = .routing (d :: left) found)
    (hf : c.file = s.absolute file) :
    s.runCall call = some ({ s with
      calls := s.calls.insert call { c with
        stage := (s.keyFor? file d).elim (.routing left found)
          (.admitting · left found) } }, []) := by
  cases hd : s.roster.isDisabled d.id with
  | true => simp [runCall, hc, hst, keyFor?, hd, goTo_eq hc]
  | false =>
    cases hroot : d.detectRoot s.surroundings.tree s.surroundings.cwd (s.absolute file) with
    | none => simp [runCall, hc, hst, hf, keyFor?, hd, hroot, goTo_eq hc]
    | some root => simp [runCall, hc, hst, hf, keyFor?, hd, hroot, goTo_eq hc]

omit hr in
lemma runCall_admitting {k : InstanceKey} (hst : c.stage = .admitting k left found)
    (hd : s.roster.isDisabled k.serverId = false) (hb : s.roster.broken.contains k = false)
    (hl : s.roster.live.find? k = none) (hs : s.roster.starting.find? k = none) :
    s.runCall call = some ({ s with
      roster := { s.roster with starting := s.roster.starting.insert k s.attempts.size }
      attempts := s.attempts.insert s.attempts.size ⟨k, s.roster.epoch, false, .reserved, none⟩
      calls := s.calls.insert call
        { c with stage := .joined s.attempts.size left found } }, []) := by
  simp [runCall, hc, hst, enlist, Roster.enlist, hd, hb, hl, hs, addAttempt, goTo, updateCall]

omit hr in
lemma runCall_joined {id : AttemptId} (hst : c.stage = .joined id left found) :
    s.runCall call = (s.result? id).map fun result => ({ s with
      calls := s.calls.insert call
        { c with stage := .routing left (found ++ result.toList) } }, []) := by
  cases hres : (s.attempts.find? id).bind (·.published) with
  | none => simp [runCall, hc, hst, hres, result?]
  | some result => simp [runCall, hc, hst, hres, result?, goTo_eq hc]

end OwnSteps

/-- What a manager was set up with, and sees, is as it was. -/
structure Resembles (s base : State) : Prop where
  settings : s.settings = base.settings
  tree : s.surroundings.tree = base.surroundings.tree
  cwd : s.surroundings.cwd = base.surroundings.cwd
  disabled : s.roster.disabled = base.roster.disabled
  epoch : s.roster.epoch = base.roster.epoch

lemma Resembles.trans (h : s'.Resembles s) (hs : s.Resembles base) : s'.Resembles base where
  settings := h.settings.trans hs.settings
  tree := h.tree.trans hs.tree
  cwd := h.cwd.trans hs.cwd
  disabled := h.disabled.trans hs.disabled
  epoch := h.epoch.trans hs.epoch

lemma Resembles.isDisabled_eq (h : s.Resembles base) (server : String) :
    s.roster.isDisabled server = base.roster.isDisabled server := by
  unfold Roster.isDisabled
  rw [h.disabled]

lemma Resembles.absolute_eq (h : s.Resembles base) (file : Path) :
    s.absolute file = base.absolute file := by
  unfold absolute
  rw [h.cwd]

lemma Resembles.keyFor?_eq (h : s.Resembles base) (file : Path) (d : ServerDefinition) :
    s.keyFor? file d = base.keyFor? file d := by
  unfold keyFor?
  rw [h.isDisabled_eq, h.tree, h.cwd, h.absolute_eq]

/-- The only call is one for the clients of a file. -/
structure Serves (s : State) (call : CallId) (c : Call) (file : Path) : Prop where
  find : s.calls.find? call = some c
  only : ∀ {id c'}, s.calls.find? id = some c' → id = call
  request : c.request = .clientsForFile file
  errands : c.errands = []
  stage : ∀ client left replies, c.stage ≠ .contacting client left replies

/-- A step that leaves the only call as it is. -/
structure PassesBy (s s' : State) (effects : List Effect) : Prop where
  calls : s'.calls = s.calls
  resembles : s'.Resembles s
  silent : ∀ id answer, .answered id answer ∉ effects
  byRetry : ∀ {id a}, s.attempts.find? id = none → s'.attempts.find? id = some a → a.byRetry = true

/-- Every attempt is of the current epoch and for a server that is on. -/
def Current (s : State) : Prop :=
  ∀ {id a}, s.attempts.find? id = some a →
    a.epoch = s.roster.epoch ∧ s.roster.isDisabled a.key.serverId = false

end State

section Yield

variable {a : Attempt}

lemma Attempt.ready?_eq_none (h : a.stage.isSettled = true) : a.ready? = none := by
  unfold ready?
  split
  · next hst =>
    rw [hst] at h
    cases h
  · rfl

lemma Attempt.yield?_of_published {o : Option ClientId} (h : a.published = some o) :
    a.yield? = o := by
  rw [yield?, h]
  rfl

lemma Attempt.yield?_of_not_published (h : a.published = none) : a.yield? = a.ready? := by
  rw [yield?, h]
  rfl

lemma Attempt.yield?_or_ready? (h : a.published.isSome = a.stage.isSettled) :
    a.yield?.or a.ready? = a.yield? := by
  cases hp : a.published with
  | none => rw [yield?_of_not_published hp, Option.or_self]
  | some o =>
    rw [hp] at h
    rw [ready?_eq_none h.symm, Option.or_none]

/-- A stage with an outcome is left only when the outcome is entered. -/
theorem Attempt.Goes.ready?_eq {id : AttemptId} {l : Label} {stage : AttemptStage}
    {effects : List Effect} (h : a.Goes id l stage effects) : a.ready? = none := by
  unfold Attempt.ready?
  cases h <;> simp [*]

lemma Attempt.Goes.yield?_eq {id : AttemptId} {l : Label} {stage : AttemptStage}
    {effects : List Effect} (hg : a.Goes id l stage effects)
    (h : a.published.isSome = a.stage.isSettled) :
    ({ a with stage } : Attempt).yield? = a.yield?.or ({ a with stage } : Attempt).ready? := by
  cases hp : a.published with
  | none =>
    rw [yield?_of_not_published hp, hg.ready?_eq, Option.none_or]
    exact yield?_of_not_published rfl
  | some o =>
    rw [hp, hg.isSettled_eq] at h
    have hready := ready?_eq_none (a := { a with stage, published := some o }) h.symm
    rw [yield?_of_published hp, hready, Option.or_none]
    exact yield?_of_published rfl

/-- What is published of an attempt of the current epoch for a server that is on is the client
with which it was ready. -/
theorem Roster.Settles.published_eq {r r' : Roster} {now : Nat} {o : Outcome} {x : Settlement}
    (h : r.Settles now a.key a.epoch o r' x) (hst : a.stage = .concluded o)
    (he : a.epoch = r.epoch) (hd : r.isDisabled a.key.serverId = false) :
    x.published = a.ready? := by
  unfold Attempt.ready?
  rw [hst]
  cases h with
  | stale hne => exact absurd he.symm hne
  | discarded _ hd' => exact absurd (hd.symm.trans hd') Bool.false_ne_true
  | _ => rfl

end Yield

namespace State

variable {s s' base : State} {l : Label} {effects : List Effect} {call : CallId} {c : Call}
  {file : Path}

/-- An attempt comes to a client only by becoming ready with it, and keeps it. -/
theorem Move.yield? (hm : s.Move l s' effects) (hc : s.Coherent) (h : s.Current)
    (id : AttemptId) : (s'.attempts.find? id).bind (·.yield?) =
      ((s.attempts.find? id).bind (·.yield?)).or ((s'.attempts.find? id).bind (·.ready?)) := by
  have old : s'.attempts.find? id = s.attempts.find? id →
      (s'.attempts.find? id).bind (·.yield?) =
        ((s.attempts.find? id).bind (·.yield?)).or ((s'.attempts.find? id).bind (·.ready?)) := by
    intro he
    rw [he]
    cases hf : s.attempts.find? id with
    | none => rfl
    | some a => exact (Attempt.yield?_or_ready? (hc.isSettled hf)).symm
  have changed : ∀ {id' : AttemptId} {b : Attempt}, s'.attempts = s.attempts.insert id' b →
      (id = id' → b.yield? = ((s.attempts.find? id).bind (·.yield?)).or b.ready?) →
      (s'.attempts.find? id).bind (·.yield?) =
        ((s.attempts.find? id).bind (·.yield?)).or ((s'.attempts.find? id).bind (·.ready?)) := by
    intro id' b hs hb
    by_cases hid : id = id'
    · have hf : s'.attempts.find? id = some b := by
        rw [hs, hid]
        exact Table.find?_insert_self _ _ _
      rw [hf]
      exact hb hid
    · exact old (by rw [hs, Table.find?_insert_of_ne _ hid])
  cases hm with
  | attempt ha hg =>
    refine changed rfl ?_
    rintro rfl
    rw [ha]
    exact hg.yield?_eq (hc.isSettled ha)
  | @connected id' a _ limit ha hst =>
    refine changed rfl ?_
    rintro rfl
    have hp := hc.published_eq_none ha (by rw [hst]; rfl)
    simp [ha, Attempt.yield?, Attempt.ready?, hp, hst]
  | @settle id' a _ _ x ha hst hr =>
    refine changed rfl ?_
    rintro rfl
    obtain ⟨he, hd⟩ := h ha
    have hp := hc.published_eq_none ha (by rw [hst]; rfl)
    have hready : ({ a with stage := x.stage, published := some x.published } : Attempt).ready? =
        none := Attempt.ready?_eq_none x.isSettled_stage
    rw [ha, hready, Option.or_none]
    exact (hr.published_eq hst he hd).trans (Attempt.yield?_of_not_published hp).symm
  | reserve | retry =>
    refine changed rfl ?_
    rintro rfl
    rw [hc.attempts.find?_size]
    rfl
  | _ => exact old rfl

end State

end ServerFleet.Manager
