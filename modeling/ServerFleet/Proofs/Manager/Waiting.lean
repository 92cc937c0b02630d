import Mathlib.Data.List.MinMax
import Mathlib.Order.Nat
import ServerFleet.Proofs.Manager.Opening

/-!
How long the joint wait for diagnostics takes. All errands begin at the time of the last reply to
the call, since the clock stands still while a task can go forward. An errand ends when its client
has taken its time or when the limit has passed, whichever comes first, so the call ends together
with the errand that takes longest.
-/

namespace ServerFleet.Manager

section Times

variable {w : ClientId → Option Nat} {timeout : Nat}

/-- How long a client is waited for when it takes its time, which may be for ever. -/
def timeFor (w : ClientId → Option Nat) (timeout : Nat) (client : ClientId) : Nat :=
  (w client).elim timeout (min · timeout)

def jointTime (w : ClientId → Option Nat) (timeout : Nat) (clients : List ClientId) : Nat :=
  (clients.map (timeFor w timeout)).foldr max 0

/-- How long a call waits for clients that have opened its file, if it is to wait. -/
def waitTime (wait : Bool) (w : ClientId → Option Nat) (timeout : Nat) (clients : List ClientId) :
    Nat :=
  if wait then jointTime w timeout clients else 0

lemma timeFor_le (client : ClientId) : timeFor w timeout client ≤ timeout := by
  unfold timeFor
  cases w client with
  | none => exact Nat.le_refl _
  | some d => exact Nat.min_le_right _ _

lemma timeFor_of_some {client : ClientId} {d : Nat} (h : w client = some d) :
    timeFor w timeout client = min d timeout := by
  rw [timeFor, h]
  rfl

lemma timeFor_le_jointTime {clients : List ClientId} {client : ClientId}
    (h : client ∈ clients) : timeFor w timeout client ≤ jointTime w timeout clients :=
  List.le_max_of_le' 0 (List.mem_map_of_mem h) (Nat.le_refl _)

lemma jointTime_le {clients : List ClientId} {n : Nat}
    (h : ∀ client ∈ clients, timeFor w timeout client ≤ n) : jointTime w timeout clients ≤ n :=
  List.max_le_of_forall_le _ _ (List.forall_mem_map.2 h)

lemma waitTime_le (wait : Bool) (clients : List ClientId) :
    waitTime wait w timeout clients ≤ timeout := by
  cases wait with
  | false => exact Nat.zero_le _
  | true => exact jointTime_le fun client _ => timeFor_le client

end Times

section Observed

/-- The time of the last reply to a call in a run that begins at some time. -/
def lastReply (call : CallId) (start : Nat) (run : List Happening) : Nat :=
  run.foldl (fun time x => if (x.label.replyTo? call).isSome then x.before.now else time) start

lemma lastReply_concat (call : CallId) (start : Nat) (run : List Happening) (x : Happening) :
    lastReply call start (run ++ [x]) =
      if (x.label.replyTo? call).isSome then x.before.now else lastReply call start run := by
  simp [lastReply]

def Label.repliesTo (task : TaskId) : Label → Bool
  | .reply task' _ => task' = task
  | _ => false

/-- In a step the client of an errand takes its time: it replies only when its time is over, and
while it has not replied the clock does not move past that. -/
def Happening.InTime (w : ClientId → Option Nat) (call : CallId) (v : Wait) (x : Happening) :
    Prop :=
  (x.label.repliesTo (.errand call v.place) = true →
    (w v.client).map (v.began + ·) = some x.before.now) ∧
  ∀ d ∈ w v.client, x.before.isWaiting (.errand call v.place) = true → x.after.now ≤ v.began + d

/-- In a run the clients take their time for everything that a call waits for. -/
def TakesTime (w : ClientId → Option Nat) (call : CallId) (run : List Happening) : Prop :=
  ∀ i, (h : i < run.length) → ∀ v ∈ waitsOf call (run.take i), run[i].InTime w call v

lemma TakesTime.of_concat {w : ClientId → Option Nat} {call : CallId} {run : List Happening}
    {x : Happening} (h : TakesTime w call (run ++ [x])) :
    TakesTime w call run ∧ ∀ v ∈ waitsOf call run, x.InTime w call v := by
  constructor
  · intro i hi v hv
    have hi' : i < (run ++ [x]).length := by simp; omega
    have hx := h i hi' v
    rw [List.take_append_of_le_length (Nat.le_of_lt hi), List.getElem_append_left hi] at hx
    exact hx hv
  · intro v hv
    have hx := h run.length (by simp) v
    rw [List.take_left, List.getElem_concat_length rfl] at hx
    exact hx hv

end Observed

/-- An errand is in time when the call began to wait at `start`: it has begun at once, it is under
way no longer than its time, and it does not end before. -/
inductive ErrandStage.Timely (start timeout time now : Nat) : ErrandStage → Prop
  | fresh (h : now = start) : Timely start timeout time now .fresh
  | underway (h : now ≤ start + time) :
      Timely start timeout time now (.underway (some (start + timeout)))
  | finished (h : start + time ≤ now) : Timely start timeout time now .finished
  | collected (h : start + time ≤ now) : Timely start timeout time now .collected

/-- A call that opens a file is in time when the last reply to it was at `last`. -/
inductive Timely (w : ClientId → Option Nat) (timeout last now : Nat) :
    CallStage → List Errand → Prop
  | resolved {clients : List ClientId} (h : now = last) :
      Timely w timeout last now (.routing [] clients) []
  | visiting {left : List ClientId} {done : List (ClientId × ClientReply)} (h : now = last) :
      Timely w timeout last now (.visiting left done) []
  | contacting {client : ClientId} {left : List ClientId} {done : List (ClientId × ClientReply)} :
      Timely w timeout last now (.contacting client left done) []
  /-- One of the errands, whether or not it has ended, lasts until now. -/
  | joining {answer : Answer} {errands : List Errand}
      (h : ∀ e ∈ errands, e.stage.Timely last timeout (timeFor w timeout e.client) now)
      (hx : ∃ client ∈ errands.map (·.client), now ≤ last + timeFor w timeout client) :
      Timely w timeout last now (.joining answer) errands
  | finished {answer : Answer} : Timely w timeout last now (.finished answer) []

section Steps

variable {s t : State} {id : CallId} {c c' : Call} {file : Path} {wait : Bool} {timeout last : Nat}
  {clients asked : List ClientId} {heard : List ClientReply} {waits : List Wait} {l : Label}
  {effects : List Effect} {w : ClientId → Option Nat} {place time : Nat} {e : Errand}
  {stage : ErrandStage} {x : Happening}

/-- A call and its errands are tasks. -/
theorem State.mem_tasks_of_call (hc : s.calls.find? id = some c) {task : TaskId}
    (h : task ∈ TaskId.call id :: (List.range c.errands.length).map (.errand id)) :
    task ∈ s.tasks := by
  obtain ⟨id', hid, hmem⟩ := Table.mem_entries_of_find? hc
  obtain rfl := eq_of_beq hid
  unfold State.tasks
  simp only [List.mem_append, List.mem_flatMap]
  exact .inl (.inl (.inl (.inl ⟨(id', c), hmem, h⟩)))

lemma State.call_mem_tasks (hc : s.calls.find? id = some c) : .call id ∈ s.tasks :=
  mem_tasks_of_call hc List.mem_cons_self

lemma State.errand_mem_tasks (hc : s.calls.find? id = some c)
    (he : c.errands[place]? = some e) : .errand id place ∈ s.tasks := by
  have hlt : place < c.errands.length := (List.getElem?_eq_some_iff.1 he).1
  exact mem_tasks_of_call hc
    (List.mem_cons_of_mem _ (List.mem_map_of_mem (List.mem_range.2 hlt)))

/-- An errand stays in time in its own steps. -/
theorem Errand.Passes.timely (hp : e.Passes s id place l stage effects)
    (h : e.stage.Timely last timeout time s.now) (ht : time ≤ timeout)
    (hcall : State.errandTimeout e.call = some timeout)
    (hreply : l.repliesTo (.errand id place) = true → last + time ≤ s.now) :
    stage.Timely last timeout time s.now := by
  cases hp with
  | begin hst =>
    rw [hst] at h
    cases h with
    | fresh hnow =>
      rw [hcall, State.limitFrom, Option.map_some, hnow]
      exact .underway (Nat.le_add_right _ _)
  | reply => exact .finished (hreply (decide_eq_true rfl))
  | expire hst hn =>
    rw [hst] at h
    cases h
    exact .finished (Nat.le_trans (Nat.add_le_add_left ht last) hn)
  | collect hst =>
    rw [hst] at h
    cases h with
    | finished hnow => exact .collected hnow

/-- The client of an errand that has begun replies when its time is over. -/
theorem Happening.InTime.replies {v : Wait} (hx : x.InTime w id v) (hb : v.began = last)
    (hl : x.label.repliesTo (.errand id v.place) = true) :
    last + timeFor w timeout v.client ≤ x.before.now := by
  obtain ⟨d, hd, hnow⟩ := Option.map_eq_some_iff.1 (hx.1 hl)
  rw [← hnow, hb, timeFor_of_some hd]
  exact Nat.add_le_add_left (Nat.min_le_left _ _) last

/-- All errands of a call stay in time when one of them goes forward. -/
lemma Joins.timely {errands : List Errand} (hj : Joins timeout waits errands)
    (hall : ∀ e ∈ errands, e.stage.Timely last timeout (timeFor w timeout e.client) s.now)
    (hb : ∀ v ∈ waits, v.began = last)
    (hx : ∀ v ∈ waits, (⟨s, l, effects, t⟩ : Happening).InTime w id v)
    (he : errands[place]? = some e) (hp : e.Passes s id place l stage effects) :
    ∀ e' ∈ errands.modify place fun e => { e with stage },
      e'.stage.Timely last timeout (timeFor w timeout e'.client) s.now := by
  intro e' he'
  obtain ⟨i, hi⟩ := List.mem_iff_getElem?.1 he'
  obtain ⟨-, rfl⟩ | ⟨-, hi⟩ := getElem?_modify_stage he hi
  · have hmem := List.mem_of_getElem? he
    obtain ⟨f, hcall⟩ := hj.calls e hmem
    refine hp.timely (hall e hmem) (timeFor_le _) (by rw [hcall]; rfl) fun hl => ?_
    have hbegun : e.stage ≠ .fresh := by
      cases hp with
      | reply hst => simp [hst]
      | _ => cases hl
    obtain ⟨v, hv, rfl, hclient, -⟩ := hj.begun place e he hbegun
    exact hclient ▸ (hx v hv).replies (hb v hv) hl
  · exact hall e' (List.mem_of_getElem? hi)

/-- A call stays in time in its own steps. A reply to it sets its beginning. -/
theorem Timely.step (h : Timely w timeout last s.now c.stage c.errands)
    (ho : Opens wait timeout clients asked heard waits c.stage c.errands)
    (hb : ∀ v ∈ waits, v.began = last)
    (hx : ∀ v ∈ waits, (⟨s, l, effects, t⟩ : Happening).InTime w id v)
    (hg : s.CallOpens wait id c l c' effects) :
    Timely w timeout (if (l.replyTo? id).isSome then s.now else last) s.now c'.stage
      c'.errands := by
  obtain ⟨request, path, stage, errands⟩ := c
  cases hg with
  | resolved hst =>
    cases hst
    cases h with
    | resolved hnow => exact .visiting hnow
  | ask hst =>
    cases hst
    cases h
    exact .contacting
  | heard hst =>
    cases hst
    cases h
    exact .visiting (by simp [Label.replyTo?])
  | answer hst =>
    cases hst
    cases h
    exact .finished
  | @await done hst hw hne =>
    cases hst
    cases h with
    | visiting hnow =>
      obtain ⟨client, hclient⟩ := List.exists_mem_of_ne_nil _ hne
      rw [← map_client_awaitErrands s path (opened done)] at hclient
      refine .joining (fun e he => ?_) ⟨client, hclient, ?_⟩
      · obtain ⟨client, -, rfl⟩ := List.mem_map.1 he
        exact .fresh hnow
      · exact Nat.le_trans (Nat.le_of_eq hnow) (Nat.le_add_right _ _)
  | @errand _ place e _ stage _ hst he hp =>
    cases hst
    cases ho with
    | joining _ _ _ _ hj =>
      cases h with
      | joining hall hlong =>
        have hnone : (l.replyTo? id).isSome = false := by cases hp <;> rfl
        rw [hnone]
        refine .joining (hj.timely hall hb hx he hp) ?_
        rw [map_modify_stage fun _ _ => rfl]
        exact hlong
  | finish hst =>
    cases hst
    cases h
    exact .finished

/-- Everything that a call waits for begins at the time of the last reply. -/
theorem Timely.began (h : Timely w timeout last s.now c.stage c.errands)
    (ho : Opens wait timeout clients asked heard waits c.stage c.errands)
    (hb : ∀ v ∈ waits, v.began = last) (hg : s.CallOpens wait id c l c' effects) :
    ∀ v ∈ waits ++ effects.filterMap (·.waitOf? id s.now),
      v.began = if (l.replyTo? id).isSome then s.now else last := by
  obtain ⟨request, path, stage, errands⟩ := c
  cases hg with
  | heard hst =>
    cases hst
    cases ho
    exact nofun
  | @errand _ place e _ stage _ hst he hp =>
    cases hst
    cases h with
    | joining hall =>
      have hkept : (l.replyTo? id).isSome = false := by cases hp <;> rfl
      rw [hkept]
      intro v hv
      obtain hv | hv := List.mem_append.1 hv
      · exact hb v hv
      · cases hp with
        | begin hfresh =>
          have htimely := hall e (List.mem_of_getElem? he)
          rw [hfresh] at htimely
          cases htimely with
          | fresh hnow =>
            obtain rfl : v = ⟨place, e.client, e.call, s.now⟩ := by
              simpa [Effect.waitOf?] using hv
            exact hnow
        | _ => cases hv
  | _ => simpa [Label.replyTo?, Effect.waitOf?] using hb

/-- A call that is in time gives its answer when the longest of its errands is over. -/
theorem Timely.answered (h : Timely w timeout last s.now c.stage c.errands)
    (ho : Opens wait timeout clients asked heard waits c.stage c.errands)
    (hg : s.CallOpens wait id c l c' effects) {given : Answer}
    (ha : .answered id given ∈ effects) :
    l.replyTo? id = none ∧ effects.filterMap (·.askedBy? id) = [] ∧
      s.now = last + waitTime wait w timeout (opened (asked.zip heard)) := by
  obtain ⟨request, path, stage, errands⟩ := c
  cases hg with
  | @answer done hst hw =>
    cases hst
    cases ho
    cases h with
    | visiting hnow =>
      refine ⟨rfl, rfl, ?_⟩
      unfold waitTime
      cases wait with
      | false => exact hnow
      | true =>
        rw [zip_map_fst_snd, hw rfl]
        exact hnow
  | finish hst hall =>
    cases hst
    cases ho with
    | joining _ hw _ hclients _ =>
      cases h with
      | joining htimely hlong =>
        refine ⟨rfl, rfl, ?_⟩
        rw [waitTime, if_pos hw, zip_map_fst_snd, ← hclients]
        have hover : ∀ client ∈ errands.map (·.client),
            last + timeFor w timeout client ≤ s.now := by
          intro client hclient
          obtain ⟨e, he, rfl⟩ := List.mem_map.1 hclient
          have hdone := htimely e he
          rw [hall e he] at hdone
          cases hdone with
          | collected h => exact h
        obtain ⟨client, hclient, hle⟩ := hlong
        -- all errands are over by now, and one of them has lasted until now
        have hlast : last ≤ s.now := Nat.le_trans (Nat.le_add_right _ _) (hover client hclient)
        refine Nat.le_antisymm
          (Nat.le_trans hle (Nat.add_le_add_left (timeFor_le_jointTime hclient) last)) ?_
        exact Nat.add_le_of_le_sub' hlast
          (jointTime_le fun client hclient => Nat.le_sub_of_add_le' (hover client hclient))
  | errand _ _ hp => cases hp <;> simp at ha
  | _ => simp at ha

/-- When all clients have replied, the clock does not move past the longest errand before the call
is answered. -/
theorem Timely.not_late {now : Nat} {errands : List Errand} {stage : CallStage}
    (h : Timely w timeout last now stage errands)
    (ho : Opens wait timeout clients asked heard waits stage errands)
    (hall : heard.length = clients.length) (hopen : ∀ given, stage ≠ .finished given) :
    now ≤ last + waitTime wait w timeout (opened (asked.zip heard)) := by
  cases ho with
  | resolved =>
    cases h with
    | resolved hnow => exact hnow ▸ Nat.le_add_right _ _
  | visiting =>
    cases h with
    | visiting hnow => exact hnow ▸ Nat.le_add_right _ _
  | contacting hc =>
    rw [hc] at hall
    simp at hall
  | joining _ hw _ hclients =>
    cases h with
    | joining _ hlong =>
      obtain ⟨client, hclient, hle⟩ := hlong
      rw [waitTime, if_pos hw, zip_map_fst_snd, ← hclients]
      exact Nat.le_trans hle (Nat.add_le_add_left (timeFor_le_jointTime hclient) last)
  | finished => exact absurd rfl (hopen _)

/-- While the clock moves, an errand that is under way holds it back, and one that has ended does
not mind. -/
lemma Timely.passBy_errand {answer : Answer} (hc : x.before.calls.find? id = some c)
    (hst : c.stage = .joining answer) (hj : Joins timeout waits c.errands)
    (he : c.errands[place]? = some e)
    (hb : ∀ v ∈ waits, v.began = last) (hx : ∀ v ∈ waits, x.InTime w id v)
    (hle : x.before.now ≤ x.after.now) (hidle : x.before.isIdle = true)
    (hdue : ∀ due ∈ x.before.dueTimes, x.after.now ≤ due)
    (h : e.stage.Timely last timeout (timeFor w timeout e.client) x.before.now) :
    e.stage.Timely last timeout (timeFor w timeout e.client) x.after.now := by
  generalize hes : e.stage = estage at h
  cases h with
  | fresh =>
    have hbusy := State.not_isIdle (State.errand_mem_tasks hc he)
      (State.runErrand_fresh hc hst he hes)
    exact absurd (hbusy.symm.trans hidle) Bool.false_ne_true
  | underway =>
    obtain ⟨v, hv, rfl, hclient, -⟩ := hj.begun place e he (by rw [hes]; exact nofun)
    have herrand := (State.errand?_of_joining hc hst).trans he
    have hlimit : x.after.now ≤ last + timeout := by
      refine hdue _ (List.mem_append_left _ (List.mem_filterMap.2
        ⟨_, State.errand_mem_tasks hc he, ?_⟩))
      simp [State.limit?, herrand, hes]
    have hown : ∀ d ∈ w e.client, x.after.now ≤ last + d := by
      rw [← hclient, ← hb v hv]
      intro d hd
      refine (hx v hv).2 d hd ?_
      simp [State.isWaiting, herrand, hes, ErrandStage.isWaiting]
    refine .underway ?_
    unfold timeFor
    cases hw : w e.client with
    | none => exact hlimit
    | some d =>
      have := hown d hw
      simp only [Option.elim_some]
      omega
  | finished hover => exact .finished (Nat.le_trans hover hle)
  | collected hover => exact .collected (Nat.le_trans hover hle)

/-- The clock leaves a call in time: it does not move while the call or an errand can go forward,
and not past the end of an errand. -/
theorem Timely.passBy (h : Timely w timeout last x.before.now c.stage c.errands)
    (ho : Opens wait timeout clients asked heard waits c.stage c.errands)
    (hc : x.before.calls.find? id = some c) (hr : c.request = .touchFile file wait)
    (hb : ∀ v ∈ waits, v.began = last) (hx : ∀ v ∈ waits, x.InTime w id v) (hp : x.Punctual) :
    Timely w timeout last x.after.now c.stage c.errands := by
  obtain hnow | ⟨hle, hidle, hdue⟩ := hp.clock
  · rw [hnow]
    exact h
  have idle : ∀ {task}, task ∈ x.before.tasks → (x.before.runTask task).isSome = true → False :=
    fun hmem hrun => Bool.false_ne_true ((State.not_isIdle hmem hrun).symm.trans hidle)
  generalize hst : c.stage = stage at h ho
  generalize herr : c.errands = errands at h ho
  cases h with
  | resolved =>
    have hrun := State.runCall_resolved hc (by simp [hr]) hst
    exact (idle (State.call_mem_tasks hc) (Option.isSome_iff_exists.2 ⟨_, hrun⟩)).elim
  | visiting => exact (idle (State.call_mem_tasks hc) (State.runCall_visiting hc hr hst)).elim
  | contacting => exact .contacting
  | joining hall hlong =>
    subst herr
    cases ho with
    | joining _ _ _ _ hj =>
      have hkept (place : Nat) (e : Errand) (he : c.errands[place]? = some e) :=
        Timely.passBy_errand hc hst hj he hb hx hle hidle hdue (hall e (List.mem_of_getElem? he))
      refine .joining (fun e he => ?_) ?_
      · obtain ⟨place, hplace⟩ := List.mem_iff_getElem?.1 he
        exact hkept place e hplace
      · obtain hrun | ⟨place, e, he, hf | ⟨limit, hu⟩⟩ := State.runCall_joining hc hst
        · exact (idle (State.call_mem_tasks hc) hrun).elim
        · exact (idle (State.errand_mem_tasks hc he) (State.runErrand_fresh hc hst he hf)).elim
        · have htimely := hkept place e he
          rw [hu] at htimely
          cases htimely with
          | underway hnow => exact ⟨_, List.mem_map_of_mem (List.mem_of_getElem? he), hnow⟩
  | finished => exact .finished

end Steps

/-- The clock has run for a call that opens a file as its clients take their time. -/
structure Awaiting (id : CallId) (wait : Bool) (w : ClientId → Option Nat) (timeout start : Nat)
    (run : List Happening) (s : State) (c : Call) : Prop where
  began : ∀ v ∈ waitsOf id run, v.began = lastReply id start run
  timely : Timely w timeout (lastReply id start run) s.now c.stage c.errands
  answered : ∀ x ∈ run, ∀ given, .answered id given ∈ x.effects →
    x.before.now = lastReply id start run + waitTime wait w timeout (openedBy id run)

section Runs

variable {s t : State} {id : CallId} {c c' : Call} {file path : Path} {wait : Bool}
  {timeout start : Nat} {clients : List ClientId} {l : Label} {effects : List Effect}
  {w : ClientId → Option Nat} {run : List Happening}

/-- A step of the call leaves it in time. -/
theorem Awaiting.step (h : Awaiting id wait w timeout start run s c)
    (ho : Opening id file path wait timeout clients run s c)
    (hx : ∀ v ∈ waitsOf id run, (⟨s, l, effects, t⟩ : Happening).InTime w id v)
    (hg : s.CallOpens wait id c l c' effects) (hnow : t.now = s.now) :
    Awaiting id wait w timeout start (run ++ [⟨s, l, effects, t⟩]) t c' where
  began := by
    rw [waitsOf_concat, lastReply_concat]
    exact h.timely.began ho.opens h.began hg
  timely := by
    rw [lastReply_concat, hnow]
    exact h.timely.step ho.opens h.began hx hg
  answered x hx given ha := by
    obtain hx | hx := List.mem_append.1 hx
    · exact absurd (ho.answered x hx given ha) (hg.not_finished given)
    · obtain rfl := List.mem_singleton.1 hx
      obtain ⟨hreply, hasked, htime⟩ := h.timely.answered ho.opens hg ha
      rw [lastReply_concat, openedBy, askedBy_concat, repliesTo_concat, hreply, hasked]
      simpa [openedBy] using htime

/-- What is not about the call leaves it in time. -/
theorem Awaiting.passBy (h : Awaiting id wait w timeout start run s c)
    (ho : Opening id file path wait timeout clients run s c)
    (hx : ∀ v ∈ waitsOf id run, (⟨s, l, effects, t⟩ : Happening).InTime w id v)
    (hp : (⟨s, l, effects, t⟩ : Happening).Punctual) (hl : l.tends id = false) :
    Awaiting id wait w timeout start (run ++ [⟨s, l, effects, t⟩]) t c := by
  have hm := (State.Next.step hp).move
  have hgoes := Label.goesOn_of_tends hl
  have hreply : l.replyTo? id = none := Label.replyTo?_eq_none hgoes
  have hlast : lastReply id start (run ++ [⟨s, l, effects, t⟩]) = lastReply id start run := by
    rw [lastReply_concat, hreply]
    rfl
  have hopened : openedBy id (run ++ [⟨s, l, effects, t⟩]) = openedBy id run := by
    rw [openedBy, askedBy_concat, repliesTo_concat, hreply, hm.askedBy_eq_nil hgoes]
    simp [openedBy]
  refine ⟨?_, ?_, fun x hmem given ha => ?_⟩
  · rw [waitsOf_concat, hm.waits_eq_nil hl, List.append_nil, hlast]
    exact h.began
  · rw [hlast]
    exact h.timely.passBy ho.opens ho.find ho.request h.began hx hp
  · rw [hlast, hopened]
    obtain hmem | hmem := List.mem_append.1 hmem
    · exact h.answered x hmem given ha
    · obtain rfl := List.mem_singleton.1 hmem
      exact absurd ha ((hm.call_silent hgoes).2 given)

/-- A call that opens a file is in time to the end of a run of which the clock is punctual and in
which its clients take their time. -/
theorem Run.awaiting (h : Run s run t) (hs : s.Coherent)
    (ht : s.settings.diagnosticsTimeout = timeout)
    (hc : Opening id file path wait timeout clients [] s c)
    (hstart : Timely w timeout s.now s.now c.stage c.errands)
    (hcancel : ∀ x ∈ run, x.label ≠ .cancel id) (hp : ∀ x ∈ run, x.Punctual)
    (hw : TakesTime w id run) :
    ∃ c', Opening id file path wait timeout clients run t c' ∧
      Awaiting id wait w timeout s.now run t c' := by
  induction h with
  | start => exact ⟨c, hc, by simp [waitsOf], hstart, by simp⟩
  | @next run t u l effects h hn ih =>
    obtain ⟨hw, hx⟩ := hw.of_concat
    obtain ⟨c', hc', ha⟩ := ih (fun x hx => hcancel x (List.mem_append_left _ hx))
      (fun x hx => hp x (List.mem_append_left _ hx)) hw
    have hl := hcancel _ (List.mem_append_right _ (List.mem_singleton.2 rfl))
    have hpunctual := hp _ (List.mem_append_right _ (List.mem_singleton.2 rfl))
    obtain ⟨c'', hg, rfl⟩ | ⟨htends, hkept⟩ :=
      hn.opens (h.coherent hs).calls hc'.find hc'.request hc'.opens hl
    · have htimeout : t.settings.diagnosticsTimeout = timeout := by rw [h.settings_eq, ht]
      exact ⟨c'', hc'.step htimeout hg, ha.step hc' hx hg rfl⟩
    · exact ⟨c', hc'.passBy hn.move htends hkept, ha.passBy hc' hx hpunctual htends⟩

end Runs

/-- A call that opens a file asks its clients one after another and gives the number of those who
did it, whether or not it waits for diagnostics and however the waiting ends. All that it asks is
about the path that an earlier step of it has made absolute. It waits only for the clients that have
opened the file and for every one of them. If the clients take some time for it, perhaps for ever,
the time from the last reply to the answer is that of the client which takes longest, cut off at
the limit, and the clock does not pass it without an answer. As long as there is no answer the call
goes on, and it needs a bounded number of steps. -/
theorem opens_counted {settings : Settings} {surroundings : Surroundings} {delays : List Nat}
    {disabled : List String} {earlier run : List Happening} {s t : State} {id : CallId} {c : Call}
    {file : Path} {wait : Bool} {clients : List ClientId}
    (h : Run (.create settings surroundings delays disabled) earlier s)
    (hc : s.calls.find? id = some c) (hr : c.request = .touchFile file wait)
    (hst : c.stage = .routing [] clients) (hrun : Run s run t)
    (hcancel : ∀ x ∈ run, x.label ≠ .cancel id) :
    askedBy id run <+: clients ∧
    (∃ y ∈ earlier, y.label = .run (.call id) ∧
      (∀ x ∈ run, ∀ client call, .began (.call id) (.client client call) ∈ x.effects →
        call = .open (y.before.absolute file)) ∧
      ∀ v ∈ waitsOf id run,
        v.call = .awaitDiagnostics (y.before.absolute file) settings.diagnosticsTimeout) ∧
    (∀ x ∈ run, ∀ given, .answered id given ∈ x.effects →
      given = .count ((repliesTo id run).countP (·.isDone)) ∧ askedBy id run = clients ∧
        (repliesTo id run).length = clients.length ∧
        (wait = true → ∀ place client, (openedBy id run)[place]? = some client →
          ∃ v ∈ waitsOf id run, v.place = place ∧ v.client = client)) ∧
    (∀ v ∈ waitsOf id run, wait = true ∧ (openedBy id run)[v.place]? = some v.client) ∧
    (∀ w, (∀ x ∈ run, x.Punctual) → TakesTime w id run →
      (∀ x ∈ run, ∀ given, .answered id given ∈ x.effects →
        x.before.now = lastReply id s.now run +
          waitTime wait w settings.diagnosticsTimeout (openedBy id run)) ∧
      ((repliesTo id run).length = clients.length →
        (∀ x ∈ run, ∀ given, .answered id given ∉ x.effects) →
        t.now ≤ lastReply id s.now run +
          waitTime wait w settings.diagnosticsTimeout (openedBy id run)) ∧
      waitTime wait w settings.diagnosticsTimeout (openedBy id run) ≤
        settings.diagnosticsTimeout) ∧
    ((∃ x ∈ run, ∃ given, .answered id given ∈ x.effects) ∨
      t.CallProceeds id settings.diagnosticsTimeout (askedBy id run) (waitsOf id run)) ∧
    run.countP (·.label.tends id) ≤ 5 * clients.length + 3 := by
  have hs := h.coherent (State.coherent_create ..)
  have hnone : c.errands = [] :=
    (h.tidy id c hc).resolve_right fun ⟨answer, hj⟩ => by simp [hst] at hj
  have htimeout : s.settings.diagnosticsTimeout = settings.diagnosticsTimeout := by
    rw [h.settings_eq]
    rfl
  obtain ⟨y, hy, hl, file', hrouted, hfile⟩ := h.located nofun hc (by rw [hst]; rfl)
  obtain rfl : file = file' := by
    rw [hr] at hrouted
    exact Option.some.inj hrouted
  have hstart : Opening id file (y.before.absolute file) wait settings.diagnosticsTimeout clients []
      s c := .of_resolved hc hr hst hnone hfile
  obtain ⟨c', ho⟩ := hrun.opening hs htimeout hstart hcancel
  refine ⟨ho.opens.asked_prefix, ⟨y, hy, hl, ho.asks, ho.waits⟩,
    fun x hx given ha => ho.counts (ho.answered x hx given ha), ho.opens.waits_opened,
    fun w hp hw => ?_, ?_, Nat.le_of_add_right_le ho.effort⟩
  · have htimely : Timely w settings.diagnosticsTimeout s.now s.now c.stage c.errands := by
      rw [hst, hnone]
      exact .resolved rfl
    obtain ⟨c'', ho', hawait⟩ := hrun.awaiting hs htimeout hstart htimely hcancel hp hw
    refine ⟨hawait.answered, fun hall hsilent => ?_, waitTime_le _ _⟩
    refine hawait.timely.not_late ho'.opens hall fun given hfin => ?_
    obtain ⟨x, hx, ha⟩ := ho'.returned given hfin
    exact hsilent x hx given ha
  · obtain ⟨given, hfin⟩ | hgo := ho.opens.proceeds ho.find ho.request
    · obtain ⟨x, hx, ha⟩ := ho.returned given hfin
      exact .inl ⟨x, hx, given, ha⟩
    · exact .inr hgo

/-- A call opens `sampleFile` and is to wait for diagnostics; both servers of the sample manager are
started for it. -/
def sampleTouch : List Label :=
  [.start (.touchFile sampleFile true), .run (.call 0), .run (.call 0), .run (.call 0)] ++
    sampleConnect 0 ++ sampleReady 0 ++
    [.run (.attempt 0), .run (.call 0), .run (.call 0), .run (.call 0)] ++
    sampleConnect 1 ++ sampleReady 1 ++ [.run (.attempt 1), .run (.call 0)]

/-- Both clients open the file, the second one after a while. The second one then waits for
diagnostics for 5 milliseconds, the first one for ever. -/
def sampleOpening : List Label :=
  [.run (.call 0), .run (.call 0), .reply (.call 0) (.client .done), .run (.call 0), .advance 7,
    .reply (.call 0) (.client .done), .run (.call 0), .run (.errand 0 0), .run (.errand 0 1),
    .advance 12, .reply (.errand 0 1) (.client .done), .run (.call 0), .advance 3007,
    .expire (.errand 0 0), .run (.call 0), .run (.call 0)]

/-- Every label that happens happens by itself. -/
theorem State.punctual_of_trace {s : State} {labels : List Label} {x : Happening}
    (hx : x ∈ s.trace labels) : x.Punctual := by
  induction labels generalizing s with
  | nil => cases hx
  | cons l labels ih =>
    unfold State.trace at hx
    split at hx
    · next t effects h =>
      obtain rfl | hx := List.mem_cons.1 hx
      · exact h
      · exact ih hx
    · exact ih hx

instance (w : ClientId → Option Nat) (call : CallId) (v : Wait) (x : Happening) :
    Decidable (x.InTime w call v) :=
  inferInstanceAs (Decidable (_ ∧ _))

instance (w : ClientId → Option Nat) (call : CallId) (run : List Happening) :
    Decidable (TakesTime w call run) :=
  inferInstanceAs (Decidable (∀ i, (h : i < run.length) → _))

/-- The call gives both clients when the limit of the first one has passed. -/
theorem opens_counted_sample :
    let run := (sample.follow sampleTouch).trace sampleOpening
    openedBy 0 run = [0, 1] ∧
      ∃ x ∈ run, .answered 0 (.count 2) ∈ x.effects ∧ x.before.now = 7 + 3000 := by
  have hearlier := Run.of_trace sample sampleTouch
  have hrun := Run.of_trace (sample.follow sampleTouch) sampleOpening
  have hstage : ∃ c, (sample.follow sampleTouch).calls.find? 0 = some c ∧
      c.request = .touchFile sampleFile true ∧ c.stage = .routing [] [0, 1] := ⟨_, rfl, rfl, rfl⟩
  obtain ⟨c, hc, hr, hst⟩ := hstage
  have hcancel : ∀ x ∈ (sample.follow sampleTouch).trace sampleOpening, x.label ≠ .cancel 0 := by
    intro x hx hl
    have hmem := State.label_mem_of_trace hx
    rw [hl] at hmem
    simp [sampleOpening] at hmem
  obtain ⟨-, -, -, -, htime, -⟩ := opens_counted hearlier hc hr hst hrun hcancel
  have hlast : ∃ x ∈ (sample.follow sampleTouch).trace sampleOpening,
      .answered 0 (.count 2) ∈ x.effects :=
    ⟨_, List.mem_of_getLast? rfl, List.mem_singleton_self _⟩
  obtain ⟨x, hx, ha⟩ := hlast
  obtain ⟨hnow, -⟩ := htime (fun client => if client = 0 then none else some 5)
    (fun x hx => State.punctual_of_trace hx) (by decide)
  exact ⟨by decide, x, hx, ha, hnow x hx _ ha⟩

end ServerFleet.Manager
