import ServerFleet.Proofs.Manager.Course
import ServerFleet.Proofs.Manager.Solitary

/-!
How a call for the clients of a file that is alone in a manager resolves the servers of the file.
It goes through the servers that handle the file, one after another, begins an attempt for each
instance it finds and waits for its outcome before it goes on.
-/

namespace ServerFleet.Manager

def Happening.begunBy? (x : Happening) (call : CallId) : Option (AttemptId × InstanceKey) :=
  match x.label with
  | .run (.call id) =>
    if id = call then
      (x.after.attempts.find? x.before.attempts.size).map fun a => (x.before.attempts.size, a.key)
    else none
  | _ => none

def Happening.isStepOf (x : Happening) (call : CallId) : Bool :=
  match x.label with
  | .run (.call id) => id = call
  | _ => false

/-- The attempts that a call begins in a run, in the order in which it begins them. -/
def begunBy (call : CallId) (run : List Happening) : List (AttemptId × InstanceKey) :=
  run.filterMap (·.begunBy? call)

/-- The client with which an attempt becomes ready in a run. -/
def readyClient? (run : List Happening) (id : AttemptId) : Option ClientId :=
  run.findSome? fun x => (x.after.attempts.find? id).bind (·.ready?)

namespace State

variable {s s' base : State} {file : Path}

def planFor (s : State) (file : Path) : List ServerDefinition :=
  s.settings.registry.forFile (s.absolute file)

lemma Resembles.planFor_eq (h : s.Resembles base) (file : Path) :
    s.planFor file = base.planFor file := by
  unfold planFor
  rw [h.settings, h.absolute_eq]

/-- The outcomes of the attempts for some instances are entered, and these are the clients that
are published of them. -/
structure Resolved (s : State) (keys : List InstanceKey) (begun : List (AttemptId × InstanceKey))
    (found : List ClientId) : Prop where
  keys : begun.map (·.2) = keys
  entered : ∀ b ∈ begun, (s.result? b.1).isSome = true
  found : found = begun.filterMap fun b => (s.result? b.1).join

/-- How far a call has come with the servers that handle its file, and with the attempts that it
has begun. -/
inductive Pursues (s : State) (plan : List ServerDefinition)
    (key? : ServerDefinition → Option InstanceKey) (begun : List (AttemptId × InstanceKey)) :
    CallStage → Prop
  | entering (hb : begun = []) : Pursues s plan key? begun .entering
  | routing {done left : List ServerDefinition} {found : List ClientId} (hp : plan = done ++ left)
      (hr : s.Resolved (done.filterMap key?) begun found) :
      Pursues s plan key? begun (.routing left found)
  | admitting {done left : List ServerDefinition} {d : ServerDefinition} {k : InstanceKey}
      {found : List ClientId} (hp : plan = done ++ d :: left) (hk : key? d = some k)
      (hr : s.Resolved (done.filterMap key?) begun found) :
      Pursues s plan key? begun (.admitting k left found)
  | joined {done left : List ServerDefinition} {d : ServerDefinition} {id : AttemptId}
      {k : InstanceKey} {earlier : List (AttemptId × InstanceKey)} {found : List ClientId}
      (hp : plan = done ++ d :: left) (hk : key? d = some k) (hb : begun = earlier ++ [(id, k)])
      (hr : s.Resolved (done.filterMap key?) earlier found) :
      Pursues s plan key? begun (.joined id left found)
  | finished {found : List ClientId} (hr : s.Resolved (plan.filterMap key?) begun found) :
      Pursues s plan key? begun (.finished (.clients found))

section Pursues

variable {plan : List ServerDefinition} {key? : ServerDefinition → Option InstanceKey}
  {begun : List (AttemptId × InstanceKey)} {stage : CallStage}

lemma Resolved.congr {keys : List InstanceKey} {found : List ClientId}
    (h : s.Resolved keys begun found)
    (hs : ∀ {id o}, s.result? id = some o → s'.result? id = some o) :
    s'.Resolved keys begun found := by
  have hsame : ∀ b ∈ begun, s'.result? b.1 = s.result? b.1 := by
    intro b hb
    obtain ⟨o, ho⟩ := Option.isSome_iff_exists.1 (h.entered b hb)
    rw [ho, hs ho]
  refine ⟨h.keys, fun b hb => ?_, h.found.trans ?_⟩
  · rw [hsame b hb]
    exact h.entered b hb
  · exact List.filterMap_congr fun b hb => by rw [hsame b hb]

lemma Pursues.congr (h : s.Pursues plan key? begun stage)
    (hs : ∀ {id o}, s.result? id = some o → s'.result? id = some o) :
    s'.Pursues plan key? begun stage := by
  cases h with
  | entering hb => exact .entering hb
  | routing hp hr => exact .routing hp (hr.congr hs)
  | admitting hp hk hr => exact .admitting hp hk (hr.congr hs)
  | joined hp hk hb hr => exact .joined hp hk hb (hr.congr hs)
  | finished hr => exact .finished (hr.congr hs)

lemma Pursues.ne_contacting (h : s.Pursues plan key? begun stage) (client : ClientId)
    (left : List ClientId) (replies : List (ClientId × ClientReply)) :
    stage ≠ .contacting client left replies := by
  cases h <;> exact nofun

/-- Attempts are begun for the instances of the plan, one after another. -/
theorem Pursues.keys_prefix (h : s.Pursues plan key? begun stage) :
    begun.map (·.2) <+: plan.filterMap key? := by
  cases h with
  | entering hb =>
    rw [hb]
    exact List.nil_prefix
  | routing hp hr | admitting hp _ hr =>
    rw [hp, hr.keys, List.filterMap_append]
    exact List.prefix_append _ _
  | joined hp hk hb hr =>
    rw [hp, hb, List.map_append, hr.keys, List.filterMap_append, List.filterMap_cons_some hk]
    exact ⟨_, List.append_cons _ _ _ |>.symm⟩
  | finished hr => exact hr.keys ▸ List.prefix_rfl

lemma Pursues.exists_mem (h : s.Pursues plan key? begun stage) {b : AttemptId × InstanceKey}
    (hb : b ∈ begun) : ∃ d ∈ plan, key? d = some b.2 := by
  have hmem := h.keys_prefix.subset (List.mem_map_of_mem hb)
  exact List.mem_filterMap.1 hmem

end Pursues

end State

/-- A bound on the steps that are left to a call for the clients of a file. -/
def CallStage.toGo (servers : Nat) : CallStage → Nat
  | entering => 3 * servers + 2
  | routing left _ => 3 * left.length + 1
  | admitting _ left _ => 3 * left.length + 3
  | joined _ left _ => 3 * left.length + 2
  | _ => 0

/-- A call for the clients of a file is alone in a manager that began as `base`. -/
structure Pursuit (base : State) (file : Path) (run : List Happening) (s : State) (c : Call) :
    Prop where
  serves : s.Serves 0 c file
  resembles : s.Resembles base
  located : c.stage = .entering ∨ c.file = base.absolute file
  pursues : s.Pursues (base.planFor file) (base.keyFor? file) (begunBy 0 run)
    c.stage
  begun : ∀ b ∈ begunBy 0 run, ∃ a, s.attempts.find? b.1 = some a ∧ a.key = b.2
  routed : ∀ {id a}, s.attempts.find? id = some a → a.byRetry = false →
    (id, a.key) ∈ begunBy 0 run
  ready : ∀ id, readyClient? run id = (s.attempts.find? id).bind (·.yield?)
  answered : ∀ x ∈ run, ∀ id answer, .answered id answer ∈ x.effects →
    id = 0 ∧ c.stage = .finished answer
  returned : ∀ answer, c.stage = .finished answer → ∃ x ∈ run, .answered 0 answer ∈ x.effects
  effort : run.countP (·.isStepOf 0) + c.stage.toGo (base.planFor file).length ≤
    3 * (base.planFor file).length + 2

section Steps

variable {base s t : State} {file : Path} {run : List Happening} {c : Call} {l : Label}
  {effects : List Effect}

lemma begunBy_concat (call : CallId) (run : List Happening) (x : Happening) :
    begunBy call (run ++ [x]) = begunBy call run ++ (x.begunBy? call).toList := by
  unfold begunBy
  rw [List.filterMap_append]
  cases h : x.begunBy? call <;> simp [h]

lemma readyClient?_concat (run : List Happening) (x : Happening) (id : AttemptId) :
    readyClient? (run ++ [x]) id =
      (readyClient? run id).or ((x.after.attempts.find? id).bind (·.ready?)) := by
  unfold readyClient?
  rw [List.findSome?_append]
  simp

lemma State.Move.result?_eq (hm : s.Move l t effects) (hc : s.Coherent) {id : AttemptId}
    {o : Option ClientId} (h : s.result? id = some o) : t.result? id = some o := by
  obtain ⟨a, ha, hp⟩ := Option.bind_eq_some_iff.1 h
  obtain ⟨a', ha', haa⟩ := hm.attempts.continues hc ha
  exact Option.bind_eq_some_iff.2 ⟨a', ha', haa.published hp⟩

/-- All attempts go back to attempts that the call has begun. -/
theorem Pursuit.exists_of_routed (h : Pursuit base file run s c) {k : InstanceKey} {epoch : Nat}
    (hk : s.Routed k epoch) : ∃ b ∈ begunBy 0 run, (b.2 == k) = true := by
  obtain ⟨id, a, ha, hak, -, hb⟩ := hk
  exact ⟨_, h.routed ha hb, hak⟩

/-- All attempts are for servers that are on. -/
theorem Pursuit.current (h : Pursuit base file run s c) (hs : s.Regular)
    (hbase : base.roster.epoch = 0) : s.Current := by
  intro id a ha
  constructor
  · have hle := hs.coherent.epoch_le ha
    have hzero := h.resembles.epoch.trans hbase
    omega
  · obtain ⟨b, hb, hk⟩ := h.exists_of_routed (hs.rooted.attempt ha)
    obtain ⟨d, -, hd⟩ := h.pursues.exists_mem hb
    rw [← InstanceKey.serverId_eq_of_beq hk, h.resembles.isDisabled_eq]
    exact (State.serverId_of_keyFor? hd).2

lemma Pursuit.ready_concat (h : Pursuit base file run s c) (hs : s.Regular)
    (hbase : base.roster.epoch = 0) (hm : s.Move l t effects) (id : AttemptId) :
    readyClient? (run ++ [⟨s, l, effects, t⟩]) id = (t.attempts.find? id).bind (·.yield?) := by
  rw [readyClient?_concat, h.ready, hm.yield? hs.coherent (h.current hs hbase) id]

lemma Happening.isStepOf_own (s t : State) (effects : List Effect) (call : CallId) :
    (⟨s, .run (.call call), effects, t⟩ : Happening).isStepOf call = true := decide_eq_true rfl

lemma Happening.isStepOf_other {x : Happening} {call : CallId}
    (hl : x.label ≠ .run (.call call)) : x.isStepOf call = false := by
  unfold Happening.isStepOf
  split
  · next id he =>
    refine decide_eq_false ?_
    rintro rfl
    exact hl he
  · rfl

lemma Happening.begunBy?_own (s t : State) (effects : List Effect) (call : CallId) :
    (⟨s, .run (.call call), effects, t⟩ : Happening).begunBy? call =
      (t.attempts.find? s.attempts.size).map fun a => (s.attempts.size, a.key) := if_pos rfl

lemma Happening.begunBy?_other {x : Happening} {call : CallId}
    (hl : x.label ≠ .run (.call call)) : x.begunBy? call = none := by
  unfold Happening.begunBy?
  split
  · next id he =>
    refine if_neg ?_
    rintro rfl
    exact hl he
  · rfl

/-- What the call has begun goes on as attempts for the same instances. -/
theorem Pursuit.begun_move (h : Pursuit base file run s c) (hs : s.Regular)
    (hm : s.Move l t effects) {b : AttemptId × InstanceKey} (hb : b ∈ begunBy 0 run) :
    ∃ a, t.attempts.find? b.1 = some a ∧ a.key = b.2 := by
  obtain ⟨a, ha, hk⟩ := h.begun b hb
  obtain ⟨a', ha', haa⟩ := hm.attempts.continues hs.coherent ha
  exact ⟨a', ha', haa.key.trans hk⟩

/-- An attempt that is not a retry and not new was begun by the call. -/
theorem Pursuit.routed_move (h : Pursuit base file run s c) (hs : s.Regular)
    (hm : s.Move l t effects) {id : AttemptId} {a a' : Attempt}
    (hf : s.attempts.find? id = some a') (ha : t.attempts.find? id = some a)
    (hb : a.byRetry = false) : (id, a.key) ∈ begunBy 0 run := by
  obtain ⟨b, hb', haa⟩ := hm.attempts.continues hs.coherent hf
  cases ha.symm.trans hb'
  rw [haa.key]
  exact h.routed hf (haa.byRetry.symm.trans hb)

/-- A step that passes the call by leaves it where it is. -/
theorem Pursuit.passBy (h : Pursuit base file run s c) (hs : s.Regular)
    (hbase : base.roster.epoch = 0) (hm : s.Move l t effects) (hl : l ≠ .run (.call 0))
    (hp : s.PassesBy t effects) : Pursuit base file (run ++ [⟨s, l, effects, t⟩]) t c := by
  have hbegun : begunBy 0 (run ++ [⟨s, l, effects, t⟩]) = begunBy 0 run := by
    rw [begunBy_concat, Happening.begunBy?_other hl]
    exact List.append_nil _
  refine ⟨⟨?_, ?_, h.serves.request, h.serves.errands, h.serves.stage⟩,
    hp.resembles.trans h.resembles, h.located, ?_, ?_, ?_, h.ready_concat hs hbase hm, ?_, ?_, ?_⟩
  · rw [hp.calls]
    exact h.serves.find
  · rw [hp.calls]
    exact h.serves.only
  · rw [hbegun]
    exact h.pursues.congr (hm.result?_eq hs.coherent)
  · rw [hbegun]
    exact fun b => h.begun_move hs hm
  · intro id a ha hb
    rw [hbegun]
    cases hf : s.attempts.find? id with
    | none =>
      have hretry := hp.byRetry hf ha
      exact absurd (hb.symm.trans hretry) Bool.false_ne_true
    | some a' => exact h.routed_move hs hm hf ha hb
  · intro x hx id answer ha
    obtain hx | hx := List.mem_append.1 hx
    · exact h.answered x hx id answer ha
    · obtain rfl := List.mem_singleton.1 hx
      exact absurd ha (hp.silent id answer)
  · intro answer hst
    obtain ⟨x, hx, ha⟩ := h.returned answer hst
    exact ⟨x, List.mem_append_left _ hx, ha⟩
  · rw [List.countP_append, List.countP_singleton, Happening.isStepOf_other hl]
    exact h.effort

/-- A new attempt has the next number. -/
theorem State.AttemptMove.eq_size (hm : s.AttemptMove l t) {id : AttemptId} {a : Attempt}
    (hn : s.attempts.find? id = none) (ha : t.attempts.find? id = some a) :
    id = s.attempts.size := by
  cases hm with
  | keep hs | shutDown hs =>
    rw [hs, hn] at ha
    cases ha
  | forward hf _ hs | settle hf _ hs =>
    rw [hs] at ha
    obtain ⟨rfl, -⟩ | ⟨-, ha⟩ := Table.find?_insert_cases ha
    · cases hn.symm.trans hf
    · cases hn.symm.trans ha
  | reserve _ _ _ _ hs | retry _ _ _ _ _ _ hs =>
    rw [hs] at ha
    obtain ⟨rfl, -⟩ | ⟨-, ha⟩ := Table.find?_insert_cases ha
    · rfl
    · cases hn.symm.trans ha

/-- A step of the call itself brings it to its next stage. -/
theorem Pursuit.proceed (h : Pursuit base file run s c) (hs : s.Regular)
    (hbase : base.roster.epoch = 0) (hm : s.Move (.run (.call 0)) t effects) {path : Path}
    {stage : CallStage} (hcalls : t.calls = s.calls.insert 0 { c with file := path, stage })
    (hpath : path = base.absolute file) (hres : t.Resembles s)
    (hopen : ∀ answer, c.stage ≠ .finished answer)
    (hp : t.Pursues (base.planFor file) (base.keyFor? file)
      (begunBy 0 (run ++ [⟨s, .run (.call 0), effects, t⟩])) stage)
    (hgo : stage.toGo (base.planFor file).length < c.stage.toGo (base.planFor file).length)
    (ha : ∀ id answer, .answered id answer ∈ effects ↔ id = 0 ∧ stage = .finished answer) :
    Pursuit base file (run ++ [⟨s, .run (.call 0), effects, t⟩]) t
      { c with file := path, stage } := by
  have hown := Happening.begunBy?_own s t effects 0
  refine ⟨⟨?_, ?_, h.serves.request, h.serves.errands, hp.ne_contacting⟩,
    hres.trans h.resembles, .inr hpath, hp, ?_, ?_, h.ready_concat hs hbase hm, ?_, ?_, ?_⟩
  · rw [hcalls]
    exact Table.find?_insert_self _ _ _
  · intro id c' hc'
    rw [hcalls] at hc'
    obtain ⟨rfl, -⟩ | ⟨-, hc'⟩ := Table.find?_insert_cases hc'
    · rfl
    · exact h.serves.only hc'
  · intro b hb
    rw [begunBy_concat] at hb
    obtain hb | hb := List.mem_append.1 hb
    · exact h.begun_move hs hm hb
    · rw [hown] at hb
      obtain ⟨a, ha, rfl⟩ := Option.map_eq_some_iff.1 (Option.mem_toList.1 hb)
      exact ⟨a, ha, rfl⟩
  · intro id a ha hb
    rw [begunBy_concat]
    cases hf : s.attempts.find? id with
    | none =>
      obtain rfl := hm.attempts.eq_size hf ha
      rw [hown, ha]
      simp
    | some a' => exact List.mem_append_left _ (h.routed_move hs hm hf ha hb)
  · intro x hx id answer hmem
    obtain hx | hx := List.mem_append.1 hx
    · exact absurd (h.answered x hx id answer hmem).2 (hopen answer)
    · obtain rfl := List.mem_singleton.1 hx
      exact (ha id answer).1 hmem
  · intro answer hst
    exact ⟨_, List.mem_append_right _ (List.mem_singleton.2 rfl), (ha 0 answer).2 ⟨rfl, hst⟩⟩
  · have heffort := h.effort
    rw [List.countP_append, List.countP_singleton, if_pos (Happening.isStepOf_own s t effects 0)]
    dsimp only
    omega

/-- So does a step that changes nothing but the call. -/
theorem Pursuit.goOn (h : Pursuit base file run s c) (hs : s.Regular)
    (hbase : base.roster.epoch = 0) {path : Path} {stage : CallStage}
    (hm : s.Move (.run (.call 0))
      { s with calls := s.calls.insert 0 { c with file := path, stage } } effects)
    (hpath : path = base.absolute file)
    (hopen : ∀ answer, c.stage ≠ .finished answer)
    (hp : s.Pursues (base.planFor file) (base.keyFor? file) (begunBy 0 run) stage)
    (hgo : stage.toGo (base.planFor file).length < c.stage.toGo (base.planFor file).length)
    (ha : ∀ id answer, .answered id answer ∈ effects ↔ id = 0 ∧ stage = .finished answer) :
    ∃ c', Pursuit base file (run ++ [⟨s, .run (.call 0), effects,
      { s with calls := s.calls.insert 0 { c with file := path, stage } }⟩])
      { s with calls := s.calls.insert 0 { c with file := path, stage } } c' := by
  refine ⟨_, h.proceed hs hbase hm rfl hpath ⟨rfl, rfl, rfl, rfl, rfl⟩ hopen ?_ hgo ha⟩
  rw [begunBy_concat, Happening.begunBy?_own, hs.coherent.attempts.find?_size, Option.map_none,
    Option.toList_none, List.append_nil]
  exact hp.congr (hm.result?_eq hs.coherent)

/-- The instance of the next server is new to the manager. -/
theorem Pursuit.not_routed (h : Pursuit base file run s c)
    (hnd : ((base.planFor file).map (·.id)).Nodup) {done left : List ServerDefinition}
    {d : ServerDefinition} {k : InstanceKey} (hp : base.planFor file = done ++ d :: left)
    (hk : base.keyFor? file d = some k)
    (hb : (begunBy 0 run).map (·.2) = done.filterMap (base.keyFor? file))
    (epoch : Nat) : ¬ s.Routed k epoch := by
  intro hr
  obtain ⟨b, hmem, hbk⟩ := h.exists_of_routed hr
  have hdone : b.2 ∈ done.filterMap (base.keyFor? file) := by
    rw [← hb]
    exact List.mem_map_of_mem hmem
  obtain ⟨d', hd', hk'⟩ := List.mem_filterMap.1 hdone
  have hid : d'.id = d.id := by
    rw [← (State.serverId_of_keyFor? hk').1, ← (State.serverId_of_keyFor? hk).1]
    exact InstanceKey.serverId_eq_of_beq hbk
  rw [hp, List.map_append, List.map_cons, List.nodup_append] at hnd
  exact hnd.2.2 d'.id (List.mem_map_of_mem hd') d.id List.mem_cons_self hid

lemma Pursuit.admits (h : Pursuit base file run s c) (hs : s.Regular)
    (hnd : ((base.planFor file).map (·.id)).Nodup) {done left : List ServerDefinition}
    {d : ServerDefinition} {k : InstanceKey} (hp : base.planFor file = done ++ d :: left)
    (hk : base.keyFor? file d = some k)
    (hb : (begunBy 0 run).map (·.2) = done.filterMap (base.keyFor? file)) :
    s.roster.isDisabled k.serverId = false ∧ s.roster.broken.contains k = false ∧
      s.roster.live.find? k = none ∧ s.roster.starting.find? k = none := by
  have hnew := h.not_routed hnd hp hk hb
  refine ⟨?_, ?_, ?_, ?_⟩
  · rw [h.resembles.isDisabled_eq]
    exact (State.serverId_of_keyFor? hk).2
  · refine Bool.eq_false_iff.2 fun hbroken => ?_
    exact hnew _ (hs.rooted.broken hbroken)
  · refine Table.contains_eq_false.1 (Bool.eq_false_iff.2 fun hlive => ?_)
    exact hnew _ (hs.rooted.live hlive)
  · cases hst : s.roster.starting.find? k with
    | none => rfl
    | some id =>
      obtain ⟨a, ha, hak, -⟩ := hs.coherent.starting.1 hst
      exact absurd ((hs.rooted.attempt ha).congr hak) (hnew _)

lemma State.Resolved.concat {keys : List InstanceKey} {begun : List (AttemptId × InstanceKey)}
    {found : List ClientId} (h : s.Resolved keys begun found) {id : AttemptId} {k : InstanceKey}
    {result : Option ClientId} (hr : s.result? id = some result) :
    s.Resolved (keys ++ [k]) (begun ++ [(id, k)]) (found ++ result.toList) where
  keys := by rw [List.map_append, h.keys]; rfl
  entered := by
    intro b hb
    obtain hb | hb := List.mem_append.1 hb
    · exact h.entered b hb
    · obtain rfl := List.mem_singleton.1 hb
      rw [hr]
      rfl
  found := by
    rw [List.filterMap_append, h.found]
    cases result <;> simp [hr]

lemma Call.finish_eq (h : c.errands = []) (answer : Answer) :
    c.finish answer = { c with stage := .finished answer } := by
  unfold Call.finish
  rw [h]

/-- A call that routes answers when no server is left, and else looks for the root of the next
one. -/
lemma Pursuit.step_routing (h : Pursuit base file run s c) (hs : s.Regular)
    (hbase : base.roster.epoch = 0) (hm : s.Move (.run (.call 0)) t effects)
    (hrun : s.runCall 0 = some (t, effects)) {done left : List ServerDefinition}
    {found : List ClientId} (hst : c.stage = .routing left found)
    (hpath : c.file = base.absolute file) (hplan : base.planFor file = done ++ left)
    (hr : s.Resolved (done.filterMap (base.keyFor? file)) (begunBy 0 run) found) :
    ∃ c', Pursuit base file (run ++ [⟨s, .run (.call 0), effects, t⟩]) t c' := by
  have hfind := h.serves.find
  cases left with
  | nil =>
    rw [State.runCall_routing_nil hfind h.serves.request hst,
      Call.finish_eq h.serves.errands] at hrun
    cases hrun
    rw [List.append_nil] at hplan
    refine h.goOn hs hbase hm hpath (by simp [hst]) ?_ ?_ (by simp [eq_comm])
    · exact .finished (hplan ▸ hr)
    · rw [hst]
      exact Nat.succ_pos _
  | cons d left =>
    rw [State.runCall_routing_cons hfind hst (hpath.trans (h.resembles.absolute_eq file).symm),
      h.resembles.keyFor?_eq] at hrun
    cases hk : base.keyFor? file d with
    | none =>
      rw [hk] at hrun
      cases hrun
      refine h.goOn hs hbase hm hpath (by simp [hst]) ?_ ?_ (by simp)
      · have hsplit : base.planFor file = (done ++ [d]) ++ left := by simp [hplan]
        refine .routing hsplit ?_
        rw [List.filterMap_append, List.filterMap_cons_none hk, List.filterMap_nil,
          List.append_nil]
        exact hr
      · rw [hst]
        simp only [Option.elim, CallStage.toGo, List.length_cons]
        omega
    | some k =>
      rw [hk] at hrun
      cases hrun
      refine h.goOn hs hbase hm hpath (by simp [hst]) (.admitting hplan hk hr) ?_ (by simp)
      rw [hst]
      simp only [Option.elim, CallStage.toGo, List.length_cons]
      omega

/-- What a step of the call itself does. -/
theorem Pursuit.step (h : Pursuit base file run s c) (hs : s.Regular)
    (hbase : base.roster.epoch = 0) (hnd : ((base.planFor file).map (·.id)).Nodup)
    (hn : s.Next (.run (.call 0)) t effects) :
    ∃ c', Pursuit base file (run ++ [⟨s, .run (.call 0), effects, t⟩]) t c' := by
  have hm := hn.move
  have hrun : s.runCall 0 = some (t, effects) := by
    cases hn with
    | step hstep => exact hstep
  have hfind := h.serves.find
  have hreq := h.serves.request
  have hp := h.pursues
  have hlocated := h.located
  generalize hst : c.stage = stage at hp hlocated
  cases hp with
  | entering hb =>
    rw [State.runCall_entering hfind hreq hst] at hrun
    cases hrun
    have hplan : s.settings.registry.forFile (s.absolute file) = base.planFor file :=
      h.resembles.planFor_eq file
    rw [hplan] at hm ⊢
    refine h.goOn hs hbase hm (h.resembles.absolute_eq file) (by simp [hst]) ?_ ?_ (by simp)
    · have hnil : base.planFor file = [] ++ base.planFor file := rfl
      exact .routing hnil ⟨by simp [hb], by simp [hb], by simp [hb]⟩
    · rw [hst]
      exact Nat.lt_succ_self _
  | routing hplan hr =>
    exact h.step_routing hs hbase hm hrun hst (hlocated.resolve_left nofun) hplan hr
  | @admitting done left d k found hplan hk hr =>
    have hpath := hlocated.resolve_left nofun
    obtain ⟨hd, hb, hl, hs'⟩ := h.admits hs hnd hplan hk hr.keys
    rw [State.runCall_admitting hfind hst hd hb hl hs'] at hrun
    cases hrun
    refine ⟨_, h.proceed hs hbase hm rfl hpath ⟨rfl, rfl, rfl, rfl, rfl⟩ (by simp [hst]) ?_ ?_
      (by simp)⟩
    · rw [begunBy_concat, Happening.begunBy?_own, Table.find?_insert_self]
      exact .joined hplan hk rfl (hr.congr (hm.result?_eq hs.coherent))
    · rw [hst]
      exact Nat.lt_succ_self _
  | @joined done left d id k earlier found hplan hk hb hr =>
    have hpath := hlocated.resolve_left nofun
    rw [State.runCall_joined hfind hst] at hrun
    obtain ⟨result, hres, heq⟩ := Option.map_eq_some_iff.1 hrun
    cases heq
    refine h.goOn hs hbase hm hpath (by simp [hst]) ?_ ?_ (by simp)
    · have hsplit : base.planFor file = (done ++ [d]) ++ left := by simp [hplan]
      refine .routing hsplit ?_
      rw [hb, List.filterMap_append, List.filterMap_cons_some hk, List.filterMap_nil]
      exact hr.concat hres
    · rw [hst]
      exact Nat.lt_succ_self _
  | finished hr =>
    have hnone : s.runCall 0 = none := by simp [State.runCall, hfind, hst]
    cases hnone.symm.trans hrun

end Steps

section Runs

variable {base called s : State} {file : Path} {run : List Happening} {c : Call}

/-- What the call gives back are the clients with which its attempts became ready. -/
theorem Pursuit.answers (h : Pursuit base file run s c) {x : Happening} (hx : x ∈ run)
    {id : CallId} {answer : Answer} (ha : .answered id answer ∈ x.effects) :
    id = 0 ∧ (begunBy 0 run).map (·.2) = (base.planFor file).filterMap (base.keyFor? file) ∧
      answer = .clients ((begunBy 0 run).filterMap fun b => readyClient? run b.1) := by
  obtain ⟨hid, hst⟩ := h.answered x hx id answer ha
  have hp := h.pursues
  rw [hst] at hp
  cases hp with
  | finished hr =>
    refine ⟨hid, hr.keys, congrArg Answer.clients (hr.found.trans ?_)⟩
    refine List.filterMap_congr fun b hb => ?_
    obtain ⟨a, hf, -⟩ := h.begun b hb
    obtain ⟨o, ho⟩ := Option.isSome_iff_exists.1 (hr.entered b hb)
    have hpub : a.published = some o := by simpa [State.result?, hf] using ho
    rw [ho, h.ready, hf]
    exact (Attempt.yield?_of_published hpub).symm

end Runs

end ServerFleet.Manager
