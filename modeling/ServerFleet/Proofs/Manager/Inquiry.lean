import ServerFleet.Proofs.Manager.Resolution

/-!
How a request about a file is put to the clients of the file. They are asked in their order, each
after the one before it has replied, and a reply that is enough ends the round. Whatever a client
replies is kept as its own part of the answer, so a failure changes nothing but that part, and
nothing else in the manager.
-/

namespace ServerFleet.Manager

section Round

variable {α β : Type} {p : α → Bool}

/-- The beginning of a list up to the first element that passes a test, with this element. -/
def upTo (p : α → Bool) (l : List α) : List α := l.take (l.findIdx p + 1)

lemma upTo_cons (p : α → Bool) (a : α) (l : List α) :
    upTo p (a :: l) = a :: if p a then [] else upTo p l := by
  unfold upTo
  rw [List.take_succ_cons, List.findIdx_cons]
  cases p a <;> rfl

lemma upTo_eq_self {l : List α} (h : ∀ a ∈ l, p a = false) : upTo p l = l := by
  induction l with
  | nil => rfl
  | cons a l ih =>
    obtain ⟨ha, hl⟩ := List.forall_mem_cons.1 h
    rw [upTo_cons, ha, ih hl]
    rfl

/-- What never passes the test can be left out before or after. -/
theorem upTo_filter {q : α → Bool} (h : ∀ a, q a = false → p a = false) (l : List α) :
    upTo p (l.filter q) = (upTo p l).filter q := by
  induction l with
  | nil => rfl
  | cons a l ih =>
    rw [upTo_cons]
    cases hq : q a with
    | true =>
      rw [List.filter_cons_of_pos hq, upTo_cons, ih, List.filter_cons_of_pos hq]
      split <;> rfl
    | false =>
      rw [List.filter_cons_of_neg (by simp [hq]), List.filter_cons_of_neg (by simp [hq]), h a hq,
        ih]
      rfl

lemma findSome?_filter_of {f : α → Option β} {q : α → Bool} (h : ∀ a, q a = false → f a = none)
    (l : List α) : (l.filter q).findSome? f = l.findSome? f := by
  induction l with
  | nil => rfl
  | cons a l ih =>
    cases hq : q a with
    | true => rw [List.filter_cons_of_pos hq, List.findSome?_cons, List.findSome?_cons, ih]
    | false =>
      rw [List.filter_cons_of_neg (by simp [hq]), List.findSome?_cons, h a hq, ih]

lemma flatMap_filter_of {f : α → List β} {q : α → Bool} (h : ∀ a, q a = false → f a = [])
    (l : List α) : (l.filter q).flatMap f = l.flatMap f := by
  induction l with
  | nil => rfl
  | cons a l ih =>
    cases hq : q a with
    | true => rw [List.filter_cons_of_pos hq, List.flatMap_cons, List.flatMap_cons, ih]
    | false =>
      rw [List.filter_cons_of_neg (by simp [hq]), List.flatMap_cons, h a hq, ih, List.nil_append]

end Round

/-- The round of the clients: those who are asked if all would reply as planned. -/
def Request.round (r : Request) (plan : List (ClientId × ClientReply)) :
    List (ClientId × ClientReply) :=
  upTo (fun e => r.isSatisfied e.2) plan

/-- Whom a request is put to and how it is answered, when the clients of its file reply as
planned. -/
inductive FansOut (plan : List (ClientId × ClientReply)) : Request → List ClientId → Answer → Prop
  /-- The first client that has something to show gives the hover. -/
  | hover {file : Path} {position : Position} :
      FansOut plan (.query .hover file position)
        ((upTo (fun e => e.2.shown?.isSome) plan).map (·.1))
        (.hover (plan.findSome? (·.2.shown?)))
  /-- The first client that finds anything gives the locations. -/
  | definition {file : Path} {position : Position} :
      FansOut plan (.query .definition file position)
        ((upTo (fun e => !e.2.found.isEmpty) plan).map (·.1))
        (.items (((plan.map (·.2.found)).find? (!·.isEmpty)).getD []))
  /-- The items of all clients follow one another. -/
  | completion {file : Path} {position : Position} :
      FansOut plan (.query .completion file position) (plan.map (·.1))
        (.items (plan.flatMap (·.2.found)))
  /-- The locations of all clients follow one another. -/
  | references {file : Path} {position : Position} :
      FansOut plan (.query .references file position) (plan.map (·.1))
        (.items (plan.flatMap (·.2.found)))
  /-- All clients are told. -/
  | fileChanged {file : Path} {text : Option String} :
      FansOut plan (.fileChanged file text) (plan.map (·.1)) .done
  | fileSaved {file : Path} : FansOut plan (.fileSaved file) (plan.map (·.1)) .done

/-- A request about a file that ends with the round of the clients. -/
structure Request.GoesRound (r : Request) : Prop where
  asks : ∀ f, ∃ call, r.clientCall? f = some call
  awaits : ∀ replies, r.awaited replies = []
  ne : ∀ f, r ≠ .clientsForFile f

namespace FansOut

variable {plan : List (ClientId × ClientReply)} {r : Request} {asked : List ClientId}
  {answer : Answer}

lemma round_eq_plan (h : ∀ reply, r.isSatisfied reply = false) : r.round plan = plan :=
  upTo_eq_self fun e _ => h e.2

end FansOut

section Observed

/-- The client to which a call has put its question. -/
def Effect.askedBy? (call : CallId) : Effect → Option ClientId
  | .began (.call id) (.client client _) => if id = call then some client else none
  | _ => none

def Label.replyTo? (call : CallId) : Label → Option ClientReply
  | .reply (.call id) (.client r) => if id = call then some r else none
  | _ => none

def askedBy (call : CallId) (run : List Happening) : List ClientId :=
  run.flatMap fun x => x.effects.filterMap (·.askedBy? call)

def repliesTo (call : CallId) (run : List Happening) : List ClientReply :=
  run.filterMap (·.label.replyTo? call)

/-- Whether a call goes on: it goes one step forward or is replied to. -/
def Label.goesOn (call : CallId) : Label → Bool
  | .run (.call id) => id = call
  | .reply (.call id) _ => id = call
  | _ => false

/-- Whether a label is about a call or one of its errands. -/
def Label.tends (call : CallId) : Label → Bool
  | .run (.errand id _) => id = call
  | .reply (.errand id _) _ => id = call
  | .expire (.errand id _) => id = call
  | l => l.goesOn call

lemma askedBy_concat (call : CallId) (run : List Happening) (x : Happening) :
    askedBy call (run ++ [x]) = askedBy call run ++ x.effects.filterMap (·.askedBy? call) := by
  simp [askedBy]

lemma repliesTo_concat (call : CallId) (run : List Happening) (x : Happening) :
    repliesTo call (run ++ [x]) = repliesTo call run ++ (x.label.replyTo? call).toList := by
  unfold repliesTo
  rw [List.filterMap_append]
  cases h : x.label.replyTo? call <;> simp [h]

lemma Effect.askedBy?_eq_some {call : CallId} {e : Effect} {client : ClientId} :
    e.askedBy? call = some client ↔ ∃ q, e = .began (.call call) (.client client q) := by
  unfold askedBy?
  split
  · split <;> simp_all
  · simp_all

lemma Label.replyTo?_eq_none {call : CallId} {l : Label} (h : l.goesOn call = false) :
    l.replyTo? call = none := by
  unfold replyTo?
  split
  · exact if_neg (of_decide_eq_false h)
  · rfl

lemma Label.goesOn_of_tends {call : CallId} {l : Label} (h : l.tends call = false) :
    l.goesOn call = false := by
  unfold tends at h
  split at h
  · rfl
  · rfl
  · rfl
  · exact h

lemma Label.ne_run_of_goesOn {call : CallId} {l : Label} (h : l.goesOn call = false) :
    l ≠ .run (.call call) := by
  rintro rfl
  exact of_decide_eq_false h rfl

end Observed

lemma Errand.Goes.tends {call : CallId} {place : Nat} {e : Errand} {l : Label}
    {stage : ErrandStage} {effects : List Effect} (h : e.Goes call place l stage effects) :
    l.tends call = true := by
  cases h <;> exact decide_eq_true rfl

def CallStage.isResolving : CallStage → Bool
  | routing .. => true
  | admitting .. => true
  | joined .. => true
  | _ => false

namespace State

variable {s t : State} {id : CallId} {c : Call} {l : Label} {effects : List Effect} {r : Request}

section Steps

variable {left : List ClientId} {replies : List (ClientId × ClientReply)}
  (hc : s.calls.find? id = some c)
include hc

lemma runCall_resolved (hne : ∀ f, c.request ≠ .clientsForFile f)
    (hst : c.stage = .routing [] left) :
    s.runCall id = some ({ s with
      calls := s.calls.insert id { c with stage := .visiting left [] } }, []) := by
  simp only [runCall, hc, hst, Option.bind_eq_bind, Option.bind_some]
  exact congrArg some (goTo_eq hc _)

lemma runCall_visiting_nil (hr : c.request.GoesRound)
    (hst : c.stage = .visiting [] replies) :
    s.runCall id = some ({ s with
      calls := s.calls.insert id (c.finish (c.request.answer replies)) },
      [.answered id (c.request.answer replies)]) := by
  simp [runCall, hc, hst, hr.awaits, finish_eq hc]

lemma runCall_visiting_cons {client : ClientId} {call : ClientCall}
    (hst : c.stage = .visiting (client :: left) replies)
    (hcall : c.request.clientCall? c.file = some call) :
    s.runCall id = some ({ s with
      calls := s.calls.insert id { c with stage := .contacting client left replies } },
      [.began (.call id) (.client client call)]) := by
  simp [runCall, hc, hst, hcall, updateCall_eq hc]

lemma replyToCall_contacting {client : ClientId} (hst : c.stage = .contacting client left replies)
    (reply : ClientReply) :
    s.replyToCall id (.client reply) = some ({ s with
      calls := s.calls.insert id { c with
        stage := .visiting (if c.request.isSatisfied reply then [] else left)
          (replies ++ [(client, reply)]) } }, []) := by
  simp [replyToCall, hc, hst, goTo_eq hc]

end Steps

lemma CallGoes.goesOn {c' : Call} (h : s.CallGoes id c l c' effects) : l.goesOn id = true := by
  cases h <;> exact decide_eq_true rfl

/-- A call stays where it is as long as it does not go on and is not given up. Only its errands can
change it. -/
theorem Move.call_kept (hm : s.Move l t effects) (hn : s.calls.Numbered)
    (hc : s.calls.find? id = some c) (hl : l.goesOn id = false) (hcancel : l ≠ .cancel id) :
    ∃ c', t.calls.find? id = some c' ∧ c'.request = c.request ∧ c'.file = c.file ∧
      c'.stage = c.stage ∧ (l.tends id = false → c' = c) := by
  have changed : ∀ {id' : CallId} {c' : Call}, id ≠ id' →
      ∃ c'', (s.calls.insert id' c').find? id = some c'' ∧ c''.request = c.request ∧
        c''.file = c.file ∧ c''.stage = c.stage ∧ (l.tends id = false → c'' = c) := fun hne =>
    ⟨c, (Table.find?_insert_of_ne _ hne _).trans hc, rfl, rfl, rfl, fun _ => rfl⟩
  have other : ∀ {id' : CallId}, Label.goesOn id (.run (.call id')) = false → id ≠ id' := by
    rintro id' h rfl
    exact of_decide_eq_false h rfl
  cases hm with
  | start => exact changed (Nat.ne_of_lt (hn.lt_size hc))
  | cancel =>
    refine changed ?_
    rintro rfl
    exact hcancel rfl
  | @call id' _ _ _ _ hc' hg =>
    refine changed ?_
    rintro rfl
    exact absurd hg.goesOn (by simp [hl])
  | @errand id' place c' _ _ _ _ hc' _ _ hg =>
    by_cases hid : id = id'
    · subst hid
      cases hc.symm.trans hc'
      exact ⟨_, Table.find?_insert_self _ _ _, rfl, rfl, rfl,
        fun htends => absurd (htends.symm.trans hg.tends) Bool.false_ne_true⟩
    · exact changed hid
  | reserve | enable | disable | forgetBroken | forgetRetries | shutDown => exact changed (other hl)
  | _ => exact ⟨c, hc, rfl, rfl, rfl, fun _ => rfl⟩

/-- A call that resolves the servers of a file did so before, or it has just been entered: its path
is that of the file then. -/
theorem CallGoes.located {c' : Call} (h : s.CallGoes id c l c' effects)
    (hst : c'.stage.isResolving = true) :
    c.stage.isResolving = true ∧ c.request = c'.request ∧ c.file = c'.file ∨
      l = .run (.call id) ∧
        ∃ file, c'.request.routed? = some file ∧ c'.file = s.absolute file := by
  cases h with
  | route _ hf => exact .inr ⟨rfl, _, hf, rfl⟩
  | skip h | detect h | refuse h | find h | join h | obtain h =>
    rw [h]
    exact .inl ⟨rfl, rfl, rfl⟩
  | collect h =>
    rw [h] at hst
    cases hst
  | _ => cases hst

lemma isResolving_dismiss (c : Call) (server : String) (enabled changed : Bool)
    (removed : List (InstanceKey × ClientId)) :
    (c.dismiss server enabled changed removed).stage.isResolving = false := by
  cases changed <;> rfl

lemma Move.located (hm : s.Move l t effects) (hc : t.calls.find? id = some c)
    (hst : c.stage.isResolving = true) :
    (∃ c', s.calls.find? id = some c' ∧ c'.stage.isResolving = true ∧ c'.request = c.request ∧
      c'.file = c.file) ∨
      l = .run (.call id) ∧ ∃ file, c.request.routed? = some file ∧ c.file = s.absolute file := by
  have old (hc : s.calls.find? id = some c) : ∃ c', s.calls.find? id = some c' ∧
      c'.stage.isResolving = true ∧ c'.request = c.request ∧ c'.file = c.file :=
    ⟨c, hc, hst, rfl, rfl⟩
  cases hm with
  | call hf hg =>
    obtain ⟨rfl, rfl⟩ | ⟨-, hc⟩ := Table.find?_insert_cases hc
    · exact (hg.located hst).imp_left fun hkept => ⟨_, hf, hkept⟩
    · exact .inl (old hc)
  | errand hf =>
    obtain ⟨rfl, rfl⟩ | ⟨-, hc⟩ := Table.find?_insert_cases hc
    · exact .inl ⟨_, hf, hst, rfl, rfl⟩
    · exact .inl (old hc)
  | reserve hf h =>
    obtain ⟨rfl, rfl⟩ | ⟨-, hc⟩ := Table.find?_insert_cases hc
    · exact .inl ⟨_, hf, by rw [h]; rfl, rfl, rfl⟩
    · exact .inl (old hc)
  | start | cancel | forgetBroken | forgetRetries | shutDown =>
    obtain ⟨-, rfl⟩ | ⟨-, hc⟩ := Table.find?_insert_cases hc
    · cases hst
    · exact .inl (old hc)
  | enable | disable =>
    obtain ⟨-, rfl⟩ | ⟨-, hc⟩ := Table.find?_insert_cases hc
    · rw [isResolving_dismiss] at hst
      cases hst
    · exact .inl (old hc)
  | _ => exact .inl (old hc)

/-- Nothing is seen of a call that does not go on. -/
theorem Move.call_silent (hm : s.Move l t effects) (hl : l.goesOn id = false) :
    (∀ operation, .began (.call id) operation ∉ effects) ∧
      ∀ answer, .answered id answer ∉ effects := by
  cases hm with
  | attempt _ hg => cases hg <;> simp
  | settle =>
    refine ⟨fun operation hmem => ?_, fun answer hmem => ?_⟩
    all_goals
      obtain hmem | hmem := List.mem_append.1 hmem
      · simp at hmem
      · split at hmem <;> simp at hmem
  | @call id' _ _ _ _ _ hg =>
    have hne : id ≠ id' := by
      rintro rfl
      exact absurd hg.goesOn (by simp [hl])
    cases hg with
    | @collect _ e =>
      unfold Errand.farewell
      split <;> simp
    | _ => simp [hne]
  | errand _ _ _ hg => cases hg <;> simp
  | @forgetRetries id' =>
    have hne : id ≠ id' := by
      rintro rfl
      exact absurd hl (by simp [Label.goesOn])
    simp [hne]
  | client _ hg => cases hg <;> simp
  | _ => simp

lemma Move.askedBy_eq_nil (hm : s.Move l t effects) (hl : l.goesOn id = false) :
    effects.filterMap (·.askedBy? id) = [] := by
  refine List.filterMap_eq_nil_iff.2 fun e he => Option.eq_none_iff_forall_ne_some.2 ?_
  intro client hclient
  obtain ⟨q, rfl⟩ := Effect.askedBy?_eq_some.1 hclient
  exact (hm.call_silent hl).1 _ he

/-- No errand of a call begins in a step that is not about it. -/
theorem Move.errand_silent (hm : s.Move l t effects) (hl : l.tends id = false) (place : Nat)
    (operation : Operation) : .began (.errand id place) operation ∉ effects := by
  cases hm with
  | attempt _ hg => cases hg <;> simp
  | settle =>
    intro hmem
    obtain hmem | hmem := List.mem_append.1 hmem
    · simp at hmem
    · split at hmem <;> simp at hmem
  | call _ hg =>
    cases hg with
    | @collect _ e =>
      unfold Errand.farewell
      split <;> simp
    | _ => simp
  | @errand id' _ _ _ _ _ _ _ _ _ hg =>
    have hne : id ≠ id' := by
      rintro rfl
      exact absurd (hl.symm.trans hg.tends) Bool.false_ne_true
    cases hg <;> simp [hne]
  | client _ hg => cases hg <;> simp
  | _ => simp

end State

/-- A bound on the steps that are left to a call whose clients are resolved. -/
def CallStage.toAsk : CallStage → Nat
  | routing _ found => found.length + 2
  | visiting left _ => left.length + 1
  | contacting _ left _ => left.length + 1
  | _ => 0

/-- How far a call has come with its round, when it has asked some clients and heard some
replies: the clients that are done with and those that are still up make the round together. -/
inductive Request.Inquires (r : Request) (plan : List (ClientId × ClientReply)) :
    List ClientId → List ClientReply → CallStage → Prop
  | resolved : Inquires r plan [] [] (.routing [] (plan.map (·.1)))
  | visiting {done todo : List (ClientId × ClientReply)} (hp : done ++ todo <+: plan)
      (hr : r.round plan = done ++ r.round todo) :
      Inquires r plan (done.map (·.1)) (done.map (·.2)) (.visiting (todo.map (·.1)) done)
  | contacting {done todo : List (ClientId × ClientReply)} {e : ClientId × ClientReply}
      (hp : done ++ e :: todo <+: plan) (hr : r.round plan = done ++ r.round (e :: todo)) :
      Inquires r plan (done.map (·.1) ++ [e.1]) (done.map (·.2))
        (.contacting e.1 (todo.map (·.1)) done)
  | finished : Inquires r plan ((r.round plan).map (·.1)) ((r.round plan).map (·.2))
      (.finished (r.answer (r.round plan)))

lemma Request.round_cons (r : Request) (e : ClientId × ClientReply)
    (plan : List (ClientId × ClientReply)) :
    r.round (e :: plan) = e :: if r.isSatisfied e.2 then [] else r.round plan :=
  upTo_cons _ e plan

/-- The clients that are asked are the first ones of the round. -/
theorem Request.Inquires.asked_prefix {r : Request} {plan : List (ClientId × ClientReply)}
    {asked : List ClientId} {heard : List ClientReply} {stage : CallStage}
    (h : r.Inquires plan asked heard stage) : asked <+: (r.round plan).map (·.1) := by
  cases h with
  | resolved => exact List.nil_prefix
  | visiting _ hr =>
    rw [hr, List.map_append]
    exact List.prefix_append _ _
  | @contacting done todo e _ hr =>
    rw [hr, r.round_cons, List.map_append, List.map_cons]
    exact ⟨_, List.append_cons _ _ _ |>.symm⟩
  | finished => exact List.prefix_rfl

/-- What a call does when it goes on: it asks for what the request is about, and changes nothing
but itself. -/
structure Happening.Tends (x : Happening) (id : CallId) (r : Request) (path : Path) : Prop where
  asks : ∀ client call, .began (.call id) (.client client call) ∈ x.effects →
    r.clientCall? path = some call
  only : x.label.goesOn id = true →
    ∃ c, x.after = { x.before with calls := x.before.calls.insert id c }

/-- A call about the file at a path has come to a certain point of its round. -/
structure Inquiry (id : CallId) (r : Request) (path : Path)
    (plan : List (ClientId × ClientReply)) (run : List Happening) (s : State) (c : Call) :
    Prop where
  find : s.calls.find? id = some c
  request : c.request = r
  file : c.file = path
  inquires : r.Inquires plan (askedBy id run) (repliesTo id run) c.stage
  tends : ∀ x ∈ run, x.Tends id r path
  answered : ∀ x ∈ run, ∀ answer, .answered id answer ∈ x.effects → c.stage = .finished answer
  returned : ∀ answer, c.stage = .finished answer → ∃ x ∈ run, .answered id answer ∈ x.effects
  effort : run.countP (·.isStepOf id) + c.stage.toAsk ≤ plan.length + 2

section Inquiry

variable {s t : State} {id : CallId} {c c' : Call} {l : Label} {effects : List Effect} {r : Request}
  {path : Path} {plan : List (ClientId × ClientReply)} {run : List Happening}

/-- A step takes a call to another point of its round. -/
theorem Inquiry.concat (h : Inquiry id r path plan run s c) {x : Happening}
    (hfind : x.after.calls.find? id = some c') (hreq : c'.request = r) (hfile : c'.file = path)
    (hinq : r.Inquires plan (askedBy id (run ++ [x])) (repliesTo id (run ++ [x])) c'.stage)
    (htends : x.Tends id r path)
    (hkept : ∀ answer, c.stage = .finished answer → c'.stage = .finished answer)
    (hans : ∀ answer, .answered id answer ∈ x.effects → c'.stage = .finished answer)
    (hret : ∀ answer, c'.stage = .finished answer →
      c.stage = .finished answer ∨ .answered id answer ∈ x.effects)
    (heffort : (x.isStepOf id).toNat + c'.stage.toAsk ≤ c.stage.toAsk) :
    Inquiry id r path plan (run ++ [x]) x.after c' := by
  refine ⟨hfind, hreq, hfile, hinq, ?_, ?_, ?_, ?_⟩
  · intro y hy
    obtain hy | hy := List.mem_append.1 hy
    · exact h.tends y hy
    · obtain rfl := List.mem_singleton.1 hy
      exact htends
  · intro y hy answer ha
    obtain hy | hy := List.mem_append.1 hy
    · exact hkept answer (h.answered y hy answer ha)
    · obtain rfl := List.mem_singleton.1 hy
      exact hans answer ha
  · intro answer hst
    obtain hst | ha := hret answer hst
    · obtain ⟨y, hy, ha⟩ := h.returned answer hst
      exact ⟨y, List.mem_append_left _ hy, ha⟩
    · exact ⟨x, List.mem_append_right _ (List.mem_singleton.2 rfl), ha⟩
  · have hbefore := h.effort
    rw [List.countP_append, List.countP_singleton]
    cases hx : x.isStepOf id with
    | true =>
      rw [hx] at heffort
      simp only [Bool.toNat_true, if_true] at heffort ⊢
      omega
    | false =>
      rw [hx] at heffort
      simp only [Bool.toNat_false, Bool.false_eq_true, if_false] at heffort ⊢
      omega

/-- A step that is not the call's leaves it at its point. -/
theorem Inquiry.passBy (h : Inquiry id r path plan run s c) (hm : s.Move l t effects)
    (hn : s.calls.Numbered) (hl : l.goesOn id = false) (hcancel : l ≠ .cancel id) :
    ∃ c', Inquiry id r path plan (run ++ [⟨s, l, effects, t⟩]) t c' := by
  obtain ⟨c', hc', hreq, hfile, hst, -⟩ := hm.call_kept hn h.find hl hcancel
  obtain ⟨hbegan, hanswered⟩ := hm.call_silent hl
  have hasked := hm.askedBy_eq_nil hl
  have hreply : l.replyTo? id = none := Label.replyTo?_eq_none hl
  have hstep : (⟨s, l, effects, t⟩ : Happening).isStepOf id = false :=
    Happening.isStepOf_other (Label.ne_run_of_goesOn hl)
  refine ⟨c', h.concat hc' (hreq.trans h.request) (hfile.trans h.file) ?_ ⟨?_, ?_⟩ ?_ ?_ ?_ ?_⟩
  · rw [askedBy_concat, repliesTo_concat, hst]
    simpa [hasked, hreply] using h.inquires
  · intro client call hmem
    exact absurd hmem (hbegan _)
  · intro hgoes
    exact absurd (hgoes.symm.trans hl) (by decide)
  · intro answer hfin
    exact hst.trans hfin
  · intro answer ha
    exact absurd ha (hanswered answer)
  · intro answer hfin
    exact .inl (hst.symm.trans hfin)
  · rw [hst, hstep]
    exact Nat.le_of_eq (Nat.zero_add _)

/-- A step of the call itself takes it to another point and leaves one step less to go. -/
theorem Inquiry.goOn (h : Inquiry id r path plan run s c)
    (hopen : ∀ answer, c.stage ≠ .finished answer) (hreq : c'.request = r) (hfile : c'.file = path)
    (hinq : r.Inquires plan (askedBy id run ++ effects.filterMap (·.askedBy? id))
      (repliesTo id run) c'.stage)
    (hasks : ∀ client call, .began (.call id) (.client client call) ∈ effects →
      r.clientCall? path = some call)
    (hans : ∀ answer, .answered id answer ∈ effects ↔ c'.stage = .finished answer)
    (heffort : c'.stage.toAsk + 1 ≤ c.stage.toAsk) :
    Inquiry id r path plan (run ++ [⟨s, .run (.call id), effects,
      { s with calls := s.calls.insert id c' }⟩]) { s with calls := s.calls.insert id c' } c' := by
  refine h.concat (Table.find?_insert_self _ _ _) hreq hfile ?_ ⟨hasks, fun _ => ⟨c', rfl⟩⟩ ?_
    (fun answer => (hans answer).1) (fun answer hfin => .inr ((hans answer).2 hfin)) ?_
  · rw [askedBy_concat, repliesTo_concat]
    simpa [Label.replyTo?] using hinq
  · intro answer hfin
    exact absurd hfin (hopen answer)
  · rw [Happening.isStepOf_own, Bool.toNat_true]
    omega

/-- What a step of the call itself does: the round begins, the next client is asked, or the answer
is given. -/
theorem Inquiry.step (h : Inquiry id r path plan run s c) (hr : r.GoesRound)
    (hn : s.Next (.run (.call id)) t effects) :
    ∃ c', Inquiry id r path plan (run ++ [⟨s, .run (.call id), effects, t⟩]) t c' := by
  have hrun : s.runCall id = some (t, effects) := by
    cases hn with
    | step hstep => exact hstep
  have hfind := h.find
  have hgoes : c.request.GoesRound := h.request ▸ hr
  have hi := h.inquires
  generalize hst : c.stage = stage at hi
  generalize hasked : askedBy id run = asked at hi
  generalize hheard : repliesTo id run = heard at hi
  cases hi with
  | resolved =>
    rw [State.runCall_resolved hfind hgoes.ne hst] at hrun
    cases hrun
    refine ⟨_, h.goOn (by simp [hst]) h.request h.file ?_ nofun (by simp) ?_⟩
    · rw [hasked, hheard]
      exact @Request.Inquires.visiting r plan [] plan (List.prefix_refl plan) rfl
    · rw [hst]
      exact Nat.le_refl _
  | @visiting done todo hp hround =>
    cases todo with
    | nil =>
      have hdone : r.round plan = done := hround.trans (List.append_nil _)
      rw [State.runCall_visiting_nil hfind hgoes hst, h.request] at hrun
      cases hrun
      refine ⟨_, h.goOn (by simp [hst]) h.request h.file ?_ (by simp) ?_ ?_⟩
      · have hfinished : r.Inquires plan _ _ _ := .finished
        rw [hdone] at hfinished
        simpa [hasked, hheard, Effect.askedBy?, Call.finish] using hfinished
      · simp [Call.finish, eq_comm]
      · rw [hst]
        exact Nat.le_refl _
    | cons e todo =>
      obtain ⟨q, hq⟩ := hgoes.asks c.file
      rw [State.runCall_visiting_cons hfind hst hq] at hrun
      cases hrun
      refine ⟨_, h.goOn (by simp [hst]) h.request h.file ?_ ?_ (by simp) ?_⟩
      · simpa [hasked, hheard, Effect.askedBy?] using Request.Inquires.contacting hp hround
      · intro client call hmem
        obtain ⟨-, rfl⟩ : client = e.1 ∧ call = q := by simpa using hmem
        exact h.file ▸ h.request ▸ hq
      · rw [hst]
        exact Nat.le_refl _
  | contacting | finished =>
    have hnone : s.runCall id = none := by simp [State.runCall, hfind, hst]
    cases hnone.symm.trans hrun

/-- The next reply is that of the client whose turn it is. -/
theorem eq_of_prefix_plan {done todo : List (ClientId × ClientReply)} {e : ClientId × ClientReply}
    {reply : ClientReply} (hp : done ++ e :: todo <+: plan)
    (h : done.map (·.2) ++ [reply] <+: plan.map (·.2)) : reply = e.2 := by
  obtain ⟨rest, rfl⟩ := hp
  rw [List.append_assoc, List.map_append, List.prefix_append_right_inj] at h
  exact (List.cons_prefix_cons.1 h).1

/-- With its reply a client is done with, and so is the round if the reply is enough. -/
theorem Request.Inquires.heard {done todo : List (ClientId × ClientReply)}
    {e : ClientId × ClientReply} (hp : done ++ e :: todo <+: plan)
    (hround : r.round plan = done ++ r.round (e :: todo)) :
    r.Inquires plan (done.map (·.1) ++ [e.1]) (done.map (·.2) ++ [e.2])
      (.visiting (if r.isSatisfied e.2 then [] else todo.map (·.1)) (done ++ [e])) := by
  rw [r.round_cons, List.append_cons] at hround
  rw [List.append_cons] at hp
  have hvisiting : ∀ rest, (done ++ [e]) ++ rest <+: plan →
      r.round plan = (done ++ [e]) ++ r.round rest →
      r.Inquires plan (done.map (·.1) ++ [e.1]) (done.map (·.2) ++ [e.2])
        (.visiting (rest.map (·.1)) (done ++ [e])) := by
    intro rest hprefix hrest
    simpa using Request.Inquires.visiting hprefix hrest
  cases hs : r.isSatisfied e.2 with
  | true =>
    rw [hs, if_pos rfl] at hround
    rw [if_pos rfl]
    refine hvisiting [] ?_ hround
    rw [List.append_nil]
    exact (List.prefix_append _ _).trans hp
  | false =>
    rw [hs, if_neg Bool.false_ne_true] at hround
    rw [if_neg Bool.false_ne_true]
    exact hvisiting todo hp hround

/-- What the reply of a client does. -/
theorem Inquiry.hear (h : Inquiry id r path plan run s c) {reply : Reply}
    (hn : s.Next (.reply (.call id) reply) t effects)
    (hplan : repliesTo id (run ++ [⟨s, .reply (.call id) reply, effects, t⟩]) <+:
      plan.map (·.2)) :
    ∃ c', Inquiry id r path plan (run ++ [⟨s, .reply (.call id) reply, effects, t⟩]) t c' := by
  have hrun : s.replyToCall id reply = some (t, effects) := by
    cases hn with
    | step hstep => exact hstep
  have hfind := h.find
  have hi := h.inquires
  rw [repliesTo_concat] at hplan
  generalize hst : c.stage = stage at hi
  generalize hasked : askedBy id run = asked at hi
  generalize hheard : repliesTo id run = heard at hi
  cases hi with
  | @contacting done todo e hp hround =>
    cases reply with
    | client reply =>
      have hown : Label.replyTo? id (.reply (.call id) (.client reply)) = some reply := if_pos rfl
      have hreply : reply = e.2 := by
        refine eq_of_prefix_plan hp ?_
        rw [← hheard]
        simpa [hown] using hplan
      subst hreply
      rw [State.replyToCall_contacting hfind hst, h.request] at hrun
      cases hrun
      refine ⟨_, h.concat (Table.find?_insert_self _ _ _) rfl h.file ?_
        ⟨nofun, fun _ => ⟨_, rfl⟩⟩ ?_
        nofun nofun ?_⟩
      · rw [askedBy_concat, repliesTo_concat, hasked, hheard, hown]
        simpa using Request.Inquires.heard hp hround
      · rw [hst]
        exact nofun
      · have hother : Label.reply (.call id) (.client e.2) ≠ .run (.call id) := nofun
        rw [Happening.isStepOf_other hother, hst]
        simp only [CallStage.toAsk, Bool.toNat_false]
        split <;> simp
    | _ => simp [State.replyToCall, hfind] at hrun
  | _ => simp [State.replyToCall, hfind, hst] at hrun

/-- The path of a call that resolves the servers of its file was made absolute when the call was
entered, and is kept since. -/
theorem Run.located (h : Run s run t) (hs : ∀ id c, s.calls.find? id ≠ some c)
    (hc : t.calls.find? id = some c) (hst : c.stage.isResolving = true) :
    ∃ y ∈ run, y.label = .run (.call id) ∧
      ∃ file, c.request.routed? = some file ∧ c.file = y.before.absolute file := by
  induction h generalizing c with
  | start => exact absurd hc (hs id c)
  | @next run t u l effects h hn ih =>
    obtain ⟨c', hc', hst', hreq, hfile⟩ | ⟨hl, file, hrouted, hfile⟩ := hn.move.located hc hst
    · obtain ⟨y, hy, hl, file, hrouted, hpath⟩ := ih hc' hst'
      exact ⟨y, List.mem_append_left _ hy, hl, file, hreq ▸ hrouted, hfile ▸ hpath⟩
    · exact ⟨_, List.mem_append_right _ (List.mem_singleton.2 rfl), hl, file, hrouted, hfile⟩

end Inquiry

def ClientReply.isFailed : ClientReply → Bool
  | failed => true
  | _ => false

lemma ClientReply.eq_failed {reply : ClientReply} (h : (!reply.isFailed) = false) :
    reply = .failed := by
  cases reply <;> simp_all [isFailed]

lemma Request.isSatisfied_failed (r : Request) : r.isSatisfied .failed = false := by
  unfold isSatisfied
  split <;> rfl

/-- A failure changes neither what the other clients contribute nor which of them are asked. -/
theorem FansOut.filter {plan : List (ClientId × ClientReply)} {r : Request}
    {asked : List ClientId} {answer : Answer} (h : FansOut plan r asked answer) :
    FansOut (plan.filter fun e => !e.2.isFailed) r
      (((r.round plan).filter fun e => !e.2.isFailed).map (·.1)) answer := by
  have failed : ∀ e : ClientId × ClientReply, (!e.2.isFailed) = false → e.2 = .failed :=
    fun e => ClientReply.eq_failed
  have hround : (r.round plan).filter (fun e => !e.2.isFailed) =
      r.round (plan.filter fun e => !e.2.isFailed) := by
    refine (upTo_filter (fun e he => ?_) plan).symm
    rw [failed e he, r.isSatisfied_failed]
  rw [hround]
  cases h with
  | hover =>
    rw [← findSome?_filter_of fun e he => by rw [failed e he]; rfl]
    exact .hover
  | definition =>
    have hfind : ((plan.filter fun e => !e.2.isFailed).map (·.2.found)).find? (!·.isEmpty) =
        (plan.map (·.2.found)).find? (!·.isEmpty) := by
      rw [List.find?_map, List.find?_map, List.find?_filter]
      congr 2
      funext e
      cases he : (!e.2.isFailed) with
      | true => cases hfound : e.2.found <;> simp [hfound]
      | false => simp [failed e he, ClientReply.found]
    rw [← hfind]
    exact .definition
  | completion =>
    rw [← flatMap_filter_of fun e he => by rw [failed e he]; rfl,
      FansOut.round_eq_plan fun _ => rfl]
    exact .completion
  | references =>
    rw [← flatMap_filter_of fun e he => by rw [failed e he]; rfl,
      FansOut.round_eq_plan fun _ => rfl]
    exact .references
  | fileChanged =>
    rw [FansOut.round_eq_plan fun _ => rfl]
    exact .fileChanged
  | fileSaved =>
    rw [FansOut.round_eq_plan fun _ => rfl]
    exact .fileSaved

end ServerFleet.Manager
