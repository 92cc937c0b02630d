import ServerFleet.Proofs.Manager.Backoff
import ServerFleet.Proofs.Manager.Enrolment
import ServerFleet.Proofs.Manager.Inquiry
import ServerFleet.Proofs.Manager.Ledger

/-!
How a file is opened everywhere. The clients are asked one after another, and those who have opened
the file are counted. If diagnostics are to be waited for, an errand for each of these clients
begins; the errands are under way together, each with a limit of its own, and the count is given
when all of them have come to their end, in whatever way.
-/

namespace ServerFleet.Manager

def opened (replies : List (ClientId × ClientReply)) : List ClientId :=
  (replies.filter (·.2.isDone)).map (·.1)

lemma length_opened (replies : List (ClientId × ClientReply)) :
    (opened replies).length = replies.countP (·.2.isDone) := by
  rw [opened, List.length_map, List.countP_eq_length_filter]

lemma awaited_touchFile (file : Path) (wait : Bool) (replies : List (ClientId × ClientReply)) :
    (Request.touchFile file wait).awaited replies = if wait then opened replies else [] := by
  cases wait <;> rfl

section Observed

/-- Something that a call has begun to wait for. -/
structure Wait where
  place : Nat
  client : ClientId
  call : ClientCall
  began : Nat

/-- What a call begins to wait for at some time. -/
def Effect.waitOf? (call : CallId) (now : Nat) : Effect → Option Wait
  | .began (.errand id place) (.client client q) =>
    if id = call then some ⟨place, client, q, now⟩ else none
  | _ => none

def waitsOf (call : CallId) (run : List Happening) : List Wait :=
  run.flatMap fun x => x.effects.filterMap (·.waitOf? call x.before.now)

/-- The clients that have opened the file of a call in a run. -/
def openedBy (call : CallId) (run : List Happening) : List ClientId :=
  opened ((askedBy call run).zip (repliesTo call run))

lemma waitsOf_concat (call : CallId) (run : List Happening) (x : Happening) :
    waitsOf call (run ++ [x]) =
      waitsOf call run ++ x.effects.filterMap (·.waitOf? call x.before.now) := by
  simp [waitsOf]

lemma Effect.waitOf?_eq_some {call : CallId} {now : Nat} {e : Effect} {v : Wait}
    (h : e.waitOf? call now = some v) :
    e = .began (.errand call v.place) (.client v.client v.call) := by
  unfold waitOf? at h
  split at h
  · split at h
    · next hid =>
      cases h
      rw [hid]
    · cases h
  · cases h

end Observed

section Errands

variable {s : State} {id : CallId} {place : Nat} {e : Errand} {errands : List Errand} {l : Label}
  {stage : ErrandStage} {effects : List Effect} {timeout : Nat} {waits : List Wait}

/-- What becomes of an errand that waits for diagnostics, with the times. -/
inductive Errand.Passes (s : State) (id : CallId) (place : Nat) (e : Errand) :
    Label → ErrandStage → List Effect → Prop
  | begin (h : e.stage = .fresh) :
      Passes s id place e (.run (.errand id place))
        (.underway (s.limitFrom (State.errandTimeout e.call)))
        [.began (.errand id place) (.client e.client e.call)]
  | reply {limit : Option Nat} {reply : ClientReply} (h : e.stage = .underway limit) :
      Passes s id place e (.reply (.errand id place) (.client reply)) .finished []
  | expire {limit : Nat} (h : e.stage = .underway (some limit)) (hn : limit ≤ s.now) :
      Passes s id place e (.expire (.errand id place)) .finished []
  /-- The call takes notice of its end. -/
  | collect (h : e.stage = .finished) : Passes s id place e (.run (.call id)) .collected []

def ErrandStage.toGo : ErrandStage → Nat
  | fresh => 3
  | underway _ => 2
  | finished => 1
  | collected => 0

lemma Errand.Passes.toGo (h : e.Passes s id place l stage effects) :
    stage.toGo + 1 = e.stage.toGo := by
  cases h with
  | _ h => rw [h]; rfl

lemma collect_eq_none_iff {errands : List Errand} :
    Errand.collect errands = none ↔ ∀ e ∈ errands, e.stage ≠ .finished := by
  induction errands with
  | nil => simp [Errand.collect]
  | cons e errands ih =>
    unfold Errand.collect
    split <;> simp_all

/-- A step of an errand changes nothing of it but its stage. -/
theorem map_modify_stage {α : Type} {f : Errand → α} (hf : ∀ e stage, f { e with stage } = f e)
    (errands : List Errand) (place : Nat) (stage : ErrandStage) :
    (errands.modify place fun e => { e with stage }).map f = errands.map f := by
  induction errands generalizing place with
  | nil => cases place <;> rfl
  | cons e errands ih =>
    cases place with
    | zero => exact congrArg (· :: _) (hf e stage)
    | succ place => exact congrArg (f e :: ·) (ih place)

/-- The errands of a call and what it has begun to wait for. -/
structure Joins (timeout : Nat) (waits : List Wait) (errands : List Errand) : Prop where
  calls : ∀ e ∈ errands, ∃ f, e.call = .awaitDiagnostics f timeout
  known : ∀ v ∈ waits, (errands.map (·.client))[v.place]? = some v.client
  begun : ∀ place e, errands[place]? = some e → e.stage ≠ .fresh →
    ∃ v ∈ waits, v.place = place ∧ v.client = e.client ∧
      ∀ limit, e.stage = .underway limit → limit = some (v.began + timeout)

lemma map_client_awaitErrands (s : State) (f : Path) (clients : List ClientId) :
    (s.awaitErrands f clients).map (·.client) = clients := by
  rw [State.awaitErrands, List.map_map]
  exact List.map_id _

lemma joins_awaitErrands (f : Path) (clients : List ClientId)
    (ht : s.settings.diagnosticsTimeout = timeout) :
    Joins timeout [] (s.awaitErrands f clients) where
  calls e he := by
    obtain ⟨client, -, rfl⟩ := List.mem_map.1 he
    exact ⟨f, by rw [ht]⟩
  known := nofun
  begun place e he hst := by
    obtain ⟨client, -, rfl⟩ := List.mem_map.1 (List.mem_of_getElem? he)
    exact absurd rfl hst

lemma Joins.pass (h : Joins timeout waits errands) (he : errands[place]? = some e)
    (hp : e.Passes s id place l stage effects) :
    Joins timeout (waits ++ effects.filterMap (·.waitOf? id s.now))
      (errands.modify place fun e => { e with stage }) where
  calls e' he' := by
    obtain ⟨i, hi⟩ := List.mem_iff_getElem?.1 he'
    obtain ⟨-, rfl⟩ | ⟨-, hi⟩ := getElem?_modify_stage he hi
    · exact h.calls e (List.mem_of_getElem? he)
    · exact h.calls e' (List.mem_of_getElem? hi)
  known v hv := by
    rw [map_modify_stage fun _ _ => rfl]
    obtain hv | hv := List.mem_append.1 hv
    · exact h.known v hv
    · cases hp with
      | begin =>
        obtain rfl : v = ⟨place, e.client, e.call, s.now⟩ := by
          simpa [Effect.waitOf?] using hv
        simp [he]
      | _ => cases hv
  begun i e' hi hst := by
    obtain ⟨rfl, rfl⟩ | ⟨-, hi⟩ := getElem?_modify_stage he hi
    · cases hp with
      | begin =>
        refine ⟨⟨i, e.client, e.call, s.now⟩, by simp [Effect.waitOf?], rfl, rfl, ?_⟩
        rintro limit hlimit
        obtain ⟨f, hcall⟩ := h.calls e (List.mem_of_getElem? he)
        cases hlimit
        rw [hcall]
        rfl
      | reply hst' | expire hst' | collect hst' =>
        obtain ⟨v, hv, hplace, hclient, -⟩ := h.begun i e he (by rw [hst']; exact nofun)
        exact ⟨v, List.mem_append_left _ hv, hplace, hclient, nofun⟩
    · obtain ⟨v, hv, hrest⟩ := h.begun i e' hi hst
      exact ⟨v, List.mem_append_left _ hv, hrest⟩

end Errands

namespace State

/-- The steps of a call that opens a file whose clients are resolved. -/
inductive CallOpens (s : State) (wait : Bool) (id : CallId) (c : Call) :
    Label → Call → List Effect → Prop
  | resolved {clients : List ClientId} (h : c.stage = .routing [] clients) :
      CallOpens s wait id c (.run (.call id)) { c with stage := .visiting clients [] } []
  | ask {client : ClientId} {left : List ClientId} {done : List (ClientId × ClientReply)}
      (h : c.stage = .visiting (client :: left) done) :
      CallOpens s wait id c (.run (.call id)) { c with stage := .contacting client left done }
        [.began (.call id) (.client client (.open c.file))]
  | heard {client : ClientId} {left : List ClientId} {done : List (ClientId × ClientReply)}
      {reply : ClientReply} (h : c.stage = .contacting client left done) :
      CallOpens s wait id c (.reply (.call id) (.client reply))
        { c with stage := .visiting left (done ++ [(client, reply)]) } []
  | answer {done : List (ClientId × ClientReply)} (h : c.stage = .visiting [] done)
      (hw : wait = true → opened done = []) :
      CallOpens s wait id c (.run (.call id)) (c.finish (.count (opened done).length))
        [.answered id (.count (opened done).length)]
  | await {done : List (ClientId × ClientReply)} (h : c.stage = .visiting [] done)
      (hw : wait = true) (hne : opened done ≠ []) :
      CallOpens s wait id c (.run (.call id))
        (c.await (s.awaitErrands c.file (opened done)) (.count (opened done).length)) []
  | errand {answer : Answer} {place : Nat} {e : Errand} {l : Label} {stage : ErrandStage}
      {effects : List Effect} (h : c.stage = .joining answer) (he : c.errands[place]? = some e)
      (hp : e.Passes s id place l stage effects) :
      CallOpens s wait id c l
        { c with errands := c.errands.modify place fun e => { e with stage } } effects
  | finish {answer : Answer} (h : c.stage = .joining answer)
      (hall : ∀ e ∈ c.errands, e.stage = .collected) :
      CallOpens s wait id c (.run (.call id)) (c.finish answer) [.answered id answer]

end State

/-- How far a call that opens a file has come, when it has asked some clients, heard some replies
and begun to wait for some diagnostics. -/
inductive Opens (wait : Bool) (timeout : Nat) (clients : List ClientId) :
    List ClientId → List ClientReply → List Wait → CallStage → List Errand → Prop
  | resolved : Opens wait timeout clients [] [] [] (.routing [] clients) []
  | visiting {done : List (ClientId × ClientReply)} {left : List ClientId}
      (hc : clients = done.map (·.1) ++ left) :
      Opens wait timeout clients (done.map (·.1)) (done.map (·.2)) [] (.visiting left done) []
  | contacting {done : List (ClientId × ClientReply)} {client : ClientId} {left : List ClientId}
      (hc : clients = done.map (·.1) ++ client :: left) :
      Opens wait timeout clients (done.map (·.1) ++ [client]) (done.map (·.2)) []
        (.contacting client left done) []
  | joining {done : List (ClientId × ClientReply)} {waits : List Wait} {errands : List Errand}
      (hc : clients = done.map (·.1)) (hw : wait = true) (hne : opened done ≠ [])
      (he : errands.map (·.client) = opened done) (hj : Joins timeout waits errands) :
      Opens wait timeout clients (done.map (·.1)) (done.map (·.2)) waits
        (.joining (.count (opened done).length)) errands
  | finished {done : List (ClientId × ClientReply)} {waits : List Wait}
      (hc : clients = done.map (·.1))
      (hk : ∀ v ∈ waits, wait = true ∧ (opened done)[v.place]? = some v.client)
      (ha : wait = true → ∀ place client, (opened done)[place]? = some client →
        ∃ v ∈ waits, v.place = place ∧ v.client = client) :
      Opens wait timeout clients (done.map (·.1)) (done.map (·.2)) waits
        (.finished (.count (opened done).length)) []

/-- A bound on the steps that are left to a call that opens a file, those of its errands
included. -/
def Call.toGo (c : Call) : Nat :=
  -- two steps for a client that has to be asked, and three for its errand if it opens the file
  match c.stage with
  | .routing _ found => 5 * found.length + 3
  | .visiting left done => 5 * left.length + 3 * done.length + 2
  | .contacting _ left done => 5 * left.length + 3 * done.length + 6
  | .joining _ => (c.errands.map (·.stage.toGo)).sum + 1
  | _ => 0

lemma zip_map_fst_snd (done : List (ClientId × ClientReply)) :
    (done.map (·.1)).zip (done.map (·.2)) = done := by
  rw [List.zip_map']
  exact List.map_id _

namespace Opens

variable {s : State} {id : CallId} {c c' : Call} {file : Path} {wait : Bool} {timeout : Nat}
  {clients asked : List ClientId} {heard : List ClientReply} {waits : List Wait}
  {stage : CallStage} {errands : List Errand} {l : Label} {effects : List Effect}

/-- The clients that are asked are the first ones of the file. -/
theorem asked_prefix (h : Opens wait timeout clients asked heard waits stage errands) :
    asked <+: clients := by
  cases h with
  | resolved => exact List.nil_prefix
  | visiting hc => exact ⟨_, hc.symm⟩
  | @contacting done client left hc =>
    rw [List.append_cons] at hc
    exact ⟨_, hc.symm⟩
  | joining hc | finished hc => exact ⟨[], by rw [List.append_nil, hc]⟩

/-- Only clients that have opened the file are waited for. -/
theorem waits_opened (h : Opens wait timeout clients asked heard waits stage errands) :
    ∀ v ∈ waits, wait = true ∧ (opened (asked.zip heard))[v.place]? = some v.client := by
  cases h with
  | joining _ hw _ he hj =>
    intro v hv
    rw [zip_map_fst_snd, ← he]
    exact ⟨hw, hj.known v hv⟩
  | finished _ hk =>
    rw [zip_map_fst_snd]
    exact hk
  | _ => exact nofun

/-- Only a call that waits for its errands has any. -/
theorem exists_joining (h : Opens wait timeout clients asked heard waits stage errands)
    {place : Nat} {e : Errand} (he : errands[place]? = some e) :
    ∃ answer, stage = .joining answer := by
  cases h with
  | joining => exact ⟨_, rfl⟩
  | _ => cases he

/-- A step takes a call to another point. -/
theorem step (h : Opens wait timeout clients asked heard waits c.stage c.errands)
    (ht : s.settings.diagnosticsTimeout = timeout) (hg : s.CallOpens wait id c l c' effects) :
    Opens wait timeout clients (asked ++ effects.filterMap (·.askedBy? id))
      (heard ++ (l.replyTo? id).toList) (waits ++ effects.filterMap (·.waitOf? id s.now))
      c'.stage c'.errands := by
  obtain ⟨request, path, stage, errands⟩ := c
  cases hg with
  | resolved hst =>
    cases hst
    cases h
    simpa [Label.replyTo?] using @Opens.visiting wait timeout clients [] clients rfl
  | @ask client left done hst =>
    cases hst
    cases h with
    | visiting hc =>
      simpa [Label.replyTo?, Effect.askedBy?, Effect.waitOf?] using Opens.contacting hc
  | @heard client left done reply hst =>
    cases hst
    cases h with
    | contacting hc =>
      have hnext : clients = (done ++ [(client, reply)]).map (·.1) ++ left := by simpa using hc
      simpa [Label.replyTo?] using Opens.visiting hnext
  | @answer done hst hw =>
    cases hst
    cases h with
    | visiting hc =>
      have hfin : Opens wait timeout clients _ _ [] _ _ := .finished (hc.trans (List.append_nil _))
        (by simp) fun hwait place client hp => by simp [hw hwait] at hp
      simpa [Label.replyTo?, Effect.askedBy?, Effect.waitOf?, Call.finish] using hfin
  | @await done hst hw hne =>
    cases hst
    cases h with
    | visiting hc =>
      simpa [Label.replyTo?, Call.await] using Opens.joining (hc.trans (List.append_nil _)) hw hne
        (map_client_awaitErrands s _ _) (joins_awaitErrands _ _ ht)
  | errand hst he hp =>
    cases hst
    cases h with
    | joining hc hw hne hclients hj =>
      rw [← map_modify_stage (fun _ _ => rfl)] at hclients
      have hjoined := Opens.joining hc hw hne hclients (hj.pass he hp)
      cases hp <;> simpa [Label.replyTo?, Effect.askedBy?] using hjoined
  | finish hst hall =>
    cases hst
    cases h with
    | @joining done _ _ hc hw hne hclients hj =>
      have hfin : Opens wait timeout clients _ _ waits _ _ := .finished hc
        (fun v hv => ⟨hw, hclients ▸ hj.known v hv⟩) fun _ place client hp => by
          rw [← hclients, List.getElem?_map, Option.map_eq_some_iff] at hp
          obtain ⟨e, he, rfl⟩ := hp
          have hst := hall e (List.mem_of_getElem? he)
          obtain ⟨v, hv, hplace, hclient, -⟩ := hj.begun place e he (by simp [hst])
          exact ⟨v, hv, hplace, hclient⟩
      simpa [Label.replyTo?, Effect.askedBy?, Effect.waitOf?, Call.finish] using hfin

end Opens

namespace State.CallOpens

variable {s : State} {id : CallId} {c c' : Call} {wait : Bool} {l : Label} {effects : List Effect}

/-- A call is answered when it comes to its end. -/
theorem answered_iff (h : s.CallOpens wait id c l c' effects) (given : Answer) :
    .answered id given ∈ effects ↔ c'.stage = .finished given := by
  cases h with
  | errand hst _ hp => cases hp <;> simp [hst]
  | heard hst | resolved hst | ask hst | await hst => simp [Call.await]
  | answer hst | finish hst => simp [Call.finish, eq_comm]

/-- Every step leaves one step less to go. -/
theorem toGo (h : s.CallOpens wait id c l c' effects) : c'.toGo + 1 ≤ c.toGo := by
  obtain ⟨request, path, stage, errands⟩ := c
  cases h with
  | @errand _ _ _ _ stage _ hst he hp =>
    cases hst
    have hsum := sum_modify (f := (·.stage.toGo)) he stage
    have hgo := hp.toGo
    simp only [Call.toGo] at hsum ⊢
    omega
  | @await done hst =>
    cases hst
    have hfresh : ((s.awaitErrands path (opened done)).map (·.stage.toGo)).sum =
        3 * (opened done).length := by
      rw [State.awaitErrands, List.map_map]
      simp [Function.comp_def, ErrandStage.toGo, Nat.mul_comm]
    have hlength : (opened done).length ≤ done.length := by
      rw [length_opened]
      exact List.countP_le_length
    simp only [Call.toGo, Call.await, hfresh, List.length_nil]
    omega
  | _ hst =>
    cases hst
    simp [Call.toGo, Call.finish]
    try omega

/-- A call that is answered goes no further. -/
theorem not_finished (h : s.CallOpens wait id c l c' effects) (given : Answer) :
    c.stage ≠ .finished given := by
  cases h with
  | _ hst => rw [hst]; exact nofun

lemma tends (h : s.CallOpens wait id c l c' effects) : l.tends id = true := by
  cases h with
  | errand _ _ hp => cases hp <;> simp [Label.tends, Label.goesOn]
  | _ => simp [Label.tends, Label.goesOn]

lemma request_eq (h : s.CallOpens wait id c l c' effects) : c'.request = c.request := by
  cases h <;> rfl

lemma file_eq (h : s.CallOpens wait id c l c' effects) : c'.file = c.file := by
  cases h <;> rfl

/-- A client is asked to open the file. -/
theorem asks (h : s.CallOpens wait id c l c' effects) {client : ClientId} {call : ClientCall}
    (hb : .began (.call id) (.client client call) ∈ effects) : call = .open c.file := by
  cases h with
  | @ask asked =>
    obtain ⟨-, hcall⟩ : client = asked ∧ call = .open c.file := by simpa using hb
    exact hcall
  | errand _ _ hp => cases hp <;> simp at hb
  | _ => simp at hb

/-- An errand is to wait for diagnostics for the file, or it was there before. -/
theorem errands (h : s.CallOpens wait id c l c' effects) {e : Errand} (he : e ∈ c'.errands) :
    e.call = .awaitDiagnostics c.file s.settings.diagnosticsTimeout ∨
      ∃ e' ∈ c.errands, e'.call = e.call := by
  cases h with
  | await =>
    obtain ⟨client, -, rfl⟩ := List.mem_map.1 he
    exact .inl rfl
  | errand _ hp =>
    have hcall : e.call ∈ c.errands.map (·.call) := by
      rw [← map_modify_stage fun _ _ => rfl]
      exact List.mem_map_of_mem he
    exact .inr (List.mem_map.1 hcall)
  | answer | finish => cases he
  | _ => exact .inr ⟨e, he, rfl⟩

/-- What a call begins to wait for is what one of its errands is about. -/
theorem waits (h : s.CallOpens wait id c l c' effects) {v : Wait} {now : Nat}
    (hv : v ∈ effects.filterMap (·.waitOf? id now)) : ∃ e ∈ c.errands, e.call = v.call := by
  obtain ⟨effect, hmem, hv⟩ := List.mem_filterMap.1 hv
  rw [Effect.waitOf?_eq_some hv] at hmem
  cases h with
  | @errand _ _ e _ _ _ _ he hp =>
    cases hp with
    | begin =>
      obtain ⟨-, -, hcall⟩ : _ ∧ v.client = e.client ∧ v.call = e.call := by simpa using hmem
      exact ⟨e, List.mem_of_getElem? he, hcall.symm⟩
    | _ => cases hmem
  | _ => simp at hmem

end State.CallOpens

namespace State

variable {s t : State} {id : CallId} {c : Call} {file : Path} {wait : Bool} {timeout : Nat}
  {clients asked : List ClientId} {heard : List ClientReply} {waits : List Wait} {l : Label}
  {effects : List Effect}

lemma runCall_asks (hc : s.calls.find? id = some c) (hr : c.request = .touchFile file wait)
    {client : ClientId} {left : List ClientId} {done : List (ClientId × ClientReply)}
    (hst : c.stage = .visiting (client :: left) done) :
    s.runCall id = some ({ s with
      calls := s.calls.insert id { c with stage := .contacting client left done } },
      [.began (.call id) (.client client (.open c.file))]) := by
  have hcall : c.request.clientCall? c.file = some (.open c.file) := by
    rw [hr]
    rfl
  exact runCall_visiting_cons hc hst hcall

/-- When all clients are done with, the count is given, unless diagnostics have to be waited for. -/
theorem runCall_visited (hc : s.calls.find? id = some c) (hr : c.request = .touchFile file wait)
    {done : List (ClientId × ClientReply)} (hst : c.stage = .visiting [] done) :
    (wait = true → opened done = []) ∧
      s.runCall id = some ({ s with
        calls := s.calls.insert id (c.finish (.count (opened done).length)) },
        [.answered id (.count (opened done).length)]) ∨
    (wait = true ∧ opened done ≠ []) ∧
      s.runCall id = some ({ s with
        calls := s.calls.insert id (c.await (s.awaitErrands c.file (opened done))
          (.count (opened done).length)) }, []) := by
  have hcount : c.request.answer done = .count (opened done).length := by
    rw [hr, length_opened]
    rfl
  simp only [runCall, hc, hst, Option.bind_eq_bind, Option.bind_some, hcount]
  rw [hr, awaited_touchFile]
  split
  · next hnone =>
    refine .inl ⟨fun hw => by simpa [hw] using hnone, ?_⟩
    exact congrArg some (finish_eq hc _)
  · next hsome =>
    cases wait with
    | false => exact absurd rfl hsome
    | true => exact .inr ⟨⟨rfl, hsome⟩, congrArg some (joinErrands_eq hc _ _)⟩

lemma Move.waits_eq_nil (hm : s.Move l t effects) (hl : l.tends id = false) {now : Nat} :
    effects.filterMap (·.waitOf? id now) = [] := by
  refine List.filterMap_eq_nil_iff.2 fun e he => Option.eq_none_iff_forall_ne_some.2 ?_
  intro v hv
  rw [Effect.waitOf?_eq_some hv] at he
  exact hm.errand_silent hl _ _ he

/-- A step of the call itself. -/
theorem opens_of_runCall (hc : s.calls.find? id = some c) (hr : c.request = .touchFile file wait)
    (ho : Opens wait timeout clients asked heard waits c.stage c.errands)
    (h : s.runCall id = some (t, effects)) :
    ∃ c', s.CallOpens wait id c (.run (.call id)) c' effects ∧
      t = { s with calls := s.calls.insert id c' } := by
  generalize hst : c.stage = stage at ho
  generalize herr : c.errands = errands at ho
  cases ho with
  | resolved =>
    rw [runCall_resolved hc (by simp [hr]) hst] at h
    cases h
    exact ⟨_, .resolved hst, rfl⟩
  | @visiting done left hclients =>
    cases left with
    | nil =>
      obtain ⟨hw, hrun⟩ | ⟨⟨hw, hne⟩, hrun⟩ := runCall_visited hc hr hst
      · cases hrun.symm.trans h
        exact ⟨_, .answer hst hw, rfl⟩
      · cases hrun.symm.trans h
        exact ⟨_, .await hst hw hne, rfl⟩
    | cons client left =>
      cases (runCall_asks hc hr hst).symm.trans h
      exact ⟨_, .ask hst, rfl⟩
  | contacting | finished =>
    simp [runCall, hc, hst] at h
  | @joining done _ _ _ _ _ _ hj =>
    have hjoin : s.joinNext id c (.count (opened done).length) = some (t, effects) := by
      simpa [runCall, hc, hst] using h
    unfold joinNext at hjoin
    rw [herr] at hjoin
    split at hjoin
    · next e rest he =>
      obtain ⟨place, hp, hfin, rfl⟩ := collect_eq_some he
      obtain ⟨f, hcall⟩ := hj.calls e (List.mem_of_getElem? hp)
      rw [updateCall_eq hc, hcall] at hjoin
      cases hjoin
      rw [← herr] at hp ⊢
      exact ⟨_, .errand hst hp (.collect hfin), rfl⟩
    · split at hjoin
      · next hall =>
        rw [finish_eq hc] at hjoin
        cases hjoin
        exact ⟨_, .finish hst (by simpa [herr] using hall), rfl⟩
      · cases hjoin

lemma expireTask_errand {place limit : Nat} {e : Errand} (he : s.errand? id place = some e)
    (hst : e.stage = .underway (some limit)) :
    s.expireTask (.errand id place) =
      if s.now < limit then none else some (s.moveErrand id place .finished, []) := by
  by_cases hn : s.now < limit <;> simp [expireTask, limit?, he, hst, hn]

lemma opens_of_replyToCall (hc : s.calls.find? id = some c)
    (hr : c.request = .touchFile file wait) {reply : Reply}
    (h : s.replyToCall id reply = some (t, effects)) :
    ∃ c', s.CallOpens wait id c (.reply (.call id) reply) c' effects ∧
      t = { s with calls := s.calls.insert id c' } := by
  have hgo := h
  obtain ⟨c', hc', hgo⟩ := Option.bind_eq_some_iff.1 hgo
  cases hc.symm.trans hc'
  split at hgo
  · next client left replies reply hst _ =>
    have hleft : (if c.request.isSatisfied reply then [] else left) = left := by
      rw [hr]
      rfl
    rw [replyToCall_contacting hc hst, hleft] at h
    cases h
    exact ⟨_, .heard hst, rfl⟩
  · cases hgo

/-- A step of an errand of the call. -/
theorem opens_of_moveErrand (hc : s.calls.find? id = some c)
    (ho : Opens wait timeout clients asked heard waits c.stage c.errands) {place : Nat}
    {e : Errand} {stage : ErrandStage} (he : s.errand? id place = some e)
    (hp : e.Passes s id place l stage effects) :
    ∃ c', s.CallOpens wait id c l c' effects ∧
      s.moveErrand id place stage = { s with calls := s.calls.insert id c' } := by
  obtain ⟨c', hc', -, hplace⟩ := errand?_eq_some he
  cases hc.symm.trans hc'
  obtain ⟨answer, hst⟩ := ho.exists_joining hplace
  exact ⟨_, .errand hst hplace hp, updateCall_eq hc _⟩

/-- Whatever happens next, the call takes one of its steps or it is left as it is. -/
theorem Next.opens (hn : s.Next l t effects) (hcalls : s.calls.Numbered)
    (hc : s.calls.find? id = some c) (hr : c.request = .touchFile file wait)
    (ho : Opens wait timeout clients asked heard waits c.stage c.errands) (hl : l ≠ .cancel id) :
    (∃ c', s.CallOpens wait id c l c' effects ∧ t = { s with calls := s.calls.insert id c' }) ∨
      l.tends id = false ∧ t.calls.find? id = some c := by
  cases htends : l.tends id with
  | false =>
    obtain ⟨c', hc', -, -, -, hsame⟩ :=
      hn.move.call_kept hcalls hc (Label.goesOn_of_tends htends) hl
    exact .inr ⟨rfl, hsame htends ▸ hc'⟩
  | true =>
    refine .inl ?_
    cases hn with
    | elapse => cases htends
    | step h =>
      unfold Label.tends Label.goesOn at htends
      -- an errand begins, is replied to or runs out of time; the call goes on or is replied to
      split at htends
      · obtain rfl := of_decide_eq_true htends
        obtain ⟨e, he, h⟩ := Option.bind_eq_some_iff.1 h
        split at h <;> cases h
        next hst => exact opens_of_moveErrand hc ho he (.begin hst)
      · obtain rfl := of_decide_eq_true htends
        obtain ⟨e, he, h⟩ := Option.bind_eq_some_iff.1 h
        split at h <;> cases h
        next hst => exact opens_of_moveErrand hc ho he (.reply hst)
      · obtain rfl := of_decide_eq_true htends
        have hexp : s.expireTask _ = some (t, effects) := h
        obtain ⟨limit, hlimit, -⟩ := Option.bind_eq_some_iff.1 h
        obtain ⟨e, he, hlimit⟩ := Option.bind_eq_some_iff.1 hlimit
        split at hlimit
        · next hst =>
          subst hlimit
          rw [expireTask_errand he hst] at hexp
          obtain ⟨hnow, h⟩ := Option.ite_none_left_eq_some.1 hexp
          cases h
          exact opens_of_moveErrand hc ho he (.expire hst (Nat.le_of_not_lt hnow))
        · cases hlimit
      · split at htends
        · obtain rfl := of_decide_eq_true htends
          exact opens_of_runCall hc hr ho h
        · obtain rfl := of_decide_eq_true htends
          exact opens_of_replyToCall hc hr h
        · cases htends

lemma runCall_visiting (hc : s.calls.find? id = some c) (hr : c.request = .touchFile file wait)
    {left : List ClientId} {done : List (ClientId × ClientReply)}
    (hst : c.stage = .visiting left done) : (s.runCall id).isSome = true := by
  cases left with
  | nil =>
    obtain ⟨-, hrun⟩ | ⟨-, hrun⟩ := runCall_visited hc hr hst
    · rw [hrun]; rfl
    · rw [hrun]; rfl
  | cons client left => rw [runCall_asks hc hr hst]; rfl

section Joining

variable {answer : Answer} {place : Nat} {e : Errand} (hc : s.calls.find? id = some c)
  (hst : c.stage = .joining answer)
include hc hst

lemma errand?_of_joining : s.errand? id place = c.errands[place]? := by
  simp [errand?, hc, hst, CallStage.isOver]

lemma runErrand_fresh (he : c.errands[place]? = some e) (hf : e.stage = .fresh) :
    (s.runErrand id place).isSome = true := by
  simp [runErrand, errand?_of_joining hc hst, he, hf]

lemma replyToErrand_underway (he : c.errands[place]? = some e) {limit : Option Nat}
    (hu : e.stage = .underway limit) (reply : ClientReply) :
    (s.replyToErrand id place (.client reply)).isSome = true := by
  simp [replyToErrand, errand?_of_joining hc hst, he, hu]

/-- A call that waits for its errands can go on, or one of them has not come to its end. -/
theorem runCall_joining : (s.runCall id).isSome = true ∨
    ∃ (place : Nat) (e : Errand), c.errands[place]? = some e ∧
      (e.stage = .fresh ∨ ∃ limit, e.stage = .underway limit) := by
  have hrun : s.runCall id = s.joinNext id c answer := by simp [runCall, hc, hst]
  rw [hrun, joinNext]
  cases hcollect : Errand.collect c.errands with
  | some found => exact .inl rfl
  | none =>
    have hnone := collect_eq_none_iff.1 hcollect
    by_cases hall : c.errands.all (·.stage = .collected) = true
    · exact .inl (by simp [hall])
    · obtain ⟨e, he, hopen⟩ : ∃ e ∈ c.errands, e.stage ≠ .collected := by simpa using hall
      obtain ⟨place, hplace⟩ := List.mem_iff_getElem?.1 he
      refine .inr ⟨place, e, hplace, ?_⟩
      cases hes : e.stage with
      | fresh => exact .inl rfl
      | underway limit => exact .inr ⟨limit, rfl⟩
      | finished => exact absurd hes (hnone e he)
      | collected => exact absurd hes hopen

end Joining

/-- What keeps a call going that opens a file: it can go on by itself, or the client it has asked
can reply, or an errand can begin, or it waits for a client, which can reply, and only for a
limited time. -/
inductive CallProceeds (s : State) (id : CallId) (timeout : Nat) (asked : List ClientId)
    (waits : List Wait) : Prop
  | goOn (h : (s.step? (.run (.call id))).isSome = true)
  | hear {client : ClientId} (h : asked.getLast? = some client)
      (hr : ∀ reply, (s.step? (.reply (.call id) (.client reply))).isSome = true)
  | begin {place : Nat} (h : (s.step? (.run (.errand id place))).isSome = true)
  | await {v : Wait} (hv : v ∈ waits)
      (hr : ∀ reply, (s.step? (.reply (.errand id v.place) (.client reply))).isSome = true)
      (he : v.began + timeout ≤ s.now → (s.step? (.expire (.errand id v.place))).isSome = true)

end State

lemma Opens.proceeds {s : State} {id : CallId} {c : Call} {file : Path} {wait : Bool}
    {timeout : Nat} {clients asked : List ClientId} {heard : List ClientReply} {waits : List Wait}
    (h : Opens wait timeout clients asked heard waits c.stage c.errands)
    (hc : s.calls.find? id = some c) (hr : c.request = .touchFile file wait) :
    (∃ given, c.stage = .finished given) ∨ s.CallProceeds id timeout asked waits := by
  generalize hst : c.stage = stage at h
  generalize herr : c.errands = errands at h
  cases h with
  | resolved =>
    have hrun := State.runCall_resolved hc (by simp [hr]) hst
    exact .inr (.goOn (Option.isSome_iff_exists.2 ⟨_, hrun⟩))
  | visiting => exact .inr (.goOn (State.runCall_visiting hc hr hst))
  | contacting =>
    refine .inr (.hear List.getLast?_concat fun reply => ?_)
    exact Option.isSome_iff_exists.2 ⟨_, State.replyToCall_contacting hc hst reply⟩
  | joining _ _ _ _ hj =>
    obtain hrun | ⟨place, e, he, hf | ⟨limit, hu⟩⟩ := State.runCall_joining hc hst
    · exact .inr (.goOn hrun)
    · exact .inr (.begin (State.runErrand_fresh hc hst he hf))
    · obtain ⟨v, hv, rfl, -, hlimit⟩ := hj.begun place e (herr ▸ he) (by rw [hu]; exact nofun)
      refine .inr (.await hv (State.replyToErrand_underway hc hst he hu) fun hnow => ?_)
      rw [hlimit limit hu] at hu
      have hexp := State.expireTask_errand ((State.errand?_of_joining hc hst).trans he) hu
      rw [if_neg (Nat.not_lt.2 hnow)] at hexp
      exact Option.isSome_iff_exists.2 ⟨_, hexp⟩
  | finished => exact .inl ⟨_, rfl⟩

/-- A call that opens a file, which is at a path, has come to a certain point in a run. -/
structure Opening (id : CallId) (file path : Path) (wait : Bool) (timeout : Nat)
    (clients : List ClientId) (run : List Happening) (s : State) (c : Call) : Prop where
  find : s.calls.find? id = some c
  request : c.request = .touchFile file wait
  file : c.file = path
  opens : Opens wait timeout clients (askedBy id run) (repliesTo id run) (waitsOf id run) c.stage
    c.errands
  asks : ∀ x ∈ run, ∀ client call, .began (.call id) (.client client call) ∈ x.effects →
    call = .open path
  errands : ∀ e ∈ c.errands, e.call = .awaitDiagnostics path timeout
  waits : ∀ v ∈ waitsOf id run, v.call = .awaitDiagnostics path timeout
  answered : ∀ x ∈ run, ∀ given, .answered id given ∈ x.effects → c.stage = .finished given
  returned : ∀ given, c.stage = .finished given → ∃ x ∈ run, .answered id given ∈ x.effects
  effort : run.countP (·.label.tends id) + c.toGo ≤ 5 * clients.length + 3

section Opening

variable {s t : State} {id : CallId} {c c' : Call} {file path : Path} {wait : Bool} {timeout : Nat}
  {clients : List ClientId} {l : Label} {effects : List Effect} {run : List Happening}

/-- A call that has all its clients begins to open its file. -/
lemma Opening.of_resolved (hc : s.calls.find? id = some c)
    (hr : c.request = .touchFile file wait) (hst : c.stage = .routing [] clients)
    (herrands : c.errands = []) (hfile : c.file = path) :
    Opening id file path wait timeout clients [] s c := by
  have hopens : Opens wait timeout clients [] [] [] c.stage c.errands := by
    rw [hst, herrands]
    exact .resolved
  have htoGo : c.toGo = 5 * clients.length + 3 := by
    unfold Call.toGo
    rw [hst]
  exact ⟨hc, hr, hfile, hopens, by simp, by simp [herrands], by simp [waitsOf], by simp,
    by simp [hst], by simp [htoGo]⟩

/-- A step of the call takes it to another point. -/
theorem Opening.step (h : Opening id file path wait timeout clients run s c)
    (ht : s.settings.diagnosticsTimeout = timeout) (hg : s.CallOpens wait id c l c' effects) :
    Opening id file path wait timeout clients
      (run ++ [⟨s, l, effects, { s with calls := s.calls.insert id c' }⟩])
      { s with calls := s.calls.insert id c' } c' where
  find := Table.find?_insert_self _ _ _
  request := hg.request_eq.trans h.request
  file := hg.file_eq.trans h.file
  opens := by
    rw [askedBy_concat, repliesTo_concat, waitsOf_concat]
    exact h.opens.step ht hg
  asks x hx client call hb := by
    obtain hx | hx := List.mem_append.1 hx
    · exact h.asks x hx client call hb
    · obtain rfl := List.mem_singleton.1 hx
      exact h.file ▸ hg.asks hb
  errands e he := by
    obtain hcall | ⟨e', he', hcall⟩ := hg.errands he
    · exact h.file ▸ ht ▸ hcall
    · exact hcall.symm.trans (h.errands e' he')
  waits v hv := by
    rw [waitsOf_concat] at hv
    obtain hv | hv := List.mem_append.1 hv
    · exact h.waits v hv
    · obtain ⟨e, he, hcall⟩ := hg.waits hv
      exact hcall.symm.trans (h.errands e he)
  answered x hx given ha := by
    obtain hx | hx := List.mem_append.1 hx
    · exact absurd (h.answered x hx given ha) (hg.not_finished given)
    · obtain rfl := List.mem_singleton.1 hx
      exact (hg.answered_iff given).1 ha
  returned given hst := ⟨_, List.mem_append_right _ (List.mem_singleton.2 rfl),
    (hg.answered_iff given).2 hst⟩
  effort := by
    have hbefore := h.effort
    have hstep := hg.toGo
    rw [List.countP_append, countP_singleton_eq, hg.tends, Bool.toNat_true]
    omega

/-- What is not about the call leaves it at its point. -/
theorem Opening.passBy (h : Opening id file path wait timeout clients run s c)
    (hm : s.Move l t effects) (hl : l.tends id = false) (hc : t.calls.find? id = some c) :
    Opening id file path wait timeout clients (run ++ [⟨s, l, effects, t⟩]) t c where
  find := hc
  request := h.request
  file := h.file
  opens := by
    have hgoes := Label.goesOn_of_tends hl
    rw [askedBy_concat, repliesTo_concat, waitsOf_concat, hm.askedBy_eq_nil hgoes,
      Label.replyTo?_eq_none hgoes, hm.waits_eq_nil hl]
    simpa using h.opens
  asks x hx client call hb := by
    obtain hx | hx := List.mem_append.1 hx
    · exact h.asks x hx client call hb
    · obtain rfl := List.mem_singleton.1 hx
      exact absurd hb ((hm.call_silent (Label.goesOn_of_tends hl)).1 _)
  errands := h.errands
  waits v hv := by
    rw [waitsOf_concat, hm.waits_eq_nil hl, List.append_nil] at hv
    exact h.waits v hv
  answered x hx given ha := by
    obtain hx | hx := List.mem_append.1 hx
    · exact h.answered x hx given ha
    · obtain rfl := List.mem_singleton.1 hx
      exact absurd ha ((hm.call_silent (Label.goesOn_of_tends hl)).2 given)
  returned given hst := by
    obtain ⟨x, hx, ha⟩ := h.returned given hst
    exact ⟨x, List.mem_append_left _ hx, ha⟩
  effort := by
    have hbefore := h.effort
    rw [List.countP_append, countP_singleton_eq, hl, Bool.toNat_false]
    exact hbefore

/-- A call that opens a file stays on its way to the end of a run. -/
theorem Run.opening (h : Run s run t) (hs : s.Coherent)
    (ht : s.settings.diagnosticsTimeout = timeout)
    (hc : Opening id file path wait timeout clients [] s c)
    (hcancel : ∀ x ∈ run, x.label ≠ .cancel id) :
    ∃ c', Opening id file path wait timeout clients run t c' := by
  induction h with
  | start => exact ⟨c, hc⟩
  | @next run t u l effects h hn ih =>
    obtain ⟨c', hc'⟩ := ih fun x hx => hcancel x (List.mem_append_left _ hx)
    have hl := hcancel _ (List.mem_append_right _ (List.mem_singleton.2 rfl))
    obtain ⟨c'', hg, rfl⟩ | ⟨htends, hkept⟩ :=
      hn.opens (h.coherent hs).calls hc'.find hc'.request hc'.opens hl
    · have htimeout : t.settings.diagnosticsTimeout = timeout := by rw [h.settings_eq, ht]
      exact ⟨c'', hc'.step htimeout hg⟩
    · exact ⟨c', hc'.passBy hn.move htends hkept⟩

/-- What was seen of a call that has opened its file is the number that it gives. -/
lemma Opening.counts (ho : Opening id file path wait timeout clients run s c) {given : Answer}
    (hst : c.stage = .finished given) :
    given = .count ((repliesTo id run).countP (·.isDone)) ∧ askedBy id run = clients ∧
      (repliesTo id run).length = clients.length ∧
      (wait = true → ∀ place client, (openedBy id run)[place]? = some client →
        ∃ v ∈ waitsOf id run, v.place = place ∧ v.client = client) := by
  have hopened := ho.opens
  rw [hst] at hopened
  generalize hasked : askedBy id run = asked at hopened
  generalize hheard : repliesTo id run = heard at hopened
  generalize waitsOf id run = waits at hopened ⊢
  generalize c.errands = errands at hopened
  cases hopened with
  | finished hclients _ hall =>
    rw [openedBy, hasked, hheard, zip_map_fst_snd, List.countP_map, length_opened, hclients]
    exact ⟨rfl, rfl, by simp, hall⟩

end Opening

end ServerFleet.Manager
