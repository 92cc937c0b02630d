import ServerFleet.Proofs.Manager.Ending
import ServerFleet.Proofs.Manager.Ledger

/-!
How often a client is shut down. A client that does not go live is shut down once by its attempt.
One that leaves the roster is shut down once, by a call or after its error, unless it left because
it had closed.
-/

namespace ServerFleet.Manager

namespace Scope

def ofClient (client : ClientId) : Scope := ⟨fun _ c => c == some client, fun _ _ => rfl⟩

lemma weight_ofClient (client : ClientId) (k : InstanceKey) (c : ClientId) :
    (ofClient client).weight k c = (c == client).toNat := rfl

end Scope

def TaskId.isAttempt : TaskId → Bool
  | attempt _ => true
  | _ => false

def Effect.shutsDown (p : TaskId → Bool) (client : ClientId) : Effect → Bool
  | began task (.client c call) => p task && (call.isShutdown && c == client)
  | _ => false

/-- A client is shut down by its attempt or by another task. -/
theorem countP_shutsDown (client : ClientId) (effects : List Effect) :
    effects.countP (Effect.shutsDown (fun _ => true) client) =
      effects.countP (Effect.shutsDown TaskId.isAttempt client) +
        effects.countP (Effect.shutsDown (!·.isAttempt) client) := by
  induction effects with
  | nil => rfl
  | cons e effects ih =>
    simp only [List.countP_cons, ih]
    cases e with
    | began task operation =>
      cases operation with
      | client c call =>
        cases task <;> simp [Effect.shutsDown, TaskId.isAttempt] <;> omega
      | _ => simp [Effect.shutsDown]
    | _ => simp [Effect.shutsDown]

/-- An attempt has still to decide about a client, or to announce it. -/
def AttemptStage.charge (client : ClientId) : AttemptStage → Nat
  | handshaking c _ => (c == client).toNat
  | concluded (.ready c) => (c == client).toNat
  | announcing c => (c == client).toNat
  | _ => 0

def State.charge (s : State) (client : ClientId) : Nat :=
  s.attempts.total fun _ a => a.stage.charge client

section Parts

variable {client : ClientId} {l : Label} {effects : List Effect}

lemma countP_shutdown (p : TaskId → Bool) (task : TaskId) (c : ClientId) :
    [Effect.began task (.client c .shutdown)].countP (Effect.shutsDown p client) =
      (p task && c == client).toNat := by
  cases h : p task <;> cases hc : c == client <;>
    simp [Effect.shutsDown, ClientCall.isShutdown, h, hc]

lemma Attempt.Goes.charge {id : AttemptId} {a : Attempt} {stage : AttemptStage}
    (h : a.Goes id l stage effects) (client : ClientId) :
    stage.charge client + effects.countP (Effect.shutsDown TaskId.isAttempt client) +
      effects.countP (Scope.ofClient client).isStart = a.stage.charge client := by
  cases h with
  | announce h =>
    rw [h, countP_isStart]
    exact Nat.zero_add _
  | refuse h | expire h =>
    rw [h, countP_shutdown]
    exact Nat.zero_add _
  | _ h =>
    rw [h]
    rfl

lemma Roster.Settles.charge {r r' : Roster} {now epoch : Nat} {k : InstanceKey} {o : Outcome}
    {x : Settlement} (h : r.Settles now k epoch o r' x) (id : AttemptId) (client : ClientId) :
    x.stage.charge client +
      (x.effects id k).countP (Effect.shutsDown TaskId.isAttempt client) =
        (AttemptStage.concluded o).charge client := by
  have hretrying : (x.retrying.toList.map fun n =>
      Effect.announced (.serverRetrying k.serverId k.root n) none).countP
        (Effect.shutsDown TaskId.isAttempt client) = 0 := by
    cases x.retrying <;> rfl
  unfold Settlement.effects
  rw [List.countP_append, hretrying]
  have discard (c : ClientId) :
      0 + (0 + [Effect.began (.attempt id) (.client c .shutdown)].countP
        (Effect.shutsDown TaskId.isAttempt client)) = (c == client).toNat := by
    rw [Nat.zero_add, Nat.zero_add, countP_shutdown]
    rfl
  cases h with
  | @stale o =>
    cases o with
    | ready => exact discard _
    | _ => rfl
  | discarded => exact discard _
  | _ => rfl

/-- What a file is resolved for is never a shutdown. -/
theorem Request.isShutdown_clientCall? {r : Request} {file : Path} {call : ClientCall}
    (h : r.clientCall? file = some call) : call.isShutdown = false := by
  unfold Request.clientCall? at h
  split at h <;> cases h <;> rfl

lemma State.CallGoes.countP_shutsDown {s : State} {id : CallId} {c c' : Call}
    (h : s.CallGoes id c l c' effects) (p : TaskId → Bool) (client : ClientId) :
    effects.countP (Effect.shutsDown p client) = 0 := by
  cases h with
  | ask _ hr => simp [Effect.shutsDown, Request.isShutdown_clientCall? hr]
  | @collect _ e =>
    unfold Errand.farewell
    split <;> rfl
  | _ => rfl

lemma ClientRecord.Goes.countP_shutsDown {id : ClientId} {c c' : ClientRecord}
    (h : c.Goes id l c' effects) (p : TaskId → Bool) (client : ClientId) :
    effects.countP (Effect.shutsDown p client) = 0 := by
  cases h <;> rfl

lemma Errand.Goes.countP_shutsDown {call : CallId} {place : Nat} {e : Errand}
    {stage : ErrandStage} (h : e.Goes call place l stage effects) :
    effects.countP (Effect.shutsDown TaskId.isAttempt client) = 0 := by
  cases h <;> rfl

end Parts

namespace State

variable {s s' : State} {l : Label} {effects : List Effect}

/-- A step that leaves the attempts alone and connects nobody. -/
theorem charge_of_attempts_eq {client : ClientId} (ha : s'.attempts = s.attempts)
    (hc : s'.clients.contains client = s.clients.contains client)
    (hr : effects.countP (Effect.shutsDown TaskId.isAttempt client) = 0)
    (hs : effects.countP (Scope.ofClient client).isStart = 0) :
    (s'.clients.contains client).toNat + s.charge client =
      (s.clients.contains client).toNat + s'.charge client +
        effects.countP (Effect.shutsDown TaskId.isAttempt client) +
        effects.countP (Scope.ofClient client).isStart := by
  unfold State.charge
  rw [ha, hc, hr, hs]
  rfl

lemma charge_insert (client : ClientId) {id : AttemptId} {a : Attempt}
    (hf : s.attempts.find? id = some a) (a' : Attempt) :
    (s.attempts.insert id a').total (fun _ a => a.stage.charge client) + a.stage.charge client =
      s.charge client + a'.stage.charge client :=
  Table.total_insert_old (fun _ _ => rfl) hf a'

lemma charge_insert_new (hc : s.Coherent) (client : ClientId) (k : InstanceKey) (epoch : Nat)
    (byRetry : Bool) :
    (s.attempts.insert s.attempts.size ⟨k, epoch, byRetry, .reserved, none⟩).total
      (fun _ a => a.stage.charge client) = s.charge client :=
  Table.total_insert_new (fun _ _ => rfl) hc.attempts.find?_size _

lemma contains_clients_insert {client id : ClientId} {c c' : ClientRecord}
    (hf : s.clients.find? id = some c) :
    (s.clients.insert id c').contains client = s.clients.contains client := by
  rw [Table.contains_insert]
  cases hid : id == client with
  | false => rfl
  | true =>
    rw [← eq_of_beq hid, Table.contains, hf]
    rfl

lemma contains_clients_insert_new (hc : s.Coherent) (client : ClientId) (c : ClientRecord) :
    ((s.clients.insert s.clients.size c).contains client).toNat =
      (s.clients.contains client).toNat + (s.clients.size == client).toNat := by
  have hfresh : s.clients.contains s.clients.size = false :=
    Table.contains_eq_false.2 hc.clients.find?_size
  rw [Table.contains_insert]
  cases hid : s.clients.size == client with
  | false => simp
  | true =>
    rw [← eq_of_beq hid, hfresh]
    rfl

lemma Move.charge (hm : s.Move l s' effects) (hc : s.Coherent) (client : ClientId) :
    (s'.clients.contains client).toNat + s.charge client =
      (s.clients.contains client).toNat + s'.charge client +
        effects.countP (Effect.shutsDown TaskId.isAttempt client) +
        effects.countP (Scope.ofClient client).isStart := by
  cases hm with
  | @attempt id a _ stage _ hf hg =>
    have hattempts := charge_insert client hf { a with stage }
    have hcharge := hg.charge client
    simp only [State.charge] at *
    omega
  | @connected id a number limit hf hst =>
    have hattempts := charge_insert client hf { a with stage := .handshaking s.clients.size limit }
    -- the client that is connected is a new one, and its attempt takes charge of it
    have hcontains := contains_clients_insert_new hc client ⟨a.key, id, number, [], .idle, .empty⟩
    rw [hst] at hattempts
    have hcharge : s.charge client + (s.clients.size == client).toNat =
      (s.attempts.insert id { a with stage := .handshaking s.clients.size limit }).total
        (fun _ a => a.stage.charge client) := hattempts.symm
    show _ = _ + Table.total _ _ + 0 + 0
    rw [← hcharge, hcontains]
    omega
  | @settle id a o roster x hf hst hr =>
    have hattempts := charge_insert client hf
      { a with stage := x.stage, published := some x.published }
    have hcharge := hr.charge id client
    have hstarts := (x.countP_effects (z := .ofClient client) id a.key).1
    rw [hst] at hattempts
    simp only [State.charge] at *
    omega
  | call hf hg =>
    exact charge_of_attempts_eq rfl rfl (hg.countP_shutsDown _ _)
      (hg.held (p := ErrandStage.isOwed) rfl rfl).2
  | errand hf _ hp hg => exact charge_of_attempts_eq rfl rfl hg.countP_shutsDown hg.countP.1
  | reserve | retry => exact congrArg (_ + ·) (charge_insert_new hc _ _ _ _).symm
  | client hf hg =>
    exact charge_of_attempts_eq rfl (contains_clients_insert hf) (hg.countP_shutsDown _ _)
      hg.reported.2
  | deafen hf | ignore hf | close hf | fault hf =>
    exact charge_of_attempts_eq rfl (contains_clients_insert hf) rfl rfl
  | _ => exact charge_of_attempts_eq rfl rfl rfl rfl

end State

/-- A client leaves the roster because it has reported that it closed. -/
def Happening.Closes (x : Happening) (client : ClientId) : Prop :=
  x.label = .run (.pump client) ∧ x.before.isAlive = true ∧
    ∃ r rest, x.before.clients.find? client = some r ∧ r.pump = .idle ∧
      r.inbox = .closed :: rest ∧ x.before.roster.isRegistered r.key client = true

/-- An errand is held as begun from the moment on that it begins. -/
theorem Errand.Goes.asked {call : CallId} {place : Nat} {e : Errand} {l : Label}
    {stage : ErrandStage} {effects : List Effect} (h : e.Goes call place l stage effects)
    (client : ClientId) :
    ({ e with stage } : Errand).held (.ofClient client) ErrandStage.isAsked =
      e.held (.ofClient client) ErrandStage.isAsked +
        effects.countP (Effect.shutsDown (!·.isAttempt) client) := by
  cases h with
  | begin h =>
    cases hs : e.call.isShutdown <;> cases hc : e.client == client <;>
      simp [Errand.held, h, hs, hc, ErrandStage.isAsked, Effect.shutsDown, TaskId.isAttempt,
        Scope.weight_ofClient]
  | reply h | expire h => simp [Errand.held, h, ErrandStage.isAsked]

namespace State

variable {s s' : State} {l : Label} {effects : List Effect} {client : ClientId}

/-- What a step adds to the shutdowns of a client that calls and reports have begun. -/
def Dismisses (s : State) (l : Label) (s' : State) (effects : List Effect) (client : ClientId)
    (closed : Nat) : Prop :=
  effects.countP (Effect.shutsDown (!·.isAttempt) client) + closed +
      s.held (.ofClient client) ErrandStage.isAsked + s.reported (.ofClient client) =
    s'.held (.ofClient client) ErrandStage.isAsked + s'.reported (.ofClient client) +
      effects.countP (Scope.ofClient client).isEnd + s.lost (.ofClient client) ErrandStage.isAsked l

/-- A step that leaves calls and clients as they are. -/
theorem Dismisses.of_eq (hd : effects.countP (Effect.shutsDown (!·.isAttempt) client) = 0)
    (hh : s'.held (.ofClient client) ErrandStage.isAsked =
      s.held (.ofClient client) ErrandStage.isAsked)
    (hp : s'.reported (.ofClient client) = s.reported (.ofClient client))
    (he : effects.countP (Scope.ofClient client).isEnd = 0)
    (hl : s.lost (.ofClient client) ErrandStage.isAsked l = 0) :
    Dismisses s l s' effects client 0 := by
  unfold Dismisses
  omega

lemma Dismisses.of_call {id : CallId} {c c' : Call} {roster : Roster}
    {attempts : Table AttemptId Attempt} (hf : s.calls.find? id = some c)
    (h : effects.countP (Effect.shutsDown (!·.isAttempt) client) +
        c.held (.ofClient client) ErrandStage.isAsked =
      c'.held (.ofClient client) ErrandStage.isAsked +
        effects.countP (Scope.ofClient client).isEnd +
        s.lost (.ofClient client) ErrandStage.isAsked l) :
    Dismisses s l { s with roster, attempts, calls := s.calls.insert id c' } effects client 0 := by
  have hcalls := held_insert (z := .ofClient client) (p := ErrandStage.isAsked) hf c'
  unfold Dismisses
  simp only [held, reported] at *
  omega

/-- A call that starts no errands and has none. -/
theorem Dismisses.of_idle {id : CallId} {c c' : Call} {roster : Roster}
    {attempts : Table AttemptId Attempt} (hf : s.calls.find? id = some c) (hc : c.duties = [])
    (hc' : c'.held (.ofClient client) ErrandStage.isAsked = 0)
    (hd : effects.countP (Effect.shutsDown (!·.isAttempt) client) = 0)
    (he : effects.countP (Scope.ofClient client).isEnd = 0)
    (hl : s.lost (.ofClient client) ErrandStage.isAsked l = 0) :
    Dismisses s l { s with roster, attempts, calls := s.calls.insert id c' } effects client 0 := by
  refine .of_call hf ?_
  rw [Call.held_of_duties_eq_nil hc, hc', hd, he, hl]

lemma Dismisses.of_client {id : ClientId} {c c' : ClientRecord} {roster : Roster} {closed : Nat}
    (hf : s.clients.find? id = some c) (hl : s.lost (.ofClient client) ErrandStage.isAsked l = 0)
    (h : effects.countP (Effect.shutsDown (!·.isAttempt) client) + closed +
        c.reported (.ofClient client) id =
      c'.reported (.ofClient client) id + effects.countP (Scope.ofClient client).isEnd) :
    Dismisses s l { s with roster, clients := s.clients.insert id c' } effects client closed := by
  have hclients := reported_insert (z := .ofClient client) hf c'
  unfold Dismisses
  simp only [held, reported] at *
  omega

/-- Errands that have not begun are not held as begun. -/
theorem asked_await (c : Call) (removed : List (InstanceKey × ClientId)) (answer : Answer) :
    (c.await (shutdownErrands removed) answer).held (.ofClient client) ErrandStage.isAsked = 0 := by
  refine List.sum_eq_zero_iff_forall_eq_nat.2 fun n hn => ?_
  obtain ⟨e, he, rfl⟩ := List.mem_map.1 hn
  obtain ⟨x, -, rfl⟩ := List.mem_map.1 he
  rfl

lemma asked_dismiss (c : Call) (server : String) (enabled changed : Bool)
    (removed : List (InstanceKey × ClientId)) :
    (c.dismiss server enabled changed removed).held (.ofClient client) ErrandStage.isAsked = 0 := by
  cases changed <;> exact asked_await c removed (.flag true)

lemma Move.dismisses_of_closes (hm : s.Move l s' effects)
    (hx : (⟨s, l, effects, s'⟩ : Happening).Closes client) : Dismisses s l s' effects client 1 := by
  obtain ⟨hl, hal, r, rest, hr, hp, hi, hreg⟩ := hx
  dsimp only at hl hal hr hreg
  subst hl
  cases hm with
  | close hc =>
    cases hr.symm.trans hc
    refine .of_client hr rfl ?_
    simp [ClientRecord.reported, hp, PumpStage.isBusy, Scope.weight_ofClient]
  | deafen _ _ ha => exact absurd (ha.symm.trans hal) Bool.false_ne_true
  | ignore hc _ _ hn =>
    cases hr.symm.trans hc
    exact absurd (hn.symm.trans hreg) Bool.false_ne_true
  | fault hc _ hi' =>
    cases hr.symm.trans hc
    cases hi.symm.trans hi'
  | client hc hg =>
    cases hg with
    | forward _ hi' =>
      cases hr.symm.trans hc
      cases hi.symm.trans hi'
    | announce hp' =>
      cases hr.symm.trans hc
      cases hp.symm.trans hp'
  | attempt _ hg => cases hg
  | call _ hg => cases hg
  | errand _ _ _ hg => cases hg

lemma Move.dismisses (hm : s.Move l s' effects) (hc : s.Coherent) (ht : s.Tidy)
    (hx : ¬ (⟨s, l, effects, s'⟩ : Happening).Closes client) :
    Dismisses s l s' effects client 0 := by
  cases hm with
  | start => exact .of_eq rfl (held_insert_new hc _) rfl rfl rfl
  | @cancel id c hf =>
    refine .of_call hf ?_
    have hlost : s.lost (.ofClient client) ErrandStage.isAsked (.cancel id) =
        c.held (.ofClient client) ErrandStage.isAsked := by
      simp [lost, hf]
    rw [hlost]
    rfl
  | attempt _ hg =>
    have hlost := s.lost_eq_zero (.ofClient client) ErrandStage.isAsked hg.isCancel
    exact .of_eq (by cases hg <;> rfl) rfl rfl hg.greets.2 hlost
  | connected => exact .of_eq rfl rfl (reported_insert_new hc _) rfl rfl
  | @settle _ _ _ _ x =>
    refine .of_eq ?_ rfl rfl (x.countP_effects _ _).2 rfl
    unfold Settlement.effects
    cases x.retrying <;> cases x.stage <;> rfl
  | call hf hg =>
    obtain ⟨hends, -⟩ := hg.held (z := .ofClient client) (p := ErrandStage.isAsked) rfl rfl
    have hdismissed := hg.countP_shutsDown (!·.isAttempt) client
    have hlost := s.lost_eq_zero (.ofClient client) ErrandStage.isAsked hg.isCancel
    exact .of_call hf (by omega)
  | @errand id place c e _ stage _ hf _ hp hg =>
    have hheld :=
      held_modify (z := .ofClient client) (p := ErrandStage.isAsked) (ht _ _ hf) hp stage
    have hasked := hg.asked client
    obtain ⟨-, hends⟩ := hg.countP (z := .ofClient client)
    have hlost := s.lost_eq_zero (.ofClient client) ErrandStage.isAsked hg.isCancel
    exact .of_call hf (by omega)
  | reserve hf hst | forgetBroken hf hst | forgetRetries hf hst =>
    exact .of_idle hf (by simp [Call.duties, hst]) rfl rfl rfl rfl
  | enable hf hst | disable hf hst =>
    exact .of_idle hf (by simp [Call.duties, hst]) (asked_dismiss _ _ _ _ _) rfl rfl rfl
  | shutDown hf hst =>
    exact .of_idle hf (by simp [Call.duties, hst]) (asked_await _ _ _) rfl rfl rfl
  | client hf hg =>
    obtain ⟨hends, -⟩ := hg.reported (z := .ofClient client)
    have hdismissed := hg.countP_shutsDown (!·.isAttempt) client
    refine .of_client hf (s.lost_eq_zero _ _ hg.isCancel) ?_
    omega
  | deafen hf hp | ignore hf hp =>
    exact .of_client hf rfl (by simp [ClientRecord.reported, hp, PumpStage.isBusy])
  | @close id c rest hf hp hi hreg ha =>
    have hne : (id == client) = false := by
      refine Bool.eq_false_iff.2 fun hid => hx ?_
      obtain rfl := eq_of_beq hid
      exact ⟨rfl, ha, c, rest, hf, hp, hi, hreg⟩
    exact .of_client hf rfl
      (by simp [ClientRecord.reported, hp, PumpStage.isBusy, Scope.weight_ofClient, hne])
  | @fault id c rest hf hp =>
    refine .of_client hf rfl ?_
    rw [countP_shutdown]
    simp [ClientRecord.reported, hp, PumpStage.isBusy, Scope.weight_ofClient, TaskId.isAttempt,
      Scope.isEnd]
  | _ => exact .of_eq rfl rfl rfl rfl rfl

end State

/-- How often tasks of a kind began to shut a client down. -/
def shutdownsBy (p : TaskId → Bool) (run : List Happening) (client : ClientId) : Nat :=
  (seen run).countP (Effect.shutsDown p client)

lemma shutdownsBy_concat (p : TaskId → Bool) (run : List Happening) (x : Happening)
    (client : ClientId) : shutdownsBy p (run ++ [x]) client =
      shutdownsBy p run client + x.effects.countP (Effect.shutsDown p client) := by
  simp [shutdownsBy]

/-- How often a client began to be shut down. -/
def shutdowns (run : List Happening) (client : ClientId) : Nat :=
  shutdownsBy (fun _ => true) run client

lemma shutdowns_eq (run : List Happening) (client : ClientId) :
    shutdowns run client =
      shutdownsBy TaskId.isAttempt run client + shutdownsBy (!·.isAttempt) run client :=
  countP_shutsDown client (seen run)

section Runs

variable {settings : Settings} {surroundings : Surroundings} {delays : List Nat}
  {disabled : List String} {run : List Happening} {s : State}

/-- Every client that was connected is in the hands of its attempt, or its attempt has shut it
down, or its start has been announced. -/
theorem Run.connected (h : Run (.create settings surroundings delays disabled) run s)
    (client : ClientId) : (s.clients.contains client).toNat =
      s.charge client + shutdownsBy TaskId.isAttempt run client +
        (Scope.ofClient client).starts run := by
  have hcreate := State.coherent_create settings surroundings delays disabled
  induction h with
  | start => rfl
  | next h hn ih =>
    have hcharge := hn.move.charge (h.coherent hcreate) client
    rw [starts_concat, shutdownsBy_concat]
    dsimp only
    omega

/-- Whoever is shut down after leaving the roster, or has closed, is being shut down, or its end is
being reported, or was announced, or was lost. -/
theorem Run.dismissed (h : Run (.create settings surroundings delays disabled) run s)
    (client : ClientId) : ∃ closed, (0 < closed ↔ ∃ x ∈ run, x.Closes client) ∧
      shutdownsBy (!·.isAttempt) run client + closed =
        s.held (.ofClient client) ErrandStage.isAsked + s.reported (.ofClient client) +
          (Scope.ofClient client).ends run + lost (.ofClient client) ErrandStage.isAsked run := by
  have hcreate := State.coherent_create settings surroundings delays disabled
  induction h with
  | start => exact ⟨0, by simp, rfl⟩
  | @next run t u l effects h hn ih =>
    obtain ⟨closed, hiff, hsum⟩ := ih
    by_cases hx : (⟨t, l, effects, u⟩ : Happening).Closes client
    · have hstep := hn.move.dismisses_of_closes hx
      refine ⟨closed + 1, ⟨fun _ => ⟨_, by simp, hx⟩, fun _ => Nat.succ_pos _⟩, ?_⟩
      unfold State.Dismisses at hstep
      rw [lost_concat, ends_concat, shutdownsBy_concat]
      dsimp only
      omega
    · have hstep := hn.move.dismisses (h.coherent hcreate) h.tidy hx
      refine ⟨closed, ?_, ?_⟩
      · rw [hiff]
        simp [or_and_right, exists_or, hx]
      · unfold State.Dismisses at hstep
        rw [lost_concat, ends_concat, shutdownsBy_concat]
        dsimp only
        omega

/-- A client has been live exactly if its start was announced or is going to be. -/
theorem Run.live_iff (h : Run (.create settings surroundings delays disabled) run s)
    (client : ClientId) :
    0 < (Scope.ofClient client).starts run + s.greeting (.ofClient client) ↔
      ∃ x ∈ run, ∃ k, x.after.roster.live.find? k = some client := by
  have hcreate := State.coherent_create settings surroundings delays disabled
  induction h with
  | start => simp [State.greeting, State.create, Scope.starts]
  | @next run t u l effects h hn ih =>
    have hex := h.exclusive hcreate (State.exclusive_create _ _ _ _)
    obtain ⟨gained, left, he⟩ := hn.move.entry (h.coherent hcreate) hex h.tidy (.ofClient client)
    have hstarts := he.starts
    have hbalance := (h.next hn).balance (.ofClient client)
    rw [starts_concat] at hbalance ⊢
    dsimp only at hbalance ⊢
    constructor
    · intro hpos
      by_cases hold : 0 < (Scope.ofClient client).starts run + t.greeting (.ofClient client)
      · obtain ⟨x, hx, hk⟩ := ih.1 hold
        exact ⟨x, List.mem_append_left _ hx, hk⟩
      · obtain hz | ⟨k, c, hk, hg⟩ := he.isLive
        · omega
        · have hc : c = client := by
            by_contra hne
            rw [Scope.weight_ofClient, beq_false_of_ne hne] at hg
            have hzero : gained = 0 := hg
            omega
          subst hc
          exact ⟨⟨t, l, effects, u⟩, by simp, k, hk⟩
    · rintro ⟨x, hx, k, hk⟩
      obtain hx | hx := List.mem_append.1 hx
      · have hpos := ih.2 ⟨x, hx, k, hk⟩
        omega
      · obtain rfl := List.mem_singleton.1 hx
        -- a client that is live is on one side of the books, so it is on the other
        have hlive := Table.le_total (Scope.ofClient client).weight_congr hk
        rw [Scope.weight_ofClient, BEq.rfl] at hlive
        have hone : 1 ≤ u.live (.ofClient client) := hlive
        omega

end Runs

end ServerFleet.Manager
