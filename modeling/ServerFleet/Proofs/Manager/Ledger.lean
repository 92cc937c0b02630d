import Mathlib.Algebra.Order.BigOperators.Group.List
import Mathlib.Algebra.Order.Group.Nat
import ServerFleet.Proofs.Manager.Account

/-!
The books of a manager. A client that was connected is in hand, or was refused, or went live; one
that went live is live still, or its end is owed by a call, or is being reported, or was announced,
or was lost with a call that was given up. Each step moves a client from one account to another, so
at any time the accounts add up. The books are kept for one client or for all of an instance.
-/

namespace ServerFleet.Manager

/-- The clients that are counted. -/
structure Scope where
  has : InstanceKey → Option ClientId → Bool
  congr : ∀ {k k' : InstanceKey} (client : Option ClientId), (k == k') = true →
    has k client = has k' client

namespace Scope

def weight (z : Scope) (k : InstanceKey) (client : ClientId) : Nat := (z.has k (some client)).toNat

lemma weight_congr (z : Scope) {k k' : InstanceKey} (client : ClientId) (h : (k == k') = true) :
    z.weight k client = z.weight k' client := by
  unfold weight
  rw [z.congr _ h]

def isStart (z : Scope) : Effect → Bool
  | .announced (.serverStarted server root) client => z.has ⟨server, root⟩ client
  | _ => false

def isEnd (z : Scope) : Effect → Bool
  | .announced (.serverClosed server root) client => z.has ⟨server, root⟩ client
  | _ => false

end Scope

section Accounts

def ErrandStage.isOwed : ErrandStage → Bool
  | collected => false
  | _ => true

/-- An errand that has begun and whose end has not been taken notice of. -/
def ErrandStage.isAsked : ErrandStage → Bool
  | underway _ => true
  | finished => true
  | _ => false

/-- A client that went live has still to be announced. -/
def AttemptStage.greets (z : Scope) (k : InstanceKey) : AttemptStage → Nat
  | announcing client => z.weight k client
  | _ => 0

def ClientCall.isShutdown : ClientCall → Bool
  | shutdown => true
  | _ => false

def Errand.held (z : Scope) (p : ErrandStage → Bool) (e : Errand) : Nat :=
  if e.call.isShutdown && p e.stage then z.weight e.key e.client else 0

/-- The errands that a call has started or will start at once. -/
def Call.duties (c : Call) : List Errand :=
  match c.stage with
  | .announcing _ _ removed => State.shutdownErrands removed
  | .joining _ => c.errands
  | _ => []

/-- The clients of the errands at some stages. -/
def Call.held (z : Scope) (p : ErrandStage → Bool) (c : Call) : Nat :=
  (c.duties.map (·.held z p)).sum

def ClientRecord.reported (z : Scope) (id : ClientId) (c : ClientRecord) : Nat :=
  if c.pump.isBusy then z.weight c.key id else 0

namespace State

def greeting (s : State) (z : Scope) : Nat := s.attempts.total fun _ a => a.stage.greets z a.key

def live (s : State) (z : Scope) : Nat := s.roster.live.total z.weight

def held (s : State) (z : Scope) (p : ErrandStage → Bool) : Nat :=
  s.calls.total fun _ c => c.held z p

def reported (s : State) (z : Scope) : Nat := s.clients.total fun id c => c.reported z id

section Insert

variable {s : State} {z : Scope} {p : ErrandStage → Bool}

lemma greeting_insert {id : AttemptId} {a : Attempt} (hf : s.attempts.find? id = some a)
    (a' : Attempt) : (s.attempts.insert id a').total (fun _ a => a.stage.greets z a.key) +
      a.stage.greets z a.key = s.greeting z + a'.stage.greets z a'.key :=
  Table.total_insert_old (fun _ _ => rfl) hf a'

/-- An attempt that begins has nothing to announce. -/
lemma greeting_insert_new (hc : s.Coherent) {a : Attempt} (h : a.stage.greets z a.key = 0) :
    (s.attempts.insert s.attempts.size a).total (fun _ a => a.stage.greets z a.key) =
      s.greeting z := by
  rw [Table.total_insert_new (fun _ _ => rfl) hc.attempts.find?_size, h]
  exact Nat.add_zero _

lemma held_insert {id : CallId} {c : Call} (hf : s.calls.find? id = some c) (c' : Call) :
    (s.calls.insert id c').total (fun _ c => c.held z p) + c.held z p =
      s.held z p + c'.held z p :=
  Table.total_insert_old (fun _ _ => rfl) hf c'

lemma held_insert_new (hc : s.Coherent) (c' : Call) :
    (s.calls.insert s.calls.size c').total (fun _ c => c.held z p) = s.held z p + c'.held z p :=
  Table.total_insert_new (fun _ _ => rfl) hc.calls.find?_size c'

lemma reported_congr {id id' : ClientId} (c : ClientRecord) (h : (id == id') = true) :
    c.reported z id = c.reported z id' := by
  rw [eq_of_beq h]

lemma reported_insert {id : ClientId} {c : ClientRecord} (hf : s.clients.find? id = some c)
    (c' : ClientRecord) : (s.clients.insert id c').total (fun id c => c.reported z id) +
      c.reported z id = s.reported z + c'.reported z id :=
  Table.total_insert_old reported_congr hf c'

lemma reported_insert_new (hc : s.Coherent) (c' : ClientRecord) :
    (s.clients.insert s.clients.size c').total (fun id c => c.reported z id) =
      s.reported z + c'.reported z s.clients.size :=
  Table.total_insert_new reported_congr hc.clients.find?_size c'

end Insert

/-- The clients that are lost with a call that is given up. -/
def lost (s : State) (z : Scope) (p : ErrandStage → Bool) : Label → Nat
  | .cancel id => (s.calls.find? id).elim 0 (·.held z p)
  | _ => 0

end State

end Accounts

/-- Errands are kept by calls that wait for them. -/
def Call.Tidy (c : Call) : Prop := c.errands = [] ∨ ∃ answer, c.stage = .joining answer

section Parts

variable {z : Scope} {p : ErrandStage → Bool} {l : Label} {effects : List Effect}

lemma countP_isStart (k : InstanceKey) (client : ClientId) :
    [Effect.announced (.serverStarted k.serverId k.root) (some client)].countP z.isStart =
      z.weight k client := by
  cases h : z.has k (some client) <;> simp [Scope.isStart, Scope.weight, h]

lemma countP_isEnd (k : InstanceKey) (client : ClientId) :
    [Effect.announced (.serverClosed k.serverId k.root) (some client)].countP z.isEnd =
      z.weight k client := by
  cases h : z.has k (some client) <;> simp [Scope.isEnd, Scope.weight, h]

lemma Attempt.Goes.greets {id : AttemptId} {a : Attempt} {stage : AttemptStage}
    (h : a.Goes id l stage effects) :
    effects.countP z.isStart + stage.greets z a.key = a.stage.greets z a.key ∧
      effects.countP z.isEnd = 0 := by
  cases h with
  | announce hst =>
    rw [hst, countP_isStart]
    exact ⟨rfl, rfl⟩
  | _ hst => rw [hst]; exact ⟨rfl, rfl⟩

lemma Roster.Settles.live {r r' : Roster} {now epoch : Nat} {k : InstanceKey} {o : Outcome}
    {x : Settlement} (h : r.Settles now k epoch o r' x)
    (hk : r.epoch = epoch → r.live.find? k = none) :
    r'.live.total z.weight = r.live.total z.weight + x.stage.greets z k := by
  cases h with
  | @stale o => cases o <;> rfl
  | started he => exact Table.total_insert_new z.weight_congr (hk he) _
  | _ => rfl

/-- A client that has to be announced is live. -/
theorem Roster.Settles.isLive {r r' : Roster} {now epoch : Nat} {k : InstanceKey} {o : Outcome}
    {x : Settlement} (h : r.Settles now k epoch o r' x) :
    x.stage.greets z k = 0 ∨ ∃ client, r'.live.find? k = some client ∧
      x.stage.greets z k = z.weight k client := by
  cases h with
  | @stale o => cases o <;> exact .inl rfl
  | started => exact .inr ⟨_, by simp, rfl⟩
  | _ => exact .inl rfl

lemma Settlement.countP_effects (x : Settlement) (id : AttemptId) (k : InstanceKey) :
    (x.effects id k).countP z.isStart = 0 ∧ (x.effects id k).countP z.isEnd = 0 := by
  unfold Settlement.effects
  rw [List.countP_append, List.countP_append]
  constructor
  · cases x.retrying <;> cases x.stage <;> rfl
  · cases x.retrying <;> cases x.stage <;> rfl

/-- An errand that has ended is held until notice is taken of it, which announces its end. -/
theorem Errand.held_finished (hp : p .finished = true) {e : Errand} (h : e.stage = .finished) :
    e.farewell.countP z.isEnd = e.held z p := by
  unfold Errand.farewell Errand.held
  rw [h, hp]
  cases e.call with
  | shutdown => exact countP_isEnd _ _
  | _ => rfl

lemma sum_collect (hp : p .finished = true) (hc : p .collected = false)
    {errands rest : List Errand} {e : Errand} (h : Errand.collect errands = some (e, rest)) :
    (rest.map (·.held z p)).sum + e.farewell.countP z.isEnd = (errands.map (·.held z p)).sum := by
  obtain ⟨place, hplace, hst, rfl⟩ := collect_eq_some h
  have hnone : ({ e with stage := .collected } : Errand).held z p = 0 := by
    simp [Errand.held, hc]
  rw [Errand.held_finished hp hst, sum_modify hplace, hnone, Nat.add_zero]

lemma Call.held_of_duties_eq_nil {c : Call} (h : c.duties = []) : c.held z p = 0 := by
  rw [Call.held, h]
  rfl

/-- Clients that wait for diagnostics are not shut down. -/
theorem held_awaitErrands (s : State) (file : Path) (clients : List ClientId) :
    ((s.awaitErrands file clients).map (·.held z p)).sum = 0 := by
  refine List.sum_eq_zero_iff_forall_eq_nat.2 fun n hn => ?_
  obtain ⟨e, he, rfl⟩ := List.mem_map.1 hn
  obtain ⟨client, -, rfl⟩ := List.mem_map.1 he
  rfl

lemma State.CallGoes.held {s : State} {id : CallId} {c c' : Call}
    (hp : p .finished = true) (hcol : p .collected = false) (h : s.CallGoes id c l c' effects) :
    c'.held z p + effects.countP z.isEnd = c.held z p ∧ effects.countP z.isStart = 0 := by
  cases h with
  | answer h =>
    have hd : c.duties = [] := by
      obtain ⟨h, -⟩ | ⟨_, h⟩ | ⟨_, h⟩ := h <;> simp [Call.duties, h]
    rw [Call.held_of_duties_eq_nil hd]
    exact ⟨rfl, rfl⟩
  | await h =>
    have hd : c.duties = [] := by simp [Call.duties, h]
    rw [Call.held_of_duties_eq_nil hd]
    exact ⟨held_awaitErrands _ _ _, rfl⟩
  | announce h => exact ⟨by simp [Call.held, Call.duties, Call.await, h, Scope.isEnd], rfl⟩
  | collect h he =>
    have hsum := sum_collect hp hcol he (z := z)
    refine ⟨by simpa [Call.held, Call.duties, h] using hsum, ?_⟩
    unfold Errand.farewell
    split <;> rfl
  | finish h hall =>
    refine ⟨Eq.symm ?_, rfl⟩
    refine List.sum_eq_zero_iff_forall_eq_nat.2 fun n hn => ?_
    obtain ⟨e, he, rfl⟩ := List.mem_map.1 hn
    simp only [Call.duties, h] at he
    simp [Errand.held, hall e he, hcol]
  | _ h => exact ⟨by simp [Call.held, Call.duties, h, Scope.isEnd], rfl⟩

lemma ClientRecord.Goes.reported {id : ClientId} {c c' : ClientRecord}
    (h : c.Goes id l c' effects) :
    c'.reported z id + effects.countP z.isEnd = c.reported z id ∧
      effects.countP z.isStart = 0 := by
  cases h with
  | announce h =>
    rw [countP_isEnd]
    exact ⟨by simp [ClientRecord.reported, h, PumpStage.isBusy], rfl⟩
  | failed h => exact ⟨by simp [ClientRecord.reported, h, PumpStage.isBusy], rfl⟩
  | _ => exact ⟨rfl, rfl⟩

lemma Errand.Goes.owed {call : CallId} {place : Nat} {e : Errand} {stage : ErrandStage}
    (h : e.Goes call place l stage effects) :
    ({ e with stage } : Errand).held z ErrandStage.isOwed = e.held z ErrandStage.isOwed := by
  cases h with
  | _ h => simp [Errand.held, h, ErrandStage.isOwed]

lemma Errand.Goes.countP {call : CallId} {place : Nat} {e : Errand} {stage : ErrandStage}
    (h : e.Goes call place l stage effects) :
    effects.countP z.isStart = 0 ∧ effects.countP z.isEnd = 0 := by
  cases h <;> exact ⟨rfl, rfl⟩

/-- A step of an errand changes what its call holds by what it changes of the errand. -/
theorem held_modify {c : Call} {place : Nat} {e : Errand} (hc : c.Tidy)
    (he : c.errands[place]? = some e) (stage : ErrandStage) :
    ({ c with errands := c.errands.modify place fun e => { e with stage } } : Call).held z p +
      e.held z p = c.held z p + ({ e with stage } : Errand).held z p := by
  obtain hn | ⟨answer, hst⟩ := hc
  · rw [hn] at he
    cases he
  · have hsum := sum_modify (f := (·.held z p)) he stage
    unfold Call.held Call.duties
    simp only [hst]
    exact hsum

end Parts

section Labels

variable {l : Label} {effects : List Effect}

lemma Attempt.Goes.isCancel {id : AttemptId} {a : Attempt} {stage : AttemptStage}
    (h : a.Goes id l stage effects) : l.isCancel = false := by
  cases h <;> rfl

lemma Errand.Goes.isCancel {call : CallId} {place : Nat} {e : Errand} {stage : ErrandStage}
    (h : e.Goes call place l stage effects) : l.isCancel = false := by
  cases h <;> rfl

lemma ClientRecord.Goes.isCancel {id : ClientId} {c c' : ClientRecord}
    (h : c.Goes id l c' effects) : l.isCancel = false := by
  cases h <;> rfl

lemma State.CallGoes.isCancel {s : State} {id : CallId} {c c' : Call}
    (h : s.CallGoes id c l c' effects) : l.isCancel = false := by
  cases h <;> rfl

lemma State.lost_eq_zero (s : State) (z : Scope) (p : ErrandStage → Bool)
    (h : l.isCancel = false) : s.lost z p l = 0 := by
  cases l <;> first | rfl | cases h

end Labels

namespace State

variable {s s' : State} {l : Label} {effects : List Effect}

def Tidy (s : State) : Prop := ∀ id c, s.calls.find? id = some c → c.Tidy

lemma CallGoes.tidy {id : CallId} {c c' : Call} (h : s.CallGoes id c l c' effects)
    (hc : c.Tidy) : c'.Tidy := by
  cases h with
  | answer | finish => exact .inl rfl
  | await | announce => exact .inr ⟨_, rfl⟩
  | collect h => exact .inr ⟨_, h⟩
  | _ h => exact .inl (hc.resolve_right (by simp [h]))

lemma tidy_dismiss {c : Call} (hc : c.errands = []) (server : String) (enabled changed : Bool)
    (removed : List (InstanceKey × ClientId)) :
    (c.dismiss server enabled changed removed).Tidy := by
  cases changed with
  | true => exact .inl hc
  | false => exact .inr ⟨_, rfl⟩

lemma Tidy.move (h : s.Tidy) (hm : s.Move l s' effects) : s'.Tidy := by
  have changed {id : CallId} {c : Call} (hc : c.Tidy) :
      ∀ id' c', (s.calls.insert id c).find? id' = some c' → c'.Tidy := by
    intro id' c' hf
    obtain ⟨-, rfl⟩ | ⟨-, hf⟩ := Table.find?_insert_cases hf
    · exact hc
    · exact h id' c' hf
  -- a call that is not waiting for errands has none
  have none {id : CallId} {c : Call} (hc : s.calls.find? id = some c)
      (hst : ∀ answer, c.stage ≠ .joining answer) : c.errands = [] :=
    (h _ _ hc).resolve_right fun ⟨answer, hj⟩ => hst answer hj
  cases hm with
  | start | cancel | forgetRetries => exact changed (.inl rfl)
  | shutDown => exact changed (.inr ⟨_, rfl⟩)
  | call hc hg => exact changed (hg.tidy (h _ _ hc))
  | @errand _ _ c _ _ _ _ hc _ he =>
    have htidy := h _ _ hc
    refine changed (c := { c with errands := _ }) (.inr (htidy.resolve_left fun hn => ?_))
    rw [hn] at he
    cases he
  | reserve hc hst | forgetBroken hc hst =>
    have hnone := none hc (by simp [hst])
    exact changed (.inl hnone)
  | enable hc hst | disable hc hst => exact changed (tidy_dismiss (none hc (by simp [hst])) _ _ _ _)
  | _ => exact h

/-- What a step enters in the books: some clients go live and some leave the roster. -/
structure Entry (z : Scope) (s : State) (l : Label) (s' : State) (effects : List Effect)
    (gained left : Nat) : Prop where
  starts : effects.countP z.isStart + s'.greeting z = s.greeting z + gained
  live : s'.live z + left = s.live z + gained
  ends : s'.held z ErrandStage.isOwed + s'.reported z + effects.countP z.isEnd +
    s.lost z ErrandStage.isOwed l = s.held z ErrandStage.isOwed + s.reported z + left
  isLive : gained = 0 ∨ ∃ k client, s'.roster.live.find? k = some client ∧
    gained = z.weight k client

section Dismissal

variable {z : Scope}

lemma held_await (c : Call) (removed : List (InstanceKey × ClientId)) (answer : Answer) :
    (c.await (shutdownErrands removed) answer).held z ErrandStage.isOwed =
      (removed.map fun e => z.weight e.1 e.2).sum := by
  unfold Call.held Call.duties Call.await shutdownErrands
  simp only [List.map_map]
  rfl

lemma held_dismiss (c : Call) (server : String) (enabled changed : Bool)
    (removed : List (InstanceKey × ClientId)) :
    (c.dismiss server enabled changed removed).held z ErrandStage.isOwed =
      (removed.map fun e => z.weight e.1 e.2).sum := by
  cases changed <;> exact held_await c removed (.flag true)

end Dismissal

section Entry

variable {z : Scope}

/-- A step that leaves the live clients as they are. -/
theorem Entry.of_eq (hs : effects.countP z.isStart + s'.greeting z = s.greeting z)
    (hl : s'.roster.live = s.roster.live)
    (he : s'.held z ErrandStage.isOwed + s'.reported z + effects.countP z.isEnd +
      s.lost z ErrandStage.isOwed l = s.held z ErrandStage.isOwed + s.reported z) :
    Entry z s l s' effects 0 0 where
  starts := hs
  live := by unfold State.live; rw [hl]
  ends := he
  isLive := .inl rfl

/-- A step of an attempt that leaves the live clients as they are. -/
theorem Entry.of_attempt {id : AttemptId} {a a' : Attempt} (hf : s.attempts.find? id = some a)
    (h : effects.countP z.isStart + a'.stage.greets z a'.key = a.stage.greets z a.key)
    (he : effects.countP z.isEnd = 0) (hl : s.lost z ErrandStage.isOwed l = 0) :
    Entry z s l { s with attempts := s.attempts.insert id a' } effects 0 0 := by
  have hattempts := greeting_insert (z := z) hf a'
  refine .of_eq ?_ rfl ?_
  · simp only [greeting] at *
    omega
  · rw [he, hl]
    rfl

/-- A step of a call that leaves the live clients as they are. -/
theorem Entry.of_call {id : CallId} {c c' : Call} {roster : Roster}
    (hf : s.calls.find? id = some c) (hr : roster.live = s.roster.live)
    (hs : effects.countP z.isStart = 0)
    (h : c'.held z ErrandStage.isOwed + effects.countP z.isEnd +
      s.lost z ErrandStage.isOwed l = c.held z ErrandStage.isOwed) :
    Entry z s l { s with roster, calls := s.calls.insert id c' } effects 0 0 := by
  have hcalls := held_insert (z := z) (p := ErrandStage.isOwed) hf c'
  refine .of_eq ?_ hr ?_
  · rw [hs]
    exact Nat.zero_add _
  · simp only [held, reported] at *
    omega

lemma Entry.of_callGoes {id : CallId} {c c' : Call} (hf : s.calls.find? id = some c)
    (hg : s.CallGoes id c l c' effects) :
    Entry z s l { s with calls := s.calls.insert id c' } effects 0 0 := by
  obtain ⟨hends, hstarts⟩ := hg.held (z := z) (p := ErrandStage.isOwed) rfl rfl
  have hlost := s.lost_eq_zero z ErrandStage.isOwed hg.isCancel
  exact .of_call hf rfl hstarts (by rw [hlost]; exact hends)

/-- A step of a client that leaves the live clients as they are. -/
theorem Entry.of_client {id : ClientId} {c c' : ClientRecord} (hf : s.clients.find? id = some c)
    (hs : effects.countP z.isStart = 0) (hl : s.lost z ErrandStage.isOwed l = 0)
    (h : c'.reported z id + effects.countP z.isEnd = c.reported z id) :
    Entry z s l { s with clients := s.clients.insert id c' } effects 0 0 := by
  have hclients := reported_insert (z := z) hf c'
  refine .of_eq ?_ rfl ?_
  · rw [hs]
    exact Nat.zero_add _
  · rw [hl]
    simp only [held, reported] at *
    omega

/-- A client leaves the roster and its end is going to be reported. -/
theorem Entry.of_removal {id : ClientId} {c c' : ClientRecord} {roster : Roster}
    (hf : s.clients.find? id = some c) (hk : c'.key = c.key) (hp : c.pump = .idle)
    (hp' : c'.pump.isBusy = true) (hreg : s.roster.isRegistered c.key id = true)
    (hr : roster.live = s.roster.live.erase c.key) (hs : effects.countP z.isStart = 0)
    (he : effects.countP z.isEnd = 0) (hl : s.lost z ErrandStage.isOwed l = 0) :
    Entry z s l { s with roster, clients := s.clients.insert id c' } effects 0
      (z.weight c.key id) where
  starts := by
    rw [hs]
    exact Nat.zero_add _
  live := by
    have herase := Table.total_erase z.weight_congr s.roster.live c.key
    have hfound : s.roster.live.find? c.key = some id := by simpa [Roster.isRegistered] using hreg
    rw [hfound] at herase
    unfold State.live
    rw [hr]
    exact herase
  ends := by
    have hclients := reported_insert (z := z) hf c'
    have hnone : c.reported z id = 0 := by
      rw [ClientRecord.reported, hp]
      rfl
    have hone : c'.reported z id = z.weight c.key id := by
      rw [ClientRecord.reported, hp', hk]
      rfl
    rw [he, hl]
    simp only [held, reported] at *
    omega
  isLive := .inl rfl

/-- Clients leave the roster and a call is going to shut them down. -/
theorem Entry.of_dismissal {id : CallId} {c c' : Call} {roster : Roster}
    {removed : List (InstanceKey × ClientId)} (hf : s.calls.find? id = some c)
    (hd : c.duties = [])
    (hc : c'.held z ErrandStage.isOwed = (removed.map fun e => z.weight e.1 e.2).sum)
    (hl : roster.live.total z.weight + (removed.map fun e => z.weight e.1 e.2).sum =
      s.roster.live.total z.weight) :
    Entry z s (.run (.call id)) { s with roster, calls := s.calls.insert id c' } [] 0
      (removed.map fun e => z.weight e.1 e.2).sum where
  starts := Nat.zero_add _
  live := hl
  ends := by
    have hcalls := held_insert (z := z) (p := ErrandStage.isOwed) hf c'
    rw [Call.held_of_duties_eq_nil hd, hc] at hcalls
    have hlost : s.lost z ErrandStage.isOwed (.run (.call id)) = 0 := rfl
    simp only [held, reported, hlost, List.countP_nil] at *
    omega
  isLive := .inl rfl

end Entry

/-- The instance of an attempt that counts is not live yet. -/
theorem Coherent.not_live (hc : s.Coherent) (he : s.roster.Exclusive) {id : AttemptId}
    {a : Attempt} (ha : s.attempts.find? id = some a) (hst : a.stage.isSettled = false)
    (hep : s.roster.epoch = a.epoch) : s.roster.live.find? a.key = none := by
  have hin := hc.starting_of_attempt ha hst hep.symm
  rw [← Table.contains_eq_false, Bool.eq_false_iff]
  intro hlive
  have hne := (he _ hlive).not_starting
  rw [Table.contains_eq_false, hin] at hne
  cases hne

/-- Entering an outcome makes a client live or leaves the live clients as they are; one that goes
live is yet to be announced. -/
lemma Entry.of_settle (hc : s.Coherent) (he : s.roster.Exclusive) {id : AttemptId} {a : Attempt}
    {o : Outcome} {roster : Roster} {x : Settlement} (hf : s.attempts.find? id = some a)
    (hst : a.stage = .concluded o) (hr : s.roster.Settles s.now a.key a.epoch o roster x) :
    Entry z s (.run (.attempt id))
      { s with
        roster
        attempts := s.attempts.insert id
          { a with stage := x.stage, published := some x.published } }
      (x.effects id a.key) (x.stage.greets z a.key) 0 := by
  have hattempts := greeting_insert (z := z) hf
    { a with stage := x.stage, published := some x.published }
  rw [hst] at hattempts
  obtain ⟨hstarts, hends⟩ := x.countP_effects (z := z) id a.key
  -- a client that goes live is entered twice: it is live, and it has to be announced
  have hlive := hr.live (z := z) (hc.not_live he hf (by rw [hst]; rfl))
  refine ⟨?_, hlive, ?_, ?_⟩
  · rw [hstarts, Nat.zero_add]
    exact hattempts
  · rw [hends]
    rfl
  · obtain hz | ⟨client, hk, hg⟩ := hr.isLive (z := z)
    · exact .inl hz
    · exact .inr ⟨a.key, client, hk, hg⟩

/-- The steps of calls take clients out of the roster only to shut them down. -/
lemma Move.entry_call {id : CallId} (hm : s.Move (.run (.call id)) s' effects) (hc : s.Coherent)
    (z : Scope) : ∃ gained left, Entry z s (.run (.call id)) s' effects gained left := by
  have none {c : Call} (hd : c.duties = []) : c.held z ErrandStage.isOwed = 0 :=
    Call.held_of_duties_eq_nil hd
  cases hm with
  | call hf hg => exact ⟨0, 0, .of_callGoes hf hg⟩
  | @reserve _ c k left found hf hst =>
    refine ⟨0, 0, .of_eq ((Nat.zero_add _).trans (greeting_insert_new hc rfl)) rfl ?_⟩
    have hcalls := held_insert (z := z) (p := ErrandStage.isOwed) hf
      { c with stage := .joined s.attempts.size left found }
    rw [none (by simp [Call.duties, hst])] at hcalls
    exact congrArg (· + s.reported z) hcalls
  | enable hf hst =>
    refine ⟨0, 0, .of_call hf rfl rfl ?_⟩
    rw [held_dismiss, none (by simp [Call.duties, hst])]
    rfl
  | @disable _ c server hf hst =>
    refine ⟨0, _, .of_dismissal hf (by simp [Call.duties, hst]) (held_dismiss _ _ _ _ _) ?_⟩
    exact Table.total_filter (fun k _ => k.serverId == server) s.roster.live
  | @forgetBroken _ c _ hf hst | @forgetRetries _ c _ _ hf hst =>
    have hidle : c.held z ErrandStage.isOwed = 0 := none (by simp [Call.duties, hst])
    exact ⟨0, 0, .of_call hf rfl rfl hidle.symm⟩
  | shutDown hf hst =>
    exact ⟨0, _, .of_dismissal hf (by simp [Call.duties, hst]) (held_await _ _ _) (Nat.zero_add _)⟩
  | attempt _ hg => cases hg
  | errand _ _ _ hg => cases hg
  | client _ hg => cases hg

lemma Move.entry (hm : s.Move l s' effects) (hc : s.Coherent) (he : s.roster.Exclusive)
    (ht : s.Tidy) (z : Scope) : ∃ gained left, Entry z s l s' effects gained left := by
  cases hm with
  | start =>
    refine ⟨0, 0, .of_eq (Nat.zero_add _) rfl ?_⟩
    exact congrArg (· + s.reported z) (held_insert_new hc _)
  | @cancel id c hf =>
    have hlost : s.lost z ErrandStage.isOwed (.cancel id) = c.held z ErrandStage.isOwed := by
      simp [lost, hf]
    exact ⟨0, 0, .of_call hf rfl rfl (by rw [hlost]; exact Nat.zero_add _)⟩
  | attempt hf hg =>
    obtain ⟨hstarts, hends⟩ := hg.greets (z := z)
    exact ⟨0, 0, .of_attempt hf hstarts hends (s.lost_eq_zero z _ hg.isCancel)⟩
  | @connected id a number limit hf hst =>
    have hattempts := greeting_insert (z := z) hf
      { a with stage := .handshaking s.clients.size limit }
    refine ⟨0, 0, .of_eq ?_ rfl ?_⟩
    · rw [hst] at hattempts
      exact (Nat.zero_add _).trans hattempts
    · exact congrArg (s.held z ErrandStage.isOwed + ·) (reported_insert_new hc _)
  | settle hf hst hr => exact ⟨_, _, .of_settle hc he hf hst hr⟩
  | call hf hg => exact ⟨0, 0, .of_callGoes hf hg⟩
  | @errand id place c e _ stage _ hf _ hp hg =>
    have hheld := held_modify (z := z) (p := ErrandStage.isOwed) (ht _ _ hf) hp stage
    have howed := hg.owed (z := z)
    obtain ⟨hstarts, hends⟩ := hg.countP (z := z)
    have hlost := s.lost_eq_zero z ErrandStage.isOwed hg.isCancel
    exact ⟨0, 0, .of_call hf rfl hstarts (by omega)⟩
  | reserve hf hst hfree hl hs => exact Move.entry_call (.reserve hf hst hfree hl hs) hc z
  | enable hf hst hr => exact Move.entry_call (.enable hf hst hr) hc z
  | disable hf hst hr => exact Move.entry_call (.disable hf hst hr) hc z
  | forgetBroken hf hst hr => exact Move.entry_call (.forgetBroken hf hst hr) hc z
  | forgetRetries hf hst => exact Move.entry_call (.forgetRetries hf hst) hc z
  | shutDown hf hst hr => exact Move.entry_call (.shutDown hf hst hr) hc z
  | client hf hg =>
    obtain ⟨hends, hstarts⟩ := hg.reported (z := z)
    exact ⟨0, 0, .of_client hf hstarts (s.lost_eq_zero z _ hg.isCancel) hends⟩
  | deafen hf hp | ignore hf hp =>
    exact ⟨0, 0, .of_client hf rfl rfl (by simp [ClientRecord.reported, hp, PumpStage.isBusy])⟩
  | close hf hp _ hreg | fault hf hp _ hreg =>
    exact ⟨0, _, .of_removal hf rfl hp rfl hreg rfl rfl rfl rfl⟩
  | retry => exact ⟨0, 0, .of_eq ((Nat.zero_add _).trans (greeting_insert_new hc rfl)) rfl rfl⟩
  | _ => exact ⟨0, 0, .of_eq (Nat.zero_add _) rfl rfl⟩

end State

def seen (run : List Happening) : List Effect := run.flatMap (·.effects)

@[simp] lemma seen_nil : seen [] = [] := rfl

@[simp] lemma seen_append (run later : List Happening) :
    seen (run ++ later) = seen run ++ seen later :=
  List.flatMap_append

@[simp] lemma seen_singleton (x : Happening) : seen [x] = x.effects := by
  simp [seen]

def Scope.starts (z : Scope) (run : List Happening) : Nat := (seen run).countP z.isStart

def Scope.ends (z : Scope) (run : List Happening) : Nat := (seen run).countP z.isEnd

lemma starts_concat (z : Scope) (run : List Happening) (x : Happening) :
    z.starts (run ++ [x]) = z.starts run + x.effects.countP z.isStart := by
  simp [Scope.starts]

lemma ends_concat (z : Scope) (run : List Happening) (x : Happening) :
    z.ends (run ++ [x]) = z.ends run + x.effects.countP z.isEnd := by
  simp [Scope.ends]

/-- The clients that were lost with the calls that were given up. -/
def lost (z : Scope) (p : ErrandStage → Bool) (run : List Happening) : Nat :=
  (run.map fun x => x.before.lost z p x.label).sum

lemma lost_concat (z : Scope) (p : ErrandStage → Bool) (run : List Happening) (x : Happening) :
    lost z p (run ++ [x]) = lost z p run + x.before.lost z p x.label := by
  simp [lost]

section Asked

/-! Clients that are being shut down are going to be announced. -/

variable (z : Scope)

lemma Errand.asked_le_owed (e : Errand) :
    e.held z ErrandStage.isAsked ≤ e.held z ErrandStage.isOwed := by
  unfold Errand.held
  cases e.call.isShutdown <;> cases e.stage <;> simp [ErrandStage.isAsked, ErrandStage.isOwed]

lemma Call.asked_le_owed (c : Call) :
    c.held z ErrandStage.isAsked ≤ c.held z ErrandStage.isOwed :=
  List.sum_le_sum fun e _ => e.asked_le_owed z

lemma State.asked_le_owed (s : State) :
    s.held z ErrandStage.isAsked ≤ s.held z ErrandStage.isOwed :=
  List.sum_le_sum fun e _ => e.2.asked_le_owed z

lemma lost_asked_le_owed (run : List Happening) :
    lost z ErrandStage.isAsked run ≤ lost z ErrandStage.isOwed run := by
  refine List.sum_le_sum fun x _ => ?_
  unfold State.lost
  split
  · cases x.before.calls.find? _ with
    | none => exact Nat.le_refl _
    | some c => exact c.asked_le_owed z
  · exact Nat.le_refl _

end Asked

section Runs

variable {settings : Settings} {surroundings : Surroundings} {delays : List Nat}
  {disabled : List String} {run : List Happening} {s : State}

lemma Run.tidy (h : Run (.create settings surroundings delays disabled) run s) : s.Tidy :=
  h.invariant (fun _ _ hf => nomatch hf) State.Tidy.move

/-- The books add up: every client that went live has been announced or is going to be, and is
live, or going to be shut down, or has ended, or was lost. -/
theorem Run.balance (h : Run (.create settings surroundings delays disabled) run s) (z : Scope) :
    z.starts run + s.greeting z = s.live z + s.held z ErrandStage.isOwed + s.reported z +
      z.ends run + lost z ErrandStage.isOwed run := by
  have hcreate := State.coherent_create settings surroundings delays disabled
  induction h with
  | start => rfl
  | next h hn ih =>
    have hex := h.exclusive hcreate (State.exclusive_create _ _ _ _)
    -- whatever a step enters on one side it enters on the other
    obtain ⟨gained, left, he⟩ := hn.move.entry (h.coherent hcreate) hex h.tidy z
    have hstarts := he.starts
    have hlive := he.live
    have hends := he.ends
    rw [lost_concat, starts_concat, ends_concat]
    dsimp only
    omega

end Runs

end ServerFleet.Manager
