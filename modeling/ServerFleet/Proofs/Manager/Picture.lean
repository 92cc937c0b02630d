import ServerFleet.Proofs.Manager.Lifecycle
import ServerFleet.Proofs.Manager.Status

/-!
What a subscriber makes of the announcements. Whoever misses none of them and takes each at its
word knows, when all work has settled, which instances are live and which servers are enabled,
unless the last word on one of them is out of date. This can happen because a change and its
announcement are two steps, between which the next change can be made and announced.
-/

namespace ServerFleet.Manager

/-- What subscribers hear of an effect. -/
def Effect.event? : Effect → Option Event
  | announced event _ => some event
  | _ => none

def Effect.client? : Effect → Option ClientId
  | announced _ client => client
  | _ => none

/-- What a subscriber knows: the instances that are live, and the servers whose status it has heard
of. -/
structure Picture where
  live : Table InstanceKey Unit
  enabled : Table String Bool

namespace Picture

def blank : Picture := ⟨.empty, .empty⟩

/-- A subscriber takes an announcement at its word. -/
def see (p : Picture) : Event → Picture
  | .serverStarted server root => { p with live := p.live.insert ⟨server, root⟩ () }
  | .serverClosed server root => { p with live := p.live.erase ⟨server, root⟩ }
  | .serverStatusChanged server enabled => { p with enabled := p.enabled.insert server enabled }
  | _ => p

/-- The picture of a subscriber that has missed nothing. -/
def of (effects : List Effect) : Picture := (effects.filterMap Effect.event?).foldl see blank

lemma of_concat (effects : List Effect) (e : Effect) :
    of (effects ++ [e]) = e.event?.elim (of effects) (of effects).see := by
  unfold of
  rw [List.filterMap_append, List.foldl_append]
  cases e <;> rfl

end Picture

section Words

def Effect.tellsLive (k : InstanceKey) : Effect → Option Bool
  | announced (.serverStarted server root) _ =>
    if (⟨server, root⟩ : InstanceKey) == k then some true else none
  | announced (.serverClosed server root) _ =>
    if (⟨server, root⟩ : InstanceKey) == k then some false else none
  | _ => none

def Effect.tellsEnabled (server : String) : Effect → Option Bool
  | announced (.serverStatusChanged server' enabled) _ =>
    if server' == server then some enabled else none
  | _ => none

def lastTold (tells : Effect → Option Bool) (effects : List Effect) : Option Bool :=
  (effects.filterMap tells).getLast?

/-- Something is told, and nothing after that. -/
def LastWord (tells : Effect → Option Bool) (effects before : List Effect) (e : Effect)
    (b : Bool) : Prop :=
  ∃ after, effects = before ++ e :: after ∧ tells e = some b ∧ ∀ e' ∈ after, tells e' = none

variable {tells : Effect → Option Bool} {effects before : List Effect} {e : Effect} {b : Bool}

lemma lastTold_concat (tells : Effect → Option Bool) (effects : List Effect) (e : Effect) :
    lastTold tells (effects ++ [e]) = (tells e).or (lastTold tells effects) := by
  unfold lastTold
  rw [List.filterMap_append, List.getLast?_append]
  cases h : tells e <;> simp [h]

lemma lastTold_eq_some_iff :
    lastTold tells effects = some b ↔ ∃ before e, LastWord tells effects before e b := by
  unfold lastTold
  rw [List.getLast?_eq_some_iff]
  constructor
  · rintro ⟨words, hw⟩
    obtain ⟨front, back, rfl, -, hback⟩ := List.filterMap_eq_append_iff.1 hw
    obtain ⟨silent, e, after, rfl, hsilent, he, hafter⟩ := List.filterMap_eq_cons_iff.1 hback
    refine ⟨front ++ silent, e, after, by simp, he, fun e' he' => ?_⟩
    exact List.filterMap_eq_nil_iff.1 hafter e' he'
  · rintro ⟨before, e, after, rfl, he, hafter⟩
    refine ⟨before.filterMap tells, ?_⟩
    rw [List.filterMap_append, List.filterMap_cons_some he, List.filterMap_eq_nil_iff.2 hafter]

lemma lastTold_ne_none (he : e ∈ effects) (ht : tells e = some b) :
    lastTold tells effects ≠ none := by
  unfold lastTold
  rw [ne_eq, List.getLast?_eq_none_iff, List.filterMap_eq_nil_iff]
  intro hnone
  cases ht.symm.trans (hnone e he)

/-- Whatever else was told was told before the last word. -/
theorem LastWord.mem_before (h : LastWord tells effects before e b) {e' : Effect} {b' : Bool}
    (he : e' ∈ effects) (ht : tells e' = some b') (hne : b' ≠ b) : e' ∈ before := by
  obtain ⟨after, rfl, hb, hafter⟩ := h
  obtain he | he := List.mem_append.1 he
  · exact he
  · obtain rfl | he := List.mem_cons.1 he
    · exact absurd (Option.some.inj (ht.symm.trans hb)) hne
    · cases ht.symm.trans (hafter e' he)

lemma LastWord.told (h : LastWord tells effects before e b) : tells e = some b := by
  obtain ⟨after, -, hb, -⟩ := h
  exact hb

lemma LastWord.mem (h : LastWord tells effects before e b) : e ∈ effects := by
  obtain ⟨after, rfl, -⟩ := h
  simp

lemma Picture.contains_live (effects : List Effect) (k : InstanceKey) :
    (of effects).live.contains k = (lastTold (Effect.tellsLive k) effects == some true) := by
  induction effects using List.reverseRecOn with
  | nil => rfl
  | append_singleton effects e ih =>
    rw [of_concat, lastTold_concat]
    cases e with
    | announced event client =>
      cases event with
      | serverStarted server root =>
        cases hk : (⟨server, root⟩ : InstanceKey) == k <;>
          simp [Effect.event?, see, Effect.tellsLive, hk, ih]
      | serverClosed server root =>
        cases hk : (⟨server, root⟩ : InstanceKey) == k <;>
          simp [Effect.event?, see, Effect.tellsLive, hk, ih]
      | _ => exact ih
    | _ => exact ih

lemma Picture.find?_enabled (effects : List Effect) (server : String) :
    (of effects).enabled.find? server = lastTold (Effect.tellsEnabled server) effects := by
  induction effects using List.reverseRecOn with
  | nil => rfl
  | append_singleton effects e ih =>
    rw [of_concat, lastTold_concat]
    cases e with
    | announced event client =>
      cases event with
      | serverStatusChanged server' enabled =>
        cases hs : server' == server <;> simp [Effect.event?, see, Effect.tellsEnabled, hs, ih]
      | _ => exact ih
    | _ => exact ih

end Words

def Scope.of (k : InstanceKey) (client : ClientId) : Scope :=
  ⟨fun k' c => k' == k && c == some client, fun _ h => by rw [BEq.congr_left h]⟩

/-- The last word on an instance is out of date. -/
inductive Outdated (run : List Happening) (s : State) (k : InstanceKey) : Prop
  /-- The end of a client is announced after the start of the one in its place. -/
  | replaced {client client' : ClientId} {before : List Effect} {e e' : Effect}
      (h : LastWord (Effect.tellsLive k) (seen run) before e false) (hc : e.client? = some client)
      (he' : e' ∈ before) (hstart : e'.tellsLive k = some true) (hc' : e'.client? = some client')
      (hne : client ≠ client') (hlive : s.roster.live.find? k = some client')
  /-- The start of a client that has left is announced after its end. -/
  | overtaken {client : ClientId} {before : List Effect} {e e' : Effect}
      (h : LastWord (Effect.tellsLive k) (seen run) before e true) (hc : e.client? = some client)
      (he' : e' ∈ before) (hend : e'.tellsLive k = some false) (hc' : e'.client? = some client)
      (hlive : s.roster.live.find? k = none)
  /-- The end of a client that has left is never announced. -/
  | lost {client : ClientId} {before : List Effect} {e : Effect}
      (h : LastWord (Effect.tellsLive k) (seen run) before e true) (hc : e.client? = some client)
      (hlose : ∃ x ∈ run, x.Loses client) (hlive : s.roster.live.find? k = none)

/-- The last word on the status of a server is out of date: what changed it last was announced
before that, or never. -/
inductive Misreported (run : List Happening) (s : State) (server : String) : Prop
  | mk {earlier later : List Happening} {y : Happening} {call : CallId} {enabled : Bool}
      {before : List Effect} {e : Effect} (hrun : run = earlier ++ y :: later)
      (hy : y.Switches call server enabled)
      (hkeep : ∀ z ∈ later, z.after.roster.isDisabled server = !enabled)
      (h : LastWord (Effect.tellsEnabled server) (seen run) before e (!enabled))
      (htold : (∃ z ∈ later, z.Tells call server enabled) ∨
        ∃ z ∈ later, z.Withholds call server enabled)

section Effects

variable (k : InstanceKey) (client : ClientId) (e : Effect)

lemma Scope.isStart_of :
    (Scope.of k client).isStart e = (e.tellsLive k == some true && e.client? == some client) := by
  cases e with
  | announced event c =>
    cases event with
    | serverStarted server root =>
      cases h : (⟨server, root⟩ : InstanceKey) == k <;>
        simp [Scope.isStart, Scope.of, Effect.tellsLive, Effect.client?, h]
    | serverClosed server root =>
      cases h : (⟨server, root⟩ : InstanceKey) == k <;>
        simp [Scope.isStart, Effect.tellsLive, h]
    | _ => rfl
  | _ => rfl

lemma Scope.isEnd_of :
    (Scope.of k client).isEnd e = (e.tellsLive k == some false && e.client? == some client) := by
  cases e with
  | announced event c =>
    cases event with
    | serverStarted server root =>
      cases h : (⟨server, root⟩ : InstanceKey) == k <;>
        simp [Scope.isEnd, Effect.tellsLive, h]
    | serverClosed server root =>
      cases h : (⟨server, root⟩ : InstanceKey) == k <;>
        simp [Scope.isEnd, Scope.of, Effect.tellsLive, Effect.client?, h]
    | _ => rfl
  | _ => rfl

lemma Scope.isEnd_ofClient (h : (Scope.of k client).isEnd e = true) :
    (Scope.ofClient client).isEnd e = true := by
  cases e with
  | announced event c =>
    cases event with
    | serverClosed server root => exact (Bool.and_eq_true_iff.1 h).2
    | _ => cases h
  | _ => cases h

/-- What is told of an instance is told of one of its clients. -/
theorem State.Move.exists_client {s s' : State} {l : Label} {effects : List Effect}
    {k : InstanceKey} {e : Effect} {b : Bool} (hm : s.Move l s' effects) (he : e ∈ effects)
    (ht : e.tellsLive k = some b) : ∃ client, e.client? = some client := by
  cases hm with
  | attempt _ hg =>
    cases hg with
    | announce =>
      cases List.mem_singleton.1 he
      exact ⟨_, rfl⟩
    | launch | connect | refuse | expire =>
      cases List.mem_singleton.1 he
      cases ht
    | _ => cases he
  | settle =>
    cases e with
    | announced =>
      obtain ⟨n, rfl⟩ := Settlement.eq_of_announced he
      cases ht
    | _ => cases ht
  | call _ hg =>
    cases hg with
    | collect =>
      unfold Errand.farewell at he
      split at he
      · cases List.mem_singleton.1 he
        exact ⟨_, rfl⟩
      · cases he
    | announce | answer | finish | ask =>
      cases List.mem_singleton.1 he
      cases ht
    | _ => cases he
  | errand _ _ _ hg =>
    cases hg with
    | begin =>
      cases List.mem_singleton.1 he
      cases ht
    | _ => cases he
  | client _ hg =>
    cases hg with
    | announce =>
      cases List.mem_singleton.1 he
      exact ⟨_, rfl⟩
    | forward =>
      cases List.mem_singleton.1 he
      cases ht
    | _ => cases he
  | progress | connected | forgetRetries | fault =>
    cases List.mem_singleton.1 he
    cases ht
  | _ => cases he

end Effects

section Runs

variable {settings : Settings} {surroundings : Surroundings} {delays : List Nat}
  {disabled : List String} {run : List Happening} {s : State}

/-- What was seen of a run belongs to one of its steps. -/
theorem Run.of_seen {t : State} (h : Run t run s) {e : Effect} (he : e ∈ seen run) :
    ∃ earlier x later, run = earlier ++ x :: later ∧ Run t earlier x.before ∧
      x.before.Move x.label x.after x.effects ∧ e ∈ x.effects := by
  obtain ⟨x, hx, hex⟩ := List.mem_flatMap.1 he
  obtain ⟨earlier, later, hrun, hearlier, hn, -⟩ := h.split_of_mem hx
  exact ⟨earlier, x, later, hrun, hearlier, hn.move, hex⟩

lemma Run.exists_client {t : State} (h : Run t run s) {k : InstanceKey} {e : Effect} {b : Bool}
    (he : e ∈ seen run) (ht : e.tellsLive k = some b) : ∃ client, e.client? = some client := by
  obtain ⟨-, x, -, -, -, hm, hex⟩ := h.of_seen he
  exact hm.exists_client hex ht

section Starts

variable {k : InstanceKey} {client : ClientId}

lemma exists_start (h : 0 < (Scope.of k client).starts run) :
    ∃ e ∈ seen run, e.tellsLive k = some true ∧ e.client? = some client := by
  obtain ⟨e, he, hstart⟩ := List.countP_pos_iff.1 h
  rw [Scope.isStart_of, Bool.and_eq_true, beq_iff_eq, beq_iff_eq] at hstart
  exact ⟨e, he, hstart⟩

lemma exists_end (h : 0 < (Scope.of k client).ends run) :
    ∃ e ∈ seen run, e.tellsLive k = some false ∧ e.client? = some client := by
  obtain ⟨e, he, hend⟩ := List.countP_pos_iff.1 h
  rw [Scope.isEnd_of, Bool.and_eq_true, beq_iff_eq, beq_iff_eq] at hend
  exact ⟨e, he, hend⟩

lemma starts_pos {e : Effect} (he : e ∈ seen run) (ht : e.tellsLive k = some true)
    (hc : e.client? = some client) : 0 < (Scope.of k client).starts run := by
  refine List.countP_pos_iff.2 ⟨e, he, ?_⟩
  rw [Scope.isStart_of, ht, hc]
  simp

lemma ends_pos {e : Effect} (he : e ∈ seen run) (ht : e.tellsLive k = some false)
    (hc : e.client? = some client) : 0 < (Scope.of k client).ends run := by
  refine List.countP_pos_iff.2 ⟨e, he, ?_⟩
  rw [Scope.isEnd_of, ht, hc]
  simp

end Starts

/-- The end of a client that is live was not announced. -/
theorem Run.ends_eq_zero (h : Run (.create settings surroundings delays disabled) run s)
    (hs : s.Settled) {k : InstanceKey} {client : ClientId}
    (hk : s.roster.live.find? k = some client) : (Scope.of k client).ends run = 0 := by
  have hle : (Scope.of k client).ends run ≤ (Scope.ofClient client).ends run :=
    List.countP_mono_left fun e _ => Scope.isEnd_ofClient k client e
  have hlive := State.live_ofClient_pos_iff.2 ⟨k, hk⟩
  have hbalance := h.settled_balance hs (.ofClient client)
  have hconnected := h.connected client
  have hcontains := Bool.toNat_le (s.clients.contains client)
  omega

/-- An instance that is live has been announced, so when the last word on it is none of its start,
this is about the end of another client. -/
theorem Run.outdated_of_live (h : Run (.create settings surroundings delays disabled) run s)
    (hs : s.Settled) {k : InstanceKey} {client : ClientId}
    (hk : s.roster.live.find? k = some client)
    (ht : lastTold (Effect.tellsLive k) (seen run) ≠ some true) : Outdated run s k := by
  have hlive := Table.le_total (Scope.of k client).weight_congr hk
  have hone : (Scope.of k client).weight k client = 1 := by simp [Scope.weight, Scope.of]
  have hbalance := h.settled_balance hs (.of k client)
  unfold State.live at hbalance
  have hpos : 0 < (Scope.of k client).starts run := by omega
  obtain ⟨e', he', hstart, hc'⟩ := exists_start hpos
  cases hb : lastTold (Effect.tellsLive k) (seen run) with
  | none => exact absurd hb (lastTold_ne_none he' hstart)
  | some b =>
    cases b with
    | true => exact absurd hb ht
    | false =>
      obtain ⟨before, e, hlast⟩ := lastTold_eq_some_iff.1 hb
      obtain ⟨client', hc⟩ := h.exists_client hlast.mem hlast.told
      have hbefore := hlast.mem_before he' hstart Bool.false_ne_true.symm
      refine .replaced hlast hc hbefore hstart hc' ?_ hk
      rintro rfl
      have hpos := ends_pos hlast.mem hlast.told hc
      have hzero := h.ends_eq_zero hs hk
      omega

/-- When the last word on an instance that is not live is the start of a client, its end was
announced before, or was lost. -/
theorem Run.outdated_of_not_live (h : Run (.create settings surroundings delays disabled) run s)
    (hs : s.Settled) {k : InstanceKey} (hk : s.roster.live.find? k = none)
    (ht : lastTold (Effect.tellsLive k) (seen run) = some true) : Outdated run s k := by
  obtain ⟨before, e, hlast⟩ := lastTold_eq_some_iff.1 ht
  obtain ⟨client, hc⟩ := h.exists_client hlast.mem hlast.told
  have hpos := starts_pos hlast.mem hlast.told hc
  have hlive : s.live (.of k client) = 0 := by
    refine Table.total_eq_zero fun x hx => ?_
    have hne : (x.1 == k) = false := by
      refine Bool.eq_false_iff.2 fun hxk => ?_
      have hfound := Table.find?_of_mem hx
      rw [Table.find?_congr _ hxk, hk] at hfound
      cases hfound
    simp [Scope.weight, Scope.of, hne]
  have hbalance := h.settled_balance hs (.of k client)
  by_cases hends : 0 < (Scope.of k client).ends run
  · obtain ⟨e', he', hend, hc'⟩ := exists_end hends
    exact .overtaken hlast hc (hlast.mem_before he' hend Bool.false_ne_true) hend hc' hk
  · have hlost : 0 < lost (.of k client) ErrandStage.isOwed run := by omega
    obtain ⟨x, hx, client', k', hlose, hweight⟩ := exists_loses rfl hlost
    have heq : client' = client := by
      by_contra hne
      simp [Scope.weight, Scope.of, beq_false_of_ne hne] at hweight
    subst heq
    exact .lost hlast hc ⟨x, hx, hlose⟩ hk

/-- What is told of an instance is right, unless the last word on it is out of date. -/
theorem Run.live_told_iff (h : Run (.create settings surroundings delays disabled) run s)
    (hs : s.Settled) (k : InstanceKey) :
    (Picture.of (seen run)).live.contains k = s.roster.live.contains k ↔ ¬ Outdated run s k := by
  rw [Picture.contains_live]
  constructor
  · intro heq hout
    cases hout with
    | replaced hlast _ _ _ _ _ hlive =>
      have htold := lastTold_eq_some_iff.2 ⟨_, _, hlast⟩
      rw [htold, Table.contains_iff.2 ⟨_, hlive⟩] at heq
      cases heq
    | overtaken hlast _ _ _ _ hlive | lost hlast _ _ hlive =>
      have htold := lastTold_eq_some_iff.2 ⟨_, _, hlast⟩
      rw [htold, Table.contains_eq_false.2 hlive] at heq
      cases heq
  · intro hout
    cases hk : s.roster.live.find? k with
    | some client =>
      rw [Table.contains_iff.2 ⟨client, hk⟩, beq_iff_eq]
      by_contra ht
      exact hout (h.outdated_of_live hs hk ht)
    | none =>
      rw [Table.contains_eq_false.2 hk, Bool.eq_false_iff, ne_eq, beq_iff_eq]
      exact fun ht => hout (h.outdated_of_not_live hs hk ht)

lemma eq_of_tellsEnabled {server : String} {enabled : Bool} {e : Effect}
    (h : e.tellsEnabled server = some enabled) :
    ∃ client, e = .announced (.serverStatusChanged server enabled) client := by
  cases e with
  | announced event client =>
    cases event with
    | serverStatusChanged server' enabled' =>
      rw [show Effect.tellsEnabled _ _ = if _ then _ else _ from rfl] at h
      split at h
      · next hs =>
        rw [eq_of_beq hs, Option.some.inj h]
        exact ⟨client, rfl⟩
      · cases h
    | _ => cases h
  | _ => cases h

/-- A status that is told is one that the server had at some time. -/
theorem Run.exists_of_told (h : Run (.create settings surroundings delays disabled) run s)
    {server : String} {enabled : Bool} {e : Effect} (he : e ∈ seen run)
    (ht : e.tellsEnabled server = some enabled) :
    ∃ y ∈ run, y.after.roster.isDisabled server = !enabled := by
  obtain ⟨client, rfl⟩ := eq_of_tellsEnabled ht
  obtain ⟨earlier, x, later, rfl, hearlier, hm, hex⟩ := h.of_seen he
  obtain ⟨call, ho⟩ := hm.owesStatus_of_announced hex
  obtain ⟨y, hy, hd⟩ := hearlier.of_owesStatus ho
  exact ⟨y, List.mem_append_left _ hy, hd⟩

/-- When a status is not the one that was told last, the change to it was announced before or
withheld. -/
theorem Run.misreported (h : Run (.create settings surroundings delays disabled) run s)
    (hs : s.Settled) {server : String} {enabled : Bool}
    (ht : lastTold (Effect.tellsEnabled server) (seen run) = some (!enabled))
    (hd : s.roster.isDisabled server = !enabled) : Misreported run s server := by
  have hcreate := State.coherent_create settings surroundings delays disabled
  obtain ⟨before, e, hlast⟩ := lastTold_eq_some_iff.1 ht
  obtain ⟨x, hx, hxd⟩ := h.exists_of_told hlast.mem hlast.told
  obtain ⟨earlier, later, rfl, -, -, hlater⟩ := h.split_of_mem hx
  -- the last change since then made the status what it is
  have hne : s.roster.isDisabled server ≠ x.after.roster.isDisabled server := by simp [hd, hxd]
  obtain ⟨earlier', y, later', rfl, hbefore, hafter, hkeep⟩ := hlater.exists_switch hne
  have hrun : earlier ++ x :: (earlier' ++ y :: later') =
      (earlier ++ x :: earlier') ++ y :: later' := by simp
  rw [hxd, Bool.not_not] at hbefore
  rw [hd] at hafter hkeep
  have hwhole := h
  rw [hrun] at hwhole
  obtain ⟨he, hn, hl⟩ := hwhole.split
  obtain hsame | ⟨call, hcall, ho⟩ := hn.move.status_cases server
  · rw [hbefore, hafter] at hsame
    simp at hsame
  rw [hbefore] at ho
  refine ⟨hrun, ⟨hcall, hbefore, hafter⟩, hkeep, hlast, ?_⟩
  obtain ⟨c, removed, hc, hst⟩ | htold :=
    hl.owesStatus ((he.coherent hcreate).move hn.move) ho
  · have hover := hs.calls hc
    rw [hst] at hover
    cases hover
  · exact htold

/-- What is told of a server is right, unless the last word on it is out of date. -/
theorem Run.enabled_told_iff (h : Run (.create settings surroundings delays disabled) run s)
    (hs : s.Settled) (server : String) :
    (∀ enabled, (Picture.of (seen run)).enabled.find? server = some enabled →
      enabled = !s.roster.isDisabled server) ↔ ¬ Misreported run s server := by
  rw [Picture.find?_enabled]
  constructor
  · intro htrue hmis
    obtain @⟨_, _, _, _, changed, _, _, rfl, ⟨-, -, hafter⟩, hkeep, hlast, -⟩ := hmis
    obtain ⟨-, -, hl⟩ := h.split
    -- the status has stayed what the last change made it
    have hd : s.roster.isDisabled server = !changed :=
      hl.of_forall_after (p := fun t => t.roster.isDisabled server = !changed) hafter hkeep
    have henabled := htrue _ (lastTold_eq_some_iff.2 ⟨_, _, hlast⟩)
    rw [hd] at henabled
    simp at henabled
  · intro hmis enabled ht
    by_contra hne
    have hd : s.roster.isDisabled server = enabled :=
      Bool.not_inj (Bool.eq_not.2 (Ne.symm hne))
    rw [← Bool.not_not enabled] at ht hd
    exact hmis (h.misreported hs ht hd)

/-- When all work has settled, a subscriber that has missed no announcement and takes each at its
word knows exactly which instances are live and which of the servers that it has heard of are
enabled, exactly if the last word on none of them is out of date. -/
theorem picture_true_iff (h : Run (.create settings surroundings delays disabled) run s)
    (hs : s.Settled) :
    ((∀ k, (Picture.of (seen run)).live.contains k = s.roster.live.contains k) ∧
      ∀ server enabled, (Picture.of (seen run)).enabled.find? server = some enabled →
        enabled = !s.roster.isDisabled server) ↔
    (∀ k, ¬ Outdated run s k) ∧ ∀ server, ¬ Misreported run s server := by
  constructor
  · rintro ⟨hlive, henabled⟩
    refine ⟨fun k => ?_, fun server => ?_⟩
    · exact (h.live_told_iff hs k).1 (hlive k)
    · exact (h.enabled_told_iff hs server).1 (henabled server)
  · rintro ⟨hlive, henabled⟩
    refine ⟨fun k => ?_, fun server => ?_⟩
    · exact (h.live_told_iff hs k).2 (hlive k)
    · exact (h.enabled_told_iff hs server).2 (henabled server)

end Runs

/-- An instance goes live, and the call that asked for it is answered. -/
def sampleServe (call : CallId) (attempt : AttemptId) : List Label :=
  sampleRequest call ++ sampleConnect attempt ++ sampleReady attempt ++
    [.run (.attempt attempt), .run (.call call), .run (.call call)]

/-- An instance goes live and its server is disabled, while its client is slow to shut down. -/
def sampleSlow : List Label :=
  sampleServe 0 0 ++ [.start (.setServerEnabled "a" false), .run (.call 1), .run (.call 1),
    .run (.errand 1 0)]

def sampleSlowEnd : List Label :=
  [.reply (.errand 1 0) (.client .done), .run (.call 1), .run (.call 1)]

/-- The server is enabled and its instance goes live again. -/
def sampleReplace : List Label :=
  [.start (.setServerEnabled "a" true), .run (.call 2), .run (.call 2), .run (.call 2)] ++
    sampleServe 3 1

/-- Nothing is out of date when an instance is replaced after its client has shut down. -/
theorem picture_true_sample :
    ((sampleOf ["a"]).follow (sampleSlow ++ sampleSlowEnd ++ sampleReplace)).Settled ∧
      (∀ k, ¬ Outdated ((sampleOf ["a"]).trace (sampleSlow ++ sampleSlowEnd ++ sampleReplace))
        ((sampleOf ["a"]).follow (sampleSlow ++ sampleSlowEnd ++ sampleReplace)) k) ∧
      ∀ server, ¬ Misreported
        ((sampleOf ["a"]).trace (sampleSlow ++ sampleSlowEnd ++ sampleReplace))
        ((sampleOf ["a"]).follow (sampleSlow ++ sampleSlowEnd ++ sampleReplace)) server := by
  have hs : ((sampleOf ["a"]).follow (sampleSlow ++ sampleSlowEnd ++ sampleReplace)).Settled :=
    .of_values (by decide) (by decide) (by decide)
  refine ⟨hs, (picture_true_iff (Run.of_trace _ _) hs).1 ⟨fun k => ?_, fun server enabled h => ?_⟩⟩
  · refine Table.contains_eq_of_keys ?_ k
    rfl
  · have hmem := Table.mem_values_iff.2 ⟨server, h⟩
    rw [show (Picture.of _).enabled.values = [true] from rfl] at hmem
    exact List.mem_singleton.1 hmem

/-- A client that is slow to shut down is announced to have ended after the start of the one in its
place, which is live. -/
theorem picture_misled_sample :
    ¬ ∀ (settings : Settings) (surroundings : Surroundings) (delays : List Nat)
      (disabled : List String) (run : List Happening) (s : State),
      Run (.create settings surroundings delays disabled) run s → s.Settled →
      (∀ k, (Picture.of (seen run)).live.contains k = s.roster.live.contains k) ∧
        ∀ server enabled, (Picture.of (seen run)).enabled.find? server = some enabled →
          enabled = !s.roster.isDisabled server := by
  intro hall
  obtain ⟨hk, -⟩ := hall _ _ _ _ _ _
    (Run.of_trace (sampleOf ["a"]) (sampleSlow ++ sampleReplace ++ sampleSlowEnd))
    (.of_values (by decide) (by decide) (by decide))
  have := hk (sampleKey "a")
  revert this
  decide

end ServerFleet.Manager
