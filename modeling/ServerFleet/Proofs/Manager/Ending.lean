import ServerFleet.Proofs.Manager.Custody

/-!
What follows when a client reports its end. A report that is handled while the client is live
removes it for good. One that is handled before, while the handshake is under way, is lost, and
the client goes live all the same when the handshake turns out well.
-/

namespace ServerFleet.Manager

/-- The manager handles that a client has closed or failed. -/
def Happening.HandlesEnd (x : Happening) (client : ClientId) : Prop :=
  x.label = .run (.pump client) ∧ x.before.isAlive = true ∧
    ∃ r rest, x.before.clients.find? client = some r ∧ r.pump = .idle ∧
      (r.inbox = .closed :: rest ∨ r.inbox = .error :: rest)

/-- A client whose end is handled is not live after that: it is live under its own key or not at
all, and that key is looked at. -/
theorem State.Move.handlesEnd {s s' : State} {l : Label} {effects : List Effect}
    (hm : s.Move l s' effects) (h : s.Custody) {client : ClientId}
    (hx : (⟨s, l, effects, s'⟩ : Happening).HandlesEnd client) (k : InstanceKey) :
    s'.roster.live.find? k ≠ some client := by
  obtain ⟨hl, hal, r, rest, hr, hp, hi⟩ := hx
  dsimp only at hl hal hr
  subst hl
  have key : ∀ {k}, s.roster.live.find? k = some client → (r.key == k) = true := by
    intro k hk
    obtain ⟨r', hr', hk'⟩ := h.live hk
    cases hr.symm.trans hr'
    exact hk'
  have erased : (s.roster.live.erase r.key).find? k ≠ some client := by
    rw [Table.find?_erase]
    split
    · exact nofun
    · next hne => exact fun hk => hne (key hk)
  cases hm with
  | close hc | fault hc =>
    cases hr.symm.trans hc
    exact erased
  | ignore hc _ _ hreg =>
    cases hr.symm.trans hc
    intro hk
    have hk' : s.roster.live.find? k = some client := hk
    rw [← Table.find?_congr _ (key hk')] at hk'
    simp [Roster.isRegistered, hk'] at hreg
  | deafen hc _ ha => exact absurd (hal.symm.trans ha) nofun
  | client hc hg =>
    cases hg with
    | forward _ hi' =>
      cases hr.symm.trans hc
      obtain hi | hi := hi <;> cases hi.symm.trans hi'
    | announce hp' =>
      cases hr.symm.trans hc
      cases hp.symm.trans hp'
  | attempt _ hg => cases hg
  | call _ hg => cases hg
  | errand _ _ _ hg => cases hg

/-- A client that is not live stays so until it is registered. -/
theorem Run.live_ne {s t : State} {run : List Happening} (h : Run s run t) {client : ClientId}
    (hs : ∀ k, s.roster.live.find? k ≠ some client) (hr : ∀ x ∈ run, ∀ k, ¬ x.Registers k client) :
    ∀ k, t.roster.live.find? k ≠ some client := by
  induction h with
  | start => exact hs
  | next _ hn ih =>
    intro k hk
    have ih := ih fun x hx => hr x (List.mem_append_left _ hx)
    obtain hk | hreg := hn.move.live_of hk
    · exact ih k hk
    · exact hr _ (List.mem_append_right _ (List.mem_singleton.2 rfl)) k hreg

/-- A client whose attempt is settled is not registered any more. -/
theorem Run.not_registers {s t : State} {run : List Happening} (h : Run s run t)
    (hc : s.Coherent) (hs : s.Custody) {client : ClientId} {r : ClientRecord} {a : Attempt}
    (hr : s.clients.find? client = some r) (ha : s.attempts.find? r.attempt = some a)
    (hst : a.stage.isSettled = true) {x : Happening} (hx : x ∈ run) (k : InstanceKey) :
    ¬ x.Registers k client := by
  rintro ⟨id, b, -, hb, hbst, -⟩
  obtain ⟨earlier, later, rfl, he, -, -⟩ := h.split_of_mem hx
  have hbefore := he.coherent hc
  -- the attempt that has the client in hand is the one that connected it
  obtain ⟨r', hr', -, hid⟩ := (he.custody hc hs).inHand hb (show _ = some client by rw [hbst]; rfl)
  obtain ⟨r'', hr'', hrr⟩ := he.client_continues hc hr
  cases hr'.symm.trans hr''
  have heq := hrr.attempt.symm.trans hid
  subst heq
  obtain ⟨a', ha', haa⟩ := he.continues hc ha
  cases hb.symm.trans ha'
  have hsome := hc.isSettled ha
  rw [hst] at hsome
  obtain ⟨o, ho⟩ := Option.isSome_iff_exists.1 hsome
  have hnone := hbefore.published_eq_none hb (by rw [hbst]; rfl)
  cases hnone.symm.trans (haa.published ho)

section Runs

variable {settings : Settings} {surroundings : Surroundings} {delays : List Nat}
  {disabled : List String} {earlier later : List Happening} {x : Happening} {s : State}
  {client : ClientId}

/-- A client whose end was handled stays away for as long as it is not registered. -/
theorem Run.away (h : Run (.create settings surroundings delays disabled) (earlier ++ x :: later) s)
    (hx : x.HandlesEnd client) (hreg : ∀ y ∈ later, ∀ k, ¬ y.Registers k client) :
    ∀ y ∈ x :: later, ∀ k, y.after.roster.live.find? k ≠ some client := by
  obtain ⟨he, hn, hl⟩ := h.split
  have hcus := he.custody (State.coherent_create settings surroundings delays disabled)
    (State.custody_create settings surroundings delays disabled)
  have hx' := hn.move.handlesEnd hcus hx
  intro y hy
  obtain rfl | hy := List.mem_cons.1 hy
  · exact hx'
  · obtain ⟨before, _, hsplit, hb, hny, -⟩ := hl.split_of_mem hy
    refine (Run.next hb hny).live_ne hx' fun z hz => ?_
    refine hreg z ?_
    rw [hsplit]
    obtain hz | hz := List.mem_append.1 hz
    · exact List.mem_append_left _ hz
    · cases List.mem_singleton.1 hz
      simp

/-- A client whose end was handled is never live again exactly if its attempt is not entered as
ready after that, in its own epoch and for an enabled server. -/
theorem ended_client_not_live_iff
    (h : Run (.create settings surroundings delays disabled) (earlier ++ x :: later) s)
    (hx : x.HandlesEnd client) :
    (∀ y ∈ x :: later, ∀ k, y.after.roster.live.find? k ≠ some client) ↔
      ∀ y ∈ later, ∀ k, ¬ y.Registers k client := by
  obtain ⟨-, -, hl⟩ := h.split
  constructor
  · intro hall y hy k hreg
    obtain ⟨-, -, -, -, hny, -⟩ := hl.split_of_mem hy
    exact hall y (List.mem_cons_of_mem _ hy) k (hny.move.registers hreg)
  · exact h.away hx

end Runs

/-- The sample manager when a live client has closed. -/
def sampleServed : State :=
  sample.follow (sampleRequest 0 ++ sampleConnect 0 ++ sampleReady 0 ++ [.report 0 .closed])

/-- The end is announced, and another client goes live for the same instance. -/
def sampleReplaced : List Label :=
  [.run (.pump 0)] ++ sampleRequest 1 ++ sampleConnect 1 ++ sampleReady 1

/-- A client that was live when its end was handled stays away, also when another one takes its
place. -/
theorem ended_client_not_live_sample : ∃ earlier x later s,
    Run sample (earlier ++ x :: later) s ∧ x.HandlesEnd 0 ∧
      s.roster.live.find? (sampleKey "a") = some 1 ∧
      ∀ y ∈ x :: later, ∀ k, y.after.roster.live.find? k ≠ some 0 := by
  have hearlier : Run sample _ sampleServed := Run.of_trace sample _
  obtain ⟨effects, hn⟩ := State.Next.of_isSome
    (show (sampleServed.step? (.run (.pump 0))).isSome = true by decide)
  have hlater := Run.of_trace (sampleServed.follow [.run (.pump 0)]) sampleReplaced
  have hrun := (hearlier.next hn).append hlater
  rw [List.append_assoc] at hrun
  have ha : sampleServed.isAlive = true := by decide
  have hends : (⟨sampleServed, .run (.pump 0), effects, sampleServed.follow [.run (.pump 0)]⟩ :
      Happening).HandlesEnd 0 := ⟨rfl, ha, _, _, rfl, rfl, .inl rfl⟩
  have hcoherent := hearlier.coherent (State.coherent_create ..)
  have hcustody := hearlier.custody (State.coherent_create ..) (State.custody_create ..)
  have hreg : ∀ y ∈ (sampleServed.follow [.run (.pump 0)]).trace sampleReplaced, ∀ k,
      ¬ y.Registers k 0 := fun y hy =>
    (hlater.cons hn).not_registers hcoherent hcustody rfl rfl rfl (List.mem_cons_of_mem _ hy)
  have haway := (ended_client_not_live_iff hrun hends).2 hreg
  exact ⟨_, _, _, _, hrun, hends, by decide, haway⟩

/-- The end of a client is handled during its handshake. -/
theorem handlesEnd_sample : ∃ earlier x,
    Run sample (earlier ++ [x]) sampleEnded ∧ x.HandlesEnd 0 := by
  obtain ⟨effects, hn⟩ := State.Next.of_isSome
    (show (sampleClosed.step? (.run (.pump 0))).isSome = true by decide)
  refine ⟨_, _, .next (Run.of_trace sample _) hn, ?_⟩
  have ha : sampleClosed.isAlive = true := by decide
  exact ⟨rfl, ha, _, _, rfl, rfl, .inl rfl⟩

/-- A client whose end is handled during its handshake goes live when the handshake is done. -/
theorem ended_client_live_sample :
    ¬ ∀ (settings : Settings) (surroundings : Surroundings) (delays : List Nat)
      (disabled : List String) (earlier later : List Happening) (x : Happening) (s : State)
      (client : ClientId),
      Run (.create settings surroundings delays disabled) (earlier ++ x :: later) s →
      x.HandlesEnd client → ∀ y ∈ x :: later, ∀ k, y.after.roster.live.find? k ≠ some client := by
  intro hall
  obtain ⟨earlier, x, hr, hx⟩ := handlesEnd_sample
  have hlater := Run.of_trace sampleEnded (sampleReady 0)
  have hne : sampleEnded.trace (sampleReady 0) ≠ [] := by
    have hlen : (sampleEnded.trace (sampleReady 0)).length = 2 := by decide
    exact List.ne_nil_of_length_pos (by omega)
  obtain ⟨y, hy, hya⟩ := hlater.exists_mem_after hne
  have hrun := hr.append hlater
  rw [List.append_assoc] at hrun
  refine hall _ _ _ _ _ _ _ _ _ hrun hx y (List.mem_cons_of_mem _ hy) (sampleKey "a") ?_
  rw [hya]
  decide

end ServerFleet.Manager
