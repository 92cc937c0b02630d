import ServerFleet.Manager.Playback
import ServerFleet.Proofs.Launch.Course
import ServerFleet.Proofs.Manager.Fencing
import ServerFleet.Proofs.Manager.Locality

/-!
Servers whose programs are missing. A launch that ends without a server and without an error tells
its attempt so, and the attempt is settled as if the instance had never been sought: nothing is left
of the instance in the roster, nothing is announced, and no other instance is touched.
-/

namespace ServerFleet.Manager

lemma Reply.ofLaunch_eq_missing_iff {σ π : Type} {l : Launch σ π} :
    ofLaunch l = .missing ↔ l.outcome = .ok none := by
  unfold ofLaunch
  split
  · next h => exact iff_of_true rfl h
  · next h => exact iff_of_false nofun (by rw [h]; exact nofun)
  · next h => exact iff_of_false nofun (by rw [h]; exact nofun)

/-- An event that tells of a start or of a retry. -/
def Effect.tellsStart : Effect → Bool
  | .announced (.serverStarted _ _) _ => true
  | .announced (.serverRetrying _ _ _) _ => true
  | _ => false

/-- The roster when an instance that is not live is forgotten. -/
def Roster.withdraw (r : Roster) (k : InstanceKey) : Roster :=
  { r with
    starting := r.starting.erase k
    broken := r.broken.erase k
    retries := r.retries.clear k }

namespace State

variable {s t : State} {id : AttemptId} {a : Attempt} {l : Label} {effects : List Effect}
  {k : InstanceKey}

/-- Nothing is known of an instance, and no timer is set for it. -/
structure Absent (s : State) (k : InstanceKey) : Prop where
  live : s.roster.live.contains k = false
  starting : s.roster.starting.contains k = false
  broken : s.roster.broken.contains k = false
  record : s.roster.retries.records.contains k = false
  timer : s.roster.retries.isPending k = false
  /-- Whatever timer ends, it sets no retry of the instance going. -/
  unhook : ∀ {id retries x}, s.roster.retries.unhook? id = some (retries, some x) →
    (x.key == k) = false

lemma absent_withdraw (h : s.roster.retries.Sound) (hl : s.roster.live.contains k = false)
    (hr : t.roster = s.roster.withdraw k) : t.Absent k := by
  have hrecord : t.roster.retries.records.contains k = false := by
    simp [hr, Roster.withdraw]
  have hpending := RetryScheduler.isPending_of_not_contains _ hrecord
  refine ⟨?_, ?_, ?_, hrecord, hpending, fun {id retries x} hu => ?_⟩
  · simp [hr, Roster.withdraw, hl]
  · simp [hr, Roster.withdraw]
  · simp [hr, Roster.withdraw]
  · have hsound : t.roster.retries.Sound := by
      rw [hr]
      exact h.forget fun _ _ hk => BEq.congr_left hk
    obtain ⟨-, -, ⟨hn, -⟩ | ⟨y, hy, -, -, hname, -⟩⟩ := RetryScheduler.unhook?_cases hsound hu
    · cases hn
    cases hy
    refine Bool.eq_false_iff.2 fun hk => ?_
    rw [RetryScheduler.timer?_congr hk] at hname
    rw [RetryScheduler.isPending_eq, hname] at hpending
    cases hpending

/-- An attempt that hears of a missing program comes to its conclusion, and nothing else happens. -/
theorem step?_missing (ha : s.attempts.find? id = some a) (hst : a.stage = .launching) :
    s.step? (.reply (.attempt id) .missing) =
      some ({ s with
          attempts := s.attempts.insert id { a with stage := .concluded .unavailable } }, []) := by
  show s.replyToAttempt id .missing = _
  simp [replyToAttempt, ha, hst, updateAttempt_eq ha]

/-- An attempt of the current epoch that found no program is entered without a word. -/
theorem step?_unavailable (ha : s.attempts.find? id = some a)
    (hst : a.stage = .concluded .unavailable) (he : a.epoch = s.roster.epoch) :
    s.step? (.run (.attempt id)) =
      some ({ s with
          roster := s.roster.withdraw a.key
          attempts := s.attempts.insert id { a with stage := .finished, published := some none } },
        []) := by
  have hsettle : s.roster.settle s.now a.key a.epoch .unavailable =
      (s.roster.withdraw a.key, ⟨none, false, none, none⟩) := by
    rw [Roster.settle, if_pos he.symm]
    rfl
  show s.runAttempt id = _
  simp [runAttempt, ha, hst, settleAttempt_eq ha hsettle, Settlement.stage, Settlement.effects]

/-- Only a missing program lets an attempt conclude that its server is not available. -/
theorem Move.missing_of_unavailable (hm : s.Move l t effects)
    (ha : t.attempts.find? id = some a) (hst : a.stage = .concluded .unavailable) :
    l = .reply (.attempt id) .missing ∨
      ∃ b, s.attempts.find? id = some b ∧ b.stage = .concluded .unavailable := by
  have kept {id' : AttemptId} {b : Attempt} (hb : (s.attempts.insert id' b).find? id = some a)
      (hne : b.stage ≠ .concluded .unavailable) :
      ∃ b, s.attempts.find? id = some b ∧ b.stage = .concluded .unavailable := by
    obtain ⟨rfl, rfl⟩ | ⟨-, hb⟩ := Table.find?_insert_cases hb
    · exact absurd hst hne
    · exact ⟨a, hb, hst⟩
  cases hm with
  | attempt hb hg =>
    cases hg with
    | missing =>
      obtain ⟨rfl, -⟩ | ⟨-, hb⟩ := Table.find?_insert_cases ha
      · exact .inl rfl
      · exact .inr ⟨a, hb, hst⟩
    | _ => exact .inr (kept ha nofun)
  | connected | reserve | retry => exact .inr (kept ha nofun)
  | @settle _ _ _ _ x =>
    refine .inr (kept ha fun h => ?_)
    have hsettled := x.isSettled_stage
    rw [show x.stage = _ from h] at hsettled
    cases hsettled
  | _ => exact .inr ⟨a, ha, hst⟩

/-- An attempt tells of a start or of a retry only once its outcome is entered. -/
theorem Move.published_of_tellsStart (hm : s.Move l t effects) (hc : s.Coherent)
    (hl : l.attempt? = some id) {e : Effect} (he : e ∈ effects) (hstart : e.tellsStart = true) :
    ∃ a o, t.attempts.find? id = some a ∧ a.published = some o := by
  cases hm with
  | @attempt _ b _ _ _ hb hg =>
    cases hg.attempt?_eq.symm.trans hl
    cases hg with
    | announce hst =>
      have hsome := hc.isSettled hb
      rw [hst] at hsome
      obtain ⟨o, ho⟩ := Option.isSome_iff_exists.1 hsome
      exact ⟨_, o, Table.find?_insert_self _ _ _, ho⟩
    | _ => simp at he <;> (subst he; cases hstart)
  | settle =>
    cases hl
    exact ⟨_, _, Table.find?_insert_self _ _ _, rfl⟩
  | progress | connected =>
    cases List.mem_singleton.1 he
    cases hstart
  | call _ hg => cases hg <;> cases hl
  | errand _ _ _ hg => cases hg <;> cases hl
  | client _ hg => cases hg <;> cases hl
  | _ => cases hl

end State

section Runs

variable {settings : Settings} {surroundings : Surroundings} {delays : List Nat}
  {disabled : List String} {run : List Happening} {s t : State} {id : AttemptId} {a : Attempt}

lemma Run.missing_of_unavailable (h : Run (.create settings surroundings delays disabled) run s)
    (ha : s.attempts.find? id = some a) (hst : a.stage = .concluded .unavailable) :
    ∃ x ∈ run, x.label = .reply (.attempt id) .missing := by
  induction h generalizing a with
  | start => cases ha
  | next _ hn ih =>
    obtain rfl | ⟨b, hb, hbst⟩ := hn.move.missing_of_unavailable ha hst
    · exact ⟨_, List.mem_append_right _ (List.mem_singleton.2 rfl), rfl⟩
    · obtain ⟨x, hx, hl⟩ := ih hb hbst
      exact ⟨x, List.mem_append_left _ hx, hl⟩

/-- An attempt whose outcome is not entered has not told of a start or of a retry. -/
theorem Run.not_tellsStart (h : Run t run s) (hc : t.Coherent) (ha : s.attempts.find? id = some a)
    (hst : a.stage.isSettled = false) {x : Happening} (hx : x ∈ run)
    (hl : x.label.attempt? = some id) {e : Effect} (he : e ∈ x.effects) : e.tellsStart = false := by
  refine Bool.eq_false_iff.2 fun hstart => ?_
  obtain ⟨earlier, later, -, hbefore, hn, hafter⟩ := h.split_of_mem hx
  have hcoh := hbefore.coherent hc
  obtain ⟨b, o, hb, ho⟩ := hn.move.published_of_tellsStart hcoh hl he hstart
  obtain ⟨b', hb', hcontinues⟩ := hafter.continues (hcoh.move hn.move) hb
  cases ha.symm.trans hb'
  have hnone := (h.coherent hc).published_eq_none ha hst
  cases hnone.symm.trans (hcontinues.published ho)

/-- A missing program is a clean absence. A launch runs the install command at most once and only
for a missing program, and ends without a server exactly if the program is missing after that and
no install command has failed. An attempt that is told of this comes to its conclusion, and nothing
else brings it there. When it is entered in its own epoch, be it a first attempt or a retry, nothing
is left of the instance, all other instances are as they were, and neither a start nor a retry is
ever told of. -/
theorem missing_program_absent {σ π : Type}
    (h : Run (.create settings surroundings delays disabled) run s)
    (ha : s.attempts.find? id = some a) :
    (∀ (host : Host σ π) (c : Command) (root : Path) (w : σ),
      c.Proceeds host root w (c.launch host root w)) ∧
    (∀ l : Launch σ π, Reply.ofLaunch l = .missing ↔ l.outcome = .ok none) ∧
    (a.stage = .launching → s.step? (.reply (.attempt id) .missing) =
      some ({ s with
          attempts := s.attempts.insert id { a with stage := .concluded .unavailable } }, [])) ∧
    (a.stage = .concluded .unavailable →
      (∃ x ∈ run, x.label = .reply (.attempt id) .missing) ∧
      (a.epoch = s.roster.epoch → ∃ t, s.step? (.run (.attempt id)) = some (t, []) ∧
        t = { s with
          roster := s.roster.withdraw a.key
          attempts := s.attempts.insert id { a with stage := .finished, published := some none } } ∧
        t.Absent a.key ∧ (∀ k, (a.key == k) = false → s.Leaves t k) ∧
        ∀ later u, Run t later u → ∀ x ∈ run ++ later, x.label.attempt? = some id →
          ∀ e ∈ x.effects, e.tellsStart = false)) := by
  have hcreate := State.coherent_create settings surroundings delays disabled
  have hc := h.coherent hcreate
  refine ⟨fun host c root w => c.proceeds_launch host root w,
    fun l => Reply.ofLaunch_eq_missing_iff,
    State.step?_missing ha, fun hst => ⟨h.missing_of_unavailable ha hst, fun hepoch => ?_⟩⟩
  have hunsettled : a.stage.isSettled = false := by rw [hst]; rfl
  have hstarting := hc.starting_of_attempt ha hunsettled hepoch
  -- an instance that is being started is not live
  have hlive : s.roster.live.contains a.key = false := by
    refine Bool.eq_false_iff.2 fun hl => ?_
    have hclear := h.exclusive hcreate (State.exclusive_create _ _ _ _) a.key hl
    exact Bool.eq_false_iff.1 hclear.not_starting (Table.contains_iff.2 ⟨id, hstarting⟩)
  have htimed := h.timed (State.timed_create _ _ _ _)
  have hstep := State.step?_unavailable ha hst hepoch
  refine ⟨_, hstep, rfl, State.absent_withdraw htimed.sound hlive rfl, fun k hk => ?_, ?_⟩
  · exact State.leaves_settle htimed (.unavailable hepoch.symm) hk
  · intro later u hlater x hx hl e he
    rcases List.mem_append.1 hx with hx | hx
    · exact h.not_tellsStart hcreate ha hunsettled hx hl he
    · have hcoh := hc.move (.of_step? hstep)
      have hquiet := hlater.not_announced hcoh (Table.find?_insert_self _ _ _) rfl hx hl
      cases e with
      | announced event client => exact absurd he (hquiet event client)
      | _ => rfl

section Sample

/-- A host where no program is ever found, though the install command succeeds. -/
def bareHost : Host Unit Unit where
  find? _ _ := none
  install s _ _ _ := (s, .ok (.code 0))
  start s _ _ _ := (s, .ok ())

/-- A manager of two servers that has heard that the program of the first one is missing. -/
def sampleMissing : State :=
  sample.follow (sampleRequest 0 ++ [.run (.attempt 0), .reply (.attempt 0) .missing])

theorem missing_program_absent_sample :
    (∃ l, l = Command.launch ⟨"nope", [], [], ["get"]⟩ bareHost (.ofString "/") () ∧
      l.acts.count .runInstaller = 1 ∧ l.reports = [.installing, .complete] ∧
      l.outcome = .ok none ∧ Reply.ofLaunch l = .missing) ∧
    ∃ t, sampleMissing.step? (.run (.attempt 0)) = some (t, []) ∧ t.Absent (sampleKey "a") := by
  have hrun : Run sample _ sampleMissing := .of_trace _ _
  have ha : sampleMissing.attempts.find? 0 =
      some ⟨sampleKey "a", 0, false, .concluded .unavailable, none⟩ := rfl
  obtain ⟨hlaunch, hreply, -, hsettle⟩ := @missing_program_absent _ _ _ _ _ _ _ _ Unit Unit hrun ha
  have hproceeds := hlaunch bareHost ⟨"nope", [], [], ["get"]⟩ (.ofString "/") ()
  have habsent : (Command.launch ⟨"nope", [], [], ["get"]⟩ bareHost (.ofString "/") ()).outcome =
      .ok none := hproceeds.absent.2 ⟨fun _ _ h => by cases h; rfl, rfl⟩
  obtain ⟨-, hcurrent⟩ := hsettle rfl
  obtain ⟨t, ht, -, hgone, -⟩ := hcurrent rfl
  exact ⟨⟨_, rfl, hproceeds.runs, hproceeds.reports, habsent, (hreply _).2 habsent⟩, t, ht, hgone⟩

end Sample

end Runs

end ServerFleet.Manager
