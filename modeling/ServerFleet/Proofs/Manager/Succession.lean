import ServerFleet.Proofs.Manager.Ending
import ServerFleet.Proofs.Manager.Exclusion

/-!
Clients that follow one another under one key. What an old client reports late is told from what its
successor reports by the client alone: the report of a client that is not registered comes to
nothing, and the report of a registered one removes that client and no other.
-/

namespace ServerFleet.Manager

/-- The steps of the task that handles what a client reports. -/
inductive Label.Handles (client : ClientId) : Label → Prop
  | run : Handles client (.run (.pump client))
  | reply {reply : Reply} : Handles client (.reply (.pump client) reply)

/-- The reports that end a client. -/
inductive ClientEvent.Ends : ClientEvent → Prop
  | closed : Ends .closed
  | error : Ends .error

namespace State

variable {s s' : State} {l : Label} {effects : List Effect} {client : ClientId} {r : ClientRecord}
  {event : ClientEvent} {rest : List ClientEvent}

section Handling

variable (hc : s.clients.find? client = some r) (hp : r.pump = .idle)
include hc hp

lemma step?_deafen (hi : r.inbox = event :: rest) (ha : s.isAlive = false) :
    s.step? (.run (.pump client)) =
      some ({ s with clients := s.clients.insert client { r with inbox := [], pump := .deaf } },
        []) := by
  show s.runPump client = _
  simp [runPump, hc, hp, hi, ha, updateClient_eq hc]

lemma step?_ignore (hi : r.inbox = event :: rest) (he : event.Ends) (ha : s.isAlive = true)
    (hl : s.roster.live.find? r.key ≠ some client) :
    s.step? (.run (.pump client)) =
      some ({ s with clients := s.clients.insert client { r with inbox := rest } }, []) := by
  have hreg : s.roster.isRegistered r.key client = false := by simpa [Roster.isRegistered] using hl
  show s.runPump client = _
  cases he <;>
    simp [runPump, hc, hp, hi, ha, updateClient_eq hc, Roster.closeClient, Roster.breakClient, hreg]

lemma step?_close (hi : r.inbox = .closed :: rest) (ha : s.isAlive = true)
    (hl : s.roster.live.find? r.key = some client) :
    s.step? (.run (.pump client)) =
      some ({ s with
          roster := { s.roster with live := s.roster.live.erase r.key }
          clients := s.clients.insert client { r with inbox := rest, pump := .announcing } },
        []) := by
  have hreg : s.roster.isRegistered r.key client = true := by simp [Roster.isRegistered, hl]
  show s.runPump client = _
  simp [runPump, hc, hp, hi, ha, updateClient, Roster.closeClient, hreg]

lemma step?_fault (hi : r.inbox = .error :: rest) (ha : s.isAlive = true)
    (hl : s.roster.live.find? r.key = some client) :
    s.step? (.run (.pump client)) =
      some ({ s with
          roster := { s.roster with
            live := s.roster.live.erase r.key
            broken := s.roster.broken.insert r.key .clientError }
          clients := s.clients.insert client { r with inbox := rest, pump := .failing } },
        [.began (.pump client) (.client client .shutdown)]) := by
  have hreg : s.roster.isRegistered r.key client = true := by simp [Roster.isRegistered, hl]
  show s.runPump client = _
  simp [runPump, hc, hp, hi, ha, updateClient, Roster.breakClient, hreg]

end Handling

/-- What the task of a client leaves as it is, whatever it handles. -/
structure Spares (s s' : State) : Prop where
  attempts : s'.attempts = s.attempts
  calls : s'.calls = s.calls
  fired : s'.fired = s.fired
  starting : s'.roster.starting = s.roster.starting
  retries : s'.roster.retries = s.roster.retries
  disabled : s'.roster.disabled = s.roster.disabled
  epoch : s'.roster.epoch = s.roster.epoch

/-- Handling what a client reports leaves every key alone that the client is not registered
under. -/
theorem Move.spares (hm : s.Move l s' effects) (hl : l.Handles client) :
    s.Spares s' ∧ ∀ k, s.roster.live.find? k ≠ some client →
      s'.roster.live.find? k = s.roster.live.find? k ∧
        s'.roster.broken.find? k = s.roster.broken.find? k := by
  have apart : ∀ {r : ClientRecord} {k : InstanceKey},
      s.roster.isRegistered r.key client = true → s.roster.live.find? k ≠ some client →
      (r.key == k) = false := by
    intro r k hreg hk
    refine Bool.eq_false_iff.2 fun hkey => hk ?_
    rw [← Table.find?_congr _ hkey]
    simpa [Roster.isRegistered] using hreg
  cases hl with
  | run =>
    cases hm with
    | close _ _ _ hreg =>
      refine ⟨⟨rfl, rfl, rfl, rfl, rfl, rfl, rfl⟩, fun k hk => ⟨?_, rfl⟩⟩
      simp [apart hreg hk]
    | fault _ _ _ hreg =>
      refine ⟨⟨rfl, rfl, rfl, rfl, rfl, rfl, rfl⟩, fun k hk => ⟨?_, ?_⟩⟩ <;>
        simp [apart hreg hk]
    | ignore | deafen | client => exact ⟨⟨rfl, rfl, rfl, rfl, rfl, rfl, rfl⟩, fun _ _ => ⟨rfl, rfl⟩⟩
    | attempt _ hg => cases hg
    | call _ hg => cases hg
    | errand _ _ _ hg => cases hg
  | reply =>
    cases hm with
    | client => exact ⟨⟨rfl, rfl, rfl, rfl, rfl, rfl, rfl⟩, fun _ _ => ⟨rfl, rfl⟩⟩
    | attempt _ hg => cases hg
    | call _ hg => cases hg
    | errand _ _ _ hg => cases hg

end State

/-- What a client reports late is inert: if it is not registered under its key, handling its end
takes the report from its inbox and does nothing else. If it is registered, its end removes that one
entry, and an error also marks that one key broken. So whatever the task of a client does in a run,
the clients that are live beside it or after it stay live and are not broken. -/
theorem late_end_inert {settings : Settings} {surroundings : Surroundings} {delays : List Nat}
    {disabled : List String} {run : List Happening} {s : State}
    (h : Run (.create settings surroundings delays disabled) run s) (client : ClientId) :
    (∀ r event rest, s.clients.find? client = some r → r.pump = .idle → r.inbox = event :: rest →
      event.Ends →
        (s.isAlive = false → s.step? (.run (.pump client)) =
          some ({ s with clients := s.clients.insert client { r with inbox := [], pump := .deaf } },
            [])) ∧
        (s.isAlive = true → s.roster.live.find? r.key ≠ some client →
          s.step? (.run (.pump client)) =
            some ({ s with clients := s.clients.insert client { r with inbox := rest } }, [])) ∧
        (s.isAlive = true → s.roster.live.find? r.key = some client → event = .closed →
          s.step? (.run (.pump client)) =
            some ({ s with
                roster := { s.roster with live := s.roster.live.erase r.key }
                clients := s.clients.insert client { r with inbox := rest, pump := .announcing } },
              [])) ∧
        (s.isAlive = true → s.roster.live.find? r.key = some client → event = .error →
          s.step? (.run (.pump client)) =
            some ({ s with
                roster := { s.roster with
                  live := s.roster.live.erase r.key
                  broken := s.roster.broken.insert r.key .clientError }
                clients := s.clients.insert client { r with inbox := rest, pump := .failing } },
              [.began (.pump client) (.client client .shutdown)]))) ∧
    ∀ x ∈ run, x.label.Handles client →
      x.before.Spares x.after ∧
      (∀ k, x.before.roster.live.find? k ≠ some client →
        x.after.roster.live.find? k = x.before.roster.live.find? k ∧
          x.after.roster.broken.find? k = x.before.roster.broken.find? k) ∧
      ∀ k successor, successor ≠ client → x.before.roster.live.find? k = some successor →
        x.after.roster.live.find? k = some successor ∧
          x.after.roster.broken.contains k = false := by
  constructor
  · intro r event rest hc hp hi he
    refine ⟨State.step?_deafen hc hp hi, State.step?_ignore hc hp hi he, ?_, ?_⟩
    · rintro ha hl rfl
      exact State.step?_close hc hp hi ha hl
    · rintro ha hl rfl
      exact State.step?_fault hc hp hi ha hl
  · intro x hx hl
    obtain ⟨earlier, later, -, hb, hn, -⟩ := h.split_of_mem hx
    obtain ⟨hspares, hkeys⟩ := hn.move.spares hl
    refine ⟨hspares, hkeys, fun k successor hne hk => ?_⟩
    have hother : x.before.roster.live.find? k ≠ some client := by
      rw [hk]
      exact fun heq => hne (Option.some.inj heq)
    obtain ⟨hlive, hbroken⟩ := hkeys k hother
    have hclear := hb.exclusive (State.coherent_create ..) (State.exclusive_create _ _ _ _) k
      (Table.contains_iff.2 ⟨successor, hk⟩)
    have hnone := Table.contains_eq_false.1 hclear.not_broken
    exact ⟨hlive.trans hk, Table.contains_eq_false.2 (hbroken.trans hnone)⟩

/-- The first server is disabled and enabled again, its instance is started anew, and then the
first client reports its end. -/
def sampleSucceed : List Label :=
  [.start (.setServerEnabled "a" false), .run (.call 1), .start (.setServerEnabled "a" true),
    .run (.call 2)] ++ sampleRequest 3 ++ sampleConnect 1 ++ sampleReady 1 ++ [.report 0 .closed]

def sampleSucceeded : State := sampleStarted.follow sampleSucceed

/-- The late report comes to nothing, and the second client stays live. -/
theorem late_end_inert_sample :
    sampleSucceeded.roster.live.find? (sampleKey "a") = some 1 ∧
      (∃ r, sampleSucceeded.step? (.run (.pump 0)) =
        some ({ sampleSucceeded with clients := sampleSucceeded.clients.insert 0 r }, [])) ∧
      (sampleSucceeded.follow [.run (.pump 0)]).roster.live.find? (sampleKey "a") = some 1 ∧
      (sampleSucceeded.follow [.run (.pump 0)]).roster.broken.contains (sampleKey "a") = false := by
  have hrun := (Run.of_trace sample _).append (Run.of_trace sampleStarted sampleSucceed)
  obtain ⟨effects, hn⟩ := State.Next.of_isSome
    (show (sampleSucceeded.step? (.run (.pump 0))).isSome = true by decide)
  have hlive : sampleSucceeded.roster.live.find? (sampleKey "a") = some 1 := by decide
  have hstep := (late_end_inert hrun 0).1 _ _ _ rfl rfl rfl .closed
  have hafter := (late_end_inert (hrun.next hn) 0).2 _
    (List.mem_append_right _ (List.mem_singleton.2 rfl)) .run
  obtain ⟨hsame, hclear⟩ := hafter.2.2 (sampleKey "a") 1 (by decide) hlive
  exact ⟨hlive, ⟨_, hstep.2.1 (by decide) (by decide)⟩, hsame, hclear⟩

end ServerFleet.Manager
