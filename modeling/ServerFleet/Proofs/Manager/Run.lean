import Mathlib.Data.List.Induction
import ServerFleet.Proofs.Manager.Inversion

/-!
Runs of a manager. In a run the clock may move while tasks still have work to do, which `step?`
does not let it, so that runs cover every order in which tasks, replies, reports and timers can
follow one another. What every move preserves holds along a run.
-/

namespace ServerFleet.Manager

/-- What can happen next: a step, or the clock moves whatever there is to do. -/
inductive State.Next (s : State) : Label → State → List Effect → Prop
  | step {l : Label} {t : State} {effects : List Effect} (h : s.step? l = some (t, effects)) :
      Next s l t effects
  | elapse {time : Nat} (h : s.now ≤ time) : Next s (.advance time) { s with now := time } []

lemma State.Next.move {s t : State} {l : Label} {effects : List Effect}
    (h : s.Next l t effects) : s.Move l t effects := by
  cases h with
  | step h => exact .of_step? h
  | elapse h => exact .advance h

/-- One step of a run, with the states around it. -/
structure Happening where
  before : State
  label : Label
  effects : List Effect
  after : State

/-- The runs that begin in a state. -/
inductive Run (s : State) : List Happening → State → Prop
  | start : Run s [] s
  | next {run : List Happening} {t u : State} {l : Label} {effects : List Effect}
      (h : Run s run t) (hn : t.Next l u effects) : Run s (run ++ [⟨t, l, effects, u⟩]) u

namespace Run

variable {s t u : State} {run earlier later : List Happening} {x : Happening}

lemma append (h : Run s earlier t) (ht : Run t later u) : Run s (earlier ++ later) u := by
  induction ht with
  | start => simpa using h
  | next _ hn ih =>
    rw [← List.append_assoc]
    exact .next ih hn

lemma cons {l : Label} {effects : List Effect} (hn : s.Next l t effects) (h : Run t run u) :
    Run s (⟨s, l, effects, t⟩ :: run) u :=
  (Run.next .start hn).append h

/-- The last step of a run, and the run before it. -/
theorem of_concat (h : Run s (earlier ++ [x]) u) :
    Run s earlier x.before ∧ x.before.Next x.label u x.effects ∧ u = x.after := by
  generalize hr : earlier ++ [x] = run at h
  cases h with
  | start => simp at hr
  | next h hn =>
    obtain ⟨rfl, hx⟩ := List.append_inj' hr rfl
    cases hx
    exact ⟨h, hn, rfl⟩

/-- A run can be cut anywhere. -/
theorem of_append (h : Run s (earlier ++ later) u) :
    ∃ t, Run s earlier t ∧ Run t later u := by
  induction later using List.reverseRecOn generalizing u with
  | nil =>
    rw [List.append_nil] at h
    exact ⟨u, h, .start⟩
  | append_singleton later x ih =>
    rw [← List.append_assoc] at h
    obtain ⟨hr, hn, rfl⟩ := of_concat h
    obtain ⟨t, hr, ht⟩ := ih hr
    exact ⟨t, hr, .next ht hn⟩

/-- A step in the middle of a run, with the runs around it. -/
theorem split (h : Run s (earlier ++ x :: later) u) :
    Run s earlier x.before ∧ x.before.Next x.label x.after x.effects ∧ Run x.after later u := by
  rw [List.append_cons] at h
  obtain ⟨t, hx, ht⟩ := of_append h
  obtain ⟨hr, hn, rfl⟩ := of_concat hx
  exact ⟨hr, hn, ht⟩

lemma split_of_mem (h : Run s run u) (hx : x ∈ run) :
    ∃ earlier later, run = earlier ++ x :: later ∧ Run s earlier x.before ∧
      x.before.Next x.label x.after x.effects ∧ Run x.after later u := by
  obtain ⟨earlier, later, rfl⟩ := List.append_of_mem hx
  exact ⟨earlier, later, rfl, h.split⟩

/-- What every move preserves holds at the end of a run. -/
theorem invariant {p : State → Prop} (h : Run s run t) (hs : p s)
    (hp : ∀ {s l t effects}, p s → State.Move s l t effects → p t) : p t := by
  induction h with
  | start => exact hs
  | next _ hn ih => exact hp ih hn.move

/-- A run that is not empty ends where its last step does. -/
theorem exists_mem_after (h : Run s run t) (hne : run ≠ []) : ∃ x ∈ run, x.after = t := by
  cases h with
  | start => exact absurd rfl hne
  | next h hn => exact ⟨_, List.mem_append_right _ (List.mem_singleton.2 rfl), rfl⟩

/-- What holds at the beginning and after every step holds at the end. -/
theorem of_forall_after {p : State → Prop} (h : Run s run t) (hs : p s)
    (hr : ∀ x ∈ run, p x.after) : p t := by
  cases h with
  | start => exact hs
  | next => exact hr _ (List.mem_append_right _ (List.mem_singleton.2 rfl))

end Run

section Trace

/-- The steps that labels make happen; labels that cannot happen are passed over. -/
def State.trace (s : State) : List Label → List Happening
  | [] => []
  | l :: labels =>
    match s.step? l with
    | some (t, effects) => ⟨s, l, effects, t⟩ :: t.trace labels
    | none => s.trace labels

/-- The state to which labels lead. -/
def State.follow (s : State) : List Label → State
  | [] => s
  | l :: labels =>
    match s.step? l with
    | some (t, _) => t.follow labels
    | none => s.follow labels

lemma Run.of_trace (s : State) (labels : List Label) :
    Run s (s.trace labels) (s.follow labels) := by
  induction labels generalizing s with
  | nil => exact .start
  | cons l labels ih =>
    unfold State.trace State.follow
    split
    · next t effects h => exact .cons (.step h) (ih t)
    · exact ih s

/-- Labels make nothing happen but themselves. -/
theorem State.label_mem_of_trace {s : State} {labels : List Label} {x : Happening}
    (hx : x ∈ s.trace labels) : x.label ∈ labels := by
  induction labels generalizing s with
  | nil => cases hx
  | cons l labels ih =>
    unfold State.trace at hx
    split at hx
    · obtain rfl | hx := List.mem_cons.1 hx
      · exact List.mem_cons_self
      · exact List.mem_cons_of_mem _ (ih hx)
    · exact List.mem_cons_of_mem _ (ih hx)

/-- A label that can happen happens. -/
theorem State.Next.of_isSome {s : State} {l : Label} (h : (s.step? l).isSome = true) :
    ∃ effects, s.Next l (s.follow [l]) effects := by
  obtain ⟨⟨t, effects⟩, ht⟩ := Option.isSome_iff_exists.1 h
  have hf : s.follow [l] = t := by
    unfold State.follow
    rw [ht]
    rfl
  exact ⟨effects, hf ▸ .step ht⟩

end Trace

section Sample

/-- A server for files that end in `.ts`, at home wherever such a file is. -/
def sampleServer (id : String) : ServerDefinition :=
  ⟨id, id, [".ts"], [], [], false, none, .empty, .empty, .hosted⟩

def sampleFile : Path := ⟨[47, 120, 46, 116, 115]⟩

/-- The instance of a server at the root of `sampleFile`. -/
def sampleKey (server : String) : InstanceKey := ⟨server, ⟨[47]⟩⟩

/-- A manager of some servers that retries once. -/
def sampleOf (servers : List String) : State :=
  .create ⟨⟨servers.map sampleServer⟩, 3000, none⟩ ⟨default, default, fun _ => true⟩ [1000] []

/-- A manager of two servers. -/
def sample : State := sampleOf ["a", "b"]

/-- A call that asks for the clients of `sampleFile` enters an attempt for its first server. -/
def sampleRequest (call : CallId) : List Label :=
  [.start (.clientsForFile sampleFile), .run (.call call), .run (.call call), .run (.call call)]

/-- An attempt comes as far as the handshake. -/
def sampleConnect (id : AttemptId) : List Label :=
  [.run (.attempt id), .reply (.attempt id) (.launched false), .reply (.attempt id) .connected]

/-- The handshake of an attempt is done and its outcome entered. -/
def sampleReady (id : AttemptId) : List Label :=
  [.reply (.attempt id) (.client .done), .run (.attempt id)]

/-- The sample manager while two calls wait for one instance. -/
def sampleShared : State := sample.follow (sampleRequest 0 ++ sampleRequest 1)

def sampleStarted : State := sample.follow (sampleRequest 0 ++ sampleConnect 0 ++ sampleReady 0)

/-- The sample manager when a client has closed during its handshake. -/
def sampleClosed : State :=
  sample.follow (sampleRequest 0 ++ sampleConnect 0 ++ [.report 0 .closed])

/-- The sample manager when it has handled that. -/
def sampleEnded : State := sampleClosed.follow [.run (.pump 0)]

/-- A manager of one server when the instance is live, its call has been answered and a shutdown
has been called. -/
def sampleStopping : State :=
  (sampleOf ["a"]).follow (sampleRequest 0 ++ sampleConnect 0 ++ sampleReady 0 ++
    [.run (.attempt 0), .run (.call 0), .run (.call 0), .start .shutdown])

/-- The shutdown of the only client, once it has left the roster, and its end. -/
def sampleStop : List Label :=
  [.run (.errand 1 0), .reply (.errand 1 0) (.client .done), .run (.call 1), .run (.call 1)]

def sampleStopped : State := (sampleStopping.follow [.run (.call 1)]).follow sampleStop

/-- The sample manager when a shutdown has passed while a call waits for its first server. -/
def samplePassed : State :=
  ((sample.follow (sampleRequest 0)).follow [.start .shutdown]).follow [.run (.call 1)]

/-- The first client comes too late and is shut down; the call goes on to its second server, whose
client goes live. -/
def sampleGoOn : List Label :=
  [.run (.call 1)] ++ sampleConnect 0 ++ sampleReady 0 ++ [.reply (.attempt 0) (.client .done),
    .run (.call 0), .run (.call 0), .run (.call 0)] ++ sampleConnect 1 ++ sampleReady 1 ++
    [.run (.attempt 1), .run (.call 0), .run (.call 0)]

end Sample

end ServerFleet.Manager
