import Mathlib.Data.List.Basic
import ServerFleet.Event.Channel

/-!
What the subscribers of a channel hear. For one subscriber a channel is no more than the messages
it has not heard of and whether more may come; whatever the other subscribers do, it is served as
if it were alone. From this view follows the account of what it is given, what it is told it has
lost and what it still has to hear of.
-/

namespace ServerFleet

variable {α : Type u}

deriving instance DecidableEq for Received

namespace Received

def message? : Received α → Option α
  | message a => some a
  | _ => none

/-- The number of messages that are done with. -/
def passed : Received α → Nat
  | message _ => 1
  | lagged missed => missed
  | _ => 0

/-- The number of messages that are done with after several answers. -/
def accounted : List (Received α) → Nat
  | [] => 0
  | x :: l => x.passed + accounted l

end Received

/-- Something that is done with a channel. -/
inductive ChannelAct (α : Type u) where
  | subscribe
  | unsubscribe (subscriber : Nat)
  | send (a : α)
  | receive (subscriber : Nat)
  | close
deriving DecidableEq

namespace ChannelAct

/-- The messages that are sent in the course of acts, up to the end of the channel. -/
def sent : List (ChannelAct α) → List α
  | [] => []
  | .send a :: acts => a :: sent acts
  | .close :: _ => []
  | _ :: acts => sent acts

lemma sent_prefix (before after : List (ChannelAct α)) :
    sent before <+: sent (before ++ after) := by
  induction before with
  | nil => exact List.nil_prefix
  | cons act before ih =>
    cases act with
    | send a => exact (List.prefix_cons_inj a).2 ih
    | close => exact List.prefix_rfl
    | _ => exact ih

/-- Nothing is sent after the end. -/
theorem sent_append_of_mem {before : List (ChannelAct α)} (h : .close ∈ before)
    (after : List (ChannelAct α)) : sent (before ++ after) = sent before := by
  induction before with
  | nil => cases h
  | cons act before ih =>
    cases act with
    | close => rfl
    | send a => exact congrArg (a :: ·) (ih (by simpa using h))
    | _ => exact ih (by simpa using h)

/-- What an act is to a subscriber, who counts itself as the first one. -/
def seenBy? (n : Nat) : ChannelAct α → Option (ChannelAct α)
  | .send a => some (.send a)
  | .receive m => if m = n then some (.receive 0) else none
  | .close => some .close
  | _ => none

lemma not_unsubscribe_seenBy (n : Nat) (acts : List (ChannelAct α)) :
    .unsubscribe 0 ∉ acts.filterMap (·.seenBy? n) := by
  intro h
  obtain ⟨act, -, hact⟩ := List.mem_filterMap.1 h
  unfold seenBy? at hact
  split at hact
  · cases hact
  · split at hact <;> cases hact
  · cases hact
  · cases hact

end ChannelAct

namespace Channel

def perform (c : Channel α) : ChannelAct α → Channel α
  | .subscribe => c.subscribe.1
  | .unsubscribe n => c.unsubscribe n
  | .send a => c.send a
  | .receive n => (c.receive n).1
  | .close => c.close

def follow (c : Channel α) (acts : List (ChannelAct α)) : Channel α := acts.foldl perform c

def given? (c : Channel α) (n : Nat) : ChannelAct α → Option (Received α)
  | .receive m => if m = n then some (c.receive n).2 else none
  | _ => none

def heard (c : Channel α) (n : Nat) : List (ChannelAct α) → List (Received α)
  | [] => []
  | act :: acts => (c.given? n act).toList ++ (c.perform act).heard n acts

section Capacity

open private Nat.nextPowerOfTwo.go in Nat.nextPowerOfTwo

variable {n m : Nat}

lemma le_nextPowerOfTwo_go (h : 0 < m) : n ≤ Nat.nextPowerOfTwo.go n m h := by
  fun_induction Nat.nextPowerOfTwo.go n m h with
  | case1 m h hlt ih => exact ih
  | case2 m h hle => exact Nat.le_of_not_lt hle

lemma nextPowerOfTwo_go_lt (h : 0 < m) (hm : m < 2 * n) :
    Nat.nextPowerOfTwo.go n m h < 2 * n := by
  fun_induction Nat.nextPowerOfTwo.go n m h with
  | case1 m h hlt ih => exact ih (by omega)
  | case2 m h hle => exact hm

/-- The capacity of a channel is the least power of two that is enough. -/
theorem capacity_create (capacity : Nat) :
    (create (α := α) capacity).capacity.isPowerOfTwo ∧
      max capacity 1 ≤ (create (α := α) capacity).capacity ∧
      (create (α := α) capacity).capacity < 2 * max capacity 1 :=
  ⟨Nat.isPowerOfTwo_nextPowerOfTwo _, le_nextPowerOfTwo_go Nat.one_pos,
    nextPowerOfTwo_go_lt Nat.one_pos (by omega)⟩

end Capacity

end Channel

/-- What a subscriber is still given of messages that it has not heard of, when so many are
kept. -/
def Received.outstanding (size : Nat) (rest : List α) : List (Received α) :=
  (if size < rest.length then [.lagged (rest.length - size)] else []) ++
    (rest.drop (rest.length - size)).map .message

/-- What there is of a channel for one subscriber. -/
structure Reader (α : Type u) where
  /-- The messages it has not heard of. -/
  rest : List α
  /-- Whether messages may still come. -/
  isOpen : Bool

namespace Reader

variable {size n : Nat} {r : Reader α} {act : ChannelAct α} {acts : List (ChannelAct α)}

/-- What a subscriber is given when nothing is left. -/
def ending (r : Reader α) : Received α := if r.isOpen then .empty else .closed

def next (size : Nat) (r : Reader α) : Received α :=
  (Received.outstanding size r.rest).head?.getD r.ending

def perform (size n : Nat) (r : Reader α) : ChannelAct α → Reader α
  | .send a => if r.isOpen then { r with rest := r.rest ++ [a] } else r
  | .receive m => if m = n then { r with rest := r.rest.drop (r.next size).passed } else r
  | .close => { r with isOpen := false }
  | _ => r

def follow (size n : Nat) (r : Reader α) (acts : List (ChannelAct α)) : Reader α :=
  acts.foldl (perform size n) r

def given? (size n : Nat) (r : Reader α) : ChannelAct α → Option (Received α)
  | .receive m => if m = n then some (r.next size) else none
  | _ => none

def heard (size n : Nat) (r : Reader α) : List (ChannelAct α) → List (Received α)
  | [] => []
  | act :: acts => (r.given? size n act).toList ++ (r.perform size n act).heard size n acts

lemma next_of_nil (h : r.rest = []) : r.next size = r.ending := by
  simp [next, h, Received.outstanding]

lemma next_of_lags (h : size < r.rest.length) :
    r.next size = .lagged (r.rest.length - size) := by
  simp [next, Received.outstanding, h]

lemma next_of_fits {a : α} {rest : List α} (hr : r.rest = a :: rest) (h : r.rest.length ≤ size) :
    r.next size = .message a := by
  unfold next Received.outstanding
  rw [if_neg (Nat.not_lt.2 h), Nat.sub_eq_zero_of_le h, hr]
  rfl

lemma passed_ending (r : Reader α) : r.ending.passed = 0 := by
  unfold ending
  split <;> rfl

/-- The ways in which a subscriber is served. -/
inductive Gives (size : Nat) (r : Reader α) : Received α → Prop
  | lagged (h : size < r.rest.length) : Gives size r (.lagged (r.rest.length - size))
  | message {a : α} {rest : List α} (h : r.rest = a :: rest) : Gives size r (.message a)
  | empty (h : r.rest = []) (ho : r.isOpen = true) : Gives size r .empty
  | closed (h : r.rest = []) (ho : r.isOpen = false) : Gives size r .closed

lemma gives_next (size : Nat) (r : Reader α) : r.Gives size (r.next size) := by
  by_cases hlag : size < r.rest.length
  · rw [next_of_lags hlag]
    exact .lagged hlag
  cases hr : r.rest with
  | nil =>
    rw [next_of_nil hr, ending]
    split
    · next ho => exact .empty hr ho
    · next ho => exact .closed hr (Bool.eq_false_iff.2 ho)
  | cons a rest =>
    rw [next_of_fits hr (Nat.le_of_not_lt hlag)]
    exact .message hr

/-- A subscriber is not given more than is left. -/
theorem Gives.passed_le {x : Received α} (h : r.Gives size x) : x.passed ≤ r.rest.length := by
  cases h with
  | lagged => exact Nat.sub_le _ _
  | message h =>
    rw [h]
    exact Nat.succ_le_succ (Nat.zero_le _)
  | empty | closed => exact Nat.zero_le _

lemma Gives.message_sublist {x : Received α} (h : r.Gives size x) :
    ([x].filterMap (·.message?)).Sublist (r.rest.take x.passed) := by
  cases h with
  | @message a _ h =>
    rw [h]
    exact List.Sublist.refl [a]
  | _ => exact List.nil_sublist _

lemma outstanding_next (size : Nat) (r : Reader α) :
    Received.outstanding size (r.rest.drop (r.next size).passed) =
      (Received.outstanding size r.rest).tail := by
  by_cases hlag : size < r.rest.length
  · have hkept : (r.rest.drop (r.rest.length - size)).length = size := by
      rw [List.length_drop]
      omega
    rw [next_of_lags hlag, Received.passed]
    unfold Received.outstanding
    rw [hkept, if_neg (Nat.lt_irrefl _), if_pos hlag, Nat.sub_self]
    rfl
  cases hr : r.rest with
  | nil => simp [Received.outstanding]
  | cons a rest =>
    have hle : rest.length + 1 ≤ size := by
      rw [hr] at hlag
      exact Nat.le_of_not_lt hlag
    rw [next_of_fits hr (Nat.le_of_not_lt hlag), Received.passed]
    unfold Received.outstanding
    simp only [List.drop_succ_cons, List.drop_zero, List.length_cons]
    rw [if_neg (by omega), if_neg (by omega), Nat.sub_eq_zero_of_le (by omega),
      Nat.sub_eq_zero_of_le hle]
    rfl

section Course

/-- The acts before something is given to a subscriber. -/
theorem exists_of_heard {x : Received α} {earlier later : List (Received α)}
    (h : r.heard size n acts = earlier ++ x :: later) :
    ∃ before after, acts = before ++ .receive n :: after ∧ r.heard size n before = earlier ∧
      (r.follow size n before).next size = x := by
  induction acts generalizing r earlier with
  | nil => cases earlier <;> cases h
  | cons act acts ih =>
    unfold heard at h
    cases hg : r.given? size n act with
    | none =>
      rw [hg] at h
      obtain ⟨before, after, rfl, hbefore, hx⟩ := ih h
      exact ⟨act :: before, after, rfl, by rw [heard, hg, hbefore]; rfl, hx⟩
    | some y =>
      have hact : act = .receive n ∧ r.next size = y := by
        unfold given? at hg
        split at hg
        · split at hg
          · next hm =>
            cases hg
            exact ⟨congrArg _ hm, rfl⟩
          · cases hg
        · cases hg
      obtain ⟨rfl, rfl⟩ := hact
      rw [hg] at h
      cases earlier with
      | nil =>
        obtain ⟨rfl, -⟩ := List.cons.inj h
        exact ⟨[], acts, rfl, rfl, rfl⟩
      | cons z earlier =>
        obtain ⟨rfl, hrest⟩ := List.cons.inj h
        obtain ⟨before, after, rfl, hbefore, hx⟩ := ih hrest
        exact ⟨_ :: before, after, rfl, by rw [heard, hg, hbefore]; rfl, hx⟩

lemma isOpen_perform (r : Reader α) (act : ChannelAct α) :
    (r.perform size n act).isOpen = true ↔ r.isOpen = true ∧ .close ≠ act := by
  cases act with
  | send a | receive m =>
    simp only [perform]
    split <;> simp
  | _ => simp [perform]

lemma isOpen_follow (r : Reader α) (acts : List (ChannelAct α)) :
    (r.follow size n acts).isOpen = true ↔ r.isOpen = true ∧ .close ∉ acts := by
  induction acts generalizing r with
  | nil => simp [follow]
  | cons act acts ih =>
    have hstep : (r.perform size n act).isOpen = true ↔ _ := r.isOpen_perform act
    rw [List.mem_cons, not_or, ← and_assoc, ← Ne, ← hstep]
    exact ih _

def incoming (r : Reader α) (acts : List (ChannelAct α)) : List α :=
  if r.isOpen then ChannelAct.sent acts else []

/-- An act takes from what is left and what is to come as much as is given. -/
theorem drop_incoming (r : Reader α) (act : ChannelAct α) (acts : List (ChannelAct α)) :
    (r.perform size n act).rest ++ (r.perform size n act).incoming acts =
      (r.rest ++ r.incoming (act :: acts)).drop
        (Received.accounted (r.given? size n act).toList) := by
  obtain ⟨rest, isOpen⟩ := r
  cases act with
  | receive m =>
    by_cases hm : m = n
    · have hle := (gives_next size ⟨rest, isOpen⟩).passed_le
      simp only [perform, given?, if_pos hm, Option.toList_some, Received.accounted, Nat.add_zero]
      exact (List.drop_append_of_le_length hle).symm
    · simp only [perform, given?, if_neg hm]
      rfl
  | send a => cases isOpen <;> simp [perform, incoming, ChannelAct.sent, given?, Received.accounted]
  | close => cases isOpen <;> simp [perform, incoming, ChannelAct.sent, given?, Received.accounted]
  | _ => rfl

lemma accounted_append (l l' : List (Received α)) :
    Received.accounted (l ++ l') = Received.accounted l + Received.accounted l' := by
  induction l with
  | nil => exact (Nat.zero_add _).symm
  | cons x l ih => rw [List.cons_append, Received.accounted, ih, Received.accounted, Nat.add_assoc]

/-- What is left for a subscriber is what was left and has come, less what was given. -/
theorem rest_follow (r : Reader α) (acts : List (ChannelAct α)) :
    (r.follow size n acts).rest =
      (r.rest ++ r.incoming acts).drop (Received.accounted (r.heard size n acts)) := by
  induction acts generalizing r with
  | nil => simp [follow, heard, incoming, ChannelAct.sent, Received.accounted]
  | cons act acts ih =>
    rw [heard, accounted_append, ← List.drop_drop, ← drop_incoming]
    exact ih _

lemma accounted_given?_le (r : Reader α) (act : ChannelAct α) :
    Received.accounted (r.given? size n act).toList ≤ r.rest.length := by
  unfold given?
  split
  · split
    · exact (gives_next size r).passed_le
    · exact Nat.zero_le _
  · exact Nat.zero_le _

/-- No more is given than was left and has come. -/
theorem accounted_le (r : Reader α) (acts : List (ChannelAct α)) :
    Received.accounted (r.heard size n acts) ≤ (r.rest ++ r.incoming acts).length := by
  induction acts generalizing r with
  | nil => exact Nat.zero_le _
  | cons act acts ih =>
    have hrest := ih (r.perform size n act)
    have hgiven : Received.accounted (r.given? size n act).toList ≤ _ := r.accounted_given?_le act
    rw [drop_incoming, List.length_drop] at hrest
    rw [heard, accounted_append]
    rw [List.length_append] at hrest ⊢
    omega

lemma message_given? (r : Reader α) (act : ChannelAct α) :
    ((r.given? size n act).toList.filterMap (·.message?)).Sublist
      (r.rest.take (Received.accounted (r.given? size n act).toList)) := by
  unfold given?
  split
  · split
    · exact (gives_next size r).message_sublist
    · exact List.nil_sublist _
  · exact List.nil_sublist _

/-- The messages that are given are among those that were left and have come, in their order. -/
theorem messages_sublist (r : Reader α) (acts : List (ChannelAct α)) :
    ((r.heard size n acts).filterMap (·.message?)).Sublist (r.rest ++ r.incoming acts) := by
  induction acts generalizing r with
  | nil => exact List.nil_sublist _
  | cons act acts ih =>
    have hrest := ih (r.perform size n act)
    have hgiven : ((r.given? size n act).toList.filterMap (·.message?)).Sublist _ :=
      r.message_given? act
    rw [drop_incoming] at hrest
    rw [← List.take_append_of_le_length (accounted_given?_le r act)] at hgiven
    rw [heard, List.filterMap_append]
    have hboth := hgiven.append hrest
    rwa [List.take_append_drop] at hboth

/-- Asking again and again, a subscriber is given all that is left for it, and then the end. -/
theorem heard_replicate (r : Reader α) (k : Nat) :
    r.heard size n (List.replicate ((Received.outstanding size r.rest).length + k) (.receive n)) =
      Received.outstanding size r.rest ++ List.replicate k r.ending := by
  generalize hl : Received.outstanding size r.rest = l
  induction l generalizing r with
  | nil =>
    have hnext : r.next size = r.ending := by
      unfold next
      rw [hl]
      rfl
    have hsame : r.perform size n (.receive n) = r := by
      simp [perform, hnext, passed_ending]
    rw [List.length_nil, Nat.zero_add, List.nil_append]
    induction k with
    | zero => rfl
    | succ k ih =>
      rw [List.replicate_succ, List.replicate_succ, heard, hsame, ih, given?, if_pos rfl, hnext]
      rfl
  | cons x l ih =>
    have hnext : r.next size = x := by
      unfold next
      rw [hl]
      rfl
    have hrest := ih (r.perform size n (.receive n)) (by
      simp only [perform, if_true]
      rw [outstanding_next, hl, List.tail_cons])
    rw [List.length_cons, Nat.succ_add, List.replicate_succ, heard, hrest, given?, if_pos rfl,
      hnext]
    simp only [perform, if_true]
    rfl

/-- A subscriber is given the same whatever number it has and whatever others do. -/
theorem heard_seenBy (r : Reader α) (acts : List (ChannelAct α)) :
    r.heard size 0 (acts.filterMap (·.seenBy? n)) = r.heard size n acts := by
  induction acts generalizing r with
  | nil => rfl
  | cons act acts ih =>
    rw [heard, ← ih (r.perform size n act), List.filterMap_cons]
    cases act with
    | receive m =>
      by_cases hm : m = n
      · rw [show (ChannelAct.receive m : ChannelAct α).seenBy? n = some (.receive 0) from if_pos hm]
        simp only [heard, given?, perform, if_pos hm, if_true]
      · rw [show (ChannelAct.receive m : ChannelAct α).seenBy? n = none from if_neg hm]
        simp only [given?, perform, if_neg hm]
        rfl
    | _ => rfl

lemma accounted_outstanding (size : Nat) (rest : List α) :
    Received.accounted (Received.outstanding size rest) = rest.length := by
  have messages : ∀ l : List α, Received.accounted (l.map .message) = l.length := by
    intro l
    induction l with
    | nil => rfl
    | cons a l ih => rw [List.map_cons, Received.accounted, ih, Received.passed, List.length_cons,
        Nat.add_comm]
  unfold Received.outstanding
  rw [accounted_append, messages, List.length_drop]
  split
  · simp only [Received.accounted, Received.passed]
    omega
  · simp only [Received.accounted]
    omega

/-- A new subscriber has not missed anything. -/
def start : Reader α := ⟨[], true⟩

lemma rest_follow_start (acts : List (ChannelAct α)) :
    (start.follow size n acts).rest =
      (ChannelAct.sent acts).drop (Received.accounted (start.heard size n acts)) :=
  rest_follow start acts

/-- A message that is given is the one after those that were given or reported before. -/
theorem getElem?_of_heard {a : α} {earlier later : List (Received α)}
    (h : start.heard size n acts = earlier ++ .message a :: later) :
    (ChannelAct.sent acts)[Received.accounted earlier]? = some a := by
  obtain ⟨before, after, rfl, rfl, hnext⟩ := exists_of_heard h
  have hgives := gives_next size (start.follow size n before)
  rw [hnext] at hgives
  cases hgives with
  | message hrest =>
    have hhead := congrArg List.head? hrest
    rw [rest_follow_start, List.head?_drop, List.head?_cons] at hhead
    obtain ⟨rest, hrest⟩ := ChannelAct.sent_prefix before (.receive n :: after)
    obtain ⟨hlt, -⟩ := List.getElem?_eq_some_iff.1 hhead
    rw [← hrest, List.getElem?_append_left hlt, hhead]

/-- A loss is reported to a subscriber only if it has fallen behind by more than is kept. -/
theorem exists_of_lagged {missed : Nat} (h : .lagged missed ∈ start.heard size n acts) :
    ∃ before, before <+: acts ∧
      Received.accounted (start.heard size n before) + size < (ChannelAct.sent before).length := by
  obtain ⟨earlier, later, hsplit⟩ := List.append_of_mem h
  obtain ⟨before, after, rfl, -, hnext⟩ := exists_of_heard hsplit
  have hgives := gives_next size (start.follow size n before)
  rw [hnext] at hgives
  cases hgives with
  | lagged hlt =>
    rw [rest_follow_start, List.length_drop] at hlt
    exact ⟨before, List.prefix_append _ _, by omega⟩

/-- The end is seen when everything is accounted for. -/
theorem accounted_of_closed {earlier later : List (Received α)}
    (h : start.heard size n acts = earlier ++ .closed :: later) :
    .close ∈ acts ∧ Received.accounted earlier = (ChannelAct.sent acts).length := by
  obtain ⟨before, after, rfl, rfl, hnext⟩ := exists_of_heard h
  have hgives := gives_next size (start.follow size n before)
  rw [hnext] at hgives
  cases hgives with
  | closed hrest ho =>
    have hclose : .close ∈ before := by
      by_contra hmem
      rw [(isOpen_follow start before).2 ⟨rfl, hmem⟩] at ho
      cases ho
    have hle : Received.accounted (start.heard size n before) ≤ _ := accounted_le start before
    rw [rest_follow_start, List.drop_eq_nil_iff] at hrest
    rw [ChannelAct.sent_append_of_mem hclose]
    exact ⟨List.mem_append_left _ hclose, Nat.le_antisymm hle hrest⟩

end Course

end Reader

namespace Channel

/-- A channel keeps the latest of the messages sent so far. -/
structure Logs (c : Channel α) (log : List α) : Prop where
  sent : c.sent = log.length
  kept : c.kept = log.drop (log.length - c.capacity)
  capacity : 0 < c.capacity

/-- A channel is for a subscriber what it looks like to it. -/
def Serves (c : Channel α) (n : Nat) (r : Reader α) : Prop :=
  ∃ log next, c.Logs log ∧ c.cursors[n]? = some (some next) ∧ next ≤ log.length ∧
    r = ⟨log.drop next, c.isOpen⟩

variable {c : Channel α} {log : List α} {n m next : Nat} {r : Reader α} {act : ChannelAct α}
  {acts : List (ChannelAct α)}

lemma logs_create (capacity : Nat) : (create (α := α) capacity).Logs [] where
  sent := rfl
  kept := List.drop_nil.symm
  capacity := Nat.lt_of_lt_of_le (by omega) (capacity_create (α := α) capacity).2.1

/-- A message that is kept is found at its place. -/
theorem Logs.getElem?_kept (h : c.Logs log) (hle : next ≤ log.length)
    (hkept : log.length - next ≤ c.capacity) :
    c.kept[c.kept.length - (c.sent - next)]? = log[next]? := by
  rw [h.kept, h.sent, List.getElem?_drop, List.length_drop]
  congr 1
  omega

/-- What a subscriber is given is the first of what is left for it. -/
theorem Logs.receive_eq (h : c.Logs log) (hn : c.cursors[n]? = some (some next))
    (hle : next ≤ log.length) :
    c.receive n =
      ({ c with cursors := c.cursors.set n (some (next +
          (Reader.next c.capacity ⟨log.drop next, c.isOpen⟩).passed)) },
        Reader.next c.capacity ⟨log.drop next, c.isOpen⟩) := by
  have hlength : (log.drop next).length = log.length - next := List.length_drop
  have hsent := h.sent
  have hcapacity := h.capacity
  unfold receive
  rw [hn]
  simp only [Option.join_some]
  by_cases hread : c.sent ≤ next
  · have hself : c.cursors.set n (some next) = c.cursors := by
      obtain ⟨hlt, hget⟩ := List.getElem?_eq_some_iff.1 hn
      rw [← hget, List.set_getElem_self]
    rw [if_pos hread, Reader.next_of_nil (List.drop_eq_nil_of_le (by omega)), Reader.passed_ending,
      Nat.add_zero, hself]
    rfl
  rw [if_neg hread]
  by_cases hlag : next < c.sent - c.capacity
  · have hnext : Reader.next c.capacity ⟨log.drop next, c.isOpen⟩ =
        .lagged (c.sent - c.capacity - next) := by
      rw [Reader.next_of_lags (by rw [hlength]; omega), hlength]
      congr 1
      omega
    have hplace : next + (c.sent - c.capacity - next) = c.sent - c.capacity := by omega
    rw [if_pos hlag, hnext, Received.passed, hplace]
  · have hlt : next < log.length := by omega
    have hget : c.kept[c.kept.length - (c.sent - next)]? = some log[next] := by
      rw [h.getElem?_kept hle (by omega), List.getElem?_eq_getElem hlt]
    rw [if_neg hlag, hget,
      Reader.next_of_fits (List.drop_eq_getElem_cons hlt) (by rw [hlength]; omega)]
    rfl

/-- A reception changes nothing but the place of its subscriber. -/
theorem exists_receive (c : Channel α) (n : Nat) :
    ∃ place,
      (c.receive n).1 = { c with cursors := c.cursors.set n place } ∨ (c.receive n).1 = c := by
  unfold receive
  split
  · exact ⟨none, .inr rfl⟩
  dsimp only
  split
  · exact ⟨none, .inr rfl⟩
  split
  · exact ⟨_, .inl rfl⟩
  split
  · exact ⟨_, .inl rfl⟩
  · exact ⟨none, .inr rfl⟩

lemma Logs.kept_send (h : c.Logs log) (a : α) :
    keepLatest c.capacity c.kept a = (log ++ [a]).drop ((log ++ [a]).length - c.capacity) := by
  have hlength : c.kept.length = log.length - (log.length - c.capacity) := by
    rw [h.kept, List.length_drop]
  have hcapacity := h.capacity
  unfold keepLatest
  rw [hlength, h.kept, ← List.drop_append_of_le_length (Nat.sub_le _ _), List.drop_drop,
    List.length_append, List.length_singleton]
  congr 1
  omega

/-- A message is sent to those who are there. -/
theorem Logs.send (h : c.Logs log) (a : α) :
    ((c.send a).Logs (log ++ [a]) ∧ c.isOpen = true) ∨
      c.send a = c ∧ (c.isOpen = true → c.subscriberCount = 0) := by
  unfold Channel.send
  split
  · next hs =>
    rw [Bool.and_eq_true] at hs
    exact .inl ⟨⟨by simp [h.sent], h.kept_send a, h.capacity⟩, hs.1⟩
  · next hs => exact .inr ⟨rfl, fun ho => by simpa [ho] using hs⟩

lemma cursors_send (c : Channel α) (a : α) : (c.send a).cursors = c.cursors := by
  unfold send
  split <;> rfl

lemma isOpen_send (c : Channel α) (a : α) : (c.send a).isOpen = c.isOpen := by
  unfold send
  split <;> rfl

lemma Logs.of_eq {d : Channel α} (h : c.Logs log) (hs : d.sent = c.sent) (hk : d.kept = c.kept)
    (hc : d.capacity = c.capacity) : d.Logs log where
  sent := hs.trans h.sent
  kept := by rw [hk, hc, h.kept]
  capacity := hc ▸ h.capacity

lemma capacity_perform (c : Channel α) (act : ChannelAct α) :
    (c.perform act).capacity = c.capacity := by
  cases act with
  | send a =>
    simp only [perform, Channel.send]
    split <;> rfl
  | receive n =>
    obtain ⟨place, h | h⟩ := c.exists_receive n
    all_goals
      rw [perform, h]
  | _ => rfl

lemma Logs.perform (h : c.Logs log) (act : ChannelAct α) : ∃ log', (c.perform act).Logs log' := by
  cases act with
  | send a =>
    obtain ⟨h', -⟩ | ⟨h', -⟩ := h.send a
    · exact ⟨_, h'⟩
    · exact ⟨log, h.of_eq (by rw [Channel.perform, h']) (by rw [Channel.perform, h'])
        (by rw [Channel.perform, h'])⟩
  | receive n =>
    obtain ⟨place, h' | h'⟩ := c.exists_receive n
    all_goals
      refine ⟨log, ?_⟩
      rw [Channel.perform, h']
    · exact h.of_eq rfl rfl rfl
    · exact h
  | _ => exact ⟨log, h.of_eq rfl rfl rfl⟩

lemma Logs.follow (h : c.Logs log) (acts : List (ChannelAct α)) :
    ∃ log', (c.follow acts).Logs log' := by
  induction acts generalizing c log with
  | nil => exact ⟨log, h⟩
  | cons act acts ih =>
    obtain ⟨log', h'⟩ := h.perform act
    exact ih h'

lemma capacity_follow (c : Channel α) (acts : List (ChannelAct α)) :
    (c.follow acts).capacity = c.capacity := by
  induction acts generalizing c with
  | nil => rfl
  | cons act acts ih => exact (ih _).trans (c.capacity_perform act)

/-- A new subscriber has not missed anything. -/
theorem Logs.subscribe (h : c.Logs log) (ho : c.isOpen = true) :
    c.subscribe.1.Serves c.subscribe.2 .start := by
  refine ⟨log, log.length, h.of_eq rfl rfl rfl, ?_, Nat.le_refl _, ?_⟩
  · simp [Channel.subscribe, ho, h.sent]
  · simp [Channel.subscribe, ho, Reader.start]

lemma Serves.subscriberCount_ne (h : c.Serves n r) : c.subscriberCount ≠ 0 := by
  obtain ⟨log, next, -, hn, -⟩ := h
  refine Nat.ne_of_gt (List.countP_pos_iff.2 ⟨_, List.mem_of_getElem? hn, rfl⟩)

/-- What a subscriber is given is a matter of what the channel is for it. -/
theorem Serves.given? (h : c.Serves n r) (act : ChannelAct α) :
    c.given? n act = r.given? c.capacity n act := by
  obtain ⟨log, next, hlog, hn, hle, rfl⟩ := h
  unfold Channel.given? Reader.given?
  split
  · rw [hlog.receive_eq hn hle]
  · rfl

/-- An act changes for a subscriber what the channel is for it, and nothing else counts. -/
theorem Serves.perform (h : c.Serves n r) (hact : act ≠ .unsubscribe n) :
    (c.perform act).Serves n (r.perform c.capacity n act) := by
  have hcount := h.subscriberCount_ne
  obtain ⟨log, next, hlog, hn, hle, rfl⟩ := h
  cases act with
  | subscribe =>
    refine ⟨log, next, hlog.of_eq rfl rfl rfl, ?_, hle, rfl⟩
    obtain ⟨hlt, -⟩ := List.getElem?_eq_some_iff.1 hn
    exact (List.getElem?_append_left hlt).trans hn
  | unsubscribe m =>
    have hne : m ≠ n := fun hmn => hact (congrArg _ hmn)
    exact ⟨log, next, hlog.of_eq rfl rfl rfl, (List.getElem?_set_ne hne).trans hn, hle, rfl⟩
  | send a =>
    obtain ⟨hlog', ho⟩ | ⟨hsame, hnone⟩ := hlog.send a
    · refine ⟨log ++ [a], next, hlog', (congrArg (·[n]?) (c.cursors_send a)).trans hn, ?_, ?_⟩
      · simp only [List.length_append]
        omega
      · simp only [Reader.perform, ho, if_true, Channel.perform, isOpen_send]
        rw [List.drop_append_of_le_length hle]
    · have ho : c.isOpen = false := Bool.eq_false_iff.2 fun ho => hcount (hnone ho)
      rw [Channel.perform, hsame]
      exact ⟨log, next, hlog, hn, hle, by simp [Reader.perform, ho]⟩
  | receive m =>
    by_cases hmn : m = n
    · subst hmn
      obtain ⟨hlt, -⟩ := List.getElem?_eq_some_iff.1 hn
      rw [Channel.perform, hlog.receive_eq hn hle]
      refine ⟨log, _, hlog.of_eq rfl rfl rfl, List.getElem?_set_self hlt, ?_, ?_⟩
      · have hpassed := (Reader.gives_next c.capacity ⟨log.drop next, c.isOpen⟩).passed_le
        simp only [List.length_drop] at hpassed
        omega
      · simp only [Reader.perform, if_true, List.drop_drop]
    · obtain ⟨place, h' | h'⟩ := c.exists_receive m
      all_goals
        rw [Channel.perform, h', Reader.perform, if_neg hmn]
      · exact ⟨log, next, hlog.of_eq rfl rfl rfl, (List.getElem?_set_ne hmn).trans hn, hle, rfl⟩
      · exact ⟨log, next, hlog, hn, hle, rfl⟩
  | close => exact ⟨log, next, hlog.of_eq rfl rfl rfl, hn, hle, rfl⟩

/-- In the course of acts a subscriber is served as its view of the channel says. -/
theorem Serves.course (h : c.Serves n r) (hacts : .unsubscribe n ∉ acts) :
    c.heard n acts = r.heard c.capacity n acts ∧
      (c.follow acts).Serves n (r.follow c.capacity n acts) := by
  induction acts generalizing c r with
  | nil => exact ⟨rfl, h⟩
  | cons act acts ih =>
    rw [List.mem_cons, not_or] at hacts
    obtain ⟨hheard, hserves⟩ := ih (h.perform (Ne.symm hacts.1)) hacts.2
    rw [c.capacity_perform act] at hheard hserves
    exact ⟨by rw [heard, Reader.heard, h.given?, hheard], hserves⟩

section Account

variable {capacity : Nat} {before : List (ChannelAct α)}

/-- A subscriber that has just come sees an open channel with nothing left for it. -/
theorem serves_subscribe (hs : ((create capacity).follow before).subscribe = (c, n))
    (ho : c.isOpen = true) :
    c.Serves n .start ∧ c.capacity = (create (α := α) capacity).capacity := by
  obtain ⟨log, hlog⟩ := (logs_create (α := α) capacity).follow before
  have hc : c = ((create capacity).follow before).subscribe.1 := by rw [hs]
  have hn : n = ((create capacity).follow before).subscribe.2 := by rw [hs]
  subst hc hn
  exact ⟨hlog.subscribe ho, capacity_follow _ before⟩

/-- Each subscriber of a channel is served as if it were the only one. What it is given are
messages that were sent since it came, in their order; what it is not given is reported, with the
exact number of messages that it has lost; and what was given, what was reported and what is left
to be given or reported make up all that was sent. A subscriber that never falls behind by more
than the capacity loses nothing. When the channel has ended, everything that is left is given
before the end is seen. -/
theorem subscriber_accounted (hs : ((create capacity).follow before).subscribe = (c, n))
    (ho : c.isOpen = true) (hu : .unsubscribe n ∉ acts) :
    (c.capacity.isPowerOfTwo ∧ max capacity 1 ≤ c.capacity ∧ c.capacity < 2 * max capacity 1) ∧
    c.heard n acts = (create capacity).subscribe.1.heard 0 (acts.filterMap (·.seenBy? n)) ∧
    ((c.heard n acts).filterMap (·.message?)).Sublist (ChannelAct.sent acts) ∧
    (∀ earlier a later, c.heard n acts = earlier ++ .message a :: later →
      (ChannelAct.sent acts)[Received.accounted earlier]? = some a) ∧
    (∃ left : List (Received α),
      Received.accounted (c.heard n acts) + Received.accounted left =
        (ChannelAct.sent acts).length ∧
      left = Received.outstanding c.capacity
        ((ChannelAct.sent acts).drop (Received.accounted (c.heard n acts))) ∧
      ∀ k, (c.follow acts).heard n (List.replicate (left.length + k) (.receive n)) =
        left ++ List.replicate k (if (c.follow acts).isOpen then .empty else .closed)) ∧
    ((∀ p, p <+: acts → (ChannelAct.sent p).length ≤
        Received.accounted (c.heard n p) + max capacity 1) →
      ∀ missed, .lagged missed ∉ c.heard n acts) ∧
    ((c.follow acts).isOpen = true ↔ .close ∉ acts) ∧
    ∀ earlier later, c.heard n acts = earlier ++ .closed :: later →
      .close ∈ acts ∧ Received.accounted earlier = (ChannelAct.sent acts).length := by
  obtain ⟨hserves, hcapacity⟩ := serves_subscribe hs ho
  obtain ⟨hheard, hafter⟩ := hserves.course hu
  have hopen : (c.follow acts).isOpen = (Reader.start.follow c.capacity n acts).isOpen := by
    obtain ⟨log, next, -, -, -, hr⟩ := hafter
    rw [hr]
  have halone : (create (α := α) capacity).subscribe.1.Serves 0 .start :=
    (logs_create capacity).subscribe rfl
  refine ⟨hcapacity ▸ capacity_create capacity, ?_, ?_, ?_, ?_, ?_, ?_, ?_⟩
  · rw [(halone.course (ChannelAct.not_unsubscribe_seenBy n acts)).1, hheard, hcapacity]
    exact (Reader.heard_seenBy _ _).symm
  · rw [hheard]
    exact Reader.messages_sublist _ acts
  · rw [hheard]
    exact fun earlier a later => Reader.getElem?_of_heard
  · refine ⟨_, ?_, rfl, fun k => ?_⟩
    · have hle : Received.accounted (Reader.start.heard c.capacity n acts) ≤ _ :=
        Reader.accounted_le .start acts
      rw [Reader.accounted_outstanding, List.length_drop, hheard]
      exact Nat.add_sub_cancel' hle
    · have hrepeat : (.unsubscribe n : ChannelAct α) ∉ List.replicate
          ((Received.outstanding c.capacity ((ChannelAct.sent acts).drop
            (Received.accounted (c.heard n acts)))).length + k) (.receive n) := by
        intro h
        cases List.eq_of_mem_replicate h
      rw [(hafter.course hrepeat).1, capacity_follow, hheard, ← Reader.rest_follow_start,
        Reader.heard_replicate, Reader.ending, hopen]
  · intro hprefix missed hmem
    rw [hheard] at hmem
    obtain ⟨p, hp, hlt⟩ := Reader.exists_of_lagged hmem
    have hle := hprefix p hp
    rw [(hserves.course fun h => hu (hp.subset h)).1] at hle
    have hsize := (capacity_create (α := α) capacity).2.1
    rw [← hcapacity] at hsize
    omega
  · rw [hopen, Reader.isOpen_follow]
    exact and_iff_right rfl
  · rw [hheard]
    exact fun earlier later => Reader.accounted_of_closed

/-- One of two subscribers of a small channel is too late for its first message. -/
theorem subscriber_accounted_late :
    let c := ((create (α := Nat) 2).follow [.subscribe, .send 0]).subscribe.1
    let acts := [.send 1, .send 2, .receive 0, .send 3, .receive 1, .receive 1, .close,
      .receive 1, .receive 1]
    c.heard 1 acts = [.lagged 1, .message 2, .message 3, .closed] ∧
      ((c.heard 1 acts).filterMap (·.message?)).Sublist (ChannelAct.sent acts) := by
  have hs : ((create 2).follow [.subscribe, .send (0 : Nat)]).subscribe = (_, 1) := rfl
  exact ⟨by decide +kernel, (subscriber_accounted hs rfl (by decide)).2.2.1⟩

end Account

end Channel

end ServerFleet
