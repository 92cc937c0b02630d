import ServerFleet.Proofs.Manager.Move

/-!
What the operations on a whole server leave in the roster: its status changes for it alone, and the
instances that it loses are its own.
-/

namespace ServerFleet.Manager.Roster

variable (r : Roster) (server server' : String) (k : InstanceKey)

@[simp] lemma isDisabled_enable :
    (r.enable server).1.isDisabled server' = (r.isDisabled server' && server' != server) := by
  cases h : server' != server <;> simp_all [isDisabled, enable]

@[simp] lemma isDisabled_disable :
    (r.disable server).1.isDisabled server' = (r.isDisabled server' || server' == server) := by
  unfold isDisabled disable
  dsimp only
  split
  · next hd =>
    cases hs : server' == server with
    | false => simp
    | true =>
      rw [eq_of_beq hs, show r.disabled.contains server = true from hd]
      rfl
  · simp [Bool.beq_eq_decide_eq]

@[simp] lemma find?_live_disable : (r.disable server).1.live.find? k =
    if k.serverId == server then none else r.live.find? k := by
  refine (Table.find?_filter_key r.live (InstanceKey.not_serverId_congr server) k).trans ?_
  cases k.serverId == server <;> rfl

@[simp] lemma contains_live_disable : (r.disable server).1.live.contains k =
    (!(k.serverId == server) && r.live.contains k) :=
  Table.contains_filter_key r.live (InstanceKey.not_serverId_congr server) k

@[simp] lemma find?_broken_forgetBroken : (r.forgetBroken server).1.broken.find? k =
    if k.serverId == server then none else r.broken.find? k := by
  refine (Table.find?_filter_key r.broken (InstanceKey.not_serverId_congr server) k).trans ?_
  cases k.serverId == server <;> rfl

@[simp] lemma contains_broken_forgetBroken : (r.forgetBroken server).1.broken.contains k =
    (!(k.serverId == server) && r.broken.contains k) :=
  Table.contains_filter_key r.broken (InstanceKey.not_serverId_congr server) k

end ServerFleet.Manager.Roster
