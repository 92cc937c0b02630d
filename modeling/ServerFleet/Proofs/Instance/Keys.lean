import ServerFleet.Proofs.Instance.Ordered
import ServerFleet.Proofs.Path.Respelling

/-!
The keys of instances in tables and in ordered maps. Equal keys may stand for one another in both of
them, and the status is the same whether it is put together in a table or in an ordered map, in
whatever order the keys come out of the roster. In the order of the keys each server has its
instances next to one another, in the order of their roots.
-/

namespace ServerFleet

open Relation (ReflTransGen)
open Std (OrientedCmp TransCmp ReflCmp LawfulEqCmp)

namespace InstanceKey

variable {a b c : InstanceKey}

/-- What a key is hashed by. -/
def hashed (k : InstanceKey) : String × List Bytes := (k.serverId, k.root.hashedParts)

/-- Two keys that no container tells from one another: they are hashed alike, they compare alike
with every key, and they find, remove and replace the same. -/
structure Interchangeable (a b : InstanceKey) : Prop where
  hashed : a.hashed = b.hashed
  compare_left : ∀ c : InstanceKey, a.compare c = b.compare c
  compare_right : ∀ c : InstanceKey, c.compare a = c.compare b
  table_find? : ∀ {α : Type} (t : Table InstanceKey α), t.find? a = t.find? b
  table_erase : ∀ {α : Type} (t : Table InstanceKey α), t.erase a = t.erase b
  table_insert : ∀ {α : Type} (t : Table InstanceKey α) (x : α) (k : InstanceKey),
    (t.insert a x).find? k = (t.insert b x).find? k
  map_find? : ∀ {α : Type} (m : OrderedMap α), m.find? a = m.find? b
  map_insert : ∀ {α : Type} (m : OrderedMap α) (x : α) (k : InstanceKey),
    (m.insert a x).find? k = (m.insert b x).find? k

lemma interchangeable_iff : a.Interchangeable b ↔ (a == b) = true := by
  constructor
  · intro h
    rw [← compare_eq_iff, h.compare_left]
    exact ReflCmp.compare_self
  · intro h
    obtain ⟨hid, hroot⟩ := beq_iff.1 h
    have hcompare := compare_eq_iff.2 h
    exact {
      hashed := by rw [hashed, hashed, hid, Path.hashedParts_congr hroot]
      compare_left := fun c => TransCmp.congr_left hcompare
      compare_right := fun c => TransCmp.congr_right hcompare
      table_find? := fun t => t.find?_congr h
      table_erase := fun t => by
        unfold Table.erase
        congr
        funext k _
        rw [BEq.congr_right h]
      table_insert := fun t x k => by
        rw [Table.find?_insert, Table.find?_insert, BEq.congr_left h]
      map_find? := fun m => m.find?_congr h
      map_insert := fun m x k => by
        rw [OrderedMap.find?_insert, OrderedMap.find?_insert, BEq.congr_left h] }

/-- The ids of keys in order are in order. -/
theorem isLE_serverId (h : (a.compare b).isLE = true) :
    (compareText a.serverId b.serverId).isLE = true :=
  (Ordering.isLE_then_iff_and.1 h).1

lemma isLE_total (a b : InstanceKey) :
    (a.compare b).isLE = true ∨ (b.compare a).isLE = true := by
  have hswap : b.compare a = (a.compare b).swap := OrientedCmp.eq_swap
  rw [hswap]
  cases a.compare b <;> simp

/-- Between two keys of one server there are only keys of this server. -/
theorem serverId_eq_of_between (hab : (a.compare b).isLE = true) (hbc : (b.compare c).isLE = true)
    (hid : a.serverId = c.serverId) : b.serverId = a.serverId := by
  have hca := isLE_serverId hbc
  rw [← hid] at hca
  exact LawfulEqCmp.eq_of_compare (OrientedCmp.isLE_antisymm hca (isLE_serverId hab))

end InstanceKey

namespace OrderedMap

variable {α : Type} {l : List (InstanceKey × α)}

/-- Entries in order fall into those of the servers before a server, those of this server and those
of the servers behind it. -/
theorem eq_append_filter (h : l.Pairwise fun x y => x.1.compare y.1 = .lt) (server : String) :
    l = l.filter (fun e => compareText e.1.serverId server = .lt) ++
      (l.filter (fun e => e.1.serverId == server) ++
        l.filter (fun e => compareText e.1.serverId server = .gt)) := by
  induction h with
  | nil => rfl
  | @cons e rest he hrest ih =>
    have hle (x : InstanceKey × α) (hx : x ∈ rest) :
        (compareText e.1.serverId x.1.serverId).isLE = true :=
      InstanceKey.isLE_serverId (by rw [he x hx]; rfl)
    cases hc : compareText e.1.serverId server with
    | lt =>
      rw [List.filter_cons_of_pos (by simp [hc]),
        List.filter_cons_of_neg (by simpa using ne_of_compareText_lt hc),
        List.filter_cons_of_neg (by simp [hc]), List.cons_append, ← ih]
    | eq =>
      have hid : e.1.serverId = server := LawfulEqCmp.eq_of_compare hc
      have hnone : rest.filter (fun x => compareText x.1.serverId server = .lt) = [] := by
        refine List.filter_eq_nil_iff.2 fun x hx hlt => ?_
        have hback := TransCmp.lt_of_lt_of_isLE (of_decide_eq_true hlt) (hid ▸ hle x hx)
        rw [compareText_self] at hback
        cases hback
      rw [hnone, List.nil_append] at ih
      rw [List.filter_cons_of_neg (by simp [hc]), hnone, List.filter_cons_of_pos (by simp [hid]),
        List.filter_cons_of_neg (by simp [hc]), List.nil_append, List.cons_append, ← ih]
    | gt =>
      have hbehind : ∀ x ∈ e :: rest, compareText x.1.serverId server = .gt := by
        refine List.forall_mem_cons.2 ⟨hc, fun x hx => OrientedCmp.gt_iff_lt.2 ?_⟩
        exact TransCmp.lt_of_lt_of_isLE (OrientedCmp.gt_iff_lt.1 hc) (hle x hx)
      have hbefore : (e :: rest).filter (fun x => compareText x.1.serverId server = .lt) = [] :=
        List.filter_eq_nil_iff.2 fun x hx => by simp [hbehind x hx]
      have hof : (e :: rest).filter (fun x => x.1.serverId == server) = [] := by
        refine List.filter_eq_nil_iff.2 fun x hx => ?_
        have hlt := OrientedCmp.gt_iff_lt.1 (hbehind x hx)
        simpa using (ne_of_compareText_lt hlt).symm
      have hall : (e :: rest).filter (fun x => compareText x.1.serverId server = .gt) = e :: rest :=
        List.filter_eq_self.2 fun x hx => by simp [hbehind x hx]
      rw [hbefore, hof, hall]
      rfl

end OrderedMap

namespace Manager.Roster

/-- The states of instances as an ordered map: those that are live, those that are broken unless
they are in it, and over both those that are being started. -/
def mergeStates (live broken starting : List InstanceKey) : OrderedMap InstanceState :=
  let running := live.foldl (fun m k => m.insert k .running) .empty
  let known := broken.foldl (fun m k => m.insertNew k .broken) running
  starting.foldl (fun m k => m.insert k .spawning) known

section Rounds

variable {α β : Type} {t : Table InstanceKey α} {keys : List InstanceKey}
  (h : keys.Perm t.keys)
include h

/-- The keys of a table may be gone through in any order if different keys do not interfere. -/
theorem foldl_keys {put : OrderedMap β → InstanceKey → OrderedMap β}
    (hcomm : ∀ m k k', (k == k') = false → put (put m k) k' = put (put m k') k)
    (m : OrderedMap β) : keys.foldl put m = t.entries.foldl (fun m e => put m e.1) m := by
  rw [← List.foldl_map (f := fun e : InstanceKey × α => e.1)]
  refine h.foldl_eq' (fun k hk k' hk' m => ?_) m
  cases hkk : k == k' with
  | true => rw [Table.eq_of_mem_keys (h.subset hk) (h.subset hk') hkk]
  | false => exact hcomm m k k' hkk

lemma foldl_insert_keys (u : Table InstanceKey β) (x : β) :
    keys.foldl (fun m k => OrderedMap.insert m k x) (.ofTable u) =
      OrderedMap.ofTable (t.entries.foldl (fun u e => u.insert e.1 x) u) := by
  rw [foldl_keys h fun m k k' hk => m.insert_comm hk x x]
  exact List.foldl_hom OrderedMap.ofTable fun u e => (OrderedMap.ofTable_insert u e.1 x).symm

lemma foldl_insertNew_keys (u : Table InstanceKey β) (x : β) :
    keys.foldl (fun m k => OrderedMap.insertNew m k x) (.ofTable u) =
      OrderedMap.ofTable
        (t.entries.foldl (fun u e => if u.contains e.1 then u else u.insert e.1 x) u) := by
  rw [foldl_keys h fun m k k' hk => m.insertNew_comm hk x x]
  exact List.foldl_hom OrderedMap.ofTable fun u e => (OrderedMap.ofTable_insertNew u e.1 x).symm

end Rounds

/-- The ordered map of the states has the entries of the table of the states. -/
theorem mergeStates_eq (r : Roster) {live broken starting : List InstanceKey}
    (hlive : live.Perm r.live.keys) (hbroken : broken.Perm r.broken.keys)
    (hstarting : starting.Perm r.starting.keys) :
    mergeStates live broken starting = .ofTable r.states := by
  have hempty : (.empty : OrderedMap InstanceState) = .ofTable .empty :=
    (OrderedMap.ofTable_toTable .empty).symm
  unfold mergeStates states
  dsimp only
  rw [hempty, foldl_insert_keys hlive, foldl_insertNew_keys hbroken, foldl_insert_keys hstarting]

/-- In whatever order the live clients come, they are sorted alike. -/
theorem liveClients_eq (r : Roster) {l : List (InstanceKey × ClientId)}
    (h : l.Perm r.live.entries) : r.liveClients = sortByKey l := by
  have hdistinct : l.Pairwise fun a b => (a.1 == b.1) = false :=
    (h.pairwise_iff fun {a b} hab => by rwa [BEq.comm]).2 r.live.distinct
  exact (@sortByKey_eq_of_perm _ r.live ⟨l, hdistinct⟩ h).symm

end Manager.Roster

namespace InstanceKey

open Manager

/-- Keys are totally ordered, and no container tells apart those that compare as equal: keys with
one id whose roots differ in superfluous separators and `.` only, while a `..` counts. So tables and
ordered maps agree, and the live clients and the status come out in one order. In this order the
instances of a server stand next to one another, by their roots. -/
theorem soundly_ordered :
    (∀ a b c : InstanceKey, a.compare a = .eq ∧ b.compare a = (a.compare b).swap ∧
      ((a.compare b).isLE = true ∨ (b.compare a).isLE = true) ∧
      ((a.compare b).isLE = true → (b.compare a).isLE = true → (a == b) = true) ∧
      ((a.compare b).isLE = true → (b.compare c).isLE = true → (a.compare c).isLE = true)) ∧
    (∀ a b : InstanceKey, (a.compare b = .eq ↔ (a == b) = true) ∧
      ((a == b) = true ↔ a.serverId = b.serverId ∧ a.root.components = b.root.components) ∧
      ((a == b) = true ↔ a.serverId = b.serverId ∧
        ∃ p, ReflTransGen Path.Shortens a.root p ∧ ReflTransGen Path.Shortens b.root p) ∧
      ((a == b) = true ↔ a.Interchangeable b)) ∧
    (∀ (id : String) (root : Path) (part : Bytes), Path.IsStep part →
      ((⟨id, (root.join ⟨part⟩).join ⟨[Bytes.dot, Bytes.dot]⟩⟩ : InstanceKey) == ⟨id, root⟩) =
        false) ∧
    (∀ (α : Type) (t : Table InstanceKey α) (k : InstanceKey) (x : α),
      (OrderedMap.ofTable t).find? k = t.find? k ∧
        OrderedMap.ofTable (t.insert k x) = (OrderedMap.ofTable t).insert k x) ∧
    (∀ (r : Roster) (clients : List (InstanceKey × ClientId))
      (live broken starting : List InstanceKey), clients.Perm r.live.entries →
      live.Perm r.live.keys → broken.Perm r.broken.keys → starting.Perm r.starting.keys →
        r.liveClients = Roster.sortByKey clients ∧
        ∀ server, r.instances server =
          ((Roster.mergeStates live broken starting).entries.filter
            fun e => e.1.serverId == server).map
              fun e => ⟨e.1.root, e.2, r.retries.retryCount e.1⟩) ∧
    (∀ a b c : InstanceKey, a.serverId = c.serverId →
      a.compare c = a.root.compare c.root ∧
        ((a.compare b).isLE = true → (b.compare c).isLE = true → b.serverId = a.serverId)) ∧
    ∀ (α : Type) (m : OrderedMap α) (server : String),
      let own := m.entries.filter fun e => e.1.serverId == server
      (∃ before after, m.entries = before ++ (own ++ after)) ∧
        own.Pairwise fun x y => x.1.root.compare y.1.root = .lt := by
  refine ⟨fun a b c => ⟨ReflCmp.compare_self, OrientedCmp.eq_swap, isLE_total a b,
      fun hab hba => compare_eq_iff.1 (OrientedCmp.isLE_antisymm hab hba), TransCmp.isLE_trans⟩,
    fun a b => ⟨compare_eq_iff, ?_, ?_, interchangeable_iff.symm⟩, fun id root part hpart => ?_,
    fun α t k x => ⟨OrderedMap.find?_ofTable t k, OrderedMap.ofTable_insert t k x⟩,
    fun r clients live broken starting hclients hlive hbroken hstarting =>
      ⟨r.liveClients_eq hclients, fun server => ?_⟩,
    fun a b c hid =>
      ⟨compare_of_serverId_eq hid, fun hab hbc => serverId_eq_of_between hab hbc hid⟩,
    fun α m server => ⟨⟨_, _, OrderedMap.eq_append_filter m.ascending server⟩, ?_⟩⟩
  · rw [beq_iff, Path.beq_iff]
  · rw [beq_iff, Path.beq_iff_shortens]
  · rw [Bool.eq_false_iff, Ne, beq_iff, root.not_beq_join_up hpart]
    simp
  · rw [r.mergeStates_eq hlive hbroken hstarting]
    rfl
  · refine (m.ascending.filter _).imp_of_mem fun {x y} hx hy hxy => ?_
    have hid : x.1.serverId = y.1.serverId :=
      (eq_of_beq (List.mem_filter.1 hx).2).trans (eq_of_beq (List.mem_filter.1 hy).2).symm
    rwa [compare_of_serverId_eq hid] at hxy

/-- A roster in which an instance at the root directory is live, as is one at a directory whose name
is no text. The second one is being started again under another spelling of its root. -/
def sampleRoster : Roster :=
  { Roster.create [] [] with
    live := .ofList [(⟨"s", ⟨[47, 255]⟩⟩, 0), (⟨"s", ⟨[47]⟩⟩, 1)]
    starting := .ofList [(⟨"s", ⟨[47, 47, 255, 47, 46]⟩⟩, 0)] }

/-- Both instances of the sample have one entry in the status, in the order of their roots, and what
stands between the second one and a directory in it belongs to the same server. The second root is
not that of a path which comes back to it. -/
theorem soundly_ordered_sample :
    (⟨"s", ⟨[47, 255]⟩⟩ : InstanceKey).Interchangeable ⟨"s", ⟨[47, 47, 255, 47, 46]⟩⟩ ∧
      ((⟨"s", ((⟨[47, 255]⟩ : Path).join ⟨[97]⟩).join ⟨[46, 46]⟩⟩ : InstanceKey) ==
        ⟨"s", ⟨[47, 255]⟩⟩) = false ∧
      (sampleRoster.instances "s").map (fun i => (i.root, i.state)) =
        [(⟨[47]⟩, .running), (⟨[47, 255]⟩, .spawning)] ∧
      ∀ k : InstanceKey, (compare ⟨"s", ⟨[47, 255]⟩⟩ k).isLE = true →
        (k.compare ⟨"s", ⟨[47, 255, 47, 97]⟩⟩).isLE = true →
          k.serverId = "s" ∧ (compare ⟨"s", ⟨[47]⟩⟩ k).isLE = true := by
  obtain ⟨htotal, hequal, hup, -, hcontainers, hbetween, -⟩ := soundly_ordered
  refine ⟨(hequal _ _).2.2.2.1 (by decide), hup "s" _ _ ⟨rfl, by decide⟩, ?_, fun k hk hk' => ?_⟩
  · obtain ⟨-, hinstances⟩ := hcontainers sampleRoster sampleRoster.live.entries
      [⟨"s", ⟨[47]⟩⟩, ⟨"s", ⟨[47, 255]⟩⟩] [] [⟨"s", ⟨[47, 47, 255, 47, 46]⟩⟩] (.refl _)
      (.swap ..) (.refl _) (.refl _)
    rw [hinstances]
    decide +kernel
  · obtain ⟨-, -, -, -, htrans⟩ := htotal ⟨"s", ⟨[47]⟩⟩ ⟨"s", ⟨[47, 255]⟩⟩ k
    obtain ⟨-, hown⟩ := hbetween ⟨"s", ⟨[47, 255]⟩⟩ k ⟨"s", ⟨[47, 255, 47, 97]⟩⟩ rfl
    exact ⟨hown hk hk', htrans (by decide +kernel) hk⟩

end InstanceKey

end ServerFleet
