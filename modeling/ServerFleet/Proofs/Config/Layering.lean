import Mathlib.Data.List.Induction
import ServerFleet.Config.Decode
import ServerFleet.Config.Layer
import ServerFleet.Proofs.Json.Members

/-!
What a layer of configuration does to what is below it. A setting of the layer takes the place of
the one below, unless both are tables: those are merged name by name, at any depth. So what is read
without tables is what the highest layer sets that sets anything.
-/

namespace ServerFleet.Config

open Json (NamesOnce)
open ByName

variable {v j : Json} {below ms layer : List (String × Json)} {name k : String}

/-- A setting over what may be below it. -/
def combine (below above : Option Json) : Option Json :=
  match above with
  | some v => some (overlay (below.getD .null) v)
  | none => below

lemma overlay_of_leaf (h : v.asObject? = none) (b : Json) : overlay b v = v := by
  cases v with
  | object => cases h
  | _ => rfl

section Members

lemma overlayMembers_cons (below : List (String × Json)) (m : String × Json)
    (rest : List (String × Json)) :
    overlayMembers below (m :: rest) =
      overlayMembers (put m.1 (overlay (valueAt m.1 below) m.2) below) rest := by
  rw [overlayMembers, Json.setMember_eq_put]

lemma overlayMembers_concat (below ms : List (String × Json)) (m : String × Json) :
    overlayMembers below (ms ++ [m]) =
      put m.1 (overlay (valueAt m.1 (overlayMembers below ms)) m.2) (overlayMembers below ms) := by
  induction ms generalizing below with
  | nil => exact overlayMembers_cons below m []
  | cons first ms ih => rw [List.cons_append, overlayMembers_cons, overlayMembers_cons, ih]

/-- A layer that names nothing twice is put over what is below it name by name. -/
theorem value?_overlayMembers (h : (ms.map (·.1)).Nodup) (below : List (String × Json))
    (k : String) : value? k (overlayMembers below ms) = combine (value? k below) (value? k ms) := by
  induction ms generalizing below with
  | nil => rfl
  | cons m rest ih =>
    rw [List.map_cons, List.nodup_cons] at h
    rw [overlayMembers_cons, ih h.2, value?_put, value?_cons]
    by_cases hk : m.1 = k
    · have hnone : value? k rest = none := by
        rw [← Option.not_isSome_iff_eq_none, value?_isSome_iff, ← hk]
        exact h.1
      rw [if_pos hk, if_pos hk, hnone, ← hk]
      rfl
    · rw [if_neg hk, if_neg hk]

lemma nodup_overlayMembers (h : (below.map (·.1)).Nodup) (ms : List (String × Json)) :
    ((overlayMembers below ms).map (·.1)).Nodup := by
  induction ms generalizing below with
  | nil => exact h
  | cons m rest ih =>
    rw [overlayMembers_cons]
    exact ih (nodup_put h _ _)

/-- Settings of which nothing is below stay as they are. -/
theorem overlayMembers_eq_append (hnames : ((below ++ ms).map (·.1)).Nodup)
    (h : ∀ m ∈ ms, overlay .null m.2 = m.2) : overlayMembers below ms = below ++ ms := by
  induction ms generalizing below with
  | nil => exact (List.append_nil below).symm
  | cons m rest ih =>
    have hsplit : below ++ m :: rest = below ++ [m] ++ rest := by simp
    have hnew : m.1 ∉ below.map (·.1) := by
      rw [List.map_append, List.map_cons] at hnames
      exact fun hmem => List.disjoint_of_nodup_append hnames hmem List.mem_cons_self
    have hvalue : valueAt m.1 below = .null := by
      have hnone : value? m.1 below = none := by
        rwa [← Option.not_isSome_iff_eq_none, value?_isSome_iff]
      exact congrArg (·.getD .null) hnone
    rw [overlayMembers_cons, hvalue, h m List.mem_cons_self, put_of_notMem hnew, ih, hsplit]
    · rwa [← hsplit]
    · exact fun m hm => h m (List.mem_cons_of_mem _ hm)

lemma namesOnce_of_get? {u : Json} (hu : u.NamesOnce) (h : u.get? k = some v) : v.NamesOnce := by
  cases u with
  | object ms => exact hu.of_mem (mem_of_value? h)
  | _ => cases h

lemma overlay_null (h : v.NamesOnce) : overlay .null v = v := by
  induction h with
  | leaf _ hobject => exact overlay_of_leaf hobject _
  | array _ _ => rfl
  | object hnames _ ih => exact congrArg Json.object (overlayMembers_eq_append hnames ih)

end Members

section Combine

variable {b a : Option Json}

/-- What is under a name of combined tables are the combined values under the name. -/
theorem get?_combine (ha : ∀ v ∈ a, v.NamesOnce ∧ v.asObject?.isSome = true) (k : String) :
    (combine b a).bind (·.get? k) = combine (b.bind (·.get? k)) (a.bind (·.get? k)) := by
  cases a with
  | none => rfl
  | some v =>
    obtain ⟨honce, htable⟩ := ha v rfl
    cases v with
    | object ms =>
      have hbelow : value? k (tableMembers (b.getD .null)) = b.bind (·.get? k) := by
        cases b with
        | none => rfl
        | some u => cases u <;> rfl
      show value? k (overlayMembers _ ms) = combine _ (value? k ms)
      rw [value?_overlayMembers honce.nodup, hbelow]
    | _ => cases htable

/-- If combined values are a table, a value on top is one. -/
theorem asObject?_isSome_of_combine (h : combine b a = some (.object ms)) :
    ∀ v ∈ a, v.asObject?.isSome = true := by
  rintro v rfl
  cases v with
  | object => rfl
  | _ => cases h

/-- One setting over another: a table is merged name by name with what is below it, any other value
replaces that. -/
inductive Merges : Option Json → Option Json → Option Json → Prop
  | neither : Merges none none none
  | lower (u : Json) : Merges (some u) none (some u)
  | upper (v : Json) : Merges none (some v) (some v)
  | replaced (u : Json) {v : Json} (h : v.asObject? = none) : Merges (some u) (some v) (some v)
  | table (u : Json) {ms result : List (String × Json)} (hnames : (result.map (·.1)).Nodup)
      (h : ∀ name, Merges (u.get? name) (value? name ms) (value? name result)) :
      Merges (some u) (some (.object ms)) (some (.object result))

lemma merges_combine_of_overlay (ha : ∀ v ∈ a, v.NamesOnce)
    (h : ∀ u v, b = some u → a = some v → Merges (some u) (some v) (some (overlay u v))) :
    Merges b a (combine b a) := by
  cases a with
  | none =>
    cases b with
    | none => exact .neither
    | some u => exact .lower u
  | some v =>
    cases b with
    | none =>
      have hv : combine none (some v) = some v := congrArg some (overlay_null (ha v rfl))
      rw [hv]
      exact .upper v
    | some u => exact h u v rfl rfl

lemma get?_eq_value? (u : Json) (name : String) : u.get? name = value? name (tableMembers u) := by
  cases u <;> rfl

lemma namesOnce_tableMembers {u : Json} (h : u.NamesOnce) :
    NamesOnce (.object (tableMembers u)) := by
  cases u with
  | object => exact h
  | _ => exact Json.namesOnce_empty

lemma merges_overlay {u : Json} (hu : u.NamesOnce) (hv : v.NamesOnce) :
    Merges (some u) (some v) (some (overlay u v)) := by
  induction hv generalizing u with
  | leaf _ hobject =>
    rw [overlay_of_leaf hobject]
    exact .replaced u hobject
  | array _ _ => exact .replaced u rfl
  | @object ms hnames honce ih =>
    have hbelow := namesOnce_tableMembers hu
    refine .table u (nodup_overlayMembers hbelow.nodup ms) fun name => ?_
    rw [value?_overlayMembers hnames, get?_eq_value?]
    refine merges_combine_of_overlay (fun v hv => honce _ (mem_of_value? hv)) fun u v hu hv => ?_
    exact ih _ (mem_of_value? hv) (hbelow.of_mem (mem_of_value? hu))

/-- Combining settings merges them. -/
theorem merges_combine (hb : ∀ u ∈ b, u.NamesOnce) (ha : ∀ v ∈ a, v.NamesOnce) :
    Merges b a (combine b a) :=
  merges_combine_of_overlay ha fun u v hu hv => merges_overlay (hb u hu) (ha v hv)

end Combine

section Layers

/-- The last value that a layer sets under a name. -/
def lastValue? (k : String) (ms : List (String × Json)) : Option Json :=
  ((ms.filter (·.1 = k)).getLast?).map (·.2)

lemma lastValue?_concat (ms : List (String × Json)) (m : String × Json) (k : String) :
    lastValue? k (ms ++ [m]) = if m.1 = k then some m.2 else lastValue? k ms := by
  unfold lastValue?
  by_cases h : m.1 = k <;> simp [List.filter_append, h]

/-- In a layer without tables the last value under a name counts. -/
theorem value?_overlayMembers_of_leaves (h : ∀ m ∈ ms, m.2.asObject? = none)
    (below : List (String × Json)) (k : String) :
    value? k (overlayMembers below ms) = combine (value? k below) (lastValue? k ms) := by
  induction ms using List.reverseRecOn with
  | nil => rfl
  | append_singleton ms m ih =>
    have hm := h m (by simp)
    rw [overlayMembers_concat, value?_put, lastValue?_concat,
      ih fun m hm => h m (List.mem_append_left _ hm), overlay_of_leaf hm]
    split
    · exact congrArg some (overlay_of_leaf hm _).symm
    · rfl

/-- The names that are documented are addresses of one step. -/
theorem ofName_of_mem (h : name ∈ Reading.configFields) : Address.ofName name = ⟨name, []⟩ := by
  have hall : ∀ name ∈ Reading.configFields, Address.ofName name = ⟨name, []⟩ := by
    decide +kernel
  exact hall name h

lemma addLayer_eq_overlayMembers (h : ∀ m ∈ layer, m.1 ∈ Reading.configFields)
    (root : List (String × Json)) : addLayer root layer = overlayMembers root layer := by
  induction layer generalizing root with
  | nil => rfl
  | cons m rest ih =>
    obtain ⟨hm, hrest⟩ := List.forall_mem_cons.1 h
    have hput : putAt (Address.ofName m.1) m.2 root =
        put m.1 (overlay (valueAt m.1 root) m.2) root := by
      rw [ofName_of_mem hm, putAt, Json.setMember_eq_put]
      rfl
    rw [overlayMembers_cons, ← hput]
    exact ih hrest _

end Layers

section Settled

variable {α : Type} {read : Json → Option α} {fallback x : α} {settings : List (Option Json)}
  {a b : Option Json}

/-- The value of a setting is that of the first layer which sets it, the highest coming first, and
the default if none does. -/
def Settled (read : Json → Option α) (fallback : α) : List (Option Json) → α → Prop
  | [], x => x = fallback
  | some j :: _, x => read j = some x
  | none :: rest, x => Settled read fallback rest x

/-- Reads a setting that may be missing. -/
def readOr (read : Json → Option α) (fallback : α) (setting : Option Json) : Option α :=
  setting.elim (some fallback) read

lemma settled_iff_readOr :
    Settled read fallback settings x ↔ readOr read fallback (settings.findSome? id) = some x := by
  induction settings with
  | nil =>
    constructor
    · rintro rfl
      rfl
    · exact fun h => (Option.some.inj h).symm
  | cons setting rest ih =>
    cases setting with
    | none => exact ih
    | some j => exact Iff.rfl

lemma Settled.eq_of_readOr {y : α} (h : Settled read fallback settings x)
    (hy : readOr read fallback (settings.findSome? id) = some y) : x = y :=
  Option.some.inj ((settled_iff_readOr.1 h).symm.trans hy)

lemma member_eq_readOr (ms : List (String × Json)) (name : String) :
    Reading.member ms name read fallback = readOr read fallback (value? name ms) := by
  unfold Reading.member value?
  cases ms.find? (·.1 = name) <;> rfl

/-- What is no table is not mixed with what is below it. -/
theorem settled_combine (htable : ∀ ms, read (.object ms) = none)
    (hb : readOr read fallback b = some x → Settled read fallback settings x)
    (h : readOr read fallback (combine b a) = some x) :
    Settled read fallback (a :: settings) x := by
  cases a with
  | none => exact hb h
  | some v =>
    cases v with
    | object ms =>
      rw [combine, overlay] at h
      exact absurd ((htable _).symm.trans h) nofun
    | _ => exact h

lemma settled_single (h : readOr read fallback b = some x) : Settled read fallback [b] x := by
  cases b with
  | none => exact (Option.some.inj h).symm
  | some j => exact h

lemma nullable_object (h : ∀ ms, read (.object ms) = none) (ms : List (String × Json)) :
    Reading.nullable read (.object ms) = none := by
  show (read (.object ms)).map some = none
  rw [h]
  rfl

end Settled

section Dictionary

variable {α : Type} {read : Json → Option α} {out : List (String × α)} {setting a b : Option Json}

def entry (read : Json → Option α) (j : Json) : Option (Option α) := (read j).map some

lemma entry_object (h : ∀ ms, read (.object ms) = none) (ms : List (String × Json)) :
    entry read (.object ms) = none := by
  rw [entry, h]
  rfl

lemma exists_of_readOr_entry {x : α} (h : readOr (entry read) none setting = some (some x)) :
    ∃ j, setting = some j ∧ read j = some x := by
  cases setting with
  | none => cases h
  | some j =>
    obtain ⟨y, hy, hxy⟩ := Option.map_eq_some_iff.1 h
    cases hxy
    exact ⟨j, rfl, hy⟩

lemma isSome_of_readOr_entry {x : Option α} (h : readOr (entry read) none setting = some x) :
    x.isSome = setting.isSome := by
  cases setting with
  | none =>
    cases h
    rfl
  | some j =>
    obtain ⟨y, -, rfl⟩ := Option.map_eq_some_iff.1 h
    rfl

/-- A dictionary has the names of the table it is read from, with what is read from their values. -/
theorem dictionary_object (h : Reading.dictionary read (.object ms) = some out) :
    out.map (·.1) = ms.map (·.1) ∧
      ∀ name, readOr (entry read) none (value? name ms) = some (value? name out) := by
  replace h : (ms.mapM fun m => do return (m.1, ← read m.2)) = some out := h
  induction ms generalizing out with
  | nil =>
    cases h
    exact ⟨rfl, fun _ => rfl⟩
  | cons m rest ih =>
    rw [List.mapM_cons] at h
    obtain ⟨first, hfirst, h⟩ := Option.bind_eq_some_iff.1 h
    obtain ⟨more, hmore, h⟩ := Option.bind_eq_some_iff.1 h
    obtain ⟨x, hx, hfirst⟩ := Option.bind_eq_some_iff.1 hfirst
    cases hfirst
    cases h
    obtain ⟨hnames, hvalues⟩ := ih hmore
    refine ⟨congrArg (m.1 :: ·) hnames, fun name => ?_⟩
    rw [value?_cons, value?_cons]
    by_cases hname : m.1 = name
    · rw [if_pos hname, if_pos hname]
      exact congrArg (·.map some) hx
    · rw [if_neg hname, if_neg hname]
      exact hvalues name

/-- A dictionary is read from a table. -/
theorem exists_object_of_dictionary (h : readOr (Reading.dictionary read) [] setting = some out) :
    ∀ v ∈ setting, ∃ ms, v = .object ms := by
  rintro v rfl
  cases v with
  | object ms => exact ⟨ms, rfl⟩
  | _ => cases h

lemma readOr_dictionary (h : readOr (Reading.dictionary read) [] setting = some out)
    (name : String) :
    readOr (entry read) none (setting.bind (·.get? name)) = some (value? name out) := by
  cases setting with
  | none =>
    cases h
    rfl
  | some v =>
    obtain ⟨ms, rfl⟩ := exists_object_of_dictionary h v rfl
    exact (dictionary_object h).2 name

/-- What a dictionary has under a name is read from the combined values under the name. -/
theorem readOr_dictionary_combine (ha : ∀ v ∈ a, v.NamesOnce)
    (h : readOr (Reading.dictionary read) [] (combine b a) = some out) (name : String) :
    readOr (entry read) none (combine (b.bind (·.get? name)) (a.bind (·.get? name))) =
      some (value? name out) := by
  rw [← get?_combine fun v hv => ⟨ha v hv, ?_⟩]
  · exact readOr_dictionary h name
  · cases a with
    | none => cases hv
    | some w =>
      obtain ⟨ms, hms⟩ := exists_object_of_dictionary h _ rfl
      have hcombine : combine b (some w) = some (.object ms) := congrArg some hms
      exact asObject?_isSome_of_combine hcombine v hv

lemma nodup_names_of_dictionary (hb : ∀ u ∈ b, u.NamesOnce) (ha : ∀ v ∈ a, v.NamesOnce)
    (h : readOr (Reading.dictionary read) [] (combine b a) = some out) :
    (out.map (·.1)).Nodup := by
  cases hsetting : combine b a with
  | none =>
    rw [hsetting] at h
    cases h
    exact List.nodup_nil
  | some v =>
    obtain ⟨ms, rfl⟩ := exists_object_of_dictionary h v hsetting
    rw [hsetting] at h
    rw [(dictionary_object h).1]
    cases a with
    | none => exact (hb _ hsetting).nodup
    | some w =>
      cases w with
      | object ws =>
        cases hsetting
        have hbelow : (b.getD .null).NamesOnce := by
          cases b with
          | none => exact .leaf rfl rfl
          | some u => exact hb u rfl
        exact nodup_overlayMembers (namesOnce_tableMembers hbelow).nodup ws
      | _ => cases hsetting

end Dictionary

end ServerFleet.Config
