import Mathlib.Data.List.TakeWhile
import ServerFleet.Proofs.Path.Spelling

/-!
The extension of a path. It follows the last dot of a name, so there is no dot in it, neither as an
octet nor, where it is UTF-8, as a character: no character but the dot itself is spelled with the
value of a dot.
-/

namespace ServerFleet

namespace Bytes

/-- An unfinished character will not become a dot: bits of a longer character have been read, or
the next octet has some. -/
def Pending.Past (p : Pending) : Prop := 1 ≤ p.value ∨ 2 ≤ p.owed ∧ 0x90 ≤ p.low.toNat

lemma Pending.past_of_lead {b : UInt8} {p : Pending} (h : lead b = .longer p) : p.Past := by
  unfold lead at h
  dsimp only at h
  unfold Past
  split_ifs at h <;> simp only [Lead.longer.injEq] at h <;> subst h
  all_goals simp
  all_goals omega

lemma eq_of_ofNat_eq_dot {n : Nat} (h : Char.ofNat n = '.') : n = 46 := by
  unfold Char.ofNat at h
  by_cases hn : n.isValidChar
  · rw [dif_pos hn] at h
    exact congrArg Char.toNat h
  · rw [dif_neg hn] at h
    exact absurd h (by decide)

lemma eq_dot_of_lead {b : UInt8} (h : lead b = .ascii '.') : b = dot := by
  unfold lead at h
  dsimp only at h
  split_ifs at h
  simp only [Lead.ascii.injEq] at h
  exact UInt8.toNat_inj.1 (eq_of_ofNat_eq_dot h)

/-- What has been read of a character stays past a dot with the next octet. -/
theorem Pending.Past.next {p : Pending} {b : UInt8} (h : p.Past) (hlow : p.low ≤ b) (owed : Nat)
    (low high : UInt8) : Pending.Past ⟨p.value * 64 + (b.toNat - 0x80), owed, low, high⟩ := by
  have hb : p.low.toNat ≤ b.toNat := hlow
  left
  dsimp only
  rcases h with hvalue | ⟨-, hrange⟩ <;> omega

lemma Pending.Past.ofNat_ne_dot {p : Pending} (h : p.Past) (howed : p.owed ≤ 1) (n : Nat) :
    Char.ofNat (p.value * 64 + n) ≠ '.' := by
  intro hdot
  have hn := eq_of_ofNat_eq_dot hdot
  rcases h with hvalue | ⟨hmore, -⟩ <;> omega

lemma dot_mem_of_first {b : UInt8} {rest : Bytes}
    (hrest : ∀ p : Option Pending, (∀ q, p = some q → q.Past) →
      some '.' ∈ scalarsAfter p rest → dot ∈ rest)
    (h : some '.' ∈ scalarsAfter none (b :: rest)) : dot ∈ b :: rest := by
  rw [scalarsAfter] at h
  split at h
  · next c hc =>
    rcases List.mem_cons.1 h with heq | h
    · cases heq
      rw [eq_dot_of_lead hc]
      exact List.mem_cons_self
    · exact List.mem_cons_of_mem _ (hrest none (by simp) h)
  · next q hq =>
    refine List.mem_cons_of_mem _ (hrest (some q) ?_ h)
    rintro _ ⟨⟩
    exact Pending.past_of_lead hq
  · exact List.mem_cons_of_mem _ (hrest none (by simp) (by simpa using h))

/-- Only the octet of a dot is read as a dot. -/
theorem dot_mem_of_mem_scalarsAfter {p : Option Pending} {b : Bytes}
    (hp : ∀ q, p = some q → q.Past) (h : some '.' ∈ scalarsAfter p b) : dot ∈ b := by
  induction b generalizing p with
  | nil => cases p <;> simp [scalarsAfter] at h
  | cons b rest ih =>
    have hrest : ∀ p : Option Pending, (∀ q, p = some q → q.Past) →
        some '.' ∈ scalarsAfter p rest → dot ∈ rest := fun p => ih
    cases p with
    | none => exact dot_mem_of_first hrest h
    | some q =>
      have hq := hp q rfl
      rw [scalarsAfter] at h
      split at h
      · next hrange =>
        dsimp only at h
        split at h
        · next howed =>
          rcases List.mem_cons.1 h with hdot | h
          · exact absurd (Option.some.inj hdot).symm (hq.ofNat_ne_dot howed _)
          · exact List.mem_cons_of_mem _ (hrest none (by simp) h)
        · refine List.mem_cons_of_mem _ (hrest _ ?_ h)
          intro r hr
          rw [← Option.some.inj hr]
          exact hq.next hrange.1 _ _ _
      · -- the octet is read again as the first one of a character
        have hfirst : some '.' ∈ scalarsAfter none (b :: rest) := by
          rw [scalarsAfter]
          simpa using h
        exact dot_mem_of_first hrest hfirst

lemma dot_mem_of_decode? {b : Bytes} {s : String} (hs : decode? b = some s)
    (h : '.' ∈ s.toList) : dot ∈ b := by
  unfold decode? at hs
  dsimp only at hs
  split at hs
  · cases hs
    have hmem : some '.' ∈ scalars b := by simpa using h
    exact dot_mem_of_mem_scalarsAfter (by simp) hmem
  · cases hs

end Bytes

namespace Path

lemma dot_notMem_nameExtension? {n e : Bytes} (h : nameExtension? n = some e) :
    Bytes.dot ∉ e := by
  unfold nameExtension? at h
  dsimp only at h
  split at h
  · cases h
  · cases h
    intro hmem
    simpa using List.mem_takeWhile_imp (List.mem_reverse.1 hmem)

/-- There is no dot in the text of an extension. -/
theorem dot_notMem_extension? {p : Path} {e : String}
    (h : p.extension?.bind Bytes.decode? = some e) : '.' ∉ e.toList := by
  obtain ⟨b, hb, he⟩ := Option.bind_eq_some_iff.1 h
  obtain ⟨n, -, hn⟩ := Option.bind_eq_some_iff.1 hb
  intro hdot
  exact dot_notMem_nameExtension? hn (Bytes.dot_mem_of_decode? he hdot)

section Name

open Bytes

variable {p : Path} {n part e : Bytes}

/-- The last part of a path is its name, if it stands for a step down. -/
theorem fileName?_of_segments {parts : List Bytes} (hs : p.segments = parts ++ [part])
    (h : IsStep part) (hup : part ≠ [dot, dot]) : p.fileName? = some part := by
  have hdot : part ≠ [dot] := by
    rintro rfl
    cases h.significant
  have hname : Component.ofSegment? part = some (.name part) := by
    rw [Component.ofSegment?, if_neg h.ne_nil, if_neg hdot, if_neg hup]
  have hlast : p.components.getLast? = some (.name part) := by
    rw [components, hs, List.filterMap_append]
    simp [hname]
  rw [fileName?, hlast]

/-- A path below a directory has the name that was put there. -/
theorem fileName?_join (dir : Path) (h : IsStep part) (hup : part ≠ [dot, dot]) :
    (dir.join ⟨part⟩).fileName? = some part := by
  by_cases hdir : dir.bytes = []
  · have hjoin : dir.join ⟨part⟩ = ⟨part⟩ := by
      rw [join, if_neg (by simp [h.not_isAbsolute]), if_pos hdir]
    have hsegments : Path.segments ⟨part⟩ = [] ++ [part] := h.segments
    rw [hjoin]
    exact fileName?_of_segments hsegments h hup
  · have hsegments := segments_join hdir h.not_isAbsolute
    rw [h.segments] at hsegments
    exact fileName?_of_segments hsegments h hup

/-- A name with more behind a dot is a name. -/
theorem IsStep.append_dot (h : IsStep n) (he : slash ∉ e) :
    IsStep (n ++ dot :: e) ∧ n ++ dot :: e ≠ [dot, dot] := by
  have hdot : n ≠ [dot] := by
    rintro rfl
    cases h.significant
  refine ⟨⟨?_, ?_⟩, ?_⟩
  · have hne : n ++ dot :: e ≠ [dot] := by
      intro heq
      have hlength := congrArg List.length heq
      have hpos := List.length_pos_iff.2 h.ne_nil
      simp only [List.length_append, List.length_cons, List.length_nil] at hlength
      omega
    simp [insignificant, hne]
  · have hslash : slash ≠ dot := by decide
    simp [h.slash_notMem, he, hslash]
  · intro heq
    obtain ⟨x, rest, rfl⟩ := List.exists_cons_of_ne_nil h.ne_nil
    obtain ⟨rfl, hrest⟩ := List.cons.inj heq
    cases rest with
    | nil => exact hdot rfl
    | cons y rest => simp at hrest

lemma isStep_of_fileName? (h : p.fileName? = some n) : IsStep n := by
  have hlast : p.components.getLast? = some (.name n) := by
    unfold fileName? at h
    split at h
    · next m hm =>
      cases h
      exact hm
    · cases h
  rcases List.mem_append.1 (List.mem_of_getLast? hlast) with hfront | hbody
  · have hname : ∀ c ∈ p.front, c ≠ .name n := by
      unfold front
      split_ifs <;> simp
    exact absurd rfl (hname _ (by simpa using hfront))
  · obtain ⟨part, hpart, hc⟩ := List.mem_filterMap.1 hbody
    unfold Component.ofSegment? at hc
    split_ifs at hc with hnil hdot hup
    · cases hc
    · obtain rfl : part = n := Component.name.inj (Option.some.inj hc)
      exact ⟨by simp [insignificant, hnil, hdot], not_mem_of_mem_splitOn hpart⟩

/-- What was put behind the last dot of a name is its extension. -/
theorem nameExtension?_append (hn : n ≠ []) (he : dot ∉ e) :
    nameExtension? (n ++ dot :: e) = some e := by
  have htail : (n ++ dot :: e).reverse.takeWhile (· ≠ dot) = e.reverse := by
    rw [List.reverse_append, List.reverse_cons, List.append_assoc]
    rw [List.takeWhile_append_of_pos, List.singleton_append, List.takeWhile_cons_of_neg]
    · exact List.append_nil _
    · simp
    · intro b hb
      have hne : b ≠ dot := by
        rintro rfl
        exact he (List.mem_reverse.1 hb)
      simpa using hne
  have hlength : 0 < n.length := List.length_pos_iff.2 hn
  unfold nameExtension?
  dsimp only
  rw [htail, if_neg, List.reverse_reverse]
  rw [List.length_append, List.length_cons, List.length_reverse]
  omega

end Name

end Path

end ServerFleet
