import Mathlib.Data.List.Induction
import NoteTemplate.Json.Value
import NoteTemplate.Proofs.OrderedMap

/-!
# Sorted members

Sorting the members of an object leaves one member per name, in the order of the names. A list
of that kind is determined by its look-ups.

* `lookup_sortMembers`, `increasing_sortMembers`: what sorting does.
* `eq_of_lookup`: increasing members with the same look-ups are the same.
-/

namespace NoteTemplate.Json.Value

open OrderedMap (lookup_cons lookup_eq_none_iff)

variable {β γ : Type}

/-- Every name is smaller than those behind it. -/
def Increasing (ms : List (Text × β)) : Prop := ms.Pairwise fun m n => m.1 < n.1

theorem lookup_insertMember (name k : Text) (b : β) (ms : List (Text × β)) :
    (insertMember name b ms).lookup k = if name = k then some b else ms.lookup k := by
  induction ms with
  | nil => exact lookup_cons k (name, b) []
  | cons m ms ih =>
    rw [insertMember]
    split
    · rename_i hm
      rw [lookup_cons, lookup_cons, hm]
      split <;> rfl
    · rename_i hne
      split
      · exact lookup_cons k (name, b) (m :: ms)
      · rw [lookup_cons, lookup_cons, ih]
        by_cases hm : m.1 = k
        · rw [if_pos hm, if_pos hm, if_neg fun hk => hne (hk.trans hm.symm)]
        · rw [if_neg hm, if_neg hm]

theorem mem_insertMember {name : Text} {b : β} {ms : List (Text × β)} {m : Text × β}
    (h : m ∈ insertMember name b ms) : m = (name, b) ∨ m ∈ ms := by
  induction ms with
  | nil => exact .inl (List.mem_singleton.mp h)
  | cons n ms ih =>
    rw [insertMember] at h
    split at h
    · rcases List.mem_cons.mp h with h | h
      · exact .inl h
      · exact .inr (List.mem_cons_of_mem n h)
    · split at h
      · exact List.mem_cons.mp h
      · rcases List.mem_cons.mp h with h | h
        · exact .inr (h ▸ List.mem_cons_self)
        · exact (ih h).imp id (List.mem_cons_of_mem n)

theorem increasing_insertMember (name : Text) (b : β) {ms : List (Text × β)}
    (h : Increasing ms) : Increasing (insertMember name b ms) := by
  induction ms with
  | nil => exact List.pairwise_singleton _ _
  | cons m ms ih =>
    obtain ⟨hlt, htail⟩ := List.pairwise_cons.mp h
    rw [insertMember]
    split
    · rename_i hname
      exact List.pairwise_cons.mpr ⟨fun n hn => hname ▸ hlt n hn, htail⟩
    · rename_i hne
      split
      · rename_i hless
        refine List.pairwise_cons.mpr ⟨fun n hn => ?_, h⟩
        rcases List.mem_cons.mp hn with rfl | hn
        · exact hless
        · exact List.lt_trans hless (hlt n hn)
      · rename_i hnot
        -- The names are ordered linearly, so the new one goes behind the first.
        have hless : m.1 < name := by
          by_cases hm : m.1 < name
          · exact hm
          · exact absurd (List.le_antisymm hm hnot) hne
        refine List.pairwise_cons.mpr ⟨fun n hn => ?_, ih htail⟩
        rcases mem_insertMember hn with rfl | hn
        · exact hless
        · exact hlt n hn

theorem sortMembers_append (ms : List (Text × β)) (m : Text × β) :
    sortMembers (ms ++ [m]) = insertMember m.1 m.2 (sortMembers ms) := by
  rw [sortMembers, List.foldl_append]
  rfl

/-- Of several members with one name the last is kept. -/
theorem lookup_sortMembers (k : Text) (ms : List (Text × β)) :
    (sortMembers ms).lookup k = ms.reverse.lookup k := by
  induction ms using List.reverseRecOn with
  | nil => rfl
  | append_singleton ms m ih =>
    rw [sortMembers_append, lookup_insertMember, ih, List.reverse_concat, lookup_cons]

theorem mem_of_mem_sortMembers {ms : List (Text × β)} {m : Text × β} (h : m ∈ sortMembers ms) :
    m ∈ ms := by
  induction ms using List.reverseRecOn with
  | nil => exact h
  | append_singleton ms n ih =>
    rw [sortMembers_append] at h
    rw [List.mem_append, List.mem_singleton]
    exact (mem_insertMember h).symm.imp ih id

theorem increasing_sortMembers (ms : List (Text × β)) : Increasing (sortMembers ms) := by
  induction ms using List.reverseRecOn with
  | nil => exact List.Pairwise.nil
  | append_singleton ms m ih =>
    rw [sortMembers_append]
    exact increasing_insertMember m.1 m.2 ih

/-- Sorting looks at the names only. -/
theorem sortMembers_map (f : β → γ) (ms : List (Text × β)) :
    sortMembers (ms.map fun m => (m.1, f m.2)) = (sortMembers ms).map fun m => (m.1, f m.2) := by
  have hinsert : ∀ (name : Text) (b : β) (ms : List (Text × β)),
      insertMember name (f b) (ms.map fun m => (m.1, f m.2)) =
        (insertMember name b ms).map fun m => (m.1, f m.2) := by
    intro name b ms
    induction ms with
    | nil => rfl
    | cons m ms ih =>
      rw [List.map_cons, insertMember, insertMember, ih]
      split
      · rfl
      · split <;> rfl
  induction ms using List.reverseRecOn with
  | nil => rfl
  | append_singleton ms m ih =>
    rw [List.map_append, List.map_singleton, sortMembers_append, sortMembers_append, ih, hinsert]

theorem nodup_of_increasing {ms : List (Text × β)} (h : Increasing ms) :
    (ms.map Prod.fst).Nodup := by
  refine List.pairwise_map.mpr (List.Pairwise.imp ?_ h)
  intro m n hlt heq
  exact List.lt_irrefl n.1 (heq ▸ hlt)

theorem lookup_of_lt {k : Text} {ms : List (Text × β)} (h : ∀ m ∈ ms, k < m.1) :
    ms.lookup k = none := by
  rw [lookup_eq_none_iff, List.mem_map]
  rintro ⟨m, hm, rfl⟩
  exact List.lt_irrefl m.1 (h m hm)

/-- A name that is smaller than all others is not missing in a list with the same look-ups. -/
theorem not_lt_of_lookup {p q : Text × β} {ps qs : List (Text × β)} (hq : ∀ x ∈ qs, q.1 < x.1)
    (h : (p :: ps).lookup p.1 = (q :: qs).lookup p.1) : ¬ p.1 < q.1 := by
  intro hlt
  have hnone : (q :: qs).lookup p.1 = none := by
    apply lookup_of_lt
    intro x hx
    rcases List.mem_cons.mp hx with rfl | hx
    · exact hlt
    · exact List.lt_trans hlt (hq x hx)
  rw [hnone, lookup_cons, if_pos rfl] at h
  cases h

theorem eq_of_lookup {ms ns : List (Text × β)} (hms : Increasing ms) (hns : Increasing ns)
    (h : ∀ k, ms.lookup k = ns.lookup k) : ms = ns := by
  induction ms generalizing ns with
  | nil =>
    cases ns with
    | nil => rfl
    | cons n ns =>
      have hn := h n.1
      rw [List.lookup_nil, lookup_cons, if_pos rfl] at hn
      cases hn
  | cons m ms ih =>
    cases ns with
    | nil =>
      have hm := h m.1
      rw [List.lookup_nil, lookup_cons, if_pos rfl] at hm
      cases hm
    | cons n ns =>
      obtain ⟨hm, hms⟩ := List.pairwise_cons.mp hms
      obtain ⟨hn, hns⟩ := List.pairwise_cons.mp hns
      have hname : m.1 = n.1 :=
        List.le_antisymm (not_lt_of_lookup hm (h n.1).symm) (not_lt_of_lookup hn (h m.1))
      have hvalue := h m.1
      rw [lookup_cons, lookup_cons, if_pos rfl, if_pos hname.symm] at hvalue
      have htail : ms = ns := by
        refine ih hms hns fun k => ?_
        have hk := h k
        rw [lookup_cons, lookup_cons, hname] at hk
        split at hk
        · rename_i heq
          rw [lookup_of_lt fun x hx => heq ▸ hname ▸ hm x hx, lookup_of_lt fun x hx => heq ▸ hn x hx]
        · exact hk
      rw [htail, Prod.ext hname (Option.some.inj hvalue)]

end NoteTemplate.Json.Value
