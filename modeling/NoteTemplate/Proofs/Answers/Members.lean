import NoteTemplate.Answers.Json
import NoteTemplate.Proofs.Json.Order
import NoteTemplate.Proofs.OrderedMap

/-!
# Members of a document of answers

What is read from the members of an object, and from which members it is read. In a sorted value
no name comes twice, so whatever is read says what stands there.

* `map_eq_ok_iff`, `exists_map_iff`: objects whose members are all of one kind.
* `namespace?_eq_some_iff`, `exists_namespace?_iff`: arrays of such objects.
* `mem_namespacesOf`: the members that are namespaces.
-/

namespace NoteTemplate.Answers

open Json (Value)
open Json.Value (Increasing)

theorem text_eq_ok_iff {v : Value} {s : Text} : text v = .ok s ↔ v = .string s := by
  cases v <;> simp [text]

theorem choice_eq_ok_iff {v : Value} {b : Bool} : choice v = .ok b ↔ v = .bool b := by
  cases v <;> simp [choice]

/-! ## Objects of one kind -/

/-- An object whose members are all of one kind. -/
def ObjectOf {α : Type} (toValue : α → Value) (v : Value) : Prop :=
  ∃ ms, v = .object ms ∧ ∀ m ∈ ms, ∃ a, m.2 = toValue a

theorem increasing_of_mapToJson {α : Type} {toValue : α → Value} {m : OrderedMap Text α}
    (h : (mapToJson toValue m).Sorted) : Increasing m.entries := by
  have hmembers := (Json.Value.sorted_object_iff.mp h).1
  rw [Increasing, List.pairwise_map] at hmembers
  exact hmembers

section Kinds

variable {α : Type} {kind : Value → Except Json.Mismatch α} {toValue : α → Value}

theorem members_map (hkind : ∀ x, kind (toValue x) = .ok x) (ps : List (Text × α)) :
    members kind (ps.map fun p => (p.1, toValue p.2)) = .ok ps := by
  induction ps with
  | nil => rfl
  | cons p ps ih => rw [List.map_cons, members, hkind, ih]

variable (hkind : ∀ {v : Value} {a : α}, kind v = .ok a ↔ v = toValue a)
include hkind

theorem toValue_inj {a b : α} (h : toValue a = toValue b) : a = b := by
  have ha : kind (toValue b) = .ok a := hkind.mpr h.symm
  rw [hkind.mpr rfl] at ha
  exact (Except.ok.inj ha).symm

theorem members_eq_ok_iff {ms : List (Text × Value)} {ps : List (Text × α)} :
    members kind ms = .ok ps ↔ ms = ps.map fun p => (p.1, toValue p.2) := by
  constructor
  · intro h
    induction ms generalizing ps with
    | nil => cases h; rfl
    | cons m ms ih =>
      obtain ⟨name, v⟩ := m
      rw [members] at h
      split at h
      · cases h
      rename_i a ha
      split at h
      · cases h
      rename_i hps
      cases h
      rw [List.map_cons, ← ih hps, hkind.mp ha]
  · rintro rfl
    exact members_map (fun _ => hkind.mpr rfl) ps

theorem exists_members_iff {ms : List (Text × Value)} :
    (∃ ps, members kind ms = .ok ps) ↔ ∀ m ∈ ms, ∃ a, m.2 = toValue a := by
  simp only [members_eq_ok_iff hkind]
  constructor
  · rintro ⟨ps, rfl⟩ m hm
    obtain ⟨p, -, rfl⟩ := List.mem_map.mp hm
    exact ⟨p.2, rfl⟩
  · intro h
    induction ms with
    | nil => exact ⟨[], rfl⟩
    | cons m ms ih =>
      obtain ⟨a, ha⟩ := h m List.mem_cons_self
      obtain ⟨ps, hps⟩ := ih fun n hn => h n (List.mem_cons_of_mem m hn)
      exact ⟨(m.1, a) :: ps, by rw [List.map_cons, ← hps, ← ha]⟩

theorem map_eq_ok_iff {v : Value} (hv : v.Sorted) {m : OrderedMap Text α} :
    map kind v = .ok m ↔ v = mapToJson toValue m := by
  constructor
  · intro h
    cases hv with
    | null => cases h
    | bool b => cases h
    | number n => cases h
    | string s => cases h
    | array _ => cases h
    | @object ms hms _ =>
      obtain ⟨ps, hps, rfl⟩ := Json.exists_of_map_ok h
      obtain rfl := (members_eq_ok_iff hkind).mp hps
      have hnodup : (ps.map Prod.fst).Nodup := by
        have := Json.Value.nodup_of_increasing hms
        rwa [List.map_map] at this
      rw [mapToJson, OrderedMap.entries_ofList hnodup]
  · rintro rfl
    have hmembers := (members_eq_ok_iff hkind).mpr (Eq.refl (m.entries.map _))
    rw [mapToJson, map, hmembers]
    exact congrArg Except.ok (OrderedMap.ext (OrderedMap.entries_ofList m.nodup_keys))

theorem exists_map_iff {v : Value} : (∃ m, map kind v = .ok m) ↔ ObjectOf toValue v := by
  constructor
  · rintro ⟨m, h⟩
    rw [map.eq_def] at h
    split at h
    · rename_i ms
      obtain ⟨ps, hps, -⟩ := Json.exists_of_map_ok h
      exact ⟨ms, rfl, (exists_members_iff hkind).mp ⟨ps, hps⟩⟩
    · cases h
  · rintro ⟨ms, rfl, hms⟩
    obtain ⟨ps, hps⟩ := (exists_members_iff hkind).mpr hms
    exact ⟨OrderedMap.ofList ps, by rw [map, hps]; rfl⟩

theorem increasing_map {v : Value} {m : OrderedMap Text α} (hv : v.Sorted)
    (h : map kind v = .ok m) : Increasing m.entries := by
  obtain rfl := (map_eq_ok_iff hkind hv).mp h
  exact increasing_of_mapToJson hv

variable {name : Text} {ms : List (Text × Value)}

theorem exists_mapOf_iff (hms : Increasing ms) :
    (∃ m, mapOf kind name ms = .ok m) ↔ ∀ v, (name, v) ∈ ms → ObjectOf toValue v := by
  have hlookup (v : Value) : ms.lookup name = some v ↔ (name, v) ∈ ms :=
    OrderedMap.lookup_eq_some_iff (Json.Value.nodup_of_increasing hms)
  simp only [← hlookup, mapOf]
  cases ms.lookup name with
  | none => exact iff_of_true ⟨∅, rfl⟩ fun v hv => by cases hv
  | some w => simp [exists_map_iff hkind]

/-- The map in a member has the pairs of the object that the member is. -/
theorem find?_mapOf (hms : (Value.object ms).Sorted) {m : OrderedMap Text α}
    (h : mapOf kind name ms = .ok m) (k : Text) (a : α) :
    m.find? k = some a ↔ ∃ ps, (name, .object ps) ∈ ms ∧ (k, toValue a) ∈ ps := by
  obtain ⟨hincreasing, hvalues⟩ := Json.Value.sorted_object_iff.mp hms
  have hlookup (v : Value) : ms.lookup name = some v ↔ (name, v) ∈ ms :=
    OrderedMap.lookup_eq_some_iff (Json.Value.nodup_of_increasing hincreasing)
  rw [mapOf] at h
  simp only [← hlookup]
  split at h
  · rename_i hnone
    cases h
    rw [hnone]
    have hfound : (∅ : OrderedMap Text α).find? k = none := rfl
    rw [hfound]
    simp
  · rename_i v hsome
    have hv : v.Sorted := hvalues _ (OrderedMap.mem_of_lookup hsome)
    rw [hsome, (map_eq_ok_iff hkind hv).mp h]
    constructor
    · intro hfound
      exact ⟨_, rfl, List.mem_map.mpr ⟨(k, a), OrderedMap.mem_of_find? hfound, rfl⟩⟩
    · rintro ⟨ps, heq, hmem⟩
      cases heq
      obtain ⟨p, hp, heq⟩ := List.mem_map.mp hmem
      obtain ⟨hk, ha⟩ := Prod.mk.inj heq
      rw [← hk, ← toValue_inj hkind ha]
      exact OrderedMap.find?_of_mem hp

theorem increasing_mapOf {m : OrderedMap Text α} (hms : ∀ p ∈ ms, p.2.Sorted)
    (h : mapOf kind name ms = .ok m) : Increasing m.entries := by
  rw [mapOf] at h
  split at h
  · cases h
    exact List.Pairwise.nil
  · rename_i v hlookup
    exact increasing_map hkind (hms _ (OrderedMap.mem_of_lookup hlookup)) h

end Kinds

/-! ## Namespaces -/

/-- The member of a namespace. -/
def namespaceToJson (items : List Item) : Value := .array (items.map (mapToJson .string))

theorem itemsOf?_eq_some_iff {vs : List Value} (hvs : ∀ v ∈ vs, v.Sorted) {items : List Item} :
    itemsOf? vs = some items ↔ vs = items.map (mapToJson .string) := by
  induction vs generalizing items with
  | nil => cases items <;> simp [itemsOf?]
  | cons v vs ih =>
    obtain ⟨hv, hvs⟩ := List.forall_mem_cons.mp hvs
    rw [itemsOf?]
    constructor
    · intro h
      split at h
      · rename_i hitem hitems
        cases h
        rw [List.map_cons, ← (map_eq_ok_iff text_eq_ok_iff hv).mp hitem, ← (ih hvs).mp hitems]
      · cases h
    · intro h
      cases items with
      | nil => cases h
      | cons item items =>
        obtain ⟨hitem, hitems⟩ := List.cons.inj h
        rw [(map_eq_ok_iff text_eq_ok_iff hv).mpr hitem, (ih hvs).mpr hitems]

theorem exists_itemsOf?_iff {vs : List Value} :
    (∃ items, itemsOf? vs = some items) ↔ ∀ v ∈ vs, ObjectOf .string v := by
  induction vs with
  | nil => simp [itemsOf?]
  | cons v vs ih =>
    rw [List.forall_mem_cons, ← ih, ← exists_map_iff text_eq_ok_iff, itemsOf?]
    cases map text v <;> cases itemsOf? vs <;> simp

theorem namespace?_eq_some_iff {v : Value} (hv : v.Sorted) {items : List Item} : namespace? v =
    some items ↔ v = namespaceToJson items := by
  rw [namespaceToJson]
  cases hv with
  | null => simp [namespace?]
  | bool b => simp [namespace?]
  | number n => simp [namespace?]
  | string s => simp [namespace?]
  | array hvs => rw [namespace?, itemsOf?_eq_some_iff hvs, Value.array.injEq]
  | object _ _ => simp [namespace?]

theorem exists_namespace?_iff {v : Value} :
    (∃ items, namespace? v = some items) ↔ ∃ vs, v = .array vs ∧ ∀ w ∈ vs, ObjectOf .string w := by
  cases v <;> simp [namespace?, exists_itemsOf?_iff]

theorem increasing_namespace? {v : Value} {items : List Item} (hv : v.Sorted)
    (h : namespace? v = some items) : ∀ item ∈ items, Increasing item.entries := by
  obtain rfl := (namespace?_eq_some_iff hv).mp h
  intro item hitem
  cases hv with
  | array hvs => exact increasing_of_mapToJson (hvs _ (List.mem_map_of_mem hitem))

theorem isReserved_eq_false_iff {ns : Text} :
    isReserved ns = false ↔ ns ≠ valuesKey ∧ ns ≠ choicesKey := by
  rw [isReserved, Bool.or_eq_false_iff, decide_eq_false_iff_not, decide_eq_false_iff_not]

theorem mem_namespacesOf {ns : Text} {items : List Item} {ms : List (Text × Value)} :
    (ns, items) ∈ namespacesOf ms ↔
      isReserved ns = false ∧ ∃ v, (ns, v) ∈ ms ∧ namespace? v = some items := by
  rw [namespacesOf, List.mem_filterMap]
  constructor
  · rintro ⟨⟨name, v⟩, hm, h⟩
    dsimp only at h
    split at h
    · cases h
    · rename_i hname
      obtain ⟨_, hitems, heq⟩ := Option.map_eq_some_iff.mp h
      cases heq
      exact ⟨Bool.eq_false_iff.mpr hname, v, hm, hitems⟩
  · rintro ⟨hns, v, hm, hitems⟩
    refine ⟨(ns, v), hm, ?_⟩
    dsimp only
    rw [hns, hitems]
    rfl

theorem increasing_namespacesOf {ms : List (Text × Value)} (h : Increasing ms) :
    Increasing (namespacesOf ms) := by
  have hname : ∀ {name : Text} {v : Value} {p : Text × List Item},
      (if isReserved name = true then none
        else (namespace? v).map fun items => (name, items)) = some p → p.1 = name := by
    intro name v p hp
    split at hp
    · cases hp
    · obtain ⟨_, _, rfl⟩ := Option.map_eq_some_iff.mp hp
      rfl
  refine List.Pairwise.filterMap _ ?_ h
  intro m n hlt p hp q hq
  rw [hname hp, hname hq]
  exact hlt

theorem lookup_namespacesOf {ms : List (Text × Value)} (h : Increasing ms) (k : Text) :
    (namespacesOf ms).lookup k =
      if isReserved k then none else (ms.lookup k).bind namespace? := by
  apply Option.ext
  intro items
  rw [OrderedMap.lookup_eq_some_iff (Json.Value.nodup_of_increasing (increasing_namespacesOf h)),
    mem_namespacesOf]
  cases isReserved k with
  | true => exact iff_of_false (fun hk => nomatch hk.1) (fun hk => nomatch hk)
  | false =>
    rw [if_neg Bool.false_ne_true, Option.bind_eq_some_iff]
    simp only [true_and, OrderedMap.lookup_eq_some_iff (Json.Value.nodup_of_increasing h)]

end NoteTemplate.Answers
