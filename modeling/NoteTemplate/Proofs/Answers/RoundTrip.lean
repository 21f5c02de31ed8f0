import NoteTemplate.Proofs.Answers.Members
import NoteTemplate.Proofs.Answers.Same
import NoteTemplate.Proofs.Interview.Transcript
import NoteTemplate.Proofs.Json.Printing

/-!
# Answers are written and read back

Written answers are read as the same answers, in the order of their names. Answers that were
read are in that order already.

* `Unreserved`: no namespace takes the place of the values or of the choices.
* `exists_reread`: written answers are read as the same answers.
* `sorted_unreserved_of_ofText`: answers that were read are sorted, and can be written.
* `ofText_toText`: writing and reading undo each other.
-/

namespace NoteTemplate.Answers

open Json (Value)
open Json.Value (Increasing sortMembers Fits)

/-- No namespace has the name of the member with the values or of that with the choices. -/
def Unreserved (a : Answers) : Prop := ∀ ns ∈ a.namespaces.keys, isReserved ns = false

/-! ## Maps -/

/-- The map with its pairs in the order of their names. -/
def byName {α : Type} (m : OrderedMap Text α) : OrderedMap Text α :=
  OrderedMap.ofList (sortMembers m.entries)

theorem lookup_map {α β : Type} (f : α → β) (k : Text) (ps : List (Text × α)) :
    (ps.map fun p => (p.1, f p.2)).lookup k = (ps.lookup k).map f := by
  induction ps with
  | nil => rfl
  | cons p ps ih =>
    rw [List.map_cons, OrderedMap.lookup_cons, OrderedMap.lookup_cons, ih]
    split <;> rfl

theorem lookup_sortMembers {α : Type} {ps : List (Text × α)} (h : (ps.map Prod.fst).Nodup)
    (k : Text) : (sortMembers ps).lookup k = ps.lookup k := by
  rw [Json.Value.lookup_sortMembers, OrderedMap.lookup_reverse h]

theorem find?_ofList {α : Type} {ps : List (Text × α)} (h : (ps.map Prod.fst).Nodup) (k : Text) :
    (OrderedMap.ofList ps).find? k = ps.lookup k := by
  rw [OrderedMap.find?, OrderedMap.entries_ofList h]

theorem find?_byName {α : Type} (m : OrderedMap Text α) : (byName m).find? = m.find? := by
  have hnodup := Json.Value.nodup_of_increasing (Json.Value.increasing_sortMembers m.entries)
  funext k
  rw [byName, find?_ofList hnodup, lookup_sortMembers m.nodup_keys, OrderedMap.find?]

section Kinds

variable {α : Type} {kind : Value → Except Json.Mismatch α} {toValue : α → Value}

theorem sorted_mapToJson (hsorted : ∀ x, (toValue x).sorted = toValue x)
    (m : OrderedMap Text α) : (mapToJson toValue m).sorted =
      .object ((sortMembers m.entries).map fun p => (p.1, toValue p.2)) := by
  have hmembers : (m.entries.map fun p => (p.1, toValue p.2)).map (fun q => (q.1, q.2.sorted)) =
      m.entries.map fun p => (p.1, toValue p.2) := by
    rw [List.map_map]
    exact List.map_congr_left fun p _ => by rw [Function.comp_apply, hsorted]
  rw [mapToJson, Value.sorted, Json.Value.sortedMembers_eq, hmembers, Json.Value.sortMembers_map]

theorem map_mapToJson (hkind : ∀ x, kind (toValue x) = .ok x)
    (hsorted : ∀ x, (toValue x).sorted = toValue x) (m : OrderedMap Text α) :
    map kind (mapToJson toValue m).sorted = .ok (byName m) := by
  rw [sorted_mapToJson hsorted, map, members_map hkind]
  rfl

/-- A map that is left out when it is empty is read back. -/
theorem mapOf_optional (hkind : ∀ x, kind (toValue x) = .ok x)
    (hsorted : ∀ x, (toValue x).sorted = toValue x) {name : Text} {ms : List (Text × Value)}
    {m : OrderedMap Text α} (h : ms.lookup name =
      if m.isEmpty then none else some (mapToJson toValue m).sorted) :
    ∃ n, mapOf kind name ms = .ok n ∧ n.find? = m.find? := by
  rw [mapOf, h]
  by_cases hempty : m.isEmpty = true
  · rw [if_pos hempty]
    refine ⟨∅, rfl, ?_⟩
    funext k
    rw [OrderedMap.find?, OrderedMap.find?, List.isEmpty_iff.mp hempty]
    rfl
  · rw [if_neg hempty]
    exact ⟨byName m, map_mapToJson hkind hsorted m, find?_byName m⟩

end Kinds

theorem text_string (s : Text) : text (.string s) = .ok s := rfl

theorem sorted_string (s : Text) : (Value.string s).sorted = .string s := rfl

theorem choice_bool (b : Bool) : choice (.bool b) = .ok b := rfl

theorem sorted_bool (b : Bool) : (Value.bool b).sorted = .bool b := rfl

theorem itemsOf?_map (items : List Item) :
    itemsOf? ((items.map (mapToJson .string)).map Value.sorted) = some (items.map byName) := by
  induction items with
  | nil => rfl
  | cons i is ih =>
    have hitem : map text (mapToJson .string i).sorted = .ok (byName i) :=
      map_mapToJson text_string sorted_string i
    rw [List.map_cons, List.map_cons, itemsOf?, hitem, ih]
    rfl

theorem found_byName (items : List Item) : found (items.map byName) = found items := by
  rw [found, found, List.map_map]
  exact List.map_congr_left fun i _ => find?_byName i

/-! ## Members of the document -/

/-- The members of the document of the answers. -/
def membersOf (a : Answers) : List (Text × Value) :=
  (if a.values.isEmpty then [] else [(valuesKey, mapToJson .string a.values)]) ++
    (if a.choices.isEmpty then [] else [(choicesKey, mapToJson .bool a.choices)]) ++
    a.namespaces.entries.map fun p => (p.1, namespaceToJson p.2)

theorem toJson_eq (a : Answers) : a.toJson = .object (membersOf a) := rfl

theorem lookup_optional (k name : Text) (v : Value) (left : Bool) :
    (if left then [] else [(name, v)]).lookup k =
      if left = false ∧ name = k then some v else none := by
  cases left <;> simp [OrderedMap.lookup_cons]

theorem lookup_namespaces (a : Answers) (k : Text) :
    (a.namespaces.entries.map fun p => (p.1, namespaceToJson p.2)).lookup k =
      (a.namespaces.find? k).map namespaceToJson :=
  lookup_map namespaceToJson k a.namespaces.entries

theorem lookup_membersOf (a : Answers) (k : Text) : (membersOf a).lookup k =
    ((if a.values.isEmpty = false ∧ valuesKey = k then some (mapToJson .string a.values)
      else none).or
      (if a.choices.isEmpty = false ∧ choicesKey = k then some (mapToJson .bool a.choices)
        else none)).or
      ((a.namespaces.find? k).map namespaceToJson) := by
  rw [membersOf, List.lookup_append, List.lookup_append, lookup_optional,
    lookup_optional, lookup_namespaces]

theorem find?_reserved {a : Answers} (h : a.Unreserved) {k : Text} (hk : isReserved k = true) :
    a.namespaces.find? k = none := by
  rw [OrderedMap.find?_eq_none_iff]
  intro hmem
  rw [h k hmem] at hk
  cases hk

theorem lookup_values {a : Answers} (h : a.Unreserved) : (membersOf a).lookup valuesKey =
    if a.values.isEmpty then none else some (mapToJson .string a.values) := by
  have hne : ¬ choicesKey = valuesKey := by decide
  rw [lookup_membersOf, find?_reserved h (by decide)]
  cases a.values.isEmpty <;> simp [hne]

theorem lookup_choices {a : Answers} (h : a.Unreserved) : (membersOf a).lookup choicesKey =
    if a.choices.isEmpty then none else some (mapToJson .bool a.choices) := by
  have hne : ¬ valuesKey = choicesKey := by decide
  rw [lookup_membersOf, find?_reserved h (by decide)]
  cases a.choices.isEmpty <;> simp [hne]

theorem lookup_unreserved (a : Answers) {k : Text} (hk : isReserved k = false) :
    (membersOf a).lookup k = (a.namespaces.find? k).map namespaceToJson := by
  rw [isReserved, Bool.or_eq_false_iff, decide_eq_false_iff_not, decide_eq_false_iff_not] at hk
  rw [lookup_membersOf, if_neg fun heq => hk.1 heq.2.symm, if_neg fun heq => hk.2 heq.2.symm]
  rfl

theorem nodup_membersOf {a : Answers} (h : a.Unreserved) : ((membersOf a).map Prod.fst).Nodup := by
  have hkeys : (a.namespaces.entries.map fun p => (p.1, namespaceToJson p.2)).map Prod.fst =
      a.namespaces.keys := by
    rw [List.map_map]
    rfl
  have hvalues : valuesKey ∉ a.namespaces.keys := by
    intro hmem
    have := h _ hmem
    cases this
  have hchoices : choicesKey ∉ a.namespaces.keys := by
    intro hmem
    have := h _ hmem
    cases this
  have hne : valuesKey ≠ choicesKey := by decide
  have hnodup : a.namespaces.keys.Nodup := a.namespaces.nodup_keys
  rw [membersOf, List.map_append, List.map_append, hkeys]
  cases a.values.isEmpty <;> cases a.choices.isEmpty <;>
    simp [hvalues, hchoices, hne, hnodup]

/-! ## Reading what was written -/

/-- The members of the document as they are read. -/
def readMembersOf (a : Answers) : List (Text × Value) :=
  sortMembers ((membersOf a).map fun m => (m.1, m.2.sorted))

theorem sorted_toJson (a : Answers) : a.toJson.sorted = .object (readMembersOf a) := by
  rw [toJson_eq, Value.sorted, Json.Value.sortedMembers_eq, readMembersOf]

theorem lookup_readMembersOf {a : Answers} (h : a.Unreserved) (k : Text) :
    (readMembersOf a).lookup k = ((membersOf a).lookup k).map Value.sorted := by
  have hkeys : (((membersOf a).map fun m => (m.1, m.2.sorted)).map Prod.fst).Nodup := by
    rw [List.map_map]
    exact nodup_membersOf h
  rw [readMembersOf, lookup_sortMembers hkeys, lookup_map]

theorem items_sorted (items : List Item) : namespace? (namespaceToJson items).sorted =
    some (items.map byName) := by
  rw [namespaceToJson, Value.sorted, Json.Value.sortedElements_eq]
  exact itemsOf?_map items

theorem exists_ofValue {a : Answers} (h : a.Unreserved) :
    ∃ b, ofValue a.toJson.sorted = .ok b ∧ a.same b = true := by
  let ms := readMembersOf a
  have hincreasing : Increasing ms := Json.Value.increasing_sortMembers _
  have hvalues : ms.lookup valuesKey =
      if a.values.isEmpty then none else some (mapToJson .string a.values).sorted := by
    rw [lookup_readMembersOf h, lookup_values h]
    cases a.values.isEmpty <;> rfl
  have hchoices : ms.lookup choicesKey =
      if a.choices.isEmpty then none else some (mapToJson .bool a.choices).sorted := by
    rw [lookup_readMembersOf h, lookup_choices h]
    cases a.choices.isEmpty <;> rfl
  obtain ⟨values, hread, hvalues⟩ := mapOf_optional text_string sorted_string hvalues
  obtain ⟨choices, hread', hchoices⟩ := mapOf_optional choice_bool sorted_bool hchoices
  refine ⟨⟨values, choices, OrderedMap.ofList (namespacesOf ms)⟩, ?_, ?_⟩
  · rw [sorted_toJson, ofValue, hread', hread]
  · refine same_iff.mpr ⟨hvalues.symm, hchoices.symm, fun ns => ?_⟩
    have hfind : (OrderedMap.ofList (namespacesOf ms)).find? ns =
        if isReserved ns then none else (ms.lookup ns).bind namespace? := by
      have hnodup := Json.Value.nodup_of_increasing (increasing_namespacesOf hincreasing)
      rw [find?_ofList hnodup, lookup_namespacesOf hincreasing]
    rw [hfind]
    cases hns : isReserved ns with
    | true =>
      rw [find?_reserved h hns]
      rfl
    | false =>
      rw [if_neg Bool.false_ne_true, lookup_readMembersOf h, lookup_unreserved a hns]
      cases a.namespaces.find? ns with
      | none => rfl
      | some items =>
        rw [Option.map_some, Option.map_some, Option.map_some, Option.bind_some, items_sorted,
          Option.map_some, found_byName]

theorem fits_mapToJson {α : Type} {toValue : α → Value} {depth : Nat}
    (h : ∀ x, Fits depth (toValue x)) (m : OrderedMap Text α) :
    Fits (depth + 1) (mapToJson toValue m) := by
  refine .object fun p hp => ?_
  obtain ⟨q, _, rfl⟩ := List.mem_map.mp hp
  exact h q.2

theorem fits_namespaceToJson (depth : Nat) (items : List Item) :
    Fits (depth + 2) (namespaceToJson items) := by
  refine .array fun v hv => ?_
  obtain ⟨item, _, rfl⟩ := List.mem_map.mp hv
  exact fits_mapToJson (.string depth) item

theorem fits_toJson (a : Answers) : Fits Json.Value.maxDepth a.toJson := by
  rw [toJson_eq]
  refine .object fun m hm => ?_
  rw [membersOf, List.mem_append, List.mem_append] at hm
  rcases hm with (hm | hm) | hm
  · split at hm
    · cases hm
    · obtain rfl := List.mem_singleton.mp hm
      exact fits_mapToJson (.string _) a.values
  · split at hm
    · cases hm
    · obtain rfl := List.mem_singleton.mp hm
      exact fits_mapToJson (.bool _) a.choices
  · obtain ⟨p, _, rfl⟩ := List.mem_map.mp hm
    exact fits_namespaceToJson _ p.2

theorem isBlank_toText (a : Answers) : Text.isBlank a.toText = false := by
  obtain ⟨body, hbody⟩ := Json.Value.exists_block 0 '{' '}'
    (Json.Value.indentedMembers 1 (membersOf a))
  have htext : a.toText = '{' :: body := hbody
  rw [htext]
  rfl

theorem exists_reread {a : Answers} (h : a.Unreserved) :
    ∃ b, ofText a.toText = .ok b ∧ a.same b = true := by
  obtain ⟨b, hb, hsame⟩ := exists_ofValue h
  refine ⟨b, ?_, hsame⟩
  have hread : Value.ofText a.toText = .ok a.toJson.sorted := Json.Value.ofText_pretty (fits_toJson a)
  rw [ofText, isBlank_toText, if_neg Bool.false_ne_true, hread]
  dsimp only
  rw [hb]

/-! ## Answers that were read -/

theorem sorted_unreserved_of_ofValue {v : Value} {a : Answers} (hv : v.Sorted)
    (h : ofValue v = .ok a) : a.Sorted ∧ a.Unreserved := by
  cases hv with
  | null => cases h
  | bool b => cases h
  | number n => cases h
  | string s => cases h
  | array hvs => cases h
  | @object ms hincreasing hms =>
    rw [ofValue] at h
    split at h
    · cases h
    rename_i hchoices
    split at h
    · cases h
    rename_i hvalues
    cases h
    have hnamespaces := increasing_namespacesOf hincreasing
    have hentries := OrderedMap.entries_ofList (Json.Value.nodup_of_increasing hnamespaces)
    refine ⟨⟨increasing_mapOf text_eq_ok_iff hms hvalues,
      increasing_mapOf choice_eq_ok_iff hms hchoices, ?_, ?_⟩, ?_⟩
    · rw [hentries]
      exact hnamespaces
    · rw [hentries]
      intro p hp
      obtain ⟨_, v, hv, hitems⟩ := mem_namespacesOf.mp hp
      exact increasing_namespace? (hms _ hv) hitems
    · intro ns hns
      rw [OrderedMap.keys, hentries, List.mem_map] at hns
      obtain ⟨p, hp, rfl⟩ := hns
      exact (mem_namespacesOf.mp hp).1

/-- Answers that were read are in the order of their names. -/
theorem sorted_unreserved_of_ofText {s : Text} {a : Answers} (h : ofText s = .ok a) :
    a.Sorted ∧ a.Unreserved := by
  rw [ofText] at h
  split at h
  · cases h
    refine ⟨⟨.nil, .nil, .nil, ?_⟩, ?_⟩
    · exact fun p hp => absurd hp List.not_mem_nil
    · exact fun ns hns => absurd hns List.not_mem_nil
  split at h
  · cases h
  rename_i hread
  split at h
  · cases h
  · rename_i hvalue
    cases h
    exact sorted_unreserved_of_ofValue (Json.Value.sorted_of_ofText hread) hvalue

theorem ofText_toText_of_ofText {s : Text} {a : Answers} (h : ofText s = .ok a) :
    ofText a.toText = .ok a := by
  obtain ⟨hsorted, hunreserved⟩ := sorted_unreserved_of_ofText h
  obtain ⟨b, hb, hsame⟩ := exists_reread hunreserved
  -- Both were read, so they are in the same order and being the same makes them equal.
  rw [hb, eq_of_same hsorted (sorted_unreserved_of_ofText hb).1 hsame]

/-! ## Answers of an interview -/

theorem unreserved_of_collect {r : Respondent} {d : Document} {a : Answers}
    (h : (Interview.collect r d).answers = .ok a) : a.Unreserved := by
  obtain ⟨t, _, rfl, _, _⟩ := Interview.exists_transcript h
  intro ns hns
  rcases Interview.namespaces_storeAll t with hkeys | hkeys
  · rw [hkeys] at hns
    cases hns
  · rw [hkeys, List.mem_singleton] at hns
    rw [hns]
    decide

/-! ## Round trip -/

/-- Written answers are read as the same answers, with which every document is assembled to the
same text. Answers that were read are read as themselves. Those from a text or from an interview
can be written. -/
theorem ofText_toText :
    (∀ a : Answers, a.Unreserved → ∃ b, ofText a.toText = .ok b ∧ a.same b = true ∧
        ∀ d : Document, d.assemble b.toValues = d.assemble a.toValues) ∧
      (∀ (s : Text) (a : Answers), ofText s = .ok a → a.Unreserved ∧ ofText a.toText = .ok a) ∧
      ∀ (r : Respondent) (d : Document) (a : Answers),
        (Interview.collect r d).answers = .ok a → a.Unreserved := by
  refine ⟨?_, ?_, ?_⟩
  · intro a ha
    obtain ⟨b, hb, hsame⟩ := exists_reread ha
    exact ⟨b, hb, hsame, fun d => by rw [toValues_of_same hsame]⟩
  · intro s a hs
    exact ⟨(sorted_unreserved_of_ofText hs).2, ofText_toText_of_ofText hs⟩
  · intro r d a h
    exact unreserved_of_collect h

/-- Names out of order, characters that are escaped, an empty item and an empty namespace. -/
def unsortedAnswers : Answers :=
  let a := ((((empty.setValue ['z', '"'] ['\\', '\x01', '\n']).setValue [] ['é']).setChoice ['y']
    false).setChoice ['x'] true).setItem repeatNamespace 1 ['k'] []
  { a with namespaces := a.namespaces.insert ['e'] [] }

theorem ofText_toText_unsortedAnswers :
    unsortedAnswers.Unreserved ∧ ∃ b, ofText unsortedAnswers.toText = .ok b ∧
      unsortedAnswers.same b = true ∧
      ∀ d : Document, d.assemble b.toValues = d.assemble unsortedAnswers.toValues := by
  have h : unsortedAnswers.Unreserved := by
    unfold Unreserved
    decide
  exact ⟨h, ofText_toText.1 unsortedAnswers h⟩

end NoteTemplate.Answers
