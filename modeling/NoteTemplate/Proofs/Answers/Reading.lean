import NoteTemplate.Error
import NoteTemplate.Proofs.Answers.Members
import NoteTemplate.Proofs.Json.Printing

/-!
# Which texts are answers

A document of answers is any document whose `values` and `include`, if it has them, are objects of
the right kind. The members of other names are namespaces if they have the form of one, and are of
no influence if they have not.

* `Acceptable`: what is required of the members.
* `Holds`: what the answers have from the members.
* `ofText_spec`: which texts are read, what is read from them, and what makes no difference.
-/

namespace NoteTemplate.Answers

open Json (Value)
open Json.Value (Fits)

/-- What is required of the members of a document. No name but two is of any influence. -/
structure Acceptable (ms : List (Text × Value)) : Prop where
  values : ∀ v, (valuesKey, v) ∈ ms → ObjectOf .string v
  choices : ∀ v, (choicesKey, v) ∈ ms → ObjectOf .bool v

/-- The answers have what is in the members of a document, and nothing else. -/
structure Holds (a : Answers) (ms : List (Text × Value)) : Prop where
  values : ∀ name x, a.value? name = some x ↔
    ∃ ps, (valuesKey, .object ps) ∈ ms ∧ (name, .string x) ∈ ps
  choices : ∀ label b, a.choices.find? label = some b ↔
    ∃ ps, (choicesKey, .object ps) ∈ ms ∧ (label, .bool b) ∈ ps
  namespaces : ∀ ns, ns ∈ a.namespaces.keys ↔ ns ≠ valuesKey ∧ ns ≠ choicesKey ∧
    ∃ vs, (ns, .array vs) ∈ ms ∧ ∀ v ∈ vs, ObjectOf .string v
  items : ∀ ns items, a.namespaces.find? ns = some items →
    (ns, namespaceToJson items) ∈ ms

theorem holds_of_ofValue {ms : List (Text × Value)} (hms : (Value.object ms).Sorted) {a : Answers}
    (h : ofValue (.object ms) = .ok a) : a.Holds ms := by
  obtain ⟨hincreasing, hvalues⟩ := Json.Value.sorted_object_iff.mp hms
  rw [ofValue] at h
  split at h
  · cases h
  rename_i hchoices
  split at h
  · cases h
  rename_i htexts
  cases h
  have hentries := OrderedMap.entries_ofList
    (Json.Value.nodup_of_increasing (increasing_namespacesOf hincreasing))
  refine ⟨?_, ?_, fun ns => ?_, fun ns items hfound => ?_⟩
  · exact find?_mapOf text_eq_ok_iff hms htexts
  · exact find?_mapOf choice_eq_ok_iff hms hchoices
  · rw [OrderedMap.keys, hentries, List.mem_map, ← and_assoc, ← isReserved_eq_false_iff]
    constructor
    · rintro ⟨⟨_, items⟩, hp, rfl⟩
      obtain ⟨hns, v, hv, hitems⟩ := mem_namespacesOf.mp hp
      obtain ⟨vs, rfl, hvs⟩ := exists_namespace?_iff.mp ⟨items, hitems⟩
      exact ⟨hns, vs, hv, hvs⟩
    · rintro ⟨hns, vs, hmem, hvs⟩
      obtain ⟨items, hitems⟩ := exists_namespace?_iff.mpr ⟨vs, rfl, hvs⟩
      exact ⟨(ns, items), mem_namespacesOf.mpr ⟨hns, _, hmem, hitems⟩, rfl⟩
  · have hmem := OrderedMap.mem_of_find? hfound
    rw [hentries] at hmem
    obtain ⟨-, v, hv, hitems⟩ := mem_namespacesOf.mp hmem
    rw [← (namespace?_eq_some_iff (hvalues _ hv)).mp hitems]
    exact hv

theorem exists_ofValue_iff {v : Value} (hv : v.Sorted) :
    (∃ a, ofValue v = .ok a) ↔ ∃ ms, v = .object ms ∧ Acceptable ms := by
  cases hv with
  | null => simp [ofValue]
  | bool b => simp [ofValue]
  | number n => simp [ofValue]
  | string s => simp [ofValue]
  | array _ => simp [ofValue]
  | @object ms hms _ =>
    have htexts : (∃ m, mapOf text valuesKey ms = .ok m) ↔
        ∀ v, (valuesKey, v) ∈ ms → ObjectOf .string v :=
      exists_mapOf_iff text_eq_ok_iff hms
    have hchoices : (∃ m, mapOf choice choicesKey ms = .ok m) ↔
        ∀ v, (choicesKey, v) ∈ ms → ObjectOf .bool v :=
      exists_mapOf_iff choice_eq_ok_iff hms
    have hacceptable : Acceptable ms ↔ (∃ m, mapOf text valuesKey ms = .ok m) ∧
        ∃ m, mapOf choice choicesKey ms = .ok m := by
      rw [htexts, hchoices]
      exact ⟨fun h => ⟨h.1, h.2⟩, fun h => ⟨h.1, h.2⟩⟩
    simp only [Value.object.injEq, exists_eq_left', hacceptable, ofValue]
    cases mapOf text valuesKey ms <;> cases mapOf choice choicesKey ms <;> simp

/-! ## Documents -/

theorem isBlank_of_document {v : Value} {s : Text} (h : v.Document s) :
    Text.isBlank s = false := by
  obtain ⟨hbefore, ht, hafter⟩ := h
  obtain ⟨c, cs, rfl, hc, -⟩ := Json.Value.head_of_written ht
  have hhead : Text.isBlank (c :: cs) = false := by
    rw [Text.isBlank, List.all_cons, hc]
    rfl
  rw [Text.isBlank_append, Text.isBlank_append, hhead, Bool.and_false, Bool.false_and]

/-- A document is read as what its sorted form describes. -/
theorem ofText_of_document {v : Value} {s : Text} (h : v.Document s) :
    ofText s = (ofValue v.sorted).mapError .mismatch := by
  rw [ofText, isBlank_of_document h, if_neg Bool.false_ne_true,
    Json.Value.ofText_eq_ok_iff.mpr ⟨v, h, rfl⟩]
  dsimp only
  cases ofValue v.sorted <;> rfl

theorem exists_document_of_ofText {s : Text} {a : Answers} (hs : Text.isBlank s = false)
    (h : ofText s = .ok a) : ∃ v : Value, v.Document s ∧ ofValue v.sorted = .ok a := by
  rw [ofText, hs, if_neg Bool.false_ne_true] at h
  split at h
  · cases h
  rename_i hread
  split at h
  · cases h
  rename_i hvalue
  cases h
  obtain ⟨v, hv, rfl⟩ := Json.Value.ofText_eq_ok_iff.mp hread
  exact ⟨v, hv, hvalue⟩

theorem exists_ofText_iff {s : Text} (hs : Text.isBlank s = false) :
    (∃ a, ofText s = .ok a) ↔
      ∃ (v : Value) (ms : List (Text × Value)),
        v.Document s ∧ v.sorted = .object ms ∧ Acceptable ms := by
  constructor
  · rintro ⟨a, h⟩
    obtain ⟨v, hv, hvalue⟩ := exists_document_of_ofText hs h
    obtain ⟨ms, hms⟩ := (exists_ofValue_iff (Json.Value.sorted_sorted v)).mp ⟨a, hvalue⟩
    exact ⟨v, ms, hv, hms⟩
  · rintro ⟨v, ms, hv, hms⟩
    obtain ⟨a, h⟩ := (exists_ofValue_iff (Json.Value.sorted_sorted v)).mpr ⟨ms, hms⟩
    exact ⟨a, by rw [ofText_of_document hv, h]; rfl⟩

theorem exists_holds {v : Value} {s : Text} (hv : v.Document s) {a : Answers}
    (h : ofText s = .ok a) : ∃ ms, v.sorted = .object ms ∧ a.Holds ms := by
  have hvalue : ofValue v.sorted = .ok a := by
    rw [ofText_of_document hv] at h
    cases hread : ofValue v.sorted with
    | error m => rw [hread] at h; cases h
    | ok b => rw [hread] at h; cases h; rfl
  have hsorted := Json.Value.sorted_sorted v
  obtain ⟨ms, hms, -⟩ := (exists_ofValue_iff hsorted).mp ⟨a, hvalue⟩
  rw [hms] at hvalue hsorted
  exact ⟨ms, hms, holds_of_ofValue hsorted hvalue⟩

theorem exists_reason (e : ReadError) : ∃ reason, (Error.answers e.message).message =
    "Answers error: Failed to parse answers as JSON: " ++ reason ++ "." := by
  have hmessage : (Error.answers e.message).message = "Answers error: " ++ e.message ++ "." := rfl
  have hprefix : "Answers error: " ++ "Failed to parse answers as JSON: " =
      "Answers error: Failed to parse answers as JSON: " := by
    decide
  obtain ⟨reason, hreason⟩ :
      ∃ reason, e.message = "Failed to parse answers as JSON: " ++ reason := by
    cases e with
    | malformed fault s => exact ⟨_, rfl⟩
    | mismatch m => exact ⟨_, rfl⟩
  refine ⟨reason, ?_⟩
  rw [hmessage, hreason, ← String.append_assoc, hprefix]

/-- A blank text has no answers. Any other text is read if and only if it is a document whose
members are acceptable, of which the last one of a name counts; then the answers hold what is in
these members. If it is not read, the error says so. Neither the space in a document nor the order
of members with distinct names is of any influence. -/
theorem ofText_spec (s : Text) :
    (Text.isBlank s = true → ofText s = .ok empty) ∧
      (Text.isBlank s = false → ((∃ a, ofText s = .ok a) ↔
        ∃ (v : Value) (ms : List (Text × Value)),
          v.Document s ∧ v.sorted = .object ms ∧ Acceptable ms)) ∧
      (∀ e, ofText s = .error e → ∃ reason, (Error.answers e.message).message =
        "Answers error: Failed to parse answers as JSON: " ++ reason ++ ".") ∧
      (∀ (v : Value) (a : Answers), v.Document s → ofText s = .ok a →
        ∃ ms, v.sorted = .object ms ∧ a.Holds ms) ∧
      ∀ (v w : Value) (t : Text), v.Document s → w.Document t → v.Rearranged w →
        ofText t = ofText s := by
  refine ⟨fun hs => ?_, exists_ofText_iff, fun e _ => exists_reason e,
    fun v a hv h => exists_holds hv h, fun v w t hv hw h => ?_⟩
  · rw [ofText, if_pos hs]
  · rw [ofText_of_document hv, ofText_of_document hw, Json.Value.sorted_eq_of_rearranged h]

/-- A value, a member that is ignored, and a namespace. -/
def mixed : Value :=
  .object [(valuesKey, .object [(['x'], .string ['1'])]), (['n'], .array [.null]),
    (['r'], .array [.object [(['k'], .string ['v'])]])]

/-- The first two members have changed places. -/
def mixedRearranged : Value :=
  .object [(['n'], .array [.null]), (valuesKey, .object [(['x'], .string ['1'])]),
    (['r'], .array [.object [(['k'], .string ['v'])]])]

theorem ofText_spec_mixed :
    ofText [' ', '\u3000'] = .ok empty ∧
      (∃ a ms, ofText mixed.pretty = .ok a ∧ mixed.sorted = .object ms ∧ a.Holds ms) ∧
      ofText ([' '] ++ mixedRearranged.pretty ++ ['\n']) = ofText mixed.pretty ∧
      ∃ e reason, ofText ['x'] = .error e ∧ (Error.answers e.message).message =
        "Answers error: Failed to parse answers as JSON: " ++ reason ++ "." := by
  have hvalues : Fits 126 (.object [(['x'], .string ['1'])]) := .object (by simp [Fits.string])
  have hignored : Fits 126 (.array [.null]) := .array (by simp [Fits.null])
  have hitem : Fits 125 (.object [(['k'], .string ['v'])]) := .object (by simp [Fits.string])
  have hitems : Fits 126 (.array [.object [(['k'], .string ['v'])]]) := .array (by simp [hitem])
  have hmixed : mixed.Document mixed.pretty :=
    Json.Value.document_pretty (.object (by simp [hvalues, hignored, hitems]))
  have hrearranged : mixedRearranged.Document ([' '] ++ mixedRearranged.pretty ++ ['\n']) := by
    have hfits : Fits Value.maxDepth mixedRearranged :=
      .object (by simp [hvalues, hignored, hitems])
    exact Json.Value.document_append (Json.Value.document_pretty hfits)
      (by simp [Json.IsGap, Json.isSpace]) (by simp [Json.IsGap, Json.isSpace])
  have hacceptable : Acceptable [(['n'], .array [.null]),
      (['r'], .array [.object [(['k'], .string ['v'])]]),
      (valuesKey, .object [(['x'], .string ['1'])])] :=
    ⟨by simp [valuesKey, ObjectOf], by simp [valuesKey, choicesKey]⟩
  obtain ⟨a, ha⟩ := ((ofText_spec mixed.pretty).2.1 (isBlank_of_document hmixed)).mpr
    ⟨mixed, _, hmixed, rfl, hacceptable⟩
  obtain ⟨ms, hms, hholds⟩ := (ofText_spec mixed.pretty).2.2.2.1 mixed a hmixed ha
  refine ⟨(ofText_spec [' ', '\u3000']).1 (by decide), ⟨a, ms, ha, hms, hholds⟩, ?_, ?_⟩
  · exact (ofText_spec mixed.pretty).2.2.2.2 mixed _ _ hmixed hrearranged
      (.swap [] _ (by decide))
  · have herror : ofText ['x'] = .error (.malformed ⟨.expectedValue, ['x'], 1⟩ ['x']) := rfl
    obtain ⟨reason, hreason⟩ := (ofText_spec ['x']).2.2.1 _ herror
    exact ⟨_, reason, herror, hreason⟩

end NoteTemplate.Answers
