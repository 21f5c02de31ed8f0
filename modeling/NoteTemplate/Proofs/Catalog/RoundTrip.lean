import NoteTemplate.Catalog.Format
import NoteTemplate.Proofs.Catalog.Merging
import NoteTemplate.Proofs.Json.Printing

/-!
# Catalogs that are written and read

A catalog is read from JSON in one pass, with no JSON value in between. So the reader is compared
with the grammar of JSON: from each text of a value it reads what the value stands for, up to the
end of that text.

* `readEntry_of_written`: an entry is read from every text of its JSON value.
* `ofJson_of_document`: so is a catalog, and a key that comes twice has its last entry.
* `ofText_compact`: a catalog that is printed without space is read as it was.
-/

namespace NoteTemplate

open Json (IsGap Value skipSpace skipSpace_append skipSpace_cons)
open Json.Value (Fits Written atEnd_of_isGap atomic_of_written document_compact)

/-- The fields that an entry is written with, under their names. -/
def TemplateEntry.fields (e : TemplateEntry) : List (Text × Catalog.Field) :=
  [("name".toList, .name e.name), ("subject_prefix".toList, .subjectPrefix e.subjectPrefix),
    ("source".toList, .source e.source)]

namespace Catalog

open OrderedMap (IsLast)

/-- The value of a field. -/
def Field.toJson : Field → Value
  | name value => .string value
  | subjectPrefix value => (value.map .string).getD .null
  | source value => .string value
  | other => .null

/-- Keys and entries as a JSON object, in the order in which they are listed. -/
def listed (ps : List (Text × TemplateEntry)) : Value :=
  .object (ps.map fun p => (p.1, p.2.toJson))

/-! ## Fields -/

/-- A string begins with a quotation mark, wherever it may be nested. -/
theorem skipSpace_string {depth : Nat} {gap s t : Text} (hgap : IsGap gap)
    (h : Written depth (.string s) t) (rest : Text) :
    ∃ u, skipSpace (gap ++ (t ++ rest)) = '"' :: (u ++ '"' :: rest) ∧ Json.Quoted.Spelled u s := by
  cases atomic_of_written h (fun _ hcompound => by cases hcompound) with
  | @string _ u hu =>
    refine ⟨u, ?_, hu⟩
    rw [skipSpace_append hgap, List.append_assoc]
    exact skipSpace_cons rfl _

theorem eq_of_written_null {depth : Nat} {t : Text} (h : Written depth .null t) :
    t = ['n', 'u', 'l', 'l'] := by
  cases atomic_of_written h (fun _ hcompound => by cases hcompound)
  rfl

theorem readString_of_written {depth : Nat} {gap s t : Text} (hgap : IsGap gap)
    (h : Written depth (.string s) t) (rest : Text) :
    readString (gap ++ (t ++ rest)) = .ok (s, rest) := by
  obtain ⟨u, hskip, hu⟩ := skipSpace_string hgap h rest
  rw [readString, hskip]
  exact Json.Quoted.read_of_spelled hu rest

theorem readOptional_of_written {depth : Nat} {gap t : Text} {p : Option Text} (hgap : IsGap gap)
    (h : Written depth ((p.map .string).getD .null) t) (rest : Text) :
    readOptional (gap ++ (t ++ rest)) = .ok (p, rest) := by
  cases p with
  | none =>
    obtain rfl := eq_of_written_null h
    rw [readOptional, skipSpace_append hgap]
    rfl
  | some s =>
    obtain ⟨u, hskip, hu⟩ := skipSpace_string hgap h rest
    have hread : readString ('"' :: (u ++ '"' :: rest)) = .ok (s, rest) := by
      rw [readString, skipSpace_cons rfl]
      exact Json.Quoted.read_of_spelled hu rest
    rw [readOptional, hskip]
    show (readString ('"' :: (u ++ '"' :: rest))).map _ = _
    rw [hread]
    rfl

theorem readField_of_written {depth : Nat} {e : TemplateEntry} {m : Text × Field}
    (hm : m ∈ e.fields) {gap t : Text} (hgap : IsGap gap) (h : Written depth m.2.toJson t)
    (rest : Text) : readField m.1 (gap ++ (t ++ rest)) = .ok (m.2, rest) := by
  simp only [TemplateEntry.fields, List.mem_cons, List.not_mem_nil, or_false] at hm
  rcases hm with rfl | rfl | rfl
  · have hkind : FieldKind.ofText "name".toList = .name := by decide
    rw [readField, hkind]
    simp only [readString_of_written hgap h rest]
    rfl
  · have hkind : FieldKind.ofText "subject_prefix".toList = .subjectPrefix := by decide
    rw [readField, hkind]
    simp only [readOptional_of_written hgap h rest]
    rfl
  · have hkind : FieldKind.ofText "source".toList = .source := by decide
    rw [readField, hkind]
    simp only [readString_of_written hgap h rest]
    rfl

/-! ## Entries -/

theorem toJson_entry (e : TemplateEntry) :
    e.toJson = .object (e.fields.map fun m => (m.1, m.2.toJson)) := rfl

theorem entryOf?_fields (e : TemplateEntry) : entryOf? (e.fields.map Prod.snd) = some e := rfl

/-- Behind the brace of an object its members are read, if each is read from its texts. -/
theorem read_members {α : Type} {depth : Nat} {toValue : Text × α → Value}
    {r : Text → Json.Read α} {ms : List (Text × α)} {gap t : Text}
    (hgap : IsGap gap) (h : Written (depth + 1) (.object (ms.map fun m => (m.1, toValue m))) t)
    (hr : ∀ m ∈ ms, ∀ gap t rest, IsGap gap → Written depth (toValue m) t →
      r m.1 (gap ++ (t ++ rest)) = .ok (m.2, rest)) (rest : Text) :
    ∃ cs, skipSpace (gap ++ (t ++ rest)) = '{' :: cs ∧
      (Json.members true r).read cs = .ok (ms, rest) := by
  rcases h with h | h
  · cases h
  cases h with
  | @object _ u hms =>
    refine ⟨u ++ '}' :: rest, ?_, ?_⟩
    · rw [skipSpace_append hgap, List.append_assoc]
      exact skipSpace_cons rfl _
    · have hmembers := Json.inside_map (Q := fun m t => (Json.members true r).Takes t m) hms
        fun m hm t ht =>
          Json.Value.takes_member (fun gap u rest hgap hu _ => hr m hm gap u rest hgap hu) ht
      have hread := Json.Sequence.read_of_inside (f := id) (Json.Value.closes_members true r)
        (fun m t ht => ht) hmembers rest
      rwa [List.map_id] at hread

theorem readEntry_of_written {depth : Nat} {e : TemplateEntry} {gap t : Text} (hgap : IsGap gap)
    (h : Written (depth + 1) e.toJson t) (rest : Text) :
    readEntry (gap ++ (t ++ rest)) = .ok (e, rest) := by
  rw [toJson_entry] at h
  obtain ⟨cs, hskip, hread⟩ := read_members hgap h
    (fun m hm gap t rest hgap ht => readField_of_written hm hgap ht rest) rest
  rw [readEntry, hskip]
  simp only [hread, entryOf?_fields]

/-! ## Catalogs -/

theorem toJson_eq_listed (c : Catalog) : c.toJson = listed c.entries.entries := rfl

/-- From each of its documents a list of keys and entries is read as the catalog made from it. -/
theorem ofJson_of_document {ps : List (Text × TemplateEntry)} {s : Text}
    (h : (listed ps).Document s) : ofJson s = .ok (ofList ps) := by
  -- The catalog is one level of nesting and its entries are another, which is less than allowed.
  cases h with
  | @document before t after hbefore ht hafter =>
    obtain ⟨cs, hskip, hread⟩ := read_members (r := fun _ => readEntry) hbefore ht
      (fun m _ gap t rest hgap ht => readEntry_of_written hgap ht rest) after
    rw [List.append_assoc, ofJson, hskip]
    simp only [hread, atEnd_of_isGap hafter]
    rfl

theorem ofText_of_document {ps : List (Text × TemplateEntry)} {s : Text}
    (h : (listed ps).Document s) : ofText s = .ok (ofList ps) := by
  rw [ofText, ofJson_of_document h]

theorem fits_field (depth : Nat) (f : Field) : Fits depth f.toJson := by
  rcases f with s | (_ | s) | s | _
  · exact .string depth s
  · exact .null depth
  · exact .string depth s
  · exact .string depth s
  · exact .null depth

theorem fits_entry (depth : Nat) (e : TemplateEntry) : Fits (depth + 1) e.toJson := by
  rw [toJson_entry]
  refine .object fun m hm => ?_
  obtain ⟨f, -, rfl⟩ := List.mem_map.mp hm
  exact fits_field depth f.2

theorem fits_listed (depth : Nat) (ps : List (Text × TemplateEntry)) :
    Fits (depth + 2) (listed ps) := by
  refine .object fun m hm => ?_
  obtain ⟨p, -, rfl⟩ := List.mem_map.mp hm
  exact fits_entry depth p.2

theorem foldl_insert (c : Catalog) (ps : List (Text × TemplateEntry)) :
    ps.foldl (fun c p => c.insert p.1 p.2) c = ⟨c.entries.insertAll ps⟩ := by
  induction ps generalizing c with
  | nil => rfl
  | cons p ps ih => exact ih (c.insert p.1 p.2)

/-- Keys and entries that are printed in the order in which they are listed are read as the catalog
into which they are inserted one after the other: a key has its last entry, at its first place. So
a catalog is read as it was printed. It is never read as anything else than JSON. -/
theorem ofText_compact :
    (∀ ps : List (Text × TemplateEntry),
      let c := ps.foldl (fun c p => c.insert p.1 p.2) empty
      ofJson (listed ps).compact = .ok c ∧ ofText (listed ps).compact = .ok c ∧
      (∀ key entry, c.get key = .ok entry ↔ IsLast ps key entry) ∧
      c.keys = (ps.map Prod.fst).eraseDups) ∧
    ∀ c : Catalog, ofJson c.toJson.compact = .ok c ∧ ofText c.toJson.compact = .ok c := by
  have hdocument (ps : List (Text × TemplateEntry)) : (listed ps).Document (listed ps).compact :=
    document_compact (fits_listed 125 ps)
  constructor
  · intro ps c
    have hc : c = ofList ps := foldl_insert empty ps
    rw [hc]
    refine ⟨ofJson_of_document (hdocument ps), ofText_of_document (hdocument ps), ?_, ?_⟩
    · intro key entry
      rw [get_eq_ok_iff]
      exact OrderedMap.find?_ofList_eq_some_iff
    · exact OrderedMap.keys_ofList ps
  · intro c
    have hc : ofList c.entries.entries = c := congrArg Catalog.mk c.entries.ofList_entries
    constructor
    · rw [toJson_eq_listed, ofJson_of_document (hdocument c.entries.entries), hc]
    · rw [toJson_eq_listed, ofText_of_document (hdocument c.entries.entries), hc]

end Catalog

end NoteTemplate
