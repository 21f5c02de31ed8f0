import NoteTemplate.Catalog.Basic
import NoteTemplate.Proofs.OrderedMap

/-!
# Merged catalogs

A catalog that is merged into another overrides it, and every key keeps the place where it came in
first. So the grouping of catalogs does not matter while they are merged, only the order in which
their entries are given.

* `Catalog.Call`: the calls that change a catalog, and the entries that they give.
* `entries_run`: a sequence of calls inserts all that it gives, one after the other.
* `merge_monoid`: the laws of merging, and what a sequence of calls comes to.
-/

namespace NoteTemplate.Catalog

open OrderedMap (IsLast)

variable {c : Catalog} {key : Text} {entry : TemplateEntry}

/-! ## Entries of a merged catalog -/

theorem get_eq_ok_iff : c.get key = .ok entry ↔ c.entries.find? key = some entry := by
  rw [get, get?]
  cases c.entries.find? key <;> simp

theorem get_eq_error_iff :
    c.get key = .error (.templateNotFound key) ↔ c.entries.find? key = none := by
  rw [get, get?]
  cases c.entries.find? key <;> simp

theorem get_merge (a b : Catalog) (key : Text) :
    (a.merge b).get key = if key ∈ b.keys then b.get key else a.get key := by
  have hfind : (a.merge b).get? key = (b.get? key).or (a.get? key) :=
    a.entries.find?_merge b.entries key
  rw [get, get, hfind]
  by_cases hkey : key ∈ b.keys
  · obtain ⟨e, he⟩ := Option.isSome_iff_exists.mp (OrderedMap.mem_keys_iff.mp hkey)
    rw [if_pos hkey, get?, he, Option.some_or]
  · rw [if_neg hkey, get?, (OrderedMap.find?_eq_none_iff _ _).mpr hkey, Option.none_or, get]

/-! ## Sequences of calls -/

/-- A call that changes a catalog. -/
inductive Call
  | insert (key : Text) (entry : TemplateEntry)
  | merge (other : Catalog)

namespace Call

/-- The catalog after the call. -/
def apply (c : Catalog) : Call → Catalog
  | insert key entry => c.insert key entry
  | merge other => c.merge other

/-- The keys and entries that the call gives. -/
def given : Call → List (Text × TemplateEntry)
  | insert key entry => [(key, entry)]
  | merge other => other.entries.entries

theorem entries_apply (c : Catalog) (call : Call) :
    (call.apply c).entries = c.entries.insertAll call.given := by
  cases call with
  | insert key entry => rfl
  | merge other => rfl

end Call

/-- The catalog after the calls. -/
def run (c : Catalog) (calls : List Call) : Catalog := calls.foldl Call.apply c

/-- What a catalog holds at first, and then what the calls give. -/
def given (c : Catalog) (calls : List Call) : List (Text × TemplateEntry) :=
  c.entries.entries ++ calls.flatMap Call.given

theorem run_append (c : Catalog) (calls more : List Call) :
    c.run (calls ++ more) = (c.run calls).run more :=
  List.foldl_append

theorem entries_run_eq_insertAll (c : Catalog) (calls : List Call) :
    (c.run calls).entries = c.entries.insertAll (calls.flatMap Call.given) := by
  induction calls generalizing c with
  | nil => rfl
  | cons call calls ih =>
    show ((call.apply c).run calls).entries = _
    rw [ih, call.entries_apply, List.flatMap_cons, OrderedMap.insertAll_append]

/-- Whatever the calls, the catalog is the one made from all that was given. -/
theorem entries_run (c : Catalog) (calls : List Call) :
    (c.run calls).entries = OrderedMap.ofList (c.given calls) := by
  rw [entries_run_eq_insertAll, given, OrderedMap.ofList, OrderedMap.insertAll_append]
  congr 1
  exact (OrderedMap.ofList_entries c.entries).symm

/-- A key that has a place keeps it. -/
theorem keys_prefix_run (c : Catalog) (calls : List Call) : c.keys <+: (c.run calls).keys := by
  show c.entries.keys <+: (c.run calls).entries.keys
  rw [entries_run_eq_insertAll, OrderedMap.keys_insertAll, List.eraseDups_append,
    OrderedMap.eraseDups_of_nodup c.entries.nodup]
  exact List.prefix_append _ _

/-- The second of two merged catalogs overrides the first, and the keys that only it has come
behind those of the first. Merging is associative, the empty catalog is neutral, and a catalog
merged into itself stays as it is. After any sequence of calls a key has the entry that was given
last, at the place where the key was given first, where it stays; a key that was never given is
not found. -/
theorem merge_monoid (a b c : Catalog) :
    (∀ key, (a.merge b).get key = if key ∈ b.keys then b.get key else a.get key) ∧
    (a.merge b).keys = a.keys ++ b.keys.filter (· ∉ a.keys) ∧ (a.merge b).keys.Nodup ∧
    (a.merge b).merge c = a.merge (b.merge c) ∧
    empty.merge a = a ∧ a.merge empty = a ∧ a.merge a = a ∧
    ∀ calls : List Call,
      (∀ key entry, (a.run calls).get key = .ok entry ↔ IsLast (a.given calls) key entry) ∧
      (∀ key, (a.run calls).get key = .error (.templateNotFound key) ↔
        key ∉ (a.given calls).map Prod.fst) ∧
      (a.run calls).keys = ((a.given calls).map Prod.fst).eraseDups ∧
      ∀ more, (a.run calls).keys <+: (a.run (calls ++ more)).keys := by
  refine ⟨a.get_merge b, a.entries.keys_merge b.entries, (a.merge b).entries.nodup, ?_, ?_, ?_, ?_,
    fun calls => ⟨fun key entry => ?_, fun key => ?_, ?_, fun more => ?_⟩⟩
  · exact congrArg Catalog.mk (OrderedMap.merge_assoc a.entries b.entries c.entries)
  · exact congrArg Catalog.mk a.entries.empty_merge
  · exact congrArg Catalog.mk a.entries.merge_empty
  · exact congrArg Catalog.mk a.entries.merge_self
  · rw [get_eq_ok_iff, entries_run, OrderedMap.find?_ofList_eq_some_iff]
  · rw [get_eq_error_iff, entries_run, OrderedMap.find?_ofList_eq_none_iff]
  · rw [keys, entries_run, OrderedMap.keys_ofList]
  · rw [run_append]
    exact keys_prefix_run _ more

end NoteTemplate.Catalog
