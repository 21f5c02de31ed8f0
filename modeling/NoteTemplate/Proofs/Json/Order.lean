import NoteTemplate.Proofs.Json.Grammar

/-!
# Values that are read are sorted

* `Value.sorted_of_ofText`: in a document that was read the members of all objects increase.
* `Value.sorted_eq_of_rearranged`: the order of members with distinct names is of no influence.
-/

namespace NoteTemplate.Json.Value

/-- The members of every object in the value increase. -/
inductive Sorted : Value → Prop
  | null : Sorted .null
  | bool (b : Bool) : Sorted (.bool b)
  | number (n : Number) : Sorted (.number n)
  | string (s : Text) : Sorted (.string s)
  | array {vs : List Value} : (∀ v ∈ vs, Sorted v) → Sorted (.array vs)
  | object {ms : List (Text × Value)} :
      Increasing ms → (∀ m ∈ ms, Sorted m.2) → Sorted (.object ms)

theorem sorted_object_iff {ms : List (Text × Value)} :
    Sorted (.object ms) ↔ Increasing ms ∧ ∀ m ∈ ms, Sorted m.2 :=
  ⟨fun h => by cases h with | object hms hvalues => exact ⟨hms, hvalues⟩,
    fun h => .object h.1 h.2⟩

mutual

theorem sorted_sorted : (v : Value) → Sorted v.sorted
  | .null => .null
  | .bool b => .bool b
  | .number n => .number n
  | .string s => .string s
  | .array vs => .array (sorted_sortedElements vs)
  | .object ms => .object (increasing_sortMembers _) fun m hm =>
      sorted_sortedMembers ms m (mem_of_mem_sortMembers hm)

theorem sorted_sortedElements : (vs : List Value) → ∀ v ∈ sortedElements vs, Sorted v
  | [], _, hv => absurd hv List.not_mem_nil
  | v :: vs, w, hw => by
    rcases List.mem_cons.mp hw with rfl | hw
    · exact sorted_sorted v
    · exact sorted_sortedElements vs w hw

theorem sorted_sortedMembers :
    (ms : List (Text × Value)) → ∀ m ∈ sortedMembers ms, Sorted m.2
  | [], _, hm => absurd hm List.not_mem_nil
  | (_, v) :: ms, n, hn => by
    rcases List.mem_cons.mp hn with rfl | hn
    · exact sorted_sorted v
    · exact sorted_sortedMembers ms n hn

end

theorem sorted_of_ofText {s : Text} {v : Value} (h : ofText s = .ok v) : Sorted v := by
  obtain ⟨u, -, rfl⟩ := ofText_eq_ok_iff.mp h
  exact sorted_sorted u

/-! ## The order of members -/

/-- The members of objects, wherever they are in the value, may have changed places with others
that have another name. -/
inductive Rearranged : Value → Value → Prop
  | refl (v : Value) : Rearranged v v
  | symm {v w : Value} : Rearranged v w → Rearranged w v
  | trans {u v w : Value} : Rearranged u v → Rearranged v w → Rearranged u w
  | element {v w : Value} (vs ws : List Value) : Rearranged v w →
      Rearranged (.array (vs ++ v :: ws)) (.array (vs ++ w :: ws))
  | member {v w : Value} (name : Text) (ms ns : List (Text × Value)) : Rearranged v w →
      Rearranged (.object (ms ++ (name, v) :: ns)) (.object (ms ++ (name, w) :: ns))
  | swap {m n : Text × Value} (ms ns : List (Text × Value)) : m.1 ≠ n.1 →
      Rearranged (.object (ms ++ m :: n :: ns)) (.object (ms ++ n :: m :: ns))

theorem sortMembers_swap {β : Type} {m n : Text × β} (h : m.1 ≠ n.1) (ms ns : List (Text × β)) :
    sortMembers (ms ++ m :: n :: ns) = sortMembers (ms ++ n :: m :: ns) := by
  refine eq_of_lookup (increasing_sortMembers _) (increasing_sortMembers _) fun k => ?_
  have hnodup : ([m, n].map Prod.fst).Nodup := by simp [h]
  have hpair : [n, m].lookup k = [m, n].lookup k :=
    OrderedMap.lookup_reverse hnodup k
  have hsplit (x y : Text × β) :
      (ms ++ x :: y :: ns).reverse = ns.reverse ++ ([y, x] ++ ms.reverse) := by
    simp
  rw [lookup_sortMembers, lookup_sortMembers, hsplit, hsplit]
  simp only [List.lookup_append, hpair]

/-- Rearranged values have the same sorted form. -/
theorem sorted_eq_of_rearranged {v w : Value} (h : Rearranged v w) : v.sorted = w.sorted := by
  induction h with
  | refl v => rfl
  | symm _ ih => exact ih.symm
  | trans _ _ ih ih' => exact ih.trans ih'
  | element vs ws _ ih =>
    rw [sorted, sorted, sortedElements_eq, sortedElements_eq, List.map_append, List.map_append,
      List.map_cons, List.map_cons, ih]
  | member name ms ns _ ih =>
    rw [sorted, sorted, sortedMembers_eq, sortedMembers_eq, List.map_append, List.map_append,
      List.map_cons, List.map_cons, ih]
  | swap ms ns hname =>
    rw [sorted, sorted, sortedMembers_eq, sortedMembers_eq, List.map_append, List.map_append,
      List.map_cons, List.map_cons, List.map_cons, List.map_cons]
    refine congrArg Value.object (sortMembers_swap ?_ _ _)
    exact hname

end NoteTemplate.Json.Value
