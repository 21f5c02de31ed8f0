import Mathlib.Data.Nat.SuccPred
import NoteTemplate.Proofs.Answers.Writes
import NoteTemplate.Rendering

/-!
# The items of a section

To find the first free index of a variable, and to expand a section, indices are tried from 0
upward without a bound. Both loops end at the same index, so a section expands into one copy of its
text for each index below the first free one of its first variable.

* `LoopEnds`: a loop that is entered in one state ends in another.
* `loopEnds_iff`: a loop ends at the first state that fails its test.
* `Answers.items_expanded`: the count, the copies, and how the count grows.
-/

namespace NoteTemplate

/-! ## Loops -/

/-- The loop that makes rounds as long as the state passes the test, entered in one state, ends in
the other. -/
inductive LoopEnds {σ : Type} (test : σ → Bool) (round : σ → σ) : σ → σ → Prop
  | leave {s : σ} (h : test s = false) : LoopEnds test round s s
  | again {s t : σ} (h : test s = true) (rest : LoopEnds test round (round s) t) :
      LoopEnds test round s t

section

variable {σ : Type} {test : σ → Bool} {round : σ → σ}

theorem LoopEnds.unique {s t t' : σ} (h : LoopEnds test round s t)
    (h' : LoopEnds test round s t') : t' = t := by
  induction h with
  | leave hstop =>
    cases h' with
    | leave => rfl
    | again hgo => cases hstop.symm.trans hgo
  | again hgo _ ih =>
    cases h' with
    | leave hstop => cases hstop.symm.trans hgo
    | again _ hrest => exact ih hrest

theorem loopEnds_iterate {n : Nat} {s : σ} (hgo : ∀ k < n, test (round^[k] s) = true)
    (hstop : test (round^[n] s) = false) : LoopEnds test round s (round^[n] s) := by
  induction n generalizing s with
  | zero => exact .leave hstop
  | succ n ih =>
    refine .again (hgo 0 (Nat.zero_lt_succ n)) (ih (fun k hk => ?_) hstop)
    exact hgo (k + 1) (Nat.succ_lt_succ hk)

/-- The loop ends after as many rounds as there are states in a row that pass the test. -/
theorem loopEnds_iff {n : Nat} {s t : σ} (hgo : ∀ k < n, test (round^[k] s) = true)
    (hstop : test (round^[n] s) = false) : LoopEnds test round s t ↔ t = round^[n] s := by
  constructor
  · exact (loopEnds_iterate hgo hstop).unique
  · rintro rfl
    exact loopEnds_iterate hgo hstop

end

/-! ## Copies -/

namespace RepeatSection

/-- The items with the first `n` indices, one after the other. -/
def copies (s : RepeatSection) (v : Values) (ns : Text) (n : Nat) : Text :=
  (List.range n).flatMap (s.item v ns)

/-- A round of the expansion: the item at the index goes to the end of the text, and the next index
comes up. -/
def addItem (s : RepeatSection) (v : Values) (ns : Text) (state : Nat × Text) : Nat × Text :=
  (state.1 + 1, state.2 ++ s.item v ns state.1)

theorem iterate_addItem (s : RepeatSection) (v : Values) (ns : Text) (n : Nat) :
    (s.addItem v ns)^[n] (0, []) = (n, s.copies v ns n) := by
  induction n with
  | zero => rfl
  | succ n ih =>
    rw [Function.iterate_succ_apply', ih, addItem, copies, copies, List.range_succ,
      List.flatMap_append, List.flatMap_singleton]

/-- The text of a section, of whose first variable the answers have so many values in a row. -/
theorem expansion_toValues (s : RepeatSection) (a : Answers) (ns : Text) :
    s.expansion a.toValues ns =
      (s.first?.map fun first => s.copies a.toValues ns (a.nextFree ns first)).getD [] := by
  rw [expansion, itemCount]
  cases s.first? with
  | none => rfl
  | some first => exact congrArg (s.copies a.toValues ns) (a.itemCount_toValues ns first)

end RepeatSection

namespace Answers

theorem nextFree_le_length (a : Answers) (ns name : Text) :
    a.nextFree ns name ≤ ((a.namespaces.find? ns).map List.length).getD 0 := by
  rw [nextFree, items]
  cases a.namespaces.find? ns with
  | none => exact Nat.le_refl 0
  | some items => exact (List.takeWhile_prefix _).length_le

theorem loopEnds_nextFree (a : Answers) (ns name : Text) (n : Nat) :
    LoopEnds (fun i => a.hasItem ns i name) Nat.succ 0 n ↔ n = a.nextFree ns name := by
  have hcount (k : Nat) : Nat.succ^[k] 0 = k := by rw [Nat.succ_iterate, Nat.zero_add]
  have hends := @loopEnds_iff Nat (fun i => a.hasItem ns i name) Nat.succ (a.nextFree ns name) 0 n
  simp only [hcount] at hends
  exact hends (fun k hk => hasItem_of_lt_nextFree hk) (a.hasItem_nextFree ns name)

theorem loopEnds_copies (a : Answers) (ns : Text) (s : RepeatSection) (first : Text)
    (state : Nat × Text) :
    LoopEnds (fun state => a.toValues.hasItem ns state.1 first) (s.addItem a.toValues ns) (0, [])
        state ↔
      state = (a.nextFree ns first, s.copies a.toValues ns (a.nextFree ns first)) := by
  have hends := @loopEnds_iff _ (fun state => a.toValues.hasItem ns state.1 first)
    (s.addItem a.toValues ns) (a.nextFree ns first) (0, []) state
  simp only [RepeatSection.iterate_addItem] at hends
  exact hends (fun k hk => hasItem_of_lt_nextFree hk) (a.hasItem_nextFree ns first)

/-- The first free index of a variable is where counting ends, and where the expansion of a section
with this first variable ends. So a content is filled with that many copies for each section. No
sequence of writes makes the index smaller, and a write makes it larger if and only if it stores
the variable there. -/
theorem items_expanded (a : Answers) (ns : Text) :
    (∀ name, IsLeast {i | a.hasItem ns i name = false} (a.nextFree ns name) ∧
      a.nextFree ns name ≤ ((a.namespaces.find? ns).map List.length).getD 0 ∧
      ∀ n, LoopEnds (fun i => a.hasItem ns i name) Nat.succ 0 n ↔ n = a.nextFree ns name) ∧
    (∀ (s : RepeatSection) (first : Text) (state : Nat × Text),
      LoopEnds (fun state => a.toValues.hasItem ns state.1 first) (s.addItem a.toValues ns) (0, [])
          state ↔
        state = (a.nextFree ns first, s.copies a.toValues ns (a.nextFree ns first))) ∧
    (∀ c : Content, c.fill a.toValues ns =
      c.sections.foldl (fun t s => Text.replaceAll s.token
        ((s.first?.map fun first => s.copies a.toValues ns (a.nextFree ns first)).getD []) t)
        (c.substituted a.toValues)) ∧
    ∀ (ws : List Write) (name : Text), a.nextFree ns name ≤ (a.run ws).nextFree ns name ∧
      ∀ w : Write, (a.run ws).nextFree ns name < (a.run (ws ++ [w])).nextFree ns name ↔
        w.Stores (a.run ws) ns ((a.run ws).nextFree ns name) name := by
  refine ⟨fun name => ?_, a.loopEnds_copies ns, fun c => ?_, fun ws name => ?_⟩
  · exact ⟨a.isLeast_nextFree ns name, a.nextFree_le_length ns name, a.loopEnds_nextFree ns name⟩
  · simp only [Content.fill, RepeatSection.expansion_toValues]
  · refine ⟨a.nextFree_le_run ws ns name, fun w => ?_⟩
    rw [run_append]
    exact w.nextFree_lt_apply_iff

/-- Of two items that were set out of order the second is not reached, until the gap before it is
filled. -/
example :
    let a := (empty.setItem repeatNamespace 2 ['X'] ['3']).setItem repeatNamespace 0 ['X'] ['1']
    let b := a.pushItem [(['X'], ['4'])]
    a.nextFree repeatNamespace ['X'] = 1 ∧ b.nextFree repeatNamespace ['X'] = 1 ∧
      (b.setItem repeatNamespace 1 ['X'] ['2']).nextFree repeatNamespace ['X'] = 4 := by
  decide

end Answers

end NoteTemplate
