import NoteTemplate.Proofs.Interview.Transcript
import NoteTemplate.Proofs.Rendering.ItemLoop

/-!
# Items that are kept

All sections of a document put their items into one list, each at places that depend on its own
first variable, and sections may share variables. Nothing is lost by this: a place that is taken
stays as it is, so the places that are free of a variable only become fewer.

* `Answers.Kept`: every value of an item is still there; a transcript stores nothing that
  takes one away (`kept_storeAll`).
* `eachFollowed_onBlocks`: after each item that is wanted come the questions about it.
* `items_kept`: the items that are wanted go to places of their own, with the text that was
  typed for the first variable, and all of them are rendered.
-/

namespace NoteTemplate

namespace Answers

/-! ## Values that stay -/

/-- Every value of an item that `a` has, `b` has as well. -/
def Kept (a b : Answers) : Prop :=
  ∀ (ns : Text) (index : Nat) (name value : Text),
    a.item? ns index name = some value → b.item? ns index name = some value

theorem Kept.refl (a : Answers) : a.Kept a := fun _ _ _ _ h => h

theorem Kept.trans {a b c : Answers} (hab : a.Kept b) (hbc : b.Kept c) : a.Kept c :=
  fun ns index name value h => hbc ns index name value (hab ns index name value h)

theorem Kept.hasItem {a b : Answers} (h : a.Kept b) {ns : Text} {index : Nat} {name : Text}
    (hitem : a.hasItem ns index name = true) : b.hasItem ns index name = true := by
  obtain ⟨value, hvalue⟩ := Option.isSome_iff_exists.mp hitem
  exact Option.isSome_iff_exists.mpr ⟨value, h ns index name value hvalue⟩

theorem kept_setItemIfAbsent (a : Answers) (ns : Text) (index : Nat) (name value : Text) :
    a.Kept (a.setItemIfAbsent ns index name value).2 := by
  intro ns' j x v hv
  rw [item?_setItemIfAbsent, hv, Option.some_or]

end Answers

namespace Interview

theorem kept_store (a : Answers) (e : Exchange) : a.Kept (e.store a) := by
  cases e with
  | choice label wanted => exact .refl a
  | value name v => exact .refl a
  | more s wanted => exact .refl a
  | item s index name v => exact a.kept_setItemIfAbsent repeatNamespace index name v

/-- No value of an item is ever overwritten. -/
theorem kept_storeAll (a : Answers) (t : List Exchange) : a.Kept (storeAll a t) :=
  storeAll_invariant (fun b e h => h.trans (kept_store b e)) (.refl a) t

theorem item?_storeAll_cons (a : Answers) (s : RepeatSection) (index : Nat) (name value : Text)
    (t : List Exchange) : (storeAll a (.item s index name value :: t)).item? repeatNamespace index
      name = some ((a.item? repeatNamespace index name).getD value) := by
  refine kept_storeAll _ t _ _ _ _ ?_
  show (a.setItemIfAbsent repeatNamespace index name value).2.item? repeatNamespace index name = _
  rw [Answers.item?_setItemIfAbsent, if_pos ⟨rfl, rfl, rfl⟩]
  cases a.item? repeatNamespace index name <;> rfl

/-- A place that was free of a variable is taken for good once the variable is told for it. -/
theorem nextFree_lt (a : Answers) (s : RepeatSection) (name value : Text) (t : List Exchange) :
    a.nextFree repeatNamespace name <
      (storeAll a (.item s (a.nextFree repeatNamespace name) name value :: t)).nextFree
        repeatNamespace name := by
  refine Answers.lt_nextFree fun i hi => ?_
  rcases Nat.eq_or_lt_of_le hi with rfl | hlt
  · exact Option.isSome_of_eq_some (item?_storeAll_cons a s _ name value t)
  · exact (kept_storeAll a _).hasItem (Answers.hasItem_of_lt_nextFree hlt)

/-! ## Questions about an item that is wanted -/

/-- If the exchange says that an item is wanted, those that follow are about its variables, at
the first place that is free of the first one. -/
def Exchange.Followed (a : Answers) (after : List Exchange) : Exchange → Prop
  | .more s true => ∃ first, s.first? = some first ∧ ∃ item rest,
      OnItem s (a.nextFree repeatNamespace first) s.names item ∧ after = item ++ rest
  | _ => True

/-- Each item that is wanted is followed by the exchanges about its variables. -/
def EachFollowed : Answers → List Exchange → Prop
  | _, [] => True
  | a, e :: t => e.Followed a t ∧ EachFollowed (e.store a) t

theorem Exchange.Followed.append {a : Answers} {e : Exchange} {t : List Exchange}
    (h : e.Followed a t) (u : List Exchange) : e.Followed a (t ++ u) := by
  cases e with
  | choice label wanted => trivial
  | value name v => trivial
  | item s index name v => trivial
  | more s wanted =>
    cases wanted with
    | false => trivial
    | true =>
      obtain ⟨first, hfirst, item, rest, hitem, rfl⟩ := h
      exact ⟨first, hfirst, item, rest ++ u, hitem, List.append_assoc item rest u⟩

theorem EachFollowed.append {a : Answers} {t u : List Exchange} (ht : EachFollowed a t)
    (hu : EachFollowed (storeAll a t) u) : EachFollowed a (t ++ u) := by
  induction t generalizing a with
  | nil => exact hu
  | cons e t ih => exact ⟨ht.1.append u, ih ht.2 hu⟩

theorem EachFollowed.followed {a : Answers} {before after : List Exchange} {e : Exchange}
    (h : EachFollowed a (before ++ e :: after)) : e.Followed (storeAll a before) after := by
  induction before generalizing a with
  | nil => exact h.1
  | cons f before ih => exact ih h.2

theorem eachFollowed_onVariables {names : List Text} {a : Answers} {t : List Exchange}
    (h : OnVariables names a t) : EachFollowed a t := by
  induction h with
  | nil a => trivial
  | known _ _ ih => exact ih
  | asked value _ _ ih => exact ⟨trivial, ih⟩

theorem eachFollowed_onItem {s : RepeatSection} {index : Nat} {names : List Text}
    {t : List Exchange} (h : OnItem s index names t) (a : Answers) : EachFollowed a t := by
  induction h generalizing a with
  | nil => trivial
  | cons name value _ ih => exact ⟨trivial, ih _⟩

theorem eachFollowed_onItems {s : RepeatSection} {first : Text} {a : Answers}
    {t : List Exchange} (hfirst : s.first? = some first) (h : OnItems s first a t) :
    EachFollowed a t := by
  induction h with
  | enough a => exact ⟨trivial, trivial⟩
  | @another a t u hitem _ ih =>
    exact ⟨⟨first, hfirst, t, u, hitem, rfl⟩, (eachFollowed_onItem hitem a).append ih⟩

theorem eachFollowed_onSections {ss : List RepeatSection} {a : Answers} {t : List Exchange}
    (h : OnSections ss a t) : EachFollowed a t := by
  induction h with
  | nil a => trivial
  | none _ _ ih => exact ih
  | items hfirst hitems _ ih => exact (eachFollowed_onItems hfirst hitems).append ih

theorem eachFollowed_onContent {c : Content} {a : Answers} {t : List Exchange}
    (h : OnContent c a t) : EachFollowed a t := by
  obtain ⟨ht, hu⟩ := h
  exact (eachFollowed_onVariables ht).append (eachFollowed_onSections hu)

theorem eachFollowed_onBlock {b : Block} {a : Answers} {t : List Exchange} (h : OnBlock b a t) :
    EachFollowed a t := by
  cases h with
  | plain ht => exact eachFollowed_onContent ht
  | accepted ht => exact ⟨trivial, eachFollowed_onContent ht⟩
  | declined label c a => exact ⟨trivial, trivial⟩

theorem eachFollowed_onBlocks {bs : List Block} {a : Answers} {t : List Exchange}
    (h : OnBlocks bs a t) : EachFollowed a t := by
  induction h with
  | nil a => trivial
  | cons hblock _ ih => exact (eachFollowed_onBlock hblock).append ih

theorem OnItem.exists_first {s : RepeatSection} {index : Nat} {first : Text}
    {item : List Exchange} (h : OnItem s index s.names item) (hfirst : s.first? = some first) :
    ∃ value rest, item = .item s index first value :: rest := by
  obtain ⟨names, hnames⟩ := List.head?_eq_some_iff.mp hfirst
  rw [hnames] at h
  cases h with
  | cons name value h => exact ⟨value, _, rfl⟩

/-! ## Items of a run -/

/-- Where an item goes that is wanted after the exchanges. -/
def place (before : List Exchange) (first : Text) : Nat :=
  (storeAll .empty before).nextFree repeatNamespace first

/-- What becomes of an item of the section `s` that is wanted after the exchanges `before`. -/
structure ItemKept (s : RepeatSection) (first : Text) (before after : List Exchange)
    (a : Answers) : Prop where
  isFirst : s.first? = some first
  /-- the place is the least index that is free of the first variable -/
  isLeast : IsLeast {i | (storeAll .empty before).hasItem repeatNamespace i first = false}
    (place before first)
  /-- all its variables are asked for -/
  asked : ∃ item rest, OnItem s (place before first) s.names item ∧ after = item ++ rest
  /-- the text that is typed for the first variable is the one that is stored -/
  stored : ∃ value rest, after = .item s (place before first) first value :: rest ∧
    a.item? repeatNamespace (place before first) first = some value
  counted : place before first < a.nextFree repeatNamespace first
  /-- the text of the section goes on to the item at least -/
  rendered : (List.range (place before first + 1)).flatMap (s.item a.toValues repeatNamespace) <+:
    s.expansion a.toValues repeatNamespace

/-- What becomes of all items of a run. -/
structure ItemsKept (t : List Exchange) (a : Answers) : Prop where
  item : ∀ before s after, t = before ++ .more s true :: after →
    ∃ first, ItemKept s first before after a
  /-- later items go to larger indices -/
  increasing : ∀ before s between s' after first,
    t = before ++ .more s true :: (between ++ .more s' true :: after) →
    s.first? = some first → s'.first? = some first →
    place before first < place (before ++ .more s true :: between) first
  /-- a value is stored unless there is one in its place -/
  value : ∀ before s index name value after, t = before ++ .item s index name value :: after →
    a.item? repeatNamespace index name =
      some (((storeAll .empty before).item? repeatNamespace index name).getD value)
  /-- no value is overwritten -/
  kept : ∀ before between after, t = before ++ between ++ after →
    (storeAll .empty before).Kept (storeAll .empty (before ++ between))

theorem expansion_of_lt {s : RepeatSection} {first : Text} (hfirst : s.first? = some first)
    {a : Answers} {index : Nat} (h : index < a.nextFree repeatNamespace first) :
    (List.range (index + 1)).flatMap (s.item a.toValues repeatNamespace) <+:
      s.expansion a.toValues repeatNamespace := by
  obtain ⟨k, hk⟩ := Nat.exists_eq_add_of_le (show index + 1 ≤ _ from h)
  rw [s.expansion_toValues, hfirst, Option.map_some, Option.getD_some, RepeatSection.copies, hk,
    List.range_add (n := index + 1), List.flatMap_append]
  exact List.prefix_append _ _

theorem exists_first_after {before after : List Exchange} {s : RepeatSection} {first : Text}
    (h : EachFollowed .empty (before ++ .more s true :: after)) (hfirst : s.first? = some first) :
    ∃ value rest, after = .item s (place before first) first value :: rest := by
  obtain ⟨first', hfirst', item, rest, hitem, rfl⟩ := h.followed
  obtain rfl : first' = first := Option.some.inj (hfirst'.symm.trans hfirst)
  obtain ⟨value, others, rfl⟩ := hitem.exists_first hfirst
  exact ⟨value, others ++ rest, rfl⟩

theorem place_lt {before after : List Exchange} {s : RepeatSection} {first value : Text} :
    place before first < (storeAll .empty
      (before ++ .more s true :: .item s (place before first) first value :: after)).nextFree
        repeatNamespace first := by
  rw [storeAll_append]
  exact nextFree_lt (storeAll .empty before) s first value after

theorem itemKept {before after : List Exchange} {s : RepeatSection}
    (h : EachFollowed .empty (before ++ .more s true :: after)) :
    ∃ first, ItemKept s first before after
      (storeAll .empty (before ++ .more s true :: after)) := by
  obtain ⟨first, hfirst, hasked⟩ := h.followed
  obtain ⟨value, rest, rfl⟩ := exists_first_after h hfirst
  have hleast := (storeAll .empty before).isLeast_nextFree repeatNamespace first
  have habsent : (storeAll .empty before).item? repeatNamespace (place before first) first =
      none := Option.not_isSome_iff_eq_none.mp (Bool.eq_false_iff.mp hleast.1)
  have hstored := item?_storeAll_cons (storeAll .empty before) s (place before first) first value
    rest
  rw [habsent, Option.getD_none] at hstored
  refine ⟨first, hfirst, hleast, hasked, ⟨value, rest, rfl, ?_⟩, place_lt,
    expansion_of_lt hfirst place_lt⟩
  rw [storeAll_append]
  exact hstored

theorem place_increasing {before between after : List Exchange} {s s' : RepeatSection}
    {first : Text} (h : EachFollowed .empty
      (before ++ .more s true :: (between ++ .more s' true :: after)))
    (hfirst : s.first? = some first) :
    place before first < place (before ++ .more s true :: between) first := by
  obtain ⟨value, rest, hrest⟩ := exists_first_after h hfirst
  -- The questions about the first item come before the second item is wanted.
  cases between with
  | nil => cases hrest
  | cons e between =>
    cases hrest
    exact place_lt

/-- Every item that is wanted goes to a place of its own, which is free of the first variable
and larger than the places of earlier items. The text typed for the first variable is stored
there, each other one unless there is a value already, no value is ever overwritten, and all
items are rendered. -/
theorem items_kept {r : Respondent} {d : Document} {a : Answers}
    (h : (collect r d).answers = .ok a) : ∃ t, IsTranscript r d a t ∧ ItemsKept t a := by
  obtain ⟨t, ht⟩ := exists_transcript h
  refine ⟨t, ht, ?_⟩
  have hfollowed := eachFollowed_onBlocks ht.onBlocks
  rw [ht.answers]
  constructor
  · rintro before s after rfl
    exact itemKept hfollowed
  · rintro before s between s' after first rfl hfirst _
    exact place_increasing hfollowed hfirst
  · rintro before s index name value after rfl
    rw [storeAll_append]
    exact item?_storeAll_cons _ s index name value after
  · rintro before between after rfl
    rw [storeAll_append]
    exact kept_storeAll _ between

/-- Two sections with the variable `X`, which is the first one of `a` only. -/
def sharedVariable : Text :=
  Directive.written .repeated ⟨['a'], "[X]".toList⟩ ++
    Directive.written .repeated ⟨['b'], "[Y]/[X]".toList⟩

/-- One item of each section. -/
def twoItems : Respondent :=
  .scripted [.ofChoice true, .ofText ['1'], .ofChoice false,
    .ofChoice true, .ofText ['2'], .ofText ['3'], .ofChoice false]

/-- Both items go to the same place, where `X` has the text of the first one. -/
def twoItemsAnswers : Answers :=
  (Answers.empty.setItem repeatNamespace 0 ['X'] ['1']).setItem repeatNamespace 0 ['Y'] ['2']

theorem answers_twoItems :
    (collect twoItems (Document.parse sharedVariable)).answers = .ok twoItemsAnswers := by
  decide +kernel

theorem items_kept_sharedVariable :
    (collect twoItems (Document.parse sharedVariable)).answers = .ok twoItemsAnswers ∧
      ∃ t, IsTranscript twoItems (Document.parse sharedVariable) twoItemsAnswers t ∧
        ItemsKept t twoItemsAnswers :=
  ⟨answers_twoItems, items_kept answers_twoItems⟩

end Interview

end NoteTemplate
